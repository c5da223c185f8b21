import CallWaiting.Json.Basic

namespace CallWaiting.Json

inductive Token where
  | openBrace
  | closeBrace
  | openBracket
  | closeBracket
  | colon
  | comma
  | null
  | bool (value : Bool)
  | number (digits : Octets)
  | text (body : Octets)
deriving DecidableEq

namespace Token

/-- Where the scanner stands. Octets already read of an unfinished token are kept in reverse. -/
inductive Mode where
  | between
  | word (read : Octets)
  | number (read : Octets)
  | text (read : Octets)
  | escape (read : Octets)
  | hex (left : Nat) (read : Octets)

def isBlank (c : Char) : Bool :=
  c == ' ' || c == '\n' || c == '\t' || c == '\r'

def isNumberSign (c : Char) : Bool :=
  c.isDigit || c == '-' || c == '+' || c == '.' || c == 'e' || c == 'E'

def isHexDigit (c : Char) : Bool :=
  c.isDigit || ('a' ≤ c && c ≤ 'f') || ('A' ≤ c && c ≤ 'F')

def isTail (cs : Octets) : Bool :=
  let exponent : Octets → Bool
    | [] => true
    | c :: cs =>
      (c == 'e' || c == 'E') &&
        match cs with
        | '+' :: ds => ds ≠ [] && ds.all Char.isDigit
        | '-' :: ds => ds ≠ [] && ds.all Char.isDigit
        | ds => ds ≠ [] && ds.all Char.isDigit
  match cs with
  | '.' :: ds => ds.takeWhile Char.isDigit ≠ [] && exponent (ds.dropWhile Char.isDigit)
  | cs => exponent cs

def isUnsigned : Octets → Bool
  | '0' :: cs => isTail cs
  | cs => cs.takeWhile Char.isDigit ≠ [] && isTail (cs.dropWhile Char.isDigit)

def isNumber : Octets → Bool
  | '-' :: cs => isUnsigned cs
  | cs => isUnsigned cs

def ofWord : Octets → Option Token
  | ['n', 'u', 'l', 'l'] => some null
  | ['t', 'r', 'u', 'e'] => some (bool true)
  | ['f', 'a', 'l', 's', 'e'] => some (bool false)
  | _ => none

def ofNumber (digits : Octets) : Option Token :=
  if isNumber digits then some (number digits) else none

def start (c : Char) : Option (Mode × List Token) :=
  match c with
  | '{' => some (.between, [openBrace])
  | '}' => some (.between, [closeBrace])
  | '[' => some (.between, [openBracket])
  | ']' => some (.between, [closeBracket])
  | ':' => some (.between, [colon])
  | ',' => some (.between, [comma])
  | '"' => some (.text [], [])
  | c =>
    if isBlank c then some (.between, [])
    else if c.isDigit || c == '-' then some (.number [c], [])
    else if c.isLower then some (.word [c], [])
    else none

def finish (token : Option Token) (c : Char) : Option (Mode × List Token) := do
  let t ← token
  let (m, ts) ← start c
  return (m, t :: ts)

def step : Mode → Char → Option (Mode × List Token)
  | .between, c => start c
  | .word read, c =>
    if c.isLower then some (.word (c :: read), []) else finish (ofWord read.reverse) c
  | .number read, c =>
    if isNumberSign c then some (.number (c :: read), []) else finish (ofNumber read.reverse) c
  | .text read, c =>
    if c == '"' then some (.between, [text read.reverse])
    else if c == '\\' then some (.escape (c :: read), [])
    else if c.val < 0x20 then none
    else some (.text (c :: read), [])
  | .escape read, c =>
    if c == 'u' then some (.hex 4 (c :: read), [])
    else if ['"', '\\', '/', 'b', 'f', 'n', 'r', 't'].contains c then some (.text (c :: read), [])
    else none
  | .hex left read, c =>
    if isHexDigit c then
      some (if left ≤ 1 then .text (c :: read) else .hex (left - 1) (c :: read), [])
    else none

def last : Mode → Option (List Token)
  | .between => some []
  | .word read => (ofWord read.reverse).map ([·])
  | .number read => (ofNumber read.reverse).map ([·])
  | _ => none

def run : Mode → Octets → Option (List Token)
  | m, [] => last m
  | m, c :: cs => do
    let (m', ts) ← step m c
    return ts ++ (← run m' cs)

def scan (cs : Octets) : Option (List Token) :=
  run .between cs

end Token

end CallWaiting.Json
