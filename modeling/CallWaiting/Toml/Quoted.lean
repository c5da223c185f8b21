import CallWaiting.Toml.Basic
import CallWaiting.Toml.Layout

namespace CallWaiting.Toml.Quoted

def scalar? (count : Nat) (cs : List Char) : Option (Char × List Char) := do
  let values ← (cs.take count).mapM Numeral.hexDigit?
  let n := values.foldl (16 * · + ·) 0
  if values.length = count ∧ n.isValidChar then some (Char.ofNat n, cs.drop count) else none

def escape? (d : Dialect) : List Char → Option (Char × List Char)
  | 'b' :: cs => some ('\x08', cs)
  | 't' :: cs => some ('\t', cs)
  | 'n' :: cs => some ('\n', cs)
  | 'f' :: cs => some ('\x0c', cs)
  | 'r' :: cs => some ('\r', cs)
  | '"' :: cs => some ('"', cs)
  | '\\' :: cs => some ('\\', cs)
  | 'e' :: cs => if d.shortEscapes then some ('\x1b', cs) else none
  | 'x' :: cs => if d.shortEscapes then scalar? 2 cs else none
  | 'u' :: cs => scalar? 4 cs
  | 'U' :: cs => scalar? 8 cs
  | _ => none

def basic? (d : Dialect) : Nat → List Char → Option (List Char × List Char)
  | 0, _ => none
  | n + 1, cs =>
    match cs with
    | [] => none
    | '"' :: cs => some ([], cs)
    | '\\' :: cs => do
      let (c, cs) ← escape? d cs
      let (body, cs) ← basic? d n cs
      some (c :: body, cs)
    | c :: cs => do
      if isPrintable c then
        let (body, cs) ← basic? d n cs
        some (c :: body, cs)
      else none

def literal? (cs : List Char) : Option (List Char × List Char) :=
  let inside (c : Char) : Bool := isPrintable c && c ≠ '\''
  match cs.dropWhile inside with
  | '\'' :: rest => some (cs.takeWhile inside, rest)
  | _ => none

def continuation? (cs : List Char) : Option (List Char) :=
  (newline? (dropBlanks cs)).map dropSpace

/-- The rest of a text on several lines, of at most so many characters. Up to two quotes may stand
in front of the three that end it. -/
def lines? (d : Dialect) (quote : Char) : Nat → List Char → Option (List Char × List Char)
  | 0, _ => none
  | n + 1, cs => do
    let quotes := (cs.takeWhile (· = quote)).length
    if 3 ≤ quotes then
      some (List.replicate (min (quotes - 3) 2) quote, cs.drop (min quotes 5))
    else
      match newline? cs with
      | some cs =>
        let (body, cs) ← lines? d quote n cs
        some ('\n' :: body, cs)
      | none =>
        match cs with
        | [] => none
        | c :: cs =>
          if c = '\\' ∧ quote = '"' then
            match continuation? cs with
            | some cs => lines? d quote n cs
            | none =>
              let (c, cs) ← escape? d cs
              let (body, cs) ← lines? d quote n cs
              some (c :: body, cs)
          else if isPrintable c then
            let (body, cs) ← lines? d quote n cs
            some (c :: body, cs)
          else none

def single? (d : Dialect) : List Char → Option (List Char × List Char)
  | '"' :: cs => basic? d (cs.length + 1) cs
  | '\'' :: cs => literal? cs
  | _ => none

def several? (d : Dialect) (quote : Char) (cs : List Char) : Option (List Char × List Char) :=
  lines? d quote (cs.length + 1) ((newline? cs).getD cs)

def text? (d : Dialect) : List Char → Option (List Char × List Char)
  | '"' :: '"' :: '"' :: cs => several? d '"' cs
  | '\'' :: '\'' :: '\'' :: cs => several? d '\'' cs
  | cs => single? d cs

end CallWaiting.Toml.Quoted
