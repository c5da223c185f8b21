import CallWaiting.Toml.Basic

namespace CallWaiting.Toml.Number

def grouped? (isDigit : Char → Bool) : List Char → Option (List Char)
  | [] => none
  | [c] => if isDigit c then some [c] else none
  | c :: '_' :: cs => if isDigit c then (grouped? isDigit cs).map (c :: ·) else none
  | c :: cs => if isDigit c then (grouped? isDigit cs).map (c :: ·) else none

def isBelow (base : Nat) (c : Char) : Bool :=
  match Numeral.hexDigit? c with
  | some n => n < base
  | none => false

def value (base : Nat) (cs : List Char) : Nat :=
  cs.foldl (fun n c => base * n + (Numeral.hexDigit? c).getD 0) 0

def inBase? (base : Nat) (cs : List Char) : Option Int :=
  (grouped? (isBelow base) cs).map fun ds => value base ds

def whole? (cs : List Char) : Option (List Char) :=
  match grouped? Char.isDigit cs with
  | some ('0' :: _ :: _) => none
  | ds => ds

def cutSign : List Char → Bool × List Char
  | '+' :: cs => (false, cs)
  | '-' :: cs => (true, cs)
  | cs => (false, cs)

def decimal? (cs : List Char) : Option Int :=
  let (negative, cs) := cutSign cs
  (whole? cs).map fun ds => if negative then -(value 10 ds : Int) else value 10 ds

def integer? (cs : List Char) : Option Int :=
  let i := match cs with
    | '0' :: 'x' :: cs => inBase? 16 cs
    | '0' :: 'o' :: cs => inBase? 8 cs
    | '0' :: 'b' :: cs => inBase? 2 cs
    | cs => decimal? cs
  i.filter Numeral.fits64

def isGroupSign (c : Char) : Bool :=
  c.isDigit || c == '_'

def isExponent : List Char → Bool
  | [] => false
  | c :: cs => (c == 'e' || c == 'E') && (grouped? Char.isDigit (cutSign cs).2).isSome

def isTail : List Char → Bool
  | '.' :: cs =>
    let rest := cs.dropWhile isGroupSign
    (grouped? Char.isDigit (cs.takeWhile isGroupSign)).isSome && (rest = [] || isExponent rest)
  | cs => isExponent cs

def isFloat (cs : List Char) : Bool :=
  let (_, cs) := cutSign cs
  (whole? (cs.takeWhile isGroupSign)).isSome && isTail (cs.dropWhile isGroupSign)

def word? (cs : List Char) : Option Double :=
  let (negative, cs) := cutSign cs
  if cs = ['i', 'n', 'f'] then some (.infinite negative)
  else if cs = ['n', 'a', 'n'] then some .nan
  else none

def admits (d : Dialect) : Double → Bool
  | .infinite negative => negative && d.lowOverflow
  | _ => true

def float? (d : Dialect) (cs : List Char) : Option Double :=
  match word? cs with
  | some x => some x
  | none =>
    if isFloat cs then
      ((Decimal.ofText? (cs.filter (· ≠ '_'))).map Double.ofDecimal).filter (admits d)
    else none

end CallWaiting.Toml.Number
