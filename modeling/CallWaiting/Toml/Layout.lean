namespace CallWaiting.Toml

def isBlank (c : Char) : Bool :=
  c == ' ' || c == '\t'

def isPrintable (c : Char) : Bool :=
  c == '\t' || (' ' ≤ c && c ≠ '\x7f')

def dropBlanks (cs : List Char) : List Char :=
  cs.dropWhile isBlank

def newline? : List Char → Option (List Char)
  | '\n' :: cs => some cs
  | '\r' :: '\n' :: cs => some cs
  | _ => none

def dropComment : List Char → List Char
  | '#' :: cs => cs.dropWhile isPrintable
  | cs => cs

def lineEnd? (cs : List Char) : Option (List Char) :=
  match dropComment (dropBlanks cs) with
  | [] => some []
  | cs => newline? cs

def dropSpace : List Char → List Char
  | '\n' :: cs => dropSpace cs
  | '\r' :: '\n' :: cs => dropSpace cs
  | ' ' :: cs => dropSpace cs
  | '\t' :: cs => dropSpace cs
  | cs => cs

def dropLines (inside : Bool) : List Char → List Char
  | [] => []
  | '\n' :: cs => dropLines false cs
  | '\r' :: '\n' :: cs => dropLines false cs
  | c :: cs =>
    if inside then if isPrintable c then dropLines true cs else c :: cs
    else if isBlank c then dropLines false cs
    else if c == '#' then dropLines true cs
    else c :: cs

structure Brackets where
  close : Char
  skip : List Char → List Char
  lastComma : Bool

namespace Brackets

variable {α : Type} (item : List Char → Option (α × List Char))

def items (b : Brackets) : Nat → List Char → Option (List α × List Char)
  | 0, _ => none
  | n + 1, cs => do
    let (x, cs) ← item cs
    match b.skip cs with
    | [] => none
    | c :: cs =>
      if c = b.close then some ([x], cs)
      else if c = ',' then
        let cs := b.skip cs
        if b.lastComma ∧ cs.head? = some b.close then some ([x], cs.tail)
        else
          let (xs, cs) ← items b n cs
          some (x :: xs, cs)
      else none

def read? (b : Brackets) (cs : List Char) : Option (List α × List Char) :=
  let cs := b.skip cs
  if cs.head? = some b.close then some ([], cs.tail) else items item b cs.length cs

end Brackets

end CallWaiting.Toml
