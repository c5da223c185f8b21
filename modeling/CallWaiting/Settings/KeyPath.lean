import CallWaiting.Settings.Node
import CallWaiting.Text.Numeral

/-!
Keys that are paths: names with dots between them, and indices in brackets. A key that is not
written like a path is one name.
-/

namespace CallWaiting.Settings.KeyPath

open Node (Step)

def isNameSign (c : Char) : Bool :=
  c.isAlphanum || c == '_' || c == '-'

def name? (cs : List Char) : Option (Step × List Char) :=
  if cs.takeWhile isNameSign = [] then none
  else some (.key (String.ofList (cs.takeWhile isNameSign)), cs.dropWhile isNameSign)

def isGap (c : Char) : Bool :=
  c == ' ' || c == '\t'

def isIndexSign (c : Char) : Bool :=
  c.isDigit || c == '-'

def index? (cs : List Char) : Option (Step × List Char) := do
  let cs := cs.dropWhile isGap
  match (cs.dropWhile isIndexSign).dropWhile isGap with
  | ']' :: rest =>
    let i ← Numeral.toInt? (cs.takeWhile isIndexSign)
    if Numeral.fits64 i then some (.index i, rest) else none
  | _ => none

def more? : Nat → List Char → Option (List Step)
  | _, [] => some []
  | 0, _ => none
  | n + 1, c :: cs => do
    let (s, rest) ← if c = '.' then name? cs else if c = '[' then index? cs else none
    some (s :: (← more? n rest))

def steps? (cs : List Char) : Option (List Step) := do
  let (s, rest) ← name? cs
  some (s :: (← more? rest.length rest))

def steps (key : String) : List Step :=
  (steps? key.toList).getD [.key key]

end CallWaiting.Settings.KeyPath
