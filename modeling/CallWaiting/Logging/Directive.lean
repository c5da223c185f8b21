import CallWaiting.Level

namespace CallWaiting.Logging

abbrev Threshold := Option Level

namespace Threshold

def admits (t : Threshold) (l : Level) : Bool :=
  match t with
  | some m => l.verbosity ≤ m.verbosity
  | none => false

def ofText? (s : String) : Option Threshold :=
  match Level.unsigned64? s.toList with
  | some 0 => some none
  | some _ => (Level.ofText? s).map some
  | none => if Level.capitals s = "OFF".toList then some none else (Level.ofText? s).map some

end Threshold

structure Directive where
  target : Option String
  threshold : Threshold
deriving DecidableEq

namespace Directive

def forAll (l : Level) : Directive :=
  ⟨none, some l⟩

def covers (d : Directive) (target : String) : Bool :=
  match d.target with
  | some t => t.toList.isPrefixOf target.toList
  | none => true

def specificity (d : Directive) : Nat :=
  match d.target with
  | some t => t.length + 1
  | none => 0

def isStart (c : Char) : Bool :=
  c.isAlphanum || c == '_' || c == '-' || c == ':'

def ofText? (s : String) : Option Directive :=
  let cs := s.toList
  let target := cs.takeWhile (· ≠ '=')
  if !cs.head?.any isStart || target.contains '[' then none
  else match cs.drop target.length with
    | [] =>
      match Threshold.ofText? s with
      | some t => some ⟨none, t⟩
      | none => some ⟨some s, some .trace⟩
    | [_] => some ⟨some (String.ofList target), some .trace⟩
    | _ :: level => (Threshold.ofText? (String.ofList level)).map (⟨some (String.ofList target), ·⟩)

def splitCommas : List Char → List (List Char)
  | [] => [[]]
  | ',' :: cs => [] :: splitCommas cs
  | c :: cs =>
    match splitCommas cs with
    | [] => [[c]]
    | piece :: pieces => (c :: piece) :: pieces

def listOfText (s : String) : List Directive :=
  (splitCommas s.toList).filterMap fun piece =>
    if piece = [] then none else ofText? (String.ofList piece)

end Directive

end CallWaiting.Logging
