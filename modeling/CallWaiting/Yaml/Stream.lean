import CallWaiting.Yaml.Reader

namespace CallWaiting.Yaml

def unifyBreaks : List Char → List Char
  | '\r' :: '\n' :: cs => '\n' :: unifyBreaks cs
  | '\r' :: cs => '\n' :: unifyBreaks cs
  | c :: cs => c :: unifyBreaks cs
  | [] => []

def splitLines : List Char → List (List Char)
  | [] => [[]]
  | '\n' :: cs => [] :: splitLines cs
  | c :: cs =>
    match splitLines cs with
    | [] => [[c]]
    | l :: ls => (c :: l) :: ls

def isMarkLine (sign : Char) (line : List Char) : Bool :=
  line.take 3 = [sign, sign, sign] && endsWord (line.drop 3)

def isIdle (line : List Char) : Bool :=
  match line.dropWhile isBlank with
  | [] => true
  | '#' :: _ => true
  | _ => false

structure Document where
  marked : Bool
  text : List Char

def cut? (waiting : Bool) : Option Document → List (List Char) → Option (List Document)
  | none, [] => if waiting then none else some []
  | some d, [] => some [d]
  | none, l :: ls =>
    if isMarkLine '-' l then cut? false (some ⟨true, l.drop 3⟩) ls
    else if isMarkLine '.' l then
      if Block.isBare (l.drop 3) && !waiting then cut? false none ls else none
    else if l.head? = some '%' then cut? true none ls
    else if isIdle l then cut? waiting none ls
    else if waiting then none
    else cut? false (some ⟨false, l⟩) ls
  | some d, l :: ls =>
    if isMarkLine '-' l then (cut? false (some ⟨true, l.drop 3⟩) ls).map (d :: ·)
    else if isMarkLine '.' l then
      if Block.isBare (l.drop 3) then (cut? false none ls).map (d :: ·) else none
    else cut? false (some { d with text := d.text ++ '\n' :: l }) ls

def Document.node? (d : Document) : Option Yaml := do
  let start : Cursor :=
    if d.marked then ⟨d.text, 3, false, none, []⟩ else ⟨d.text, 0, true, none, []⟩
  let (y, c) ← blockNode? (-1) false (4 * d.text.length + 4) start
  if c.skip.rest = [] then some y else none

def read? (cs : List Char) : Option (List Yaml) := do
  (← cut? false none (splitLines (unifyBreaks cs))).mapM Document.node?

end CallWaiting.Yaml
