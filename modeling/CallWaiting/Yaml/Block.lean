import CallWaiting.Yaml.Plain

namespace CallWaiting.Yaml.Block

inductive Chomping where
  | strip
  | clip
  | keep
deriving DecidableEq

structure Header where
  folded : Bool
  chomping : Chomping
  indentation : Option Nat

def signs? (h : Header) : List Char → Option Header
  | [] => some h
  | c :: cs =>
    if (c = '+' ∨ c = '-') ∧ h.chomping = .clip then
      signs? { h with chomping := if c = '+' then .keep else .strip } cs
    else if '1' ≤ c ∧ c ≤ '9' ∧ h.indentation = none then
      signs? { h with indentation := some (c.toNat - '0'.toNat) } cs
    else none

def isBare (line : List Char) : Bool :=
  match line.dropWhile isBlank with
  | [] => true
  | '#' :: _ => isBlank (line.headD '#')
  | _ => false

def cutLine (cs : List Char) : List Char × List Char :=
  (cs.takeWhile (· ≠ '\n'), (cs.dropWhile (· ≠ '\n')).drop 1)

def spaces (line : List Char) : Nat :=
  (line.takeWhile (· = ' ')).length

def isEmptyLine (line : List Char) : Bool :=
  line.all (· = ' ')

def detected : Nat → List Char → Option Nat
  | 0, _ => none
  | _, [] => none
  | n + 1, cs =>
    let (line, rest) := cutLine cs
    if isEmptyLine line then detected n rest else some (spaces line)

def lines (indentation : Nat) : Nat → List Char → List (List Char) × List Char
  | 0, cs => ([], cs)
  | _, [] => ([], [])
  | n + 1, cs =>
    let (line, rest) := cutLine cs
    if isEmptyLine line ∨ indentation ≤ spaces line then
      let (ls, after) := lines indentation n rest
      (line.drop indentation :: ls, after)
    else ([], cs)

def isIndented (line : List Char) : Bool :=
  line.head?.any isBlank

def literal : List (List Char) → List Char
  | [] => []
  | [l] => l
  | l :: ls => l ++ '\n' :: literal ls

def foldAfter (last : List Char) (empty : Nat) : List (List Char) → List Char
  | [] => []
  | l :: ls =>
    if l = [] then foldAfter last (empty + 1) ls
    else
      let breaks :=
        if isIndented last || isIndented l then List.replicate (empty + 1) '\n'
        else Plain.joint (empty + 1)
      breaks ++ l ++ foldAfter l 0 ls

def folded : List (List Char) → List Char
  | [] => []
  | l :: ls => if l = [] then '\n' :: folded ls else l ++ foldAfter l 0 ls

def text (h : Header) (ls : List (List Char)) : List Char :=
  let kept := (ls.reverse.dropWhile List.isEmpty).reverse
  let after := ls.length - kept.length
  let body := if h.folded then folded kept else literal kept
  match h.chomping with
  | .strip => body
  | .clip => if kept = [] then [] else body ++ ['\n']
  | .keep => if kept = [] then List.replicate after '\n' else body ++ List.replicate (after + 1) '\n'

def read? (indent : Int) (c : Cursor) : Option (List Char × Cursor) := do
  let (line, rest) := cutLine c.rest
  match line with
  | mark :: line =>
    let h ← signs? ⟨mark = '>', .clip, none⟩ (line.takeWhile (!isBlank ·))
    if isBare (line.dropWhile (!isBlank ·)) then
      let parent := indent.toNat
      let least := (indent + 1).toNat
      let indentation := match h.indentation with
        | some n => parent + n
        | none => max least ((detected (rest.length + 1) rest).getD 0)
      let (ls, after) := lines indentation (rest.length + 1) rest
      some (text h ls, c.nextLine after)
    else none
  | [] => none

end CallWaiting.Yaml.Block
