namespace CallWaiting.FileSystem

structure Path where
  text : String
deriving DecidableEq

namespace Path

def split : List Char → List (List Char)
  | [] => [[]]
  | '/' :: cs => [] :: split cs
  | c :: cs =>
    match split cs with
    | [] => [[c]]
    | piece :: pieces => (c :: piece) :: pieces

def parts (p : Path) : List String :=
  ((split p.text.toList).filter fun piece => piece ≠ [] && piece ≠ ['.']).map String.ofList

def up : String := ".."

def asksDirectory (p : Path) : Bool :=
  match (split p.text.toList).getLast? with
  | some [] => true
  | some ['.'] => true
  | _ => false

def hasRise (p : Path) : Bool :=
  p.parts.contains up

def dropEmptyReversed : List Char → List Char
  | '/' :: cs => dropEmptyReversed cs
  | '.' :: '/' :: cs => dropEmptyReversed ('/' :: cs)
  | cs => cs

def trimmed (p : Path) : List Char :=
  (dropEmptyReversed p.text.toList.reverse).reverse

def cut (cs : List Char) : List Char × List Char :=
  ((cs.reverse.dropWhile (· ≠ '/')).reverse, (cs.reverse.takeWhile (· ≠ '/')).reverse)

def fileName? (p : Path) : Option (List Char × List Char) :=
  let (front, name) := cut p.trimmed
  if name = [] ∨ name = ['.'] ∨ name = ['.', '.'] then none else some (front, name)

/-- A file name cut at its last dot. A dot at the front does not count. -/
def cutName (name : List Char) : List Char × Option (List Char) :=
  let extension := (name.reverse.takeWhile (· ≠ '.')).reverse
  let stem := (name.reverse.dropWhile (· ≠ '.')).drop 1 |>.reverse
  if stem = [] then (name, none) else (stem, some extension)

def extension? (p : Path) : Option (List Char) :=
  p.fileName?.bind fun (_, name) => (cutName name).2

def putExtension (p : Path) (extension : List Char) : Path :=
  match p.fileName? with
  | some (front, name) => ⟨String.ofList (front ++ (cutName name).1 ++ '.' :: extension)⟩
  | none => p

/-- The path with another extension. The old one is cut off the end of the text first. -/
def withExtension (p : Path) (extension : List Char) : Path :=
  match p.extension? with
  | some old => putExtension ⟨String.ofList (p.text.toList.take (p.text.length - old.length))⟩ extension
  | none => putExtension p extension

def addExtension? (p : Path) (extension : List Char) : Option Path :=
  p.fileName?.map fun (front, name) => ⟨String.ofList (front ++ name ++ '.' :: extension)⟩

end Path

end CallWaiting.FileSystem
