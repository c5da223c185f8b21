import Std.Data.ExtTreeMap
import CallWaiting.FileSystem.Fault
import CallWaiting.FileSystem.Path

/-!
A tree of files and directories under one root, which is also the working directory. Each entry
is found by the names that lead to it.
-/

namespace CallWaiting

namespace FileSystem

abbrev Location := List String

inductive Entry where
  | file (content : ByteArray)
  | directory

end FileSystem

structure FileSystem where
  entries : Std.ExtTreeMap FileSystem.Location FileSystem.Entry

namespace FileSystem

def empty : FileSystem := ⟨∅⟩

def entry? (fs : FileSystem) (l : Location) : Option Entry :=
  if l = [] then some .directory else fs.entries[l]?

def put (fs : FileSystem) (l : Location) (e : Entry) : FileSystem :=
  ⟨fs.entries.insert l e⟩

def isWithin (l above : Location) : Bool :=
  above.isPrefixOf l

def erase (fs : FileSystem) (l : Location) : FileSystem :=
  ⟨fs.entries.filter fun l' _ => !isWithin l' l⟩

def advance (fs : FileSystem) (l : Location) (part : String) : Except Fault Location :=
  match fs.entry? l with
  | none => .error .notFound
  | some (.file _) => .error .notDirectory
  | some .directory => .ok (if part = Path.up then l.dropLast else l ++ [part])

def walk (fs : FileSystem) : Location → List String → Except Fault Location
  | l, [] => .ok l
  | l, part :: parts => do walk fs (← fs.advance l part) parts

def locate (fs : FileSystem) (p : Path) : Except Fault Location :=
  if p.text = "" then .error .notFound else fs.walk [] p.parts

def read (fs : FileSystem) (p : Path) : Except Fault ByteArray := do
  match fs.entry? (← fs.locate p) with
  | none => .error .notFound
  | some .directory => .error .isDirectory
  | some (.file content) => if p.asksDirectory then .error .notDirectory else .ok content

def write (fs : FileSystem) (p : Path) (content : ByteArray) : Except Fault FileSystem := do
  let l ← fs.locate p
  match fs.entry? l with
  | some .directory => .error .isDirectory
  | some (.file _) => if p.asksDirectory then .error .notDirectory else .ok (fs.put l (.file content))
  | none => if p.asksDirectory then .error .isDirectory else .ok (fs.put l (.file content))

def makeDirectory (fs : FileSystem) (parts : List String) : Except Fault FileSystem := do
  let l ← fs.walk [] parts
  match fs.entry? l with
  | none => .ok (fs.put l .directory)
  | some .directory => .ok fs
  | some (.file _) => .error .alreadyThere

def makeAllAfter (fs : FileSystem) (done : List String) : List String → Except Fault FileSystem
  | [] => .ok fs
  | part :: parts => do
    (← fs.makeDirectory (done ++ [part])).makeAllAfter (done ++ [part]) parts

def makeAll (fs : FileSystem) (parts : List String) : Except Fault FileSystem :=
  fs.makeAllAfter [] parts

def rename (fs : FileSystem) (source target : Path) : Except Fault FileSystem := do
  let s ← fs.locate source
  let t ← fs.locate target
  match fs.entry? s, fs.entry? t with
  | none, _ => .error .notFound
  | some .directory, _ => .error .busy
  | some (.file _), some .directory =>
    if target.asksDirectory then .error .notDirectory else .error .isDirectory
  | some (.file content), _ =>
    if target.asksDirectory then .error .notDirectory
    else .ok ((fs.erase s).put t (.file content))

def remove (fs : FileSystem) (p : Path) : Except Fault FileSystem := do
  let l ← fs.locate p
  match fs.entry? l with
  | none => .error .notFound
  | some _ => .ok (fs.erase l)

def isFile (fs : FileSystem) (p : Path) : Bool :=
  match fs.read p with
  | .ok _ => true
  | .error _ => false

def line (l : Location) : Entry → String
  | .file _ => String.intercalate "/" l
  | .directory => String.intercalate "/" l ++ "/"

def list (fs : FileSystem) : List String :=
  (fs.entries.toList.map fun (l, e) => line l e).mergeSort (· ≤ ·)

end FileSystem

end CallWaiting
