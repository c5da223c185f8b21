import CallWaiting.FileSystem.Basic
import CallWaiting.Settings.Coercion
import CallWaiting.Settings.Environment
import CallWaiting.Settings.Format

namespace CallWaiting.Settings

/-- The file that a name stands for: the file of that very name, in the format that its extension
names; or else the first one there is when an extension is put behind the name. -/
def findFile? (fs : FileSystem) (p : FileSystem.Path) : Option (FileSystem.Path × Format) :=
  if fs.isFile p then (p.extension?.bind Format.ofExtension?).map (p, ·)
  else Format.all.findSome? fun (extension, format) =>
    ((p.addExtension? extension.toList).filter fs.isFile).map (·, format)

def dropMark (s : String) : String :=
  match s.toList with
  | '\ufeff' :: cs => String.ofList cs
  | _ => s

def fileLayer? (fs : FileSystem) (p : FileSystem.Path) : Option (List (String × Node)) := do
  let (p, format) ← findFile? fs p
  let content ← (fs.read p).toOption
  format.read? (dropMark (← String.fromUTF8? content))

def fileEntries? (fs : FileSystem) : Option FileSystem.Path → Option (List (String × Node))
  | none => some []
  | some p => fileLayer? fs p

def lay (tree : Node) (entries : List (String × Node)) : Node :=
  entries.foldl (fun tree (k, n) => tree.put (KeyPath.steps k) n) tree

def gather (file environment : List (String × Node)) : Node :=
  lay (lay (.table []) file) environment

structure Arrangement where
  order : List (String × Node) → List (String × Node)
  perm : ∀ es, (order es).Perm es

/-- What a load depends on besides the file and the environment. A layer is kept in an unordered table,
so that each load comes upon its entries in an order of its own. -/
structure Host where
  file : Arrangement
  environment : Arrangement
  capacity : Nat

namespace Host

def plain : Host := ⟨⟨id, .refl⟩, ⟨id, .refl⟩, Nat.pow 2 24⟩

def HasRoom (host : Host) (key : String) : Prop :=
  ∀ s ∈ KeyPath.steps key, s.reach ≤ host.capacity

instance (host : Host) (key : String) : Decidable (host.HasRoom key) :=
  inferInstanceAs (Decidable (∀ s ∈ KeyPath.steps key, s.reach ≤ host.capacity))

end Host

def ofTree (n : Node) : Except Error Settings :=
  match n.settings? with
  | some s => s.validate
  | none => .error (.settings .unreadable)

def ofLayers? (host : Host) (file environment : List (String × Node)) :
    Option (Except Error Settings) :=
  if ∀ e ∈ file ++ environment, host.HasRoom e.1 then
    some (ofTree (gather (host.file.order file) (host.environment.order environment)))
  else none

def load? (host : Host) (fs : FileSystem) (file : Option FileSystem.Path)
    (environment : List (String × String)) : Option (Except Error Settings) :=
  match fileEntries? fs file with
  | some entries => ofLayers? host entries (Environment.layer environment)
  | none => some (.error (.settings .unreadable))

/-- A load on the plain host, where settings that the program would stop at count as unreadable. -/
def load (fs : FileSystem) (file : Option FileSystem.Path) (environment : List (String × String)) :
    Except Error Settings :=
  (load? .plain fs file environment).getD (.error (.settings .unreadable))

end CallWaiting.Settings
