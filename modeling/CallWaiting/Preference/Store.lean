import CallWaiting.Preference.File
import CallWaiting.Preference.Memory
import CallWaiting.Settings.Basic

namespace CallWaiting

namespace Preference

inductive Store where
  | memory (m : Memory)
  | file (f : File)

namespace Store

def get? (s : Store) (group : String) (k : Key) : Option Int32 :=
  match s with
  | memory m => m.get? group k
  | file f => f.get? group k

def get (s : Store) (group : String) (k : Key) (default : Int32) : Int32 :=
  (s.get? group k).getD default

def put (s : Store) (fs : FileSystem) (b : Batch) : FileSystem × Store × Except Error Unit :=
  match s with
  | memory m => (fs, memory (m.put b), .ok ())
  | file f =>
    let (fs', f', r) := f.put fs b
    (fs', file f', r)

end Store

end Preference

def Settings.openStore (s : Settings) (fs : FileSystem) : Except Error Preference.Store :=
  match s.storePath with
  | some path => (Preference.File.load fs ⟨path⟩).map .file
  | none => .ok (.memory .empty)

end CallWaiting
