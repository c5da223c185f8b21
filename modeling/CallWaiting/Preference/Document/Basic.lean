import Std.Data.ExtTreeMap
import CallWaiting.Preference.Key

namespace CallWaiting.Preference

abbrev Scopes := Std.ExtTreeMap Int32 Int32

abbrev Fields := Std.ExtTreeMap Field Scopes

structure Document where
  groups : Std.ExtTreeMap String Fields

namespace Document

def empty : Document := ⟨∅⟩

def get? (d : Document) (group : String) (k : Key) : Option Int32 := do
  let fields ← d.groups[group]?
  let scopes ← fields[k.field]?
  scopes[k.scope]?

def insert (d : Document) (group : String) (k : Key) (value : Int32) : Document :=
  let fields := (d.groups[group]?).getD ∅
  let scopes := (fields[k.field]?).getD ∅
  ⟨d.groups.insert group (fields.insert k.field (scopes.insert k.scope value))⟩

def apply (d : Document) (b : Batch) : Document :=
  b.entries.foldl (fun d (k, value) => d.insert b.group k value) d

end Document

end CallWaiting.Preference
