import Std.Data.ExtTreeMap
import CallWaiting.Preference.Key

namespace CallWaiting.Preference

structure Memory where
  values : Std.ExtTreeMap Address Int32
  batches : Nat

namespace Memory

def empty : Memory := ⟨∅, 0⟩

def get? (m : Memory) (group : String) (k : Key) : Option Int32 :=
  m.values[(⟨group, k⟩ : Address)]?

def put (m : Memory) (b : Batch) : Memory :=
  ⟨b.entries.foldl (fun vs (k, value) => vs.insert ⟨b.group, k⟩ value) m.values, m.batches + 1⟩

def size (m : Memory) : Nat :=
  m.values.size

end Memory

end CallWaiting.Preference
