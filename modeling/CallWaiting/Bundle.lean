import Std.Data.ExtTreeMap
import CallWaiting.Line
import CallWaiting.State
import CallWaiting.Sync

namespace CallWaiting

structure Bundle where
  services : Option (List Int32)
  syncType : Option Int32
  defaultEnabled : Option Bool
deriving DecidableEq

namespace Bundle

def callWaiting : Int32 := 0

def empty : Bundle := ⟨none, none, none⟩

def offering (enabled : Bool) : Bundle :=
  ⟨some [callWaiting], none, some enabled⟩

def withSync (b : Bundle) (s : Sync) : Bundle :=
  { b with syncType := some s.code }

def offers (b : Bundle) : Bool :=
  match b.services with
  | some services => services.contains callWaiting
  | none => false

def sync (b : Bundle) : Sync :=
  match b.syncType with
  | some c => .ofCode c
  | none => .none

def defaultState (b : Bundle) : State :=
  if b.offers then .ofEnabled (b.defaultEnabled.getD false) else .notSupported

end Bundle

structure Bundles where
  loaded : Std.ExtTreeMap Int32 Bundle

namespace Bundles

def empty : Bundles := ⟨∅⟩

def get? (bs : Bundles) (s : SubscriptionId) : Option Bundle :=
  bs.loaded[s.number]?

def install (bs : Bundles) (s : SubscriptionId) (b : Bundle) : Bundles :=
  ⟨bs.loaded.insert s.number b⟩

def remove (bs : Bundles) (s : SubscriptionId) : Bundles :=
  ⟨bs.loaded.erase s.number⟩

end Bundles

end CallWaiting
