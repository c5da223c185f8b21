import CallWaiting.Line

namespace CallWaiting.Preference

inductive Field where
  | lastSubscription
  | state
  | sync
deriving DecidableEq

namespace Field

def name : Field → String
  | lastSubscription => "subId"
  | state => "state"
  | sync => "cs_sync"

def ofName? (s : String) : Option Field :=
  [lastSubscription, state, sync].find? (·.name = s)

def rank : Field → Nat
  | lastSubscription => 0
  | state => 1
  | sync => 2

instance : Ord Field := ⟨compareOn rank⟩

instance : Std.TransOrd Field :=
  inferInstanceAs (Std.TransCmp (compareOn rank))

instance : Std.LawfulEqOrd Field where
  eq_of_compare {a b} := by cases a <;> cases b <;> decide

end Field

structure Key where
  field : Field
  scope : Int32
deriving DecidableEq

namespace Key

def lastSubscription (p : PhoneId) : Key := ⟨.lastSubscription, p.number⟩
def state (s : SubscriptionId) : Key := ⟨.state, s.number⟩
def sync (p : PhoneId) : Key := ⟨.sync, p.number⟩

def text (k : Key) : String :=
  k.field.name ++ Numeral.text k.scope.toInt

instance : Ord Key := ⟨compareLex (compareOn field) (compareOn scope)⟩

instance : Std.TransOrd Key :=
  inferInstanceAs (Std.TransCmp (compareLex (compareOn field) (compareOn scope)))

instance : Std.LawfulEqOrd Key where
  eq_of_compare {a b} h := by
    obtain ⟨hf, hs⟩ := Ordering.then_eq_eq.1 h
    cases a
    cases b
    exact congr (congrArg mk (Std.LawfulEqOrd.eq_of_compare hf)) (Std.LawfulEqOrd.eq_of_compare hs)

def sorted (ks : List Key) : List Key :=
  (ks.mergeSort fun a b => compare a b ≠ .gt).eraseReps

end Key

structure Address where
  group : String
  key : Key
deriving DecidableEq

namespace Address

instance : Ord Address := ⟨compareLex (compareOn group) (compareOn key)⟩

instance : Std.TransOrd Address :=
  inferInstanceAs (Std.TransCmp (compareLex (compareOn group) (compareOn key)))

instance : Std.LawfulEqOrd Address where
  eq_of_compare {a b} h := by
    obtain ⟨hg, hk⟩ := Ordering.then_eq_eq.1 h
    cases a
    cases b
    exact congr (congrArg mk (Std.LawfulEqOrd.eq_of_compare hg)) (Std.LawfulEqOrd.eq_of_compare hk)

end Address

def defaultGroup : String := "terminal_based_call_waiting"

structure Batch where
  group : String
  entries : List (Key × Int32)
deriving DecidableEq

end CallWaiting.Preference
