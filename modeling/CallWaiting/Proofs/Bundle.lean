import Mathlib.Tactic.Lemma
import CallWaiting.Bundle

namespace CallWaiting

lemma Bundle.defaultState_ne {b : Bundle} (hb : b.offers = true) :
    b.defaultState ≠ .notSupported := by
  rw [defaultState, if_pos hb, State.ofEnabled]
  split <;> nofun

lemma State.ofEnabled_ne (enable : Bool) : ofEnabled enable ≠ notSupported := by
  cases enable <;> nofun

lemma State.merge_saved {d v : State} (hd : d ≠ notSupported) (hv : v ≠ notSupported) :
    merge d v false = v := by
  simp [merge, hd, hv]

lemma State.merge_merge (d v : State) : merge d (merge d v false) false = merge d v false := by
  cases d <;> cases v <;> rfl

lemma State.merge_ne {d : State} (hd : d ≠ notSupported) (v : State) :
    merge d v false ≠ notSupported := by
  by_cases hv : v = notSupported
  · simp [merge, hd, hv]
  · rw [merge_saved hd hv]
    exact hv

end CallWaiting
