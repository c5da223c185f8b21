import CallWaiting.Proofs.Bundle
import CallWaiting.Proofs.Controller.Course

namespace CallWaiting

namespace Bundle

variable {b : Bundle} {stored : Option Int32} {enforced : Bool} {state : State}

/-- A stored number that stands for no choice of the user counts as none. -/
inductive Prescribes (b : Bundle) (stored : Option Int32) : Bool → State → Prop
  | enforced : Prescribes b stored true b.defaultState
  | withheld (ho : ∀ services ∈ b.services, callWaiting ∉ services) :
    Prescribes b stored false .notSupported
  | off (ho : ∃ services ∈ b.services, callWaiting ∈ services) (hs : stored = some 0) :
    Prescribes b stored false .notActivated
  | on (ho : ∃ services ∈ b.services, callWaiting ∈ services) (hs : stored = some 1) :
    Prescribes b stored false .activated
  | unset (ho : ∃ services ∈ b.services, callWaiting ∈ services) (h₀ : stored ≠ some 0)
    (h₁ : stored ≠ some 1) : Prescribes b stored false b.defaultState

lemma offers_iff : b.offers = true ↔ ∃ services ∈ b.services, callWaiting ∈ services := by
  rw [offers]
  cases b.services <;> simp

lemma defaultState_of_not_offers (ho : b.offers ≠ true) : b.defaultState = .notSupported := by
  rw [defaultState, if_neg ho]

lemma ofCode_of_unset (h₀ : stored ≠ some 0) (h₁ : stored ≠ some 1) :
    State.ofCode (stored.getD State.notSupported.code) = .notSupported := by
  cases stored with
  | none => rfl
  | some n =>
    have hn₀ : n ≠ 0 := fun h => h₀ (congrArg some h)
    have hn₁ : n ≠ 1 := fun h => h₁ (congrArg some h)
    rw [Option.getD_some, State.ofCode, if_neg hn₀, if_neg hn₁]

lemma Prescribes.eq (h : b.Prescribes stored enforced state) :
    state = .merge b.defaultState (.ofCode (stored.getD State.notSupported.code)) enforced := by
  cases h with
  | enforced => rfl
  | withheld ho =>
    have hd : b.defaultState = .notSupported :=
      defaultState_of_not_offers fun h => by
        obtain ⟨services, hs, hm⟩ := offers_iff.1 h
        exact ho services hs hm
    simp [State.merge, hd]
  | off ho hs =>
    have hn : State.notActivated ≠ .notSupported := by decide
    rw [hs]
    exact (State.merge_saved (defaultState_ne (offers_iff.2 ho)) hn).symm
  | on ho hs =>
    have hn : State.activated ≠ .notSupported := by decide
    rw [hs]
    exact (State.merge_saved (defaultState_ne (offers_iff.2 ho)) hn).symm
  | unset ho h₀ h₁ => simp [ofCode_of_unset h₀ h₁, State.merge, defaultState_ne (offers_iff.2 ho)]

lemma exists_prescribes (b : Bundle) (stored : Option Int32) (enforced : Bool) :
    ∃ state, b.Prescribes stored enforced state := by
  cases enforced with
  | true => exact ⟨_, .enforced⟩
  | false =>
    by_cases ho : ∃ services ∈ b.services, callWaiting ∈ services
    · by_cases h₀ : stored = some 0
      · exact ⟨_, .off ho h₀⟩
      · by_cases h₁ : stored = some 1
        · exact ⟨_, .on ho h₁⟩
        · exact ⟨_, .unset ho h₀ h₁⟩
    · exact ⟨_, .withheld fun services hs hm => ho ⟨services, hs, hm⟩⟩

lemma prescribes_iff : b.Prescribes stored enforced state ↔
    state = .merge b.defaultState (.ofCode (stored.getD State.notSupported.code)) enforced := by
  refine ⟨Prescribes.eq, fun h => ?_⟩
  obtain ⟨state', h'⟩ := exists_prescribes b stored enforced
  rwa [h, ← h'.eq]

end Bundle

namespace Controller

/-- Whatever the controller had in mind, whatever is stored and whatever becomes of the batch: an update
that is not broken off leaves the controller with what the bundle prescribes for the subscription that it
is for, under the subscription of the phone. -/
theorem update_prescribed (env : Surroundings) (c : Controller) (s : SubscriptionId) (b : Bundle)
    (enforced : Bool) :
    ∃ state, (∀ x, b.Prescribes (env.saved c.group (.state s)) enforced x ↔ x = state) ∧
      let batch : Preference.Batch := ⟨c.group,
        [(⟨.lastSubscription, env.phone.number⟩, env.subscription.number),
          (⟨.state, env.subscription.number⟩, state.code), (⟨.sync, env.phone.number⟩, b.sync.code)]⟩
      let due := enforced = true ∨
        (env.subscription, state, b.sync) ≠ (c.lastSubscription, c.state, c.sync)
      let t := c.perform env (.update s (some b) enforced)
      (t.crashed = true ↔ due ∧ env.fate batch = .crashed) ∧
      (t.crashed = false →
        t.controller = { c with
          validSubscription := true
          state := state
          sync := b.sync
          lastSubscription := env.subscription } ∧
        (due → t.offers = [(batch, env.fate batch)] ∧ t.pushes = [state]) ∧
        (¬ due → t.offers = [] ∧ t.pushes = [])) := by
  let y : Transition := ⟨.merge b.defaultState (c.savedState env s) enforced, b.sync, enforced⟩
  let x : Controller := { c with validSubscription := true }
  have hm : Moves env x y (c.perform env (.update s (some b) enforced)) :=
    perform_moves rfl
  have hd : ¬ y.IsIdle env x ↔ enforced = true ∨
      (env.subscription, y.state, b.sync) ≠ (c.lastSubscription, c.state, c.sync) := by
    rw [Transition.IsIdle, isSettled_iff, Classical.not_and_iff_not_or_not, Bool.not_eq_false, or_comm]
    refine or_congr_right (not_congr ?_)
    simp only [Prod.mk.injEq]
    rw [eq_comm, eq_comm (a := c.state), eq_comm (a := c.sync)]
  refine ⟨y.state, fun z => Bundle.prescribes_iff, ?_⟩
  intro batch due t
  refine ⟨?_, fun hn => ⟨hm.controller hn,
    fun h => ⟨hm.offers (hd.2 h), hm.pushes hn (hd.2 h)⟩, fun h => hm.idle ?_⟩⟩
  · rw [← show ¬ y.IsIdle env x ↔ due from hd]
    exact hm.crashed
  · exact Classical.not_not.1 fun hi => h (hd.1 hi)

end Controller

end CallWaiting
