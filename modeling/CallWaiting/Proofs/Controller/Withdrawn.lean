import Mathlib.Tactic.ByContra
import CallWaiting.Proofs.Bundle
import CallWaiting.Proofs.Controller.Course

namespace CallWaiting

open Preference (Batch Fate)

def Preference.Batch.states (b : Batch) : List Int32 :=
  (b.entries.filter (·.1.field = .state)).map (·.2)

namespace Controller

def Operation.withdrawnAnswer? : Operation → Option Answer
  | .readState => some (.state .notSupported)
  | .interrogate => some (.status none)
  | .request _ _ => some (.handled false)
  | .hear _ | .update _ _ _ | .setSupported _ => none

def Operation.IsMild : Operation → Prop
  | .setSupported v => v = false
  | .update _ _ _ => False
  | .hear _ | .interrogate | .request _ _ | .readState => True

instance : (op : Operation) → Decidable op.IsMild
  | .setSupported v => inferInstanceAs (Decidable (v = false))
  | .update _ _ _ => inferInstanceAs (Decidable False)
  | .hear _ | .interrogate | .request _ _ | .readState => inferInstanceAs (Decidable True)

structure Execution where
  env : Surroundings
  controller : Controller
  op : Operation

namespace Execution

def turn (e : Execution) : Turn :=
  e.controller.perform e.env e.op

/-- Nothing of the service is seen: no other state is saved or pushed than that it is not
supported, and nothing is answered as if it were. -/
structure IsWithdrawn (e : Execution) : Prop where
  saved : ∀ o ∈ e.turn.offers, o.2 = .stored → ∀ v ∈ o.1.states, v = State.notSupported.code
  pushed : ∀ state ∈ e.turn.pushes, state = .notSupported
  answered : ∀ a ∈ e.op.withdrawnAnswer?, e.turn.answer = some a

/-- The controller hears of the phone's own slot, finds a bundle that offers call waiting there, and
gets to the end of it. -/
structure Revives (e : Execution) : Prop where
  hears : e.op = .hear e.env.phone
  phone : e.env.phone.isValid = true
  subscription : e.env.subscription.isValid = true
  offers : ∃ b ∈ e.env.bundle e.env.subscription, b.offers = true
  done : e.turn.crashed = false

end Execution

variable {env : Surroundings} {c : Controller} {op : Operation}

structure IsOff (c : Controller) : Prop where
  supported : c.supported = false
  state : c.state = .notSupported

lemma IsOff.intent (hc : c.IsOff) (hm : op.IsMild)
    (hr : op = .hear env.phone → env.phone.isValid = true → env.subscription.isValid = true →
      ∀ b ∈ env.bundle env.subscription, b.offers = false) :
    (c.intent env op).1.IsOff ∧ ∀ x ∈ (c.intent env op).2, x.state = .notSupported := by
  cases op with
  | hear slot =>
    simp only [Controller.intent]
    split
    · rename_i hs
      obtain ⟨hv, rfl⟩ := hs
      rw [lookAgain]
      split
      · rename_i hsub
        refine ⟨⟨hc.supported, hc.state⟩, ?_⟩
        intro x hx
        obtain ⟨b, hb, rfl⟩ := Option.map_eq_some_iff.1 hx
        have ho := hr rfl hv hsub b hb
        simp [Bundle.defaultState, ho, State.merge]
      · exact ⟨⟨hc.supported, hc.state⟩, by simp⟩
    · exact ⟨hc, by simp⟩
  | setSupported v =>
    obtain rfl : v = false := hm
    simp only [Controller.intent, hc.supported, if_true]
    exact ⟨hc, by simp⟩
  | request enable classes =>
    have hn : c.serves classes = false := by simp [serves, hc.state]
    simp only [Controller.intent, hn]
    exact ⟨hc, by simp⟩
  | update s bundle enforced => cases hm
  | interrogate | readState => exact ⟨hc, by simp [Controller.intent]⟩

lemma states_recordBatch (group : String) (p : PhoneId) (s : SubscriptionId) (state : State)
    (sync : Sync) : (recordBatch group p s state sync).states = [state.code] := by
  simp [Preference.Batch.states, recordBatch, Preference.Key.state, Preference.Key.sync,
    Preference.Key.lastSubscription]

lemma attempt_notSupported (env : Surroundings) (c : Controller) {x : Option Transition}
    (hx : ∀ y ∈ x, y.state = .notSupported) :
    (∀ o ∈ (c.attempt env x).offers, ∀ v ∈ o.1.states, v = State.notSupported.code) ∧
      (∀ state ∈ (c.attempt env x).pushes, state = .notSupported) ∧
      ((c.attempt env x).crashed = false → c.state = .notSupported ∨ x.isSome = true →
        (c.attempt env x).controller.state = .notSupported) := by
  cases x with
  | none => exact ⟨by simp [attempt], by simp [attempt], by simp [attempt, Turn.rest]⟩
  | some y =>
    have hy : y.state = .notSupported := hx y rfl
    by_cases hi : y.IsIdle env c
    · rw [attempt_idle env c y hi]
      refine ⟨by simp, by simp, fun _ _ => ?_⟩
      exact ((isSettled_iff env c _ _).1 hi.1).2.1.trans hy
    · have hh := attempt_carried env c y hi
      have ho : ∀ o ∈ (c.attempt env (some y)).offers, ∀ v ∈ o.1.states,
          v = State.notSupported.code := by
        rw [hh.offers]
        intro o ho v hv
        rw [List.mem_singleton.1 ho, Transition.batch, states_recordBatch, hy] at hv
        exact List.mem_singleton.1 hv
      by_cases hf : env.fate (y.batch env c) = .crashed
      · obtain ⟨-, hp, hcr⟩ := hh.crashed hf
        refine ⟨ho, by simp [hp], fun hn => ?_⟩
        rw [hcr] at hn
        cases hn
      · obtain ⟨hc, hp, -⟩ := hh.done hf
        refine ⟨ho, ?_, fun _ _ => ?_⟩
        · rw [hp]
          simp [hy]
        · rw [hc]
          exact hy

lemma IsOff.answered (hc : c.IsOff) : ∀ a ∈ op.withdrawnAnswer?, (c.perform env op).answer = some a := by
  cases op with
  | readState =>
    rintro a ⟨⟩
    simp [perform, shownState, hc.state, Turn.rest]
  | interrogate =>
    rintro a ⟨⟩
    simp [perform, interrogate, hc.state, Turn.rest]
  | request enable classes =>
    rintro a ⟨⟩
    simp [perform, request, hc.state, Turn.rest]
  | hear slot | update s bundle enforced | setSupported v => simp [Operation.withdrawnAnswer?]

lemma IsOff.intent_offer (hc : c.IsOff) (hv : env.phone.isValid = true)
    (hs : env.subscription.isValid = true) {b : Bundle} (hb : env.bundle env.subscription = some b)
    (ho : b.offers = true) : ∃ y, (c.intent env (.hear env.phone)).2 = some y ∧
      y.state ≠ .notSupported ∧ ¬ y.IsIdle env (c.intent env (.hear env.phone)).1 := by
  have hst : (c.intent env (.hear env.phone)).1.state = .notSupported := by
    rw [Controller.intent, if_pos ⟨hv, rfl⟩, lookAgain, if_pos hs]
    exact hc.state
  have hl : c.Looks env (.hear env.phone) := ⟨hv, rfl⟩
  have hx := (intent_looks env hl hs hb).2
  have hne := State.merge_ne (Bundle.defaultState_ne ho) (c.savedState env env.subscription)
  refine ⟨_, hx, hne, ?_⟩
  rintro ⟨hi, -⟩
  exact hne (((isSettled_iff env _ _ _).1 hi).2.1.symm.trans hst)

namespace Execution

variable {e : Execution}

lemma isWithdrawn_withdrawal (ho : e.op = .setSupported false) (hs : e.controller.supported = true) :
    e.IsWithdrawn ∧ (e.turn.crashed = false → e.turn.controller.IsOff) := by
  have hw := perform_sameWork e.env e.controller e.op
  have hx : e.controller.intent e.env e.op =
      ({ e.controller with supported := false, listener := none },
        some ⟨.notSupported, e.controller.sync, false⟩) := by
    simp [ho, intent, hs]
  rw [hx] at hw
  have hn : ∀ y ∈ some (Transition.mk .notSupported e.controller.sync false),
      y.state = .notSupported := by
    rintro y ⟨⟩
    rfl
  obtain ⟨hof, hp, hst⟩ := attempt_notSupported e.env
    { e.controller with supported := false, listener := none } hn
  refine ⟨⟨?_, ?_, ?_⟩, fun hcr => ⟨?_, ?_⟩⟩
  · rw [turn, hw.offers]
    exact fun o ho _ => hof o ho
  · rwa [turn, hw.pushes]
  · simp [ho, Operation.withdrawnAnswer?]
  · rw [turn, hw.controller, attempt_keeps e.env (f := supported) fun _ _ _ _ => rfl]
  · rw [turn, hw.crashed] at hcr
    rw [turn, hw.controller]
    exact hst hcr (.inr rfl)

lemma isWithdrawn_of_not_revives (hc : e.controller.IsOff) (hm : e.op.IsMild) (hr : ¬ e.Revives) :
    e.IsWithdrawn ∧ (e.turn.crashed = false → e.turn.controller.IsOff) := by
  have hw := perform_sameWork e.env e.controller e.op
  by_cases hl : e.op = .hear e.env.phone → e.env.phone.isValid = true →
      e.env.subscription.isValid = true → ∀ b ∈ e.env.bundle e.env.subscription, b.offers = false
  · obtain ⟨hoff, hx⟩ := hc.intent hm hl
    obtain ⟨hof, hp, hst⟩ := attempt_notSupported e.env (e.controller.intent e.env e.op).1 hx
    refine ⟨⟨?_, ?_, hc.answered⟩, fun hcr => ⟨?_, ?_⟩⟩
    · rw [turn, hw.offers]
      exact fun o ho _ => hof o ho
    · rwa [turn, hw.pushes]
    · rw [turn, hw.controller, attempt_keeps e.env (f := supported) fun _ _ _ _ => rfl,
        hoff.supported]
    · rw [turn, hw.crashed] at hcr
      rw [turn, hw.controller]
      exact hst hcr (.inl hoff.state)
  · -- it looks at an offer, and is broken off
    simp only [Classical.not_imp, Classical.not_forall, Bool.not_eq_false] at hl
    obtain ⟨ho, hv, hs, b, hb, hof⟩ := hl
    have hcr : e.turn.crashed = true := by
      by_contra hn
      exact hr ⟨ho, hv, hs, ⟨b, hb, hof⟩, by simpa using hn⟩
    obtain ⟨y, hy, -, hi⟩ := hc.intent_offer hv hs hb hof
    rw [← ho] at hy hi
    rw [hy] at hw
    have hh := attempt_carried e.env _ y hi
    have hf : e.env.fate (y.batch e.env (e.controller.intent e.env e.op).1) = .crashed := by
      by_contra hf
      rw [turn, hw.crashed, (hh.done hf).2.2] at hcr
      cases hcr
    refine ⟨⟨?_, ?_, hc.answered⟩, fun hn => by rw [hcr] at hn; cases hn⟩
    · rw [turn, hw.offers, hh.offers]
      intro o ho' hst
      rw [List.mem_singleton.1 ho', hf] at hst
      cases hst
    · rw [turn, hw.pushes, (hh.crashed hf).2.1]
      simp

lemma not_isWithdrawn_of_revives (hc : e.controller.IsOff) (hr : e.Revives) : ¬ e.IsWithdrawn := by
  obtain ⟨ho, hv, hs, ⟨b, hb, hof⟩, hcr⟩ := hr
  have hw := perform_sameWork e.env e.controller e.op
  obtain ⟨y, hy, hne, hi⟩ := hc.intent_offer hv hs hb hof
  rw [← ho] at hy hi
  rw [hy] at hw
  have hh := attempt_carried e.env _ y hi
  have hf : e.env.fate (y.batch e.env (e.controller.intent e.env e.op).1) ≠ .crashed := by
    intro hf
    rw [turn, hw.crashed, (hh.crashed hf).2.2] at hcr
    cases hcr
  intro hn
  refine hne (hn.pushed y.state ?_)
  rw [turn, hw.pushes, (hh.done hf).2.1]
  exact List.mem_singleton.2 rfl

end Execution

end Controller

end CallWaiting
