import CallWaiting.Proofs.Handset.Record

namespace CallWaiting.Handset

open Controller (Operation Transition Turn)
open Preference (Batch Fate Key)

variable {h : Handset} {i : Nat} {p : Phone} {c : Controller} {op : Operation} {b : Bundle}
  {s : SubscriptionId} {group : String}

inductive Outcome (h : Handset) (p : Phone) (x : Controller × Option Transition)
    (t : Handset × Turn) : Prop
  | idle (hx : ∀ y, x.2 = some y → y.IsIdle (h.surroundings p) x.1) (hc : t.2.controller = x.1)
    (hv : t.1.SameVault h)
  | written (y : Transition) (hx : x.2 = some y)
    (hf : h.fate (y.batch (h.surroundings p) x.1) = .stored)
    (hc : t.2.controller = x.1.recorded p.subscription y.state y.sync)
    (hv : t.1.SameVault (h.offer (y.batch (h.surroundings p) x.1)))

lemma outcome_operate (hp : h.phones[i]? = some p) (hs : (h.operate i c op).2.IsStored) :
    Outcome h p (c.intent (h.surroundings p) op) (h.operate i c op) := by
  have hv := operate_sameVault h i c op
  rw [operate_eq hp] at hs hv ⊢
  have hw := Controller.perform_sameWork (h.surroundings p) c op
  rw [Turn.IsStored] at hs
  simp only [hw.offers] at hs hv
  cases hx : (c.intent (h.surroundings p) op).2 with
  | none =>
    rw [hx] at hw hv
    exact .idle (fun y hy => by simp [hx] at hy) hw.controller hv
  | some y =>
    rw [hx] at hw hv hs
    by_cases hy : y.IsIdle (h.surroundings p) (c.intent (h.surroundings p) op).1
    · rw [Controller.attempt_idle _ _ y hy] at hw hv
      refine .idle (fun z hz => ?_) hw.controller hv
      rw [hx] at hz
      cases hz
      exact hy
    · have hc := Controller.attempt_carried _ _ y hy
      rw [hc.offers] at hs hv
      have hf : h.fate (y.batch (h.surroundings p) (c.intent (h.surroundings p) op).1) = .stored :=
        hs _ (List.mem_singleton.2 rfl)
      refine .written y hx hf ?_ hv
      have hn : (h.surroundings p).fate
          (y.batch (h.surroundings p) (c.intent (h.surroundings p) op).1) ≠ .crashed := by
        change h.fate _ ≠ _
        simp [hf]
      exact hw.controller.trans (hc.done hn).1

def savedState (h : Handset) (group : String) (s : SubscriptionId) : State :=
  .ofCode ((h.store.get? group (.state s)).getD State.notSupported.code)

lemma SameVault.savedState {h' : Handset} (hv : h.SameVault h') (group : String)
    (s : SubscriptionId) : h.savedState group s = h'.savedState group s := by
  rw [Handset.savedState, hv.store, ← Handset.savedState]

lemma savedState_offer {y : Transition}
    (hf : h.fate (y.batch (h.surroundings p) c) = .stored) (group : String) (s : SubscriptionId) :
    (h.offer (y.batch (h.surroundings p) c)).savedState group s =
      if c.group = group ∧ s = p.subscription then y.state else h.savedState group s := by
  rw [savedState, get?_offer hf]
  by_cases hg : c.group = group
  · subst hg
    rw [Transition.batch, surroundings_subscription, value?_state]
    by_cases hs : s = p.subscription
    · rw [if_pos hs, if_pos ⟨rfl, hs⟩]
      simp
    · rw [if_neg hs, if_neg (fun hh => hs hh.2)]
      rfl
  · rw [if_neg (fun hh => hg hh.1)]
    simp [Batch.value?, Transition.batch, Controller.recordBatch, hg, savedState]

lemma isOpened_operate (hs : (h.operate i c op).2.IsStored) (ho : h.store.IsOpened h.disk) :
    (h.operate i c op).1.store.IsOpened (h.operate i c op).1.disk := by
  cases hp : h.phones[i]? with
  | none => simpa only [operate, hp] using ho
  | some p =>
    cases outcome_operate hp hs with
    | idle hx hc hv => rwa [hv.store, hv.disk]
    | written y hx hf hc hv =>
      rw [hv.store, hv.disk]
      exact isOpened_offer hf

end CallWaiting.Handset
