import CallWaiting.Proofs.Bundle
import CallWaiting.Proofs.Handset.Outcome

namespace CallWaiting

namespace Controller

def Operation.OnlyLooks : Operation → Prop
  | .request _ classes => classes.contains .voice = false
  | .setSupported v => v = true
  | .update _ _ _ => False
  | .hear _ | .interrogate | .readState => True

instance : (op : Operation) → Decidable op.OnlyLooks
  | .request _ classes => inferInstanceAs (Decidable (classes.contains .voice = false))
  | .setSupported v => inferInstanceAs (Decidable (v = true))
  | .update _ _ _ => inferInstanceAs (Decidable False)
  | .hear _ | .interrogate | .readState => inferInstanceAs (Decidable True)

lemma shownState_of_valid {c : Controller} (hv : c.validSubscription = true) :
    c.shownState = c.state := by
  rw [shownState, if_pos hv]

lemma intent_onlyLooks (env : Surroundings) (c : Controller) {op : Operation} (ho : op.OnlyLooks) :
    (c.intent env op).2 = none ∨ c.Looks env op := by
  cases op with
  | hear slot =>
    by_cases hs : slot.isValid = true ∧ slot = env.phone
    · exact .inr hs
    · exact .inl (by simp only [intent, if_neg hs])
  | setSupported v =>
    obtain rfl : v = true := ho
    cases hs : c.supported with
    | true => exact .inl (by simp only [intent, hs, if_true])
    | false => exact .inr ⟨rfl, hs⟩
  | request enable classes =>
    have hc : c.serves classes = false := by
      simp [serves, show classes.contains .voice = false from ho]
    exact .inl (by simp [intent, hc])
  | update s bundle enforced => cases ho
  | interrogate | readState => exact .inl rfl

end Controller

namespace Handset

open Controller (Operation Transition Turn)

variable {h : Handset} {i : Nat} {p : Phone} {c : Controller} {op : Operation} {b : Bundle}
  {s : SubscriptionId} {group : String}

def evaluated (h : Handset) (b : Bundle) (group : String) (s : SubscriptionId) : State :=
  .merge b.defaultState (h.savedState group s) false

lemma evaluated_of_saved {state : State} (hb : b.offers = true) (hn : state ≠ .notSupported)
    (hs : h.savedState group s = state) : h.evaluated b group s = state := by
  rw [evaluated, hs, State.merge_saved (Bundle.defaultState_ne hb) hn]

def Agrees (h : Handset) (b : Bundle) (s : SubscriptionId) (c : Controller) : Prop :=
  c.lastSubscription = s → c.state ≠ .notSupported → h.evaluated b c.group s = c.state

lemma agrees_operate (hb : b.offers = true) (hp : h.phones[i]? = some p)
    (hs : (h.operate i c op).2.IsStored) (ha : h.Agrees b p.subscription c) :
    (h.operate i c op).1.Agrees b p.subscription (h.operate i c op).2.controller := by
  intro hl hn
  rw [group_operate]
  cases outcome_operate hp hs with
  | idle hx hc hv =>
    rw [hc] at hl hn ⊢
    rw [evaluated, hv.savedState]
    obtain ⟨hl', hs'⟩ | hs' := Controller.intent_record (h.surroundings p) c op
    · rw [hs'] at hn ⊢
      exact ha (hl'.symm.trans hl) hn
    · have hh : h.savedState c.group p.subscription = (c.intent (h.surroundings p) op).1.state :=
        hs'.symm
      exact evaluated_of_saved hb hn hh
  | written y hx hf hc hv =>
    rw [hc] at hn ⊢
    refine evaluated_of_saved hb hn ?_
    rw [hv.savedState, savedState_offer hf, if_pos ⟨Controller.intent_group _ c op, rfl⟩]
    rfl

lemma shown_look (hv : p.subscription.isValid = true)
    (hb : h.bundles.get? p.subscription = some b) (hp : h.phones[i]? = some p)
    (hs : (h.operate i c op).2.IsStored) (hl : c.Looks (h.surroundings p) op) :
    (h.operate i c op).2.controller.shownState = h.evaluated b c.group p.subscription ∧
      (h.operate i c op).2.controller.state = h.evaluated b c.group p.subscription ∧
      (h.operate i c op).1.evaluated b c.group p.subscription =
        h.evaluated b c.group p.subscription := by
  obtain ⟨hc', hx'⟩ := Controller.intent_looks (h.surroundings p) hl hv hb
  cases outcome_operate hp hs with
  | idle hx hc hv =>
    obtain ⟨hy, -⟩ := hx _ hx'
    have hst := ((Controller.isSettled_iff _ _ _ _).1 hy).2.1
    rw [hc, Controller.shownState_of_valid hc']
    exact ⟨hst, hst, by rw [evaluated, hv.savedState, ← evaluated]⟩
  | written y hx hf hc hv =>
    obtain rfl := Option.some.inj (hx'.symm.trans hx)
    rw [hc]
    refine ⟨Controller.shownState_of_valid hc', rfl, ?_⟩
    rw [evaluated, hv.savedState, savedState_offer hf,
      if_pos ⟨Controller.intent_group _ c op, rfl⟩]
    exact State.merge_merge _ _

lemma evaluated_request {enable : Bool} {classes : ServiceClass} (hb : b.offers = true)
    (hp : h.phones[i]? = some p) (ha : h.Agrees b p.subscription c)
    (hs : (h.operate i c (.request enable classes)).2.IsStored)
    (hr : (h.operate i c (.request enable classes)).2.answer = some (.handled true)) :
    (h.operate i c (.request enable classes)).1.evaluated b c.group p.subscription =
      .ofEnabled enable := by
  have hx' : (c.intent (h.surroundings p) (.request enable classes)).2 =
      some ⟨.ofEnabled enable, c.sync, false⟩ := by
    rw [operate_eq hp] at hr
    rw [Controller.intent, if_pos (Controller.serves_of_handled _ hr)]
  cases outcome_operate hp hs with
  | idle hx hc hv =>
    obtain ⟨hy, -⟩ := hx _ hx'
    obtain ⟨hl, hst, -⟩ := (Controller.isSettled_iff _ _ _ _).1 hy
    have hst' : c.state = .ofEnabled enable := hst
    rw [evaluated, hv.savedState, ← evaluated, ← hst']
    exact ha hl (hst' ▸ State.ofEnabled_ne enable)
  | written y hx hf hc hv =>
    obtain rfl := Option.some.inj (hx'.symm.trans hx)
    refine evaluated_of_saved hb (State.ofEnabled_ne enable) ?_
    rw [hv.savedState, savedState_offer hf, if_pos ⟨rfl, rfl⟩]

lemma evaluated_apart (hp : h.phones[i]? = some p) (hs : (h.operate i c op).2.IsStored)
    (hn : p.subscription ≠ s) :
    (h.operate i c op).1.evaluated b group s = h.evaluated b group s := by
  cases outcome_operate hp hs with
  | idle hx hc hv => rw [evaluated, hv.savedState, ← evaluated]
  | written y hx hf hc hv =>
    rw [evaluated, hv.savedState, savedState_offer hf, if_neg (fun hh => hn hh.2.symm),
      ← evaluated]

lemma evaluated_onlyLooks (hv : p.subscription.isValid = true)
    (hb : h.bundles.get? p.subscription = some b) (hp : h.phones[i]? = some p)
    (hs : (h.operate i c op).2.IsStored) (ho : op.OnlyLooks) :
    (h.operate i c op).1.evaluated b group p.subscription =
      h.evaluated b group p.subscription := by
  by_cases hg : c.group = group
  · subst hg
    obtain hx' | hl := Controller.intent_onlyLooks (h.surroundings p) c ho
    · cases outcome_operate hp hs with
      | idle hx hc hv => rw [evaluated, hv.savedState, ← evaluated]
      | written y hx hf hc hv =>
        rw [hx'] at hx
        cases hx
    · exact (shown_look hv hb hp hs hl).2.2
  · cases outcome_operate hp hs with
    | idle hx hc hv => rw [evaluated, hv.savedState, ← evaluated]
    | written y hx hf hc hv =>
      have hg' : (c.intent (h.surroundings p) op).1.group ≠ group :=
        (Controller.intent_group _ c op).symm ▸ hg
      rw [evaluated, hv.savedState, savedState_offer hf, if_neg (fun hh => hg' hh.1), ← evaluated]

end Handset

end CallWaiting
