import CallWaiting.Proofs.Handset.Evaluation
import CallWaiting.Proofs.Handset.Run

/-!
Swapping to a subscription and booting on it. Where a bundle is loaded both show what an evaluation
of it comes to. Where none is, a boot shows what was saved for the subscription, and a swap whatever
the controller had in mind before.
-/

namespace CallWaiting.Handset

open Controller (Operation)

variable {h : Handset} {i : Nat} {p : Phone} {c : Controller} {op : Operation} {s : SubscriptionId}

def shownHearing (h : Handset) (i : Nat) (c : Controller) (slot : PhoneId) : State :=
  (h.operate i c (.hear slot)).2.controller.shownState

def shownBooting (h : Handset) (i : Nat) (group : String) : State :=
  (h.operate i (.fresh group) (.setSupported true)).2.controller.shownState

lemma controller_operate_without (hp : h.phones[i]? = some p) {x : Controller}
    (hs : (h.operate i c op).2.IsStored) (hx : c.intent (h.surroundings p) op = (x, none)) :
    (h.operate i c op).2.controller = x := by
  cases outcome_operate hp hs with
  | idle _ hc _ => rw [hc, hx]
  | written y hy _ _ _ =>
    rw [hx] at hy
    cases hy

lemma shownHearing_without (hp : h.phones[i]? = some p) (hi : p.id.isValid = true)
    (hv : p.subscription.isValid = true) (hb : h.bundles.get? p.subscription = none)
    (hs : (h.operate i c (.hear p.id)).2.IsStored) : h.shownHearing i c p.id = c.state := by
  have hx : c.intent (h.surroundings p) (.hear p.id) =
      ({ c with validSubscription := true }, none) := by
    have hb' : (h.surroundings p).bundle (h.surroundings p).subscription = none := hb
    have hv' : (h.surroundings p).subscription.isValid = true := hv
    rw [Controller.intent, if_pos ⟨hi, rfl⟩, Controller.lookAgain, if_pos hv', hb']
    rfl
  rw [shownHearing, controller_operate_without hp hs hx, Controller.shownState_of_valid rfl]

lemma shownBooting_without {group : String} (hp : h.phones[i]? = some p)
    (hv : p.subscription.isValid = true) (hb : h.bundles.get? p.subscription = none)
    (hs : (h.operate i (.fresh group) (.setSupported true)).2.IsStored) :
    h.shownBooting i group = h.savedState group p.subscription := by
  let c : Controller := { Controller.fresh group with supported := true }
  have hx : (Controller.fresh group).intent (h.surroundings p) (.setSupported true) =
      ({ c.load (h.surroundings p) with validSubscription := true }, none) := by
    have hb' : (h.surroundings p).bundle (h.surroundings p).subscription = none := hb
    have hv' : (h.surroundings p).subscription.isValid = true := hv
    have hn : ¬ (Controller.fresh group).supported = true := Bool.false_ne_true
    rw [Controller.intent, if_neg hn, if_pos rfl, Controller.lookAgain, if_pos hv', hb']
    rfl
  rw [shownBooting, controller_operate_without hp hs hx, Controller.shownState_of_valid rfl]
  rfl

lemma looks_boot (h : Handset) (p : Phone) (group : String) :
    (Controller.fresh group).Looks (h.surroundings p) (.setSupported true) := ⟨rfl, rfl⟩

theorem shown_swap_eq_boot_iff (hp : h.phones[i]? = some p) (hi : p.id.isValid = true)
    (hv : s.isValid = true)
    (ha : ((h.change (.swap i s)).1.operate i c (.hear p.id)).2.IsStored)
    (hb : ((h.change (.swap i s)).1.operate i (.fresh c.group) (.setSupported true)).2.IsStored) :
    (h.change (.swap i s)).1.shownHearing i c p.id = (h.change (.swap i s)).1.shownBooting i c.group ↔
      (h.bundles.get? s = none → c.state = h.savedState c.group s) := by
  have hp' : (h.change (.swap i s)).1.phones[i]? = some (p.swap s) := by simp [change, hp]
  have hsub : (p.swap s).subscription.isValid = true := hv
  cases hn : h.bundles.get? s with
  | none =>
    have hn' : (h.change (.swap i s)).1.bundles.get? (p.swap s).subscription = none := hn
    have h₁ := shownHearing_without hp' hi hsub hn' ha
    have h₂ := shownBooting_without hp' hsub hn' hb
    have h₃ : (h.change (.swap i s)).1.shownHearing i c p.id = c.state := h₁
    have h₄ : (h.change (.swap i s)).1.shownBooting i c.group = h.savedState c.group s := h₂
    rw [h₃, h₄]
    simp
  | some b =>
    have hn' : (h.change (.swap i s)).1.bundles.get? (p.swap s).subscription = some b := hn
    have hl : c.Looks ((h.change (.swap i s)).1.surroundings (p.swap s)) (.hear p.id) := ⟨hi, rfl⟩
    have h₁ := (shown_look hsub hn' hp' ha hl).1
    have h₂ := (shown_look hsub hn' hp' hb (looks_boot _ _ _)).1
    simp only [reduceCtorEq, false_imp_iff, iff_true]
    exact h₁.trans h₂.symm

set_option maxRecDepth 10000 in
theorem shown_swap_eq_boot_with_bundle :
    let d := Direct.single.run [.change (.install ⟨1⟩ (.offering true)),
      .change (.install ⟨2⟩ (.offering false)), .operate 0 (.setSupported true)]
    let c : Controller := ⟨"", some 0, true, true, .activated, .none, ⟨1⟩⟩
    let h := (d.handset.change (.swap 0 ⟨2⟩)).1
    d.controller? 0 = some c ∧ h.shownHearing 0 c ⟨0⟩ = h.shownBooting 0 "" := by
  intro d c h
  have hp : d.handset.phones[0]? = some ⟨⟨0⟩, ⟨1⟩, [.activated]⟩ := rfl
  have ha : (h.operate 0 c (.hear ⟨0⟩)).2.IsStored := by decide
  have hb : (h.operate 0 (.fresh "") (.setSupported true)).2.IsStored := by decide
  have hn : d.handset.bundles.get? ⟨2⟩ ≠ none := by decide
  exact ⟨by decide, (shown_swap_eq_boot_iff hp (by decide) (by decide) ha hb).2 fun hh => absurd hh hn⟩

set_option maxRecDepth 10000 in
theorem not_shown_swap_eq_boot :
    let d := Direct.single.run [.change (.install ⟨1⟩ (.offering true)),
      .operate 0 (.setSupported true)]
    let c : Controller := ⟨"", some 0, true, true, .activated, .none, ⟨1⟩⟩
    let h := (d.handset.change (.swap 0 ⟨2⟩)).1
    d.controller? 0 = some c ∧ (h.operate 0 c (.hear ⟨0⟩)).2.IsStored ∧
      (h.operate 0 (.fresh "") (.setSupported true)).2.IsStored ∧
      h.shownHearing 0 c ⟨0⟩ = .activated ∧ h.shownBooting 0 "" = .notSupported := by
  decide

end CallWaiting.Handset
