import CallWaiting.Proofs.Bundle
import CallWaiting.Proofs.Handset.Acceptance

/-!
The two ways of reading a controller's state: its user's setting is shown only while the
subscription counts as valid, requests are served from the setting alone. They agree just if the
last look at the phone's subscription did not find it invalid.
-/

namespace CallWaiting

namespace Controller

variable {env : Surroundings} {c : Controller} {op : Operation} {v : Option Bool}

/-- What an operation finds out about the phone's subscription, if it is one that looks. A bundle
that is handed in is taken to be for a valid one. -/
def verdict? (env : Surroundings) (c : Controller) : Operation → Option Bool
  | .hear slot => if slot.isValid ∧ slot = env.phone then some env.subscription.isValid else none
  | .update _ _ _ => some true
  | .setSupported on =>
    if on = true ∧ c.supported = false then some env.subscription.isValid else none
  | .interrogate | .request _ _ | .readState => none

lemma attempt_validSubscription (env : Surroundings) (c : Controller) (x : Option Transition) :
    (c.attempt env x).controller.validSubscription = c.validSubscription :=
  attempt_keeps env (fun _ _ _ _ => rfl) c x

lemma lookAgain_validSubscription (env : Surroundings) (c : Controller) :
    (c.lookAgain env).1.validSubscription = env.subscription.isValid := by
  rw [lookAgain]
  split
  · rename_i hv
    exact hv.symm
  · rename_i hv
    exact (Bool.eq_false_iff.2 hv).symm

theorem perform_validSubscription (env : Surroundings) (c : Controller) (op : Operation) :
    (c.perform env op).controller.validSubscription =
      (c.verdict? env op).getD c.validSubscription := by
  rw [(perform_sameWork env c op).controller, attempt_validSubscription]
  cases op with
  | hear slot =>
    simp only [intent, verdict?]
    split
    · exact lookAgain_validSubscription env c
    · rfl
  | setSupported on =>
    simp only [intent, verdict?]
    cases on with
    | true =>
      cases hs : c.supported with
      | true => simp
      | false => simpa [hs] using lookAgain_validSubscription env _
    | false =>
      cases hs : c.supported with
      | true => simp
      | false => simp
  | update s bundle enforced | interrogate | request enable serviceClass | readState => rfl

lemma perform_notSupported (hc : c.state = .notSupported) (hn : c.verdict? env op = none) :
    (c.perform env op).controller.state = .notSupported := by
  rw [(perform_sameWork env c op).controller]
  cases op with
  | hear slot =>
    have hs : ¬ (slot.isValid = true ∧ slot = env.phone) := by
      intro hs
      rw [verdict?, if_pos hs] at hn
      cases hn
    rw [intent, if_neg hs]
    exact hc
  | update s bundle enforced => cases hn
  | setSupported on =>
    by_cases hs : c.supported = on
    · rw [intent, if_pos hs]
      exact hc
    · have ho : on = false := by
        by_contra ho
        simp_all [verdict?]
      subst ho
      rw [intent, if_neg hs, if_neg Bool.false_ne_true]
      set c' : Controller := { c with supported := false, listener := none } with hc'
      by_cases hi : (Transition.mk .notSupported c.sync false).IsIdle env c'
      · rw [attempt_idle env c' _ hi]
        exact hc
      · have hh := attempt_carried env c' _ hi
        by_cases hf : env.fate (Transition.batch env ⟨.notSupported, c.sync, false⟩ c') = .crashed
        · rw [(hh.crashed hf).1]
          exact hc
        · rw [(hh.done hf).1]
          rfl
  | request enable serviceClass =>
    have hs : c.serves serviceClass = false := by simp [serves, hc]
    simp only [intent, hs]
    exact hc
  | interrogate | readState => exact hc

lemma interrogate_status {s : Status}
    (h : (c.perform env .interrogate).answer = some (.status (some s))) :
    s.state = c.state ∧ c.state ≠ .notSupported := by
  change c.interrogate.answer = _ at h
  rw [interrogate] at h
  split at h
  · cases h
  · rename_i hn
    simp only [Turn.after, Turn.rest] at h
    split at h <;> cases h
    exact ⟨rfl, hn⟩

lemma request_handled {enable : Bool} {serviceClass : ServiceClass}
    (h : (c.perform env (.request enable serviceClass)).answer = some (.handled true)) :
    (c.perform env (.request enable serviceClass)).controller.state = .ofEnabled enable := by
  have hs := serves_of_handled env h
  have hw := perform_sameWork env c (.request enable serviceClass)
  have hi : c.intent env (.request enable serviceClass) =
      (c, some ⟨.ofEnabled enable, c.sync, false⟩) := by
    rw [intent, if_pos hs]
  rw [hi] at hw
  rw [hw.controller]
  by_cases hy : (Transition.mk (.ofEnabled enable) c.sync false).IsIdle env c
  · rw [attempt_idle env c _ hy]
    exact ((isSettled_iff env c _ _).1 hy.1).2.1
  · have hh := attempt_carried env c _ hy
    have hf : env.fate (Transition.batch env ⟨.ofEnabled enable, c.sync, false⟩ c) ≠ .crashed := by
      intro hf
      have hcr := hw.crashed.trans (hh.crashed hf).2.2
      rw [Turn.crashed, h] at hcr
      cases hcr
    rw [(hh.done hf).1]
    rfl

structure Knows (v : Option Bool) (c : Controller) : Prop where
  valid : c.validSubscription = v.getD false
  unseen : v = none → c.state = .notSupported

lemma knows_fresh (group : String) : Knows none (fresh group) := ⟨rfl, fun _ => rfl⟩

lemma Knows.perform (h : Knows v c) (env : Surroundings) (op : Operation) :
    Knows ((c.verdict? env op).or v) (c.perform env op).controller := by
  refine ⟨?_, fun hn => ?_⟩
  · rw [perform_validSubscription, h.valid]
    cases c.verdict? env op <;> rfl
  · obtain ⟨hn, hv⟩ := Option.or_eq_none_iff.1 hn
    exact perform_notSupported (h.unseen hv) hn

lemma Knows.shown_iff (h : Knows v c) (hc : c.state ≠ .notSupported) :
    c.shownState = c.state ↔ v ≠ some false := by
  rw [shownState, h.valid]
  cases v with
  | none => exact absurd (h.unseen rfl) hc
  | some b =>
    cases b with
    | true => simp
    | false => simpa using hc.symm

end Controller

namespace Handset.Direct

open Controller (Operation Knows)

variable {d : Direct} {r : Request} {i j : Nat} {c : Controller} {op : Operation} {v : Option Bool}

def verdict? (d : Direct) (i : Nat) (op : Operation) : Option Bool := do
  (← d.controller? i).verdict? (d.handset.surroundings (← d.handset.phones[i]?)) op

def looked (i : Nat) (d : Direct) (v : Option Bool) : Request → Option Bool
  | .operate j op => if j = i then (d.verdict? i op).or v else v
  | .pump j =>
    if j = i then ((d.queues[i]?).getD []).foldl (fun v slot => (d.verdict? i (.hear slot)).or v) v
    else v
  | .drop j | .rebuild j _ => if j = i then none else v
  | .change _ | .notify _ => v

def lastLook (i : Nat) : Direct → Option Bool → List Request → Option Bool
  | _, v, [] => v
  | d, v, r :: rs => lastLook i (d.step r).1 (d.looked i v r) rs

def KnowsAt (i : Nat) (v : Option Bool) (d : Direct) : Prop :=
  ∀ c, d.controller? i = some c → Knows v c

lemma KnowsAt.operate (h : KnowsAt i v d) (op : Operation) :
    KnowsAt i ((d.verdict? i op).or v) (d.operate i op).1 := by
  intro c' hc'
  cases hc : d.controller? i with
  | none =>
    rw [operate_none hc, hc] at hc'
    cases hc'
  | some c =>
    rw [controller?_operate hc] at hc'
    obtain rfl := Option.some.inj hc'
    cases hp : d.handset.phones[i]? with
    | none =>
      have hv : d.verdict? i op = none := by simp [verdict?, hc, hp]
      rw [hv, Option.none_or]
      simpa only [Handset.operate, hp] using! h c hc
    | some p =>
      rw [operate_eq hp]
      simpa only [verdict?, hc, hp, Option.bind_eq_bind, Option.bind_some] using
        (h c hc).perform (d.handset.surroundings p) op

lemma verdict?_hear_operate (d : Direct) (i : Nat) (op : Operation) (slot : PhoneId) :
    (d.operate i op).1.verdict? i (.hear slot) = d.verdict? i (.hear slot) := by
  cases hc : d.controller? i with
  | none => rw [operate_none hc]
  | some c =>
    cases hp : d.handset.phones[i]? with
    | none =>
      have hp' : (d.operate i op).1.handset.phones[i]? = none := by
        rw [operate_some hc]
        simp only [Handset.operate, hp]
      simp [verdict?, hp, hp', hc, controller?_operate hc]
    | some p =>
      obtain ⟨p', hp', hid, hsub⟩ := phone_operate hp i op
      have hh : ∀ c' : Controller,
          c'.verdict? ((d.operate i op).1.handset.surroundings p') (.hear slot) =
          c.verdict? (d.handset.surroundings p) (.hear slot) := by
        intro c'
        simp only [Controller.verdict?, surroundings, hid, hsub]
        rfl
      simp [verdict?, hp, hp', hc, controller?_operate hc, hh]

lemma KnowsAt.deliver (h : KnowsAt i v d) (slots : List PhoneId) :
    KnowsAt i (slots.foldl (fun v slot => (d.verdict? i (.hear slot)).or v) v)
      (d.deliver i slots).1 := by
  induction slots generalizing d v with
  | nil => exact h
  | cons slot slots ih =>
    rw [deliver_cons, List.foldl_cons]
    have hh := ih (h.operate (.hear slot))
    simpa only [verdict?_hear_operate] using hh

lemma KnowsAt.elsewhere (h : KnowsAt i v d) (hr : r.place? ≠ some i) :
    KnowsAt i v (d.step r).1 := by
  intro c hc
  rw [controller?_step_ne hr] at hc
  exact h c hc

lemma KnowsAt.step (h : KnowsAt i v d) (r : Request) : KnowsAt i (d.looked i v r) (d.step r).1 := by
  cases r with
  | change c | notify slot => exact h.elsewhere nofun
  | operate j op =>
    by_cases hj : j = i
    · subst hj
      simpa only [looked, if_true] using! h.operate op
    · rw [looked, if_neg hj]
      exact h.elsewhere fun he => hj (Option.some.inj he)
  | pump j =>
    by_cases hj : j = i
    · subst hj
      rw [looked, if_pos rfl]
      cases hc : d.controller? j with
      | none =>
        intro c hc'
        simp only [step, hc] at hc'
        cases hc'
      | some c =>
        cases hq : d.queues[j]? with
        | none => simpa only [step, hc, hq] using! h
        | some slots =>
          have hd : KnowsAt j v { d with queues := d.queues.set j [] } := h
          simpa only [step, hc, hq] using! hd.deliver slots
    · rw [looked, if_neg hj]
      exact h.elsewhere fun he => hj (Option.some.inj he)
  | drop j =>
    by_cases hj : j = i
    · subst hj
      intro c hc
      have hn : (d.step (.drop j)).1.controller? j = none := controller?_drop d j
      rw [hn] at hc
      cases hc
    · rw [looked, if_neg hj]
      exact h.elsewhere fun he => hj (Option.some.inj he)
  | rebuild j group =>
    by_cases hj : j = i
    · subst hj
      intro c hc
      rw [looked, if_pos rfl, controller?_rebuild hc]
      exact Controller.knows_fresh group
    · rw [looked, if_neg hj]
      exact h.elsewhere fun he => hj (Option.some.inj he)

theorem KnowsAt.run (h : KnowsAt i v d) (rs : List Request) :
    KnowsAt i (lastLook i d v rs) (d.run rs) := by
  induction rs generalizing d v with
  | nil => exact h
  | cons r rs ih => exact ih (h.step r)

lemma knowsAt_fresh (h : Handset) (groups : List String) (i : Nat) :
    KnowsAt i none (fresh h groups) := by
  intro c hc
  simp only [controller?, fresh, List.getElem?_map] at hc
  cases hg : groups[i]? with
  | none =>
    rw [hg] at hc
    cases hc
  | some g =>
    rw [hg] at hc
    obtain rfl := Option.some.inj hc
    exact Controller.knows_fresh g

def shown (i : Nat) (d : Direct) : Option State :=
  (d.controller? i).map (·.shownState)

lemma shown_operate (hc : d.controller? i = some c) (op : Operation) :
    (d.operate i op).1.shown i = some (d.handset.operate i c op).2.controller.shownState := by
  rw [shown, controller?_operate hc, Option.map_some]

lemma phone_of_answer {a : Controller.Answer} (hc : d.controller? i = some c)
    (ha : (d.operate i op).2.1 = some a) (hd : a ≠ .done) :
    ∃ p, d.handset.phones[i]? = some p ∧ d.handset.operate i c op =
      (d.handset.applyAll i (c.perform (d.handset.surroundings p) op).effects,
        c.perform (d.handset.surroundings p) op) := by
  cases hp : d.handset.phones[i]? with
  | none =>
    simp only [operate_some hc, Handset.operate, hp] at ha
    exact absurd (Option.some.inj ha).symm hd
  | some p => exact ⟨p, rfl, operate_eq hp c op⟩

theorem readings_agree_iff (h : Handset) (groups : List String) (i : Nat) (rs : List Request) :
    let d := (fresh h groups).run rs
    let found := lastLook i (fresh h groups) none rs
    (∀ s, (d.operate i .interrogate).2.1 = some (.status (some s)) →
      ((d.shown i = some s.state ∧ s.state ≠ .notSupported) ↔ found ≠ some false)) ∧
    ∀ enable serviceClass,
      (d.operate i (.request enable serviceClass)).2.1 = some (.handled true) →
        ((d.operate i (.request enable serviceClass)).1.shown i = some (.ofEnabled enable) ↔
          found ≠ some false) := by
  intro d found
  have hk : KnowsAt i found d := (knowsAt_fresh h groups i).run rs
  cases hc : d.controller? i with
  | none => simp [operate_none hc]
  | some c =>
    refine ⟨fun s hs => ?_, fun enable serviceClass ha => ?_⟩
    · obtain ⟨p, -, ho⟩ := phone_of_answer hc hs nofun
      rw [operate_some hc, ho] at hs
      obtain ⟨he, hn⟩ := Controller.interrogate_status hs
      rw [shown, hc, Option.map_some, he, Option.some_inj, and_iff_left hn]
      exact (hk c hc).shown_iff hn
    · obtain ⟨p, -, ho⟩ := phone_of_answer hc ha nofun
      rw [shown_operate hc, ho]
      rw [operate_some hc, ho] at ha
      have hs := Controller.request_handled ha
      have hp := (hk c hc).perform (d.handset.surroundings p) (.request enable serviceClass)
      have hn : (c.perform (d.handset.surroundings p)
          (.request enable serviceClass)).controller.state ≠ .notSupported :=
        hs ▸ State.ofEnabled_ne enable
      rw [← hs, Option.some_inj]
      exact hp.shown_iff hn

theorem readings_agree_switching :
    let rs : List Request :=
      [.change (.install ⟨1⟩ (.offering true)), .operate 0 (.setSupported true)]
    let d := single.run rs
    (d.operate 0 .interrogate).2.1 = some (.status (some ⟨.activated, .voice⟩)) ∧
      d.shown 0 = some .activated ∧
      (d.operate 0 (.request false .voice)).2.1 = some (.handled true) ∧
      (d.operate 0 (.request false .voice)).1.shown 0 = some .notActivated := by
  intro rs d
  have hs : (d.operate 0 .interrogate).2.1 = some (.status (some ⟨.activated, .voice⟩)) := by decide
  have ha : (d.operate 0 (.request false .voice)).2.1 = some (.handled true) := by decide
  have hf : lastLook 0 single none rs ≠ some false := by decide
  obtain ⟨h₁, h₂⟩ :=
    readings_agree_iff (Handset.fresh [.fresh ⟨0⟩ ⟨1⟩] (.memory .empty) .empty) [""] 0 rs
  exact ⟨hs, ((h₁ _ hs).2 hf).1, ha, (h₂ _ _ ha).2 hf⟩

theorem not_readings_agree :
    let d := single.run [.change (.install ⟨1⟩ (.offering true)), .operate 0 (.setSupported true),
      .change (.swap 0 .absent), .operate 0 (.hear ⟨0⟩)]
    (d.operate 0 .interrogate).2.1 = some (.status (some ⟨.activated, .voice⟩)) ∧
      d.shown 0 = some .notSupported ∧
      (d.operate 0 (.request false .voice)).2.1 = some (.handled true) ∧
      (d.operate 0 (.request false .voice)).1.shown 0 = some .notSupported := by
  decide

end Handset.Direct

end CallWaiting
