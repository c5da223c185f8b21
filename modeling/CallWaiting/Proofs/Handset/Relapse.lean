import CallWaiting.Proofs.Handset.Account
import CallWaiting.Proofs.Handset.Choice
import CallWaiting.Proofs.Handset.Masking

/-!
A user's choice and the events behind it. An event makes the controller look at the saved choice
again, not at the one it has in mind: a change that arrived in the store stays, one that the store
refused is taken back by the first event of the phone's own slot.
-/

namespace CallWaiting

lemma Controller.intent_hear {env : Surroundings} {c : Controller} {slot : PhoneId} {b : Bundle}
    (hs : slot.isValid = true ∧ slot = env.phone) (hv : env.subscription.isValid = true)
    (hb : env.bundle env.subscription = some b) (hc : c.validSubscription = true) :
    c.intent env (.hear slot) = (c,
      some ⟨.merge b.defaultState (c.savedState env env.subscription) false, b.sync, false⟩) := by
  have hl : c.Looks env (.hear slot) := hs
  refine Prod.ext ?_ (intent_looks env hl hv hb).2
  rw [intent, if_pos hs, lookAgain, if_pos hv, weigh, ← hc]

namespace Handset

open Controller (Operation Transition)
open Preference (Batch Fate)

lemma savedState_carried {h : Handset} {i : Nat} {p : Phone} {c x : Controller} {op : Operation}
    {y : Transition} (ho : (h.operate i c op).2.offers =
      [(y.batch (h.surroundings p) x, h.fate (y.batch (h.surroundings p) x))]) :
    (h.operate i c op).1.savedState x.group p.subscription =
      if h.fate (y.batch (h.surroundings p) x) = .stored then y.state
      else h.savedState x.group p.subscription := by
  have hv := operate_sameVault h i c op
  rw [ho] at hv
  rw [hv.savedState]
  split
  · rename_i hf
    exact (savedState_offer hf _ _).trans (if_pos ⟨rfl, rfl⟩)
  · rename_i hf
    have hs := store_offer_of_not_stored hf
    simp only [offerAll, List.foldl_cons, List.foldl_nil, savedState, hs]

namespace Direct

variable {P : Direct → Request → Prop} {d : Direct} {r : Request} {rs : List Request} {i : Nat}

def Sometime (P : Direct → Request → Prop) : Direct → List Request → Prop
  | _, [] => False
  | d, r :: rs => P d r ∨ Sometime P (d.step r).1 rs

instance [∀ d r, Decidable (P d r)] : ∀ d rs, Decidable (Sometime P d rs)
  | _, [] => inferInstanceAs (Decidable False)
  | d, r :: rs =>
    have := instDecidableSometime (d.step r).1 rs
    inferInstanceAs (Decidable (_ ∨ _))

def Answers (i : Nat) (hs : List Happening) : Prop :=
  ∀ o ∈ offers i hs, o.2 ≠ .crashed

instance (hs : List Happening) : Decidable (Answers i hs) :=
  inferInstanceAs (Decidable (∀ o ∈ offers i hs, o.2 ≠ .crashed))

lemma Answers.append {hs hs' : List Happening} (h : Answers i (hs ++ hs')) :
    Answers i hs ∧ Answers i hs' := by
  rw [Answers, offers_append] at h
  exact ⟨fun o ho => h o (List.mem_append_left _ ho), fun o ho => h o (List.mem_append_right _ ho)⟩

lemma heeds_hear_iff {c : Controller} {p : Phone} {slot : PhoneId} (hc : d.controller? i = some c)
    (hp : d.handset.phones[i]? = some p) :
    d.Heeds i (.hear slot) ↔ slot.isValid = true ∧ slot = p.id := by
  simp only [Heeds, hc, hp, Option.mem_def, Option.some.injEq, exists_eq_left']
  rfl

end Direct

namespace Seat

open Direct (Answers Request)

variable {q : Seat} {d d' : Direct} {r : Request} {rs : List Request} {slot : PhoneId} {x y : State}
  {c : Controller} {p : Phone} {op : Operation} {hs hs' : List Happening}

instance (d : Direct) : Decidable (q.IsOn d) :=
  inferInstanceAs (Decidable (∃ p ∈ d.handset.phones[q.place]?, p.subscription = q.subscription))

structure StateAndEvaluation (q : Seat) (x y : State) (d : Direct) : Prop where
  controller : ∃ c, d.controller? q.place = some c ∧ c.group = q.group ∧ c.state = x ∧
    c.lastSubscription = q.subscription ∧ c.sync = q.bundle.sync ∧ c.validSubscription = true
  evaluated : q.evaluated d = y

structure Passes (q : Seat) (heard : Prop) [Decidable heard] (x y : State) (d : Direct)
    (hs : List Happening) : Prop where
  stands : q.StateAndEvaluation (if heard then y else x) y d
  pushes : Direct.pushes q.place hs = if heard ∧ y ≠ x then [y] else []

lemma Passes.trans {heard heard' : Prop} [Decidable heard] [Decidable heard']
    (h : q.Passes heard x y d hs) (h' : q.Passes heard' (if heard then y else x) y d' hs') :
    q.Passes (heard ∨ heard') x y d' (hs ++ hs') := by
  obtain ⟨hm, hp⟩ := h'
  refine ⟨?_, ?_⟩
  · by_cases h₁ : heard <;> simpa [h₁] using hm
  · rw [Direct.pushes_append, h.pushes, hp]
    by_cases h₁ : heard <;> simp [h₁]

lemma Passes.congr {heard heard' : Prop} [Decidable heard] [Decidable heard']
    (h : q.Passes heard x y d hs) (hh : heard' ↔ heard) : q.Passes heard' x y d hs := by
  obtain ⟨hm, hp⟩ := h
  by_cases h₁ : heard
  · have h₂ := hh.2 h₁
    exact ⟨by simpa [h₁, h₂] using hm, by simpa [h₁, h₂] using hp⟩
  · have h₂ : ¬ heard' := fun h => h₁ (hh.1 h)
    exact ⟨by simpa [h₁, h₂] using hm, by simpa [h₁, h₂] using hp⟩

lemma StateAndEvaluation.silent (h : q.StateAndEvaluation x y d) {heard : Prop} [Decidable heard] (hn : ¬ heard)
    (hp : Direct.pushes q.place hs = []) : q.Passes heard x y d hs := by
  refine ⟨?_, ?_⟩
  · rwa [if_neg hn]
  · rw [hp, if_neg fun hh => hn hh.1]

lemma stateAndEvaluation_rests (h : q.StateAndEvaluation x y d) (hc : d.controller? q.place = some c)
    (hp : d.handset.phones[q.place]? = some p)
    (hi : (c.intent (d.handset.surroundings p) op).1 = c)
    (hr : c.Rests (d.handset.surroundings p) op) :
    q.StateAndEvaluation x y (d.operate q.place op).1 ∧ Direct.pushes q.place (d.operate q.place op).2.2 = [] ∧
      Direct.offers q.place (d.operate q.place op).2.2 = [] := by
  have hw := Controller.perform_rests hr
  rw [hi] at hw
  obtain ⟨c', hc', hh⟩ := h.controller
  obtain rfl := Option.some.inj (hc'.symm.trans hc)
  have hv := operate_sameVault d.handset q.place c' op
  rw [Direct.operate_some hc]
  rw [operate_eq hp] at hv ⊢
  rw [hw.offers] at hv
  refine ⟨⟨⟨c', ?_, hh⟩, (evaluated_sameVault hv).trans h.evaluated⟩, ?_, ?_⟩
  · exact (Direct.controller?_set_self hc _).trans (congrArg some hw.controller)
  · rw [Direct.pushes_happenings]
    exact hw.pushes
  · rw [Direct.offers_happenings]
    exact hw.offers

section Carried

variable {z : Transition} (hc : d.controller? q.place = some c)
  (hp : d.handset.phones[q.place]? = some p)
  (hi : c.intent (d.handset.surroundings p) op = (c, some z))
  (hy : ¬ z.IsIdle (d.handset.surroundings p) c)

include hc hp hi hy

lemma offers_carried : Direct.offers q.place (d.operate q.place op).2.2 =
    [(z.batch (d.handset.surroundings p) c,
      d.handset.fate (z.batch (d.handset.surroundings p) c))] := by
  rw [Direct.operate_some hc, operate_eq hp, Direct.offers_happenings]
  exact (Controller.carried_of_intent hi hy).offers

lemma stateAndEvaluation_carried (hg : c.group = q.group) (hn : p.subscription = q.subscription)
    (hv : c.validSubscription = true) (hz : z.sync = q.bundle.sync)
    (hf : d.handset.fate (z.batch (d.handset.surroundings p) c) ≠ .crashed) :
    q.StateAndEvaluation z.state (if d.handset.fate (z.batch (d.handset.surroundings p) c) = .stored
      then .merge q.bundle.defaultState z.state false else q.evaluated d) (d.operate q.place op).1 ∧
      Direct.pushes q.place (d.operate q.place op).2.2 = [z.state] := by
  have hw := Controller.carried_of_intent hi hy
  obtain ⟨hw₁, hw₂, -⟩ := hw.done hf
  have he := operate_eq hp c op
  have ho : (d.handset.operate q.place c op).2.offers =
      [(z.batch (d.handset.surroundings p) c,
        d.handset.fate (z.batch (d.handset.surroundings p) c))] := by
    rw [he]
    exact hw.offers
  have hst := savedState_carried ho
  rw [Direct.operate_some hc, he] at *
  refine ⟨⟨⟨_, Direct.controller?_set_self hc _, ?_⟩, ?_⟩, ?_⟩
  · rw [hw₁]
    exact ⟨hg, rfl, hn, hz, hv⟩
  · rw [hg, hn] at hst
    simp only [evaluated, Handset.evaluated, hst]
    split <;> rfl
  · rw [Direct.pushes_happenings]
    exact hw₂

end Carried

lemma StateAndEvaluation.hear (h : q.StateAndEvaluation x y d) (hv : q.subscription.isValid = true) (ho : q.IsOn d)
    (hb : q.Has d) (ha : Answers q.place (d.operate q.place (.hear slot)).2.2) :
    q.Passes (d.Heeds q.place (.hear slot)) x y (d.operate q.place (.hear slot)).1
      (d.operate q.place (.hear slot)).2.2 := by
  obtain ⟨c, hc, hg, hst, hl, hsy, hval⟩ := h.controller
  obtain ⟨p, hp, hn⟩ := ho
  have hh : d.Heeds q.place (.hear slot) ↔ slot.isValid = true ∧ slot = p.id :=
    Direct.heeds_hear_iff hc hp
  by_cases hs : slot.isValid = true ∧ slot = (d.handset.surroundings p).phone
  · have hi : c.intent (d.handset.surroundings p) (.hear slot) =
        (c, some ⟨y, q.bundle.sync, false⟩) := by
      have hb' : (d.handset.surroundings p).bundle p.subscription = some q.bundle := by
        rw [hn]
        exact hb
      have hv' : p.subscription.isValid = true := hn ▸ hv
      have hy : State.merge q.bundle.defaultState
          (c.savedState (d.handset.surroundings p) p.subscription) false = y := by
        rw [← h.evaluated, hn]
        simp only [Seat.evaluated, Handset.evaluated, savedState, ← hg]
        rfl
      have hx := Controller.intent_hear hs hv' hb' hval
      rwa [surroundings_subscription, hy] at hx
    by_cases hxy : y = x
    · subst hxy
      obtain ⟨h₁, h₂, -⟩ := stateAndEvaluation_rests h hc hp (by rw [hi]) (fun z hz => by
        rw [hi] at hz ⊢
        cases hz
        exact ⟨(Controller.isSettled_iff _ _ _ _).2 ⟨hl.trans hn.symm, hst, hsy⟩, rfl⟩)
      refine ⟨by rwa [ite_self], ?_⟩
      rw [h₂, if_neg fun hh => hh.2 rfl]
    · have hz : ¬ Transition.IsIdle (d.handset.surroundings p) ⟨y, q.bundle.sync, false⟩ c :=
        fun hz => hxy (((Controller.isSettled_iff _ _ _ _).1 hz.1).2.1.symm.trans hst)
      rw [Answers, offers_carried hc hp hi hz] at ha
      obtain ⟨h₁, h₂⟩ :=
        stateAndEvaluation_carried hc hp hi hz hg hn hval rfl (ha _ (List.mem_singleton.2 rfl))
      refine ⟨?_, ?_⟩
      · rw [if_pos (hh.2 hs)]
        have hy : State.merge q.bundle.defaultState y false = y := by
          rw [← h.evaluated, Seat.evaluated, Handset.evaluated]
          exact State.merge_merge _ _
        simpa only [hy, h.evaluated, ite_self] using h₁
      · rw [h₂, if_pos ⟨hh.2 hs, hxy⟩]
  · have hi : c.intent (d.handset.surroundings p) (.hear slot) = (c, none) := by
      rw [Controller.intent, if_neg hs]
    obtain ⟨h₁, h₂, -⟩ := stateAndEvaluation_rests h hc hp (by rw [hi]) (fun z hz => by
      rw [hi] at hz
      cases hz)
    exact h₁.silent (fun hn => hs (hh.1 hn)) h₂

/-- A step behind the choice: of what the controller could be asked it only hears events, and nobody
else writes the state of the subscription. -/
structure Listens (q : Seat) (d : Direct) (r : Request) : Prop where
  on : q.IsOn d
  has : q.Has d
  hears : r.place? = some q.place → r = .pump q.place ∨ ∃ slot, r = .operate q.place (.hear slot)
  answers : Answers q.place (d.step r).2.2
  saved : r.place? ≠ some q.place → (d.step r).1.handset.store.get? q.group (.state q.subscription) =
    d.handset.store.get? q.group (.state q.subscription)

lemma StateAndEvaluation.deliver {slots : List PhoneId} (h : q.StateAndEvaluation x y d) (hv : q.subscription.isValid = true)
    (ho : q.IsOn d) (hb : q.Has d) (ha : Answers q.place (d.deliver q.place slots).2) :
    q.Passes (∃ slot ∈ slots, d.Heeds q.place (.hear slot)) x y (d.deliver q.place slots).1
      (d.deliver q.place slots).2 := by
  induction slots generalizing d x with
  | nil => exact h.silent nofun rfl
  | cons slot slots ih =>
    rw [Direct.deliver_cons] at ha ⊢
    obtain ⟨h₁, h₂⟩ := ha.append
    have hh := h.hear hv ho hb h₁
    refine (hh.trans (ih hh.stands (isOn_operate _ _ ho) (has_operate _ _ hb) h₂)).congr ?_
    -- an event of the slot is one before and after another was heard
    obtain ⟨c, hc, -⟩ := h.controller
    obtain ⟨p, hp, -⟩ := ho
    obtain ⟨p', hp', hid, -⟩ := Direct.phone_operate hp q.place (.hear slot)
    simp only [List.mem_cons, exists_eq_or_imp, Direct.heeds_hear_iff hc hp,
      Direct.heeds_hear_iff (Direct.controller?_operate hc _) hp', hid]

lemma StateAndEvaluation.elsewhere (h : q.StateAndEvaluation x y d) (hr : q.Listens d r) (hi : r.place? ≠ some q.place) :
    q.Passes (d.Evaluates q.place r) x y (d.step r).1 (d.step r).2.2 := by
  have hm : q.StateAndEvaluation x y (d.step r).1 := by
    refine ⟨?_, (evaluated_congr (hr.saved hi)).trans h.evaluated⟩
    rw [Direct.controller?_step_ne hi]
    exact h.controller
  refine hm.silent (fun he => hi ?_) (by rw [Direct.pushes, Direct.own_elsewhere hi]; rfl)
  cases r with
  | operate j op | pump j => exact congrArg some he.1
  | change x | notify slot | drop j | rebuild j group => cases he

theorem StateAndEvaluation.step (h : q.StateAndEvaluation x y d) (hv : q.subscription.isValid = true) (hr : q.Listens d r) :
    q.Passes (d.Evaluates q.place r) x y (d.step r).1 (d.step r).2.2 := by
  by_cases hi : r.place? = some q.place
  · have ha := hr.answers
    obtain rfl | ⟨slot, rfl⟩ := hr.hears hi
    · obtain ⟨c, hc, -⟩ := h.controller
      cases hq : d.queues[q.place]? with
      | none =>
        have hst : d.step (.pump q.place) = (d, .nothing, []) := by
          simp only [Direct.step, hc, hq]
        rw [hst]
        refine h.silent ?_ rfl
        rintro ⟨-, slot, hs, -⟩
        simp [hq] at hs
      | some slots =>
        have hst : d.step (.pump q.place) =
            (({ d with queues := d.queues.set q.place [] }.deliver q.place slots).1,
              .delivered slots,
              ({ d with queues := d.queues.set q.place [] }.deliver q.place slots).2) := by
          simp only [Direct.step, hc, hq]
        rw [hst] at ha ⊢
        have hm : q.StateAndEvaluation x y { d with queues := d.queues.set q.place [] } := ⟨h.controller, h.evaluated⟩
        refine (hm.deliver hv hr.on hr.has ha).congr ?_
        simp only [Direct.Evaluates, hq, Option.getD_some, true_and]
        rfl
    · refine (h.hear hv hr.on hr.has ha).congr ?_
      simp only [Direct.Evaluates, true_and]
  · exact h.elsewhere hr hi

theorem StateAndEvaluation.run (h : q.StateAndEvaluation x y d) (hv : q.subscription.isValid = true)
    (hr : Direct.Along q.Listens d rs) :
    q.StateAndEvaluation (if Direct.Sometime (Direct.Evaluates q.place) d rs then y else x) y (d.run rs) ∧
      (Direct.account q.place d rs).pushes =
        if Direct.Sometime (Direct.Evaluates q.place) d rs ∧ y ≠ x then [y] else [] := by
  induction rs generalizing d x with
  | nil => exact ⟨h, rfl⟩
  | cons r rs ih =>
    have hh := h.step hv hr.1
    obtain ⟨hm, hp⟩ := ih hh.stands hr.2
    simp only [Direct.account, Direct.run_cons, Direct.Sometime, hh.pushes, hp]
    by_cases he : d.Evaluates q.place r
    · simp_all
    · simp_all

lemma stateAndEvaluation_request {enable : Bool} {classes : ServiceClass} (hq : q.bundle.offers = true)
    (hl : q.bundle.sync.isLocal = true) (ho : q.IsOn d) (hc : d.controller? q.place = some c)
    (hg : c.group = q.group) (hv : c.validSubscription = true)
    (ha : (d.operate q.place (.request enable classes)).2.1 = some (.handled true)) :
    let e := (d.operate q.place (.request enable classes)).1
    q.StateAndEvaluation (.ofEnabled enable) (q.evaluated e) e ∧
      ((∃ b, (b, .stored) ∈ Direct.offers q.place (d.operate q.place (.request enable classes)).2.2) →
        q.evaluated e = .ofEnabled enable) := by
  intro e
  obtain ⟨p, hp, hn⟩ := ho
  have ha' : (c.perform (d.handset.surroundings p) (.request enable classes)).answer =
      some (.handled true) := by
    rw [Direct.operate_some hc, operate_eq hp] at ha
    exact ha
  have hs := Controller.serves_of_handled _ ha'
  have hi : c.intent (d.handset.surroundings p) (.request enable classes) =
      (c, some ⟨.ofEnabled enable, c.sync, false⟩) := by
    rw [Controller.intent, if_pos hs]
  have hsy : c.sync = q.bundle.sync := by
    simp_all [Controller.serves, Sync.isLocal]
  by_cases hy : Transition.IsIdle (d.handset.surroundings p) ⟨.ofEnabled enable, c.sync, false⟩ c
  · obtain ⟨hl, hst, -⟩ := (Controller.isSettled_iff _ _ _ _).1 hy.1
    have hm : q.StateAndEvaluation (.ofEnabled enable) (q.evaluated d) d :=
      ⟨⟨c, hc, hg, hst, hl.trans hn, hsy, hv⟩, rfl⟩
    obtain ⟨h₁, -, h₃⟩ := stateAndEvaluation_rests hm hc hp (by rw [hi]) (fun z hz => by
      rw [hi] at hz ⊢
      cases hz
      exact hy)
    refine ⟨⟨h₁.controller, rfl⟩, ?_⟩
    rintro ⟨b, hb⟩
    rw [h₃] at hb
    cases hb
  · have hf : d.handset.fate (Transition.batch (d.handset.surroundings p)
        ⟨.ofEnabled enable, c.sync, false⟩ c) ≠ .crashed := by
      intro hf
      have hcr := ((Controller.carried_of_intent hi hy).crashed hf).2.2
      rw [Controller.Turn.crashed, ha'] at hcr
      cases hcr
    obtain ⟨h₁, -⟩ := stateAndEvaluation_carried hc hp hi hy hg hn hv hsy hf
    refine ⟨⟨h₁.controller, rfl⟩, ?_⟩
    rintro ⟨b, hb⟩
    rw [offers_carried hc hp hi hy, List.mem_singleton, Prod.mk.injEq] at hb
    refine h₁.evaluated.trans ?_
    rw [if_pos hb.2.symm]
    exact State.merge_saved (Bundle.defaultState_ne hq) (State.ofEnabled_ne enable)

/-- Behind a choice the controller was asked for nothing more: events leave it as it was made just if
none of them is of the phone's slot or an evaluation comes to it, as it does where the store took the
batch of the choice. Otherwise the first one makes the old state come back, which is pushed once. -/
theorem keeps_choice_iff {h : Handset} {groups : List String} {rs rs' : List Request} {enable : Bool}
    {classes : ServiceClass} (hq : q.bundle.offers = true) (hl : q.bundle.sync.isLocal = true)
    (hv : q.subscription.isValid = true)
    (hf : Direct.lastLook q.place (Direct.fresh h groups) none rs ≠ some false)
    (hd : (Direct.fresh h groups).run rs = d) (hc : d.controller? q.place = some c)
    (hg : c.group = q.group) (ho : q.IsOn d)
    (ha : (d.step (.operate q.place (.request enable classes))).2.1 = .answered (.handled true))
    (hr : Direct.Along q.Listens (d.step (.operate q.place (.request enable classes))).1 rs') :
    let asked := d.step (.operate q.place (.request enable classes))
    let e := asked.1
    let heard := Direct.Sometime (Direct.Evaluates q.place) e rs'
    let pushes := (Direct.account q.place e rs').pushes
    ((e.run rs').shown q.place = some (.ofEnabled enable) ∧ pushes = [] ↔
      (heard → q.evaluated e = .ofEnabled enable)) ∧
    ((∃ b, (b, .stored) ∈ Direct.offers q.place asked.2.2) → q.evaluated e = .ofEnabled enable) ∧
    (heard → q.evaluated e ≠ .ofEnabled enable →
      (e.run rs').shown q.place = some (q.evaluated e) ∧ pushes = [q.evaluated e]) := by
  intro asked e heard pushes
  have ha' : (d.operate q.place (.request enable classes)).2.1 = some (.handled true) := by
    cases hx : (d.operate q.place (.request enable classes)).2.1 with
    | none => simp [Direct.step, hx] at ha
    | some a => simpa [Direct.step, hx] using ha
  have hval : c.validSubscription = true := by
    have hk := (Direct.knowsAt_fresh h groups q.place).run rs
    rw [hd] at hk
    have hn : c.state ≠ .notSupported := by
      obtain ⟨p, -, hp⟩ := Direct.phone_of_answer hc ha' (by simp)
      rw [Direct.operate_some hc, hp] at ha'
      have hs := Controller.serves_of_handled _ ha'
      simp_all [Controller.serves]
    have hs := ((hk c hc).shown_iff hn).2 hf
    by_contra hval
    rw [Controller.shownState, if_neg hval] at hs
    exact hn hs.symm
  obtain ⟨hm, hst⟩ : q.StateAndEvaluation (.ofEnabled enable) (q.evaluated e) e ∧ _ :=
    stateAndEvaluation_request hq hl ho hc hg hval ha'
  obtain ⟨hm', hp⟩ := hm.run hv hr
  obtain ⟨c', hc', -, hs, -, -, hval'⟩ := hm'.controller
  have hsh : (e.run rs').shown q.place = some (if heard then q.evaluated e else .ofEnabled enable) := by
    rw [Direct.shown, hc', Option.map_some, Controller.shownState_of_valid hval', hs]
  have hp' : pushes = if heard ∧ q.evaluated e ≠ .ofEnabled enable then [q.evaluated e] else [] := hp
  refine ⟨?_, hst, fun h₁ h₂ => ⟨?_, ?_⟩⟩
  · rw [hsh, hp']
    by_cases h₁ : heard <;> simp [h₁]
  · rw [hsh, if_pos h₁]
  · rw [hp', if_pos ⟨h₁, h₂⟩]

theorem keeps_choice_stored :
    let d := Direct.single.run [.change (.install ⟨1⟩ (.offering true)),
      .operate 0 (.setSupported true)]
    let e := (d.step (.operate 0 (.request false .voice))).1
    let rs : List Request := [.change (.refuse true), .operate 0 (.hear ⟨0⟩), .notify ⟨0⟩, .pump 0]
    (e.run rs).shown 0 = some .notActivated ∧ (Direct.account 0 e rs).pushes = [] := by
  intro d e rs'
  let q : Seat := ⟨0, "", ⟨1⟩, .offering true⟩
  let rs : List Request := [.change (.install ⟨1⟩ (.offering true)), .operate 0 (.setSupported true)]
  have hf : Direct.lastLook 0 Direct.single none rs ≠ some false := by decide
  have ha : (d.step (.operate 0 (.request false .voice))).2.1 = .answered (.handled true) := by decide
  have hr : Direct.Along q.Listens e rs' := by
    refine .cons ?_ (.cons ?_ (.cons ?_ (.cons ?_ .nil)))
    · exact ⟨by decide, by decide, nofun, by decide, fun _ => by decide⟩
    · exact ⟨by decide, by decide, fun _ => .inr ⟨_, rfl⟩, by decide, fun h => absurd rfl h⟩
    · exact ⟨by decide, by decide, nofun, by decide, fun _ => by decide⟩
    · exact ⟨by decide, by decide, fun _ => .inl rfl, by decide, fun h => absurd rfl h⟩
  have hd : (Direct.fresh (Handset.fresh [.fresh ⟨0⟩ ⟨1⟩] (.memory .empty) .empty) [""]).run rs = d :=
    rfl
  obtain ⟨c, hc, hg⟩ : ∃ c ∈ d.controller? 0, c.group = "" := by decide
  have hq : q.IsOn d := by decide
  have hk := keeps_choice_iff (q := q) (by decide) (by decide) (by decide) hf hd hc hg hq ha hr
  have hs : ∃ b, (b, .stored) ∈ Direct.offers 0 (d.step (.operate 0 (.request false .voice))).2.2 :=
    ⟨Controller.recordBatch "" ⟨0⟩ ⟨1⟩ .notActivated .none, by decide⟩
  exact hk.1.2 fun _ => hk.2.1 hs

theorem not_keeps_choice :
    let q : Seat := ⟨0, "", ⟨1⟩, .offering true⟩
    let installed := Direct.single.run [.change (.install ⟨1⟩ (.offering true))]
    let d := installed.run [.operate 0 (.setSupported true), .change (.refuse true)]
    let asked := d.step (.operate 0 (.request false .voice))
    let heard := asked.1.step (.operate 0 (.hear ⟨0⟩))
    installed.Evaluates 0 (.operate 0 (.setSupported true)) ∧ q.IsOn installed ∧ q.Has installed ∧
      q.IsOn heard.1 ∧ q.Has heard.1 ∧ asked.2.1 = .answered (.handled true) ∧
      asked.1.shown 0 = some .notActivated ∧
      heard.1.shown 0 = some .activated ∧ Direct.pushes 0 heard.2.2 = [.activated] := by
  decide

end Seat

end Handset

end CallWaiting
