import CallWaiting.Proofs.Handset.Acceptance
import CallWaiting.Proofs.Handset.Evaluation

/-!
A user's choice lasts. Once a request on a subscription was handled, every later evaluation of the
subscription's bundle comes to what was requested, whatever was done on other subscriptions in
between, with a new controller, and with the file of the store opened again.
-/

namespace CallWaiting.Handset

open Controller (Operation Turn)

structure Seat where
  place : Nat
  group : String
  subscription : SubscriptionId
  bundle : Bundle

namespace Seat

open Direct (Request AllStored Accepts Along IsOpened)

variable (q : Seat) {d : Direct} {r : Request} {op : Operation} {state : State}

def IsOn (d : Direct) : Prop :=
  ∃ p, d.handset.phones[q.place]? = some p ∧ p.subscription = q.subscription

def Has (d : Direct) : Prop :=
  d.handset.bundles.get? q.subscription = some q.bundle

instance (d : Direct) : Decidable (q.Has d) :=
  inferInstanceAs (Decidable (d.handset.bundles.get? q.subscription = some q.bundle))

def evaluated (d : Direct) : State :=
  d.handset.evaluated q.bundle q.group q.subscription

def Undisturbed (d : Direct) (r : Request) : Prop :=
  r.place? ≠ some q.place → r ≠ .change .reopen →
    (d.step r).1.handset.store.get? q.group (.state q.subscription) =
      d.handset.store.get? q.group (.state q.subscription)

structure Evaluates (d : Direct) (r : Request) : Prop where
  on : q.IsOn d
  has : q.Has d
  looks : ∃ c p, d.controller? q.place = some c ∧ c.group = q.group ∧
    d.handset.phones[q.place]? = some p ∧
    ((∃ op, r = .operate q.place op ∧ c.Looks (d.handset.surroundings p) op) ∨
      ∃ slots, r = .pump q.place ∧ d.queues[q.place]? = some slots ∧ p.id ∈ slots ∧
        p.id.isValid = true)

structure Stays (d : Direct) (r : Request) : Prop where
  accepts : d.Accepts r
  undisturbed : q.Undisturbed d r
  on : q.IsOn d

/-- A step that leaves the choice: on the subscription, the controller is asked for nothing that
has a say in it. -/
structure LeavesChoice (d : Direct) (r : Request) : Prop where
  accepts : d.Accepts r
  undisturbed : q.Undisturbed d r
  has : q.Has d
  onlyLooks : ∀ op, r = .operate q.place op → q.IsOn d → op.OnlyLooks

structure Chooses (d : Direct) (enable : Bool) (classes : ServiceClass) : Prop where
  stays : q.Stays d (.operate q.place (.request enable classes))
  grouped : ∃ c, d.controller? q.place = some c ∧ c.group = q.group
  handled : (d.step (.operate q.place (.request enable classes))).2.1 = .answered (.handled true)

def Agrees (d : Direct) : Prop :=
  ∀ c, d.controller? q.place = some c → c.group = q.group →
    d.handset.Agrees q.bundle q.subscription c

structure Shows (d : Direct) (state : State) : Prop where
  controller : ∃ c, d.controller? q.place = some c ∧ c.group = q.group ∧ c.state = state ∧
    c.shownState = state
  evaluated : q.evaluated d = state

variable {q}

lemma evaluated_congr {d' : Direct}
    (h : d'.handset.store.get? q.group (.state q.subscription) =
      d.handset.store.get? q.group (.state q.subscription)) : q.evaluated d' = q.evaluated d := by
  simp only [evaluated, Handset.evaluated, savedState, h]

lemma evaluated_sameVault {d' : Direct} (hv : d'.handset.SameVault d.handset) :
    q.evaluated d' = q.evaluated d :=
  evaluated_congr (by rw [hv.store])

lemma Agrees.congr {d' : Direct} (h : q.Agrees d)
    (hc : d'.controller? q.place = d.controller? q.place)
    (he : q.evaluated d' = q.evaluated d) : q.Agrees d' := by
  intro c hc' hg hl hn
  have hh := h c (hc ▸ hc') hg hl hn
  rw [hg] at hh ⊢
  exact he.trans hh

lemma Shows.agrees (h : q.Shows d state) : q.Agrees d := by
  intro c hc hg _ _
  obtain ⟨c', hc', -, hs, -⟩ := h.controller
  obtain rfl := Option.some.inj (hc'.symm.trans hc)
  rw [hg]
  exact h.evaluated.trans hs.symm

lemma isOn_operate (i : Nat) (op : Operation) (h : q.IsOn d) : q.IsOn (d.operate i op).1 := by
  obtain ⟨p, hp, hs⟩ := h
  obtain ⟨p', hp', -, hs'⟩ := Direct.phone_operate hp i op
  exact ⟨p', hp', hs'.trans hs⟩

lemma has_operate (i : Nat) (op : Operation) (h : q.Has d) : q.Has (d.operate i op).1 := by
  rwa [Has, Direct.bundles_operate]

lemma evaluated_operate (hv : q.subscription.isValid = true) (hb : q.Has d)
    (hs : AllStored (d.operate q.place op).2.2) (ho : q.IsOn d → op.OnlyLooks) :
    q.evaluated (d.operate q.place op).1 = q.evaluated d := by
  cases hc : d.controller? q.place with
  | none => rw [Direct.operate_none hc]
  | some c =>
    have hs' := Direct.isStored_operate hc hs
    rw [Direct.operate_some hc]
    cases hp : d.handset.phones[q.place]? with
    | none =>
      simp only [evaluated, Handset.operate, hp]
    | some p =>
      by_cases hn : p.subscription = q.subscription
      · simp only [evaluated, ← hn]
        exact evaluated_onlyLooks (hn ▸ hv) (hn ▸ hb) hp hs' (ho ⟨p, hp, hn⟩)
      · exact evaluated_apart hp hs' hn

lemma agrees_operate (hb : q.bundle.offers = true) (ho : q.IsOn d)
    (hs : AllStored (d.operate q.place op).2.2) (ha : q.Agrees d) :
    q.Agrees (d.operate q.place op).1 := by
  cases hc : d.controller? q.place with
  | none => rwa [Direct.operate_none hc]
  | some c =>
    have hs' := Direct.isStored_operate hc hs
    obtain ⟨p, hp, hn⟩ := ho
    intro c' hc' hg
    rw [Direct.controller?_operate hc] at hc'
    cases hc'
    rw [group_operate] at hg
    rw [Direct.operate_some hc]
    have hh := ha c hc hg
    rw [← hn] at hh ⊢
    exact Handset.agrees_operate hb hp hs' hh

lemma shows_look {c : Controller} {p : Phone} (hv : q.subscription.isValid = true)
    (ho : q.IsOn d) (hb : q.Has d) (hc : d.controller? q.place = some c) (hg : c.group = q.group)
    (hp : d.handset.phones[q.place]? = some p) (hl : c.Looks (d.handset.surroundings p) op)
    (hs : AllStored (d.operate q.place op).2.2) :
    q.Shows (d.operate q.place op).1 (q.evaluated d) := by
  have hs' := Direct.isStored_operate hc hs
  obtain ⟨p', hp', hn⟩ := ho
  obtain rfl := Option.some.inj (hp'.symm.trans hp)
  have hb' : d.handset.bundles.get? p'.subscription = some q.bundle := hn ▸ hb
  obtain ⟨h₁, h₂, h₃⟩ := shown_look (hn ▸ hv) hb' hp hs' hl
  rw [hg, hn] at h₁ h₂ h₃
  refine ⟨⟨_, Direct.controller?_operate hc op, ?_, h₂, h₁⟩, ?_⟩
  · rw [group_operate, hg]
  · rw [Direct.operate_some hc]
    exact h₃

lemma Shows.hear (h : q.Shows d state) (hv : q.subscription.isValid = true) (ho : q.IsOn d)
    (hb : q.Has d) {slot : PhoneId} (hs : AllStored (d.operate q.place (.hear slot)).2.2) :
    q.Shows (d.operate q.place (.hear slot)).1 state := by
  obtain ⟨c, hc, hg, hst, hsh⟩ := h.controller
  obtain ⟨p, hp, hn⟩ := ho
  by_cases hl : c.Looks (d.handset.surroundings p) (.hear slot)
  · have hh := shows_look hv ⟨p, hp, hn⟩ hb hc hg hp hl hs
    rwa [h.evaluated] at hh
  · have he := evaluated_operate hv hb hs (fun _ => trivial)
    have hx : c.intent (d.handset.surroundings p) (.hear slot) = (c, none) := by
      have hn' : ¬ (slot.isValid = true ∧ slot = (d.handset.surroundings p).phone) := hl
      rw [Controller.intent, if_neg hn']
    have hc' : (d.handset.operate q.place c (.hear slot)).2.controller = c := by
      cases outcome_operate hp (Direct.isStored_operate hc hs) with
      | idle _ hc' _ => rw [hc', hx]
      | written y hy _ _ _ => rw [hx] at hy; cases hy
    refine ⟨⟨c, ?_, hg, hst, hsh⟩, he.trans h.evaluated⟩
    rw [Direct.controller?_operate hc, hc']

lemma shows_deliver {c : Controller} {p : Phone} {slots : List PhoneId}
    (hv : q.subscription.isValid = true) (ho : q.IsOn d) (hb : q.Has d)
    (hc : d.controller? q.place = some c) (hg : c.group = q.group)
    (hp : d.handset.phones[q.place]? = some p) (hi : p.id.isValid = true) (hm : p.id ∈ slots)
    (hs : AllStored (d.deliver q.place slots).2) :
    q.Shows (d.deliver q.place slots).1 (q.evaluated d) := by
  induction slots generalizing d c p with
  | nil => cases hm
  | cons slot slots ih =>
    rw [Direct.deliver_cons] at hs ⊢
    obtain ⟨h₁, h₂⟩ := hs.append
    have ho' := isOn_operate q.place (.hear slot) ho
    have hb' := has_operate q.place (.hear slot) hb
    by_cases hm' : p.id ∈ slots
    · obtain ⟨p', hp', hid, -⟩ := Direct.phone_operate hp q.place (.hear slot)
      have hh := ih ho' hb' (Direct.controller?_operate hc _) ((group_operate _ _ c _).trans hg) hp'
        (hid ▸ hi) (hid ▸ hm') h₂
      rwa [evaluated_operate hv hb h₁ (fun _ => trivial)] at hh
    · obtain rfl : p.id = slot := (List.mem_cons.1 hm).resolve_right hm'
      have hl : c.Looks (d.handset.surroundings p) (.hear p.id) := ⟨hi, rfl⟩
      have hh := shows_look hv ho hb hc hg hp hl h₁
      -- the slots behind the last one of the phone's own leave what is shown
      have hw := Direct.deliver_preserved
        (fun d' => q.Shows d' (q.evaluated d) ∧ q.IsOn d' ∧ q.Has d')
        (fun d' slot' hs' hd => ⟨hd.1.hear hv hd.2.1 hd.2.2 hs', isOn_operate _ _ hd.2.1,
          has_operate _ _ hd.2.2⟩) h₂ ⟨hh, ho', hb'⟩
      exact hw.1

theorem shows_step (hv : q.subscription.isValid = true) (he : q.Evaluates d r)
    (ha : d.Accepts r) : q.Shows (d.step r).1 (q.evaluated d) := by
  obtain ⟨ho, hb, c, p, hc, hg, hp, hl⟩ := he
  have hs := ha.offered
  obtain ⟨op, rfl, hl⟩ | ⟨slots, rfl, hq, hm, hi⟩ := hl
  · exact shows_look hv ho hb hc hg hp hl hs
  · have hst : d.step (.pump q.place) =
        (({ d with queues := d.queues.set q.place [] }.deliver q.place slots).1, .delivered slots,
          ({ d with queues := d.queues.set q.place [] }.deliver q.place slots).2) := by
      simp only [Direct.step, hc, hq]
    rw [hst] at hs ⊢
    have hc' : Direct.controller? { d with queues := d.queues.set q.place [] } q.place = some c := hc
    exact shows_deliver hv ho hb hc' hg hp hi hm hs

lemma evaluated_elsewhere (hi : r.place? ≠ some q.place) (hu : q.Undisturbed d r)
    (ho : d.IsOpened) : q.evaluated (d.step r).1 = q.evaluated d := by
  by_cases hre : r = .change .reopen
  · rw [hre]
    simp only [evaluated, Direct.step, Handset.change, Handset.evaluated, savedState,
      Direct.reopened_store ho]
  · exact evaluated_congr (hu hi hre)

lemma agrees_step (hb : q.bundle.offers = true) (hr : q.Stays d r) (ho : d.IsOpened)
    (ha : q.Agrees d) : q.Agrees (d.step r).1 := by
  have hs := hr.accepts.offered
  by_cases hi : r.place? = some q.place
  · cases r with
    | change c | notify slot => cases hi
    | operate i op =>
      cases hi
      exact agrees_operate hb hr.on hs ha
    | pump i =>
      cases hi
      obtain hp | ⟨slots, -, hp⟩ := Direct.step_pump d q.place
      · rwa [hp]
      · rw [hp] at hs ⊢
        have hh := Direct.deliver_preserved (fun d' => q.Agrees d' ∧ q.IsOn d')
          (fun d' slot hs' hd => ⟨agrees_operate hb hd.2 hs' hd.1, isOn_operate _ _ hd.2⟩) hs
          ⟨ha, hr.on⟩
        exact hh.1
    | drop i =>
      cases hi
      intro c hc
      have hn := Direct.controller?_drop d q.place
      cases hn.symm.trans hc
    | rebuild i group =>
      cases hi
      intro c hc hg hl hn
      -- a new controller has nothing in mind yet
      rw [Direct.controller?_rebuild hc] at hn
      exact absurd rfl hn
  · exact ha.congr (Direct.controller?_step_ne hi) (evaluated_elsewhere hi hr.undisturbed ho)

lemma evaluated_step (hv : q.subscription.isValid = true) (hr : q.LeavesChoice d r) (ho : d.IsOpened) :
    q.evaluated (d.step r).1 = q.evaluated d := by
  have hs := hr.accepts.offered
  by_cases hi : r.place? = some q.place
  · cases r with
    | change c | notify slot => cases hi
    | operate i op =>
      cases hi
      exact evaluated_operate hv hr.has hs (hr.onlyLooks op rfl)
    | pump i =>
      cases hi
      obtain hp | ⟨slots, -, hp⟩ := Direct.step_pump d q.place
      · rw [hp]
      · rw [hp] at hs ⊢
        have hh := Direct.deliver_preserved
          (fun d' => q.evaluated d' = q.evaluated d ∧ q.Has d')
          (fun d' slot hs' hd => ⟨(evaluated_operate hv hd.2 hs' (fun _ => trivial)).trans hd.1,
            has_operate _ _ hd.2⟩) hs ⟨rfl, hr.has⟩
        exact hh.1
    | drop i =>
      cases hi
      exact evaluated_sameVault (Direct.drop_sameVault d q.place)
    | rebuild i group =>
      cases hi
      exact evaluated_sameVault (Direct.drop_sameVault d q.place)
  · exact evaluated_elsewhere hi hr.undisturbed ho

lemma evaluated_choose {enable : Bool} {classes : ServiceClass} (hb : q.bundle.offers = true)
    (ha : q.Agrees d) (hr : q.Chooses d enable classes) :
    q.evaluated (d.step (.operate q.place (.request enable classes))).1 = .ofEnabled enable := by
  obtain ⟨c, hc, hg⟩ := hr.grouped
  obtain ⟨p, hp, hn⟩ := hr.stays.on
  have hs := Direct.isStored_operate hc hr.stays.accepts.offered
  have hh := ha c hc hg
  have hr' := hr.handled
  simp only [Direct.step, Direct.operate_some hc] at hr' ⊢
  have hr'' : (d.handset.operate q.place c (.request enable classes)).2.answer =
      some (.handled true) := by
    cases hx : (d.handset.operate q.place c (.request enable classes)).2.answer with
    | none => simp [hx] at hr'
    | some a => simpa [hx] using hr'
  rw [← hn] at hh
  simp only [evaluated, ← hn, ← hg]
  exact evaluated_request hb hp hh hs hr''

theorem shows_choice {d₀ d₁ d₂ d₃ : Direct} {before between after : List Request}
    {first again : Request} {enable : Bool} {classes : ServiceClass}
    (hq : q.bundle.offers = true) (hv : q.subscription.isValid = true) (ho : d₀.IsOpened)
    (h₁ : d₀.Leads Accepts before d₁) (he : q.Evaluates d₁ first)
    (h₂ : d₁.Leads q.Stays (first :: between) d₂) (hr : q.Chooses d₂ enable classes)
    (h₃ : (d₂.step (.operate q.place (.request enable classes))).1.Leads q.LeavesChoice after d₃)
    (he' : q.Evaluates d₃ again) (ha : d₃.Accepts again) :
    ∃ c, (d₃.step again).1.controller? q.place = some c ∧ c.shownState = .ofEnabled enable := by
  have ho₁ : d₁.IsOpened := by
    rw [← h₁.run]
    exact h₁.along.preserved IsOpened (fun d r => Direct.isOpened_step) ho
  obtain ⟨hf, hbetween⟩ := h₂.along
  have hs₁ := shows_step hv he hf.accepts
  have hj : q.Agrees d₂ ∧ d₂.IsOpened := by
    rw [← h₂.run, Direct.run_cons]
    exact hbetween.preserved (fun d => q.Agrees d ∧ d.IsOpened)
      (fun d r hr hd => ⟨agrees_step hq hr hd.2 hd.1, Direct.isOpened_step hr.accepts hd.2⟩)
      ⟨hs₁.agrees, Direct.isOpened_step hf.accepts ho₁⟩
  have hk : q.evaluated d₃ = .ofEnabled enable ∧ d₃.IsOpened := by
    rw [← h₃.run]
    exact h₃.along.preserved (fun d => q.evaluated d = .ofEnabled enable ∧ d.IsOpened)
      (fun d r hr hd => ⟨(evaluated_step hv hr hd.2).trans hd.1,
        Direct.isOpened_step hr.accepts hd.2⟩)
      ⟨evaluated_choose hq hj.1 hr, Direct.isOpened_step hr.stays.accepts hj.2⟩
  obtain ⟨c, hc, -, -, hsh⟩ := (shows_step hv he' ha).controller
  exact ⟨c, hc, hsh.trans hk.1⟩

set_option maxRecDepth 10000 in
theorem shows_choice_after_swap :
    let d := Direct.single.run [.change (.install ⟨1⟩ (.offering false)),
      .operate 0 (.setSupported true), .operate 0 (.request true .voice), .change (.swap 0 ⟨2⟩),
      .operate 0 (.update ⟨2⟩ (some (.offering false)) true), .rebuild 0 "", .change (.swap 0 ⟨1⟩),
      .operate 0 (.setSupported true)]
    ∃ c, d.controller? 0 = some c ∧ c.shownState = .activated := by
  let q : Seat := ⟨0, "", ⟨1⟩, .offering false⟩
  let d₁ := Direct.single.run [.change (.install ⟨1⟩ (.offering false))]
  let d₂ := d₁.run [.operate 0 (.setSupported true)]
  let d₂' := (d₂.step (.operate 0 (.request true .voice))).1
  let after : List Request := [.change (.swap 0 ⟨2⟩),
    .operate 0 (.update ⟨2⟩ (some (.offering false)) true), .rebuild 0 "", .change (.swap 0 ⟨1⟩)]
  have ha : ∀ (d : Direct) (r : Request), AllStored (d.step r).2.2 →
      (∀ b, r ≠ .change (.put b)) → d.Accepts r :=
    fun d r hs hb => ⟨hs, fun b hr => absurd hr (hb b)⟩
  have hown : ∀ (d : Direct) (op : Operation), q.Undisturbed d (.operate 0 op) :=
    fun d op h => absurd rfl h
  have h₁ : Direct.single.Leads Accepts [.change (.install ⟨1⟩ (.offering false))] d₁ :=
    ⟨⟨ha _ _ (by decide) nofun, trivial⟩, rfl⟩
  have he : q.Evaluates d₁ (.operate 0 (.setSupported true)) :=
    ⟨⟨_, rfl, rfl⟩, by decide, _, _, rfl, rfl, rfl, .inl ⟨_, rfl, rfl, rfl⟩⟩
  have h₂ : d₁.Leads q.Stays [.operate 0 (.setSupported true)] d₂ :=
    ⟨⟨⟨ha _ _ (by decide) nofun, hown _ _, ⟨_, rfl, rfl⟩⟩, trivial⟩, rfl⟩
  have hr : q.Chooses d₂ true .voice :=
    ⟨⟨ha _ _ (by decide) nofun, hown _ _, ⟨_, rfl, rfl⟩⟩, ⟨_, rfl, rfl⟩, by decide⟩
  have h₃ : d₂'.Leads q.LeavesChoice after (d₂'.run after) := by
    refine ⟨.cons ?_ (.cons ?_ (.cons ?_ (.cons ?_ .nil))), rfl⟩
    · exact ⟨ha _ _ (by decide) nofun, fun _ _ => by decide, by decide, nofun⟩
    · refine ⟨ha _ _ (by decide) nofun, hown _ _, by decide, ?_⟩
      -- the phone is on the other subscription
      rintro op - ⟨p, hp, hs⟩
      have hp' : ((d₂'.step (.change (.swap 0 ⟨2⟩))).1.handset.phones[0]?).map (·.subscription) =
        some ⟨2⟩ := by decide
      rw [hp, Option.map_some, hs] at hp'
      exact absurd hp' (by decide)
    · exact ⟨ha _ _ (by decide) nofun, fun h => absurd rfl h, by decide, nofun⟩
    · exact ⟨ha _ _ (by decide) nofun, fun _ _ => by decide, by decide, nofun⟩
  have hl : (d₂'.run after).handset.lines[0]? = some (⟨0⟩, ⟨1⟩) := by decide
  obtain ⟨p, hp, -, hs⟩ := Direct.phone_of_lines hl
  have he' : q.Evaluates (d₂'.run after) (.operate 0 (.setSupported true)) :=
    ⟨⟨p, hp, hs⟩, by decide, .fresh "", p, by decide, rfl, hp,
      .inl ⟨_, rfl, rfl, rfl⟩⟩
  have hc : (d₂'.run after).Accepts (.operate 0 (.setSupported true)) := ha _ _ (by decide) nofun
  have ho : Direct.single.IsOpened := trivial
  exact shows_choice (by decide) (by decide) ho h₁ he h₂ hr h₃ he' hc

end Seat

end CallWaiting.Handset
