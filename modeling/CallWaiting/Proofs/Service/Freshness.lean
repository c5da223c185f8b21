import CallWaiting.Proofs.Service.Watch

/-!
No carrier update is lost. However the steps of a task fall in with swaps, installs and slot changes,
an idle service to which everything has been announced shows what the bundle and the saved state come
to.
-/

namespace CallWaiting

open Broadcast (Registry)
open Controller (Effect Enters Operation Stage Step)
open Handset (Happening)
open Handset.Direct (AllStored)

namespace Controller

variable {h : Handset} {i : Nat} {p : Phone} {c : Controller} {y : Step}

lemma Enters.enrols (he : Enters (h.surroundings p) c y) : Registry.Enrols i h.registry c.listener
    ((y.effects.filter Effect.isListing).foldl (Handset.heed i) h.registry)
      y.controller.listener := by
  cases he with
  | same hs hl he hy =>
    rw [he, hl]
    exact .same _
  | on hc hs hl he =>
    rw [he, hl, registering]
    cases c.listener with
    | none => exact .joins
    | some t => exact .same _
  | off hs hl he hy =>
    rw [he, hl]
    cases c.listener with
    | none => exact .same _
    | some t => exact .leaves t

lemma Enters.listed (he : Enters (h.surroundings p) c y) (hc : c.Listed i h.registry) :
    y.controller.Listed i
      ((y.effects.filter Effect.isListing).foldl (Handset.heed i) h.registry) := by
  cases he with
  | same hs hl he hy =>
    rw [he]
    exact ⟨fun hn => hl.trans (hc.silent (hs ▸ hn)), fun hn => hl ▸ hc.listens (hs ▸ hn)⟩
  | on hn hs hl he =>
    have hl₀ := hc.silent hn
    rw [he, registering, hl₀]
    refine ⟨fun hs' => Bool.noConfusion (hs.symm.trans hs'), fun _ => ⟨h.registry.next, ?_, ?_⟩⟩
    · rw [hl, hl₀]
      rfl
    · exact List.mem_append_right _ (List.mem_singleton.2 rfl)
  | off hs hl he hy => exact ⟨fun _ => hl, fun hs' => Bool.noConfusion (hs.symm.trans hs')⟩

end Controller

namespace Closeup

variable {x : Closeup} {i : Nat} {group : String} {m : Traffic.Move} {ms : List Traffic.Move}
  {o : Bool} {s : Service} {c : Controller} {p : Phone} {q : List Entry} {k : Task}
  {w : Option Nat} {a : Controller.Answer} {y : Step}

lemma Watched.taking (hw : Watched i group x o) (hs : x.traffic.services[i]? = some s)
    (hc : s.controller = some c) (hp : x.traffic.handset.phones[i]? = some p)
    (hq : ∀ e ∈ q, e ∈ s.queue) (hg : y.controller.group = c.group)
    (he : Registry.Enrols i x.traffic.handset.registry c.listener
      ((y.effects.filter Effect.isListing).foldl (Handset.heed i) x.traffic.handset.registry)
      y.controller.listener)
    (hl : y.controller.Listed i
      ((y.effects.filter Effect.isListing).foldl (Handset.heed i) x.traffic.handset.registry))
    (hy : y.stage.isLoading = true → y.controller.supported = true)
    (hf : y.controller.supported = true → o = true ∨
      Pending x.traffic i { s with queue := q } p.id ∨
      y.controller.OnCourse ((x.taking i { s with queue := q } w a y).1.sight p y.controller)
        y.stage) :
    Watched i group (x.taking i { s with queue := q } w a y).1 o := by
  have hi : i < x.traffic.services.length := (List.getElem?_eq_some_iff.1 hs).1
  have hs₁ : (x.taking i { s with queue := q } w a y).1.traffic.services[i]? =
      some { s with queue := q, controller := some y.controller } := List.getElem?_set_self hi
  have hr := Handset.registry_applyAll x.traffic.handset i y.effects
  refine ⟨?_, fun s' hs' k' hk' => ?_, fun s' c' p' hs' hc' hp' => ?_⟩
  · refine hw.ordered.set hs (Traffic.length_phones_applyAll _ _ _) ?_
    rw [Traffic.ticket_eq hs hc, hr]
    exact he
  · obtain rfl := Option.some.inj (hs₁.symm.trans hs')
    obtain ⟨e, he, rfl⟩ := List.mem_map.1 hk'
    exact hw.plain s hs _ (List.mem_map.2 ⟨e, hq e he, rfl⟩)
  · obtain rfl := Option.some.inj (hs₁.symm.trans hs')
    obtain rfl := Option.some.inj hc'
    obtain rfl := Option.some.inj ((phone_applyAll_self hp y.effects).symm.trans hp')
    obtain ⟨h₁, h₂, -, -, -⟩ := hw.engaged s c p hs hc hp
    refine ⟨h₁, hg.trans h₂, ?_, hy, hf⟩
    have hr' : (x.taking i { s with queue := q } w a y).1.traffic.handset.registry =
      (y.effects.filter Effect.isListing).foldl (Handset.heed i) x.traffic.handset.registry := hr
    rwa [hr']

lemma sight_taking (ho : y.effects.filterMap Effect.offer? = []) (hg : y.controller.group = c.group) :
    (x.taking i s w a y).1.sight p y.controller = x.sight p c := by
  have hv := Handset.applyAll_sameVault x.traffic.handset i y.effects
  rw [ho] at hv
  rw [sight_eq hg, sight_eq rfl]
  refine congrArg₂ (Controller.Sight.mk p.subscription) ?_ (hv.savedState _ _)
  exact congrArg (·.get? p.subscription) (Handset.bundles_applyAll _ _ _)

lemma fate_of_allStored {t : SubscriptionId} {z : Controller.Transition}
    (ha : AllStored (Handset.happenings i
      (c.advance (x.traffic.handset.surroundings p) (.offering t z)).effects)) :
    x.traffic.handset.fate (Controller.recordBatch c.group p.id t z.state z.sync) = .stored := by
  have hm : ∀ e ∈ (c.advance (x.traffic.handset.surroundings p) (.offering t z)).effects,
      ∀ o ∈ e.offer?, o.2 = .stored := fun e he => ha ⟨some i, e⟩ (List.mem_map.2 ⟨e, he, rfl⟩)
  have hf : (x.traffic.handset.surroundings p).fate = x.traffic.handset.fate := rfl
  simp only [Controller.advance, hf] at hm
  split at hm
  · assumption
  · cases hm _ List.mem_cons_self _ rfl
  · cases hm _ List.mem_cons_self _ rfl

lemma onCourse_offered {t : SubscriptionId} {z : Controller.Transition}
    (hf : x.traffic.handset.fate (Controller.recordBatch c.group p.id t z.state z.sync) = .stored)
    (ho : c.OnCourse (x.sight p c) (.offering t z)) :
    let y := c.advance (x.traffic.handset.surroundings p) (.offering t z)
    y.controller.OnCourse ((x.taking i s w a y).1.sight p y.controller) y.stage := by
  obtain rfl : t = p.subscription := ho.1
  have hb := Handset.savedState_offer (y := z) (p := p) (c := c) hf c.group p.subscription
  rw [if_pos ⟨rfl, rfl⟩] at hb
  have hy : c.advance (x.traffic.handset.surroundings p) (.offering p.subscription z) =
      ⟨c.recorded p.subscription z.state z.sync,
        [.offer (Controller.recordBatch c.group p.id p.subscription z.state z.sync) .stored],
        .telling z.state⟩ := by
    have hf' : (x.traffic.handset.surroundings p).fate (Controller.recordBatch c.group
        (x.traffic.handset.surroundings p).phone p.subscription z.state z.sync) = .stored := hf
    simp only [Controller.advance, hf']
    rfl
  rw [hy]
  have hg : (c.recorded p.subscription z.state z.sync).group = c.group := rfl
  -- the evaluation is made from what was just stored, and from nothing else that is new
  have hv : (x.taking i s w a (c.advance (x.traffic.handset.surroundings p)
      (.offering p.subscription z))).1.sight p (c.recorded p.subscription z.state z.sync) =
      { x.sight p c with saved := z.state } := by
    rw [hy, sight_eq hg]
    refine congrArg₂ (Controller.Sight.mk p.subscription) ?_ hb
    exact congrArg (·.get? p.subscription) (Handset.offer_apart _ _).2.1
  rw [hy] at hv
  change Controller.UpToDate _ _
  rw [hv]
  exact Controller.upToDate_offering ho

lemma onCourse_taking {st : Stage}
    (ha : AllStored (Handset.happenings i (c.advance (x.traffic.handset.surroundings p) st).effects))
    (ho : c.OnCourse (x.sight p c) st) :
    let y := c.advance (x.traffic.handset.surroundings p) st
    y.controller.OnCourse ((x.taking i s w a y).1.sight p y.controller) y.stage := by
  intro y
  by_cases hn : ∃ t z, st = .offering t z
  · obtain ⟨t, z, rfl⟩ := hn
    exact onCourse_offered (fate_of_allStored ha) ho
  · have hn : ∀ t z, st ≠ .offering t z := fun t z hz => hn ⟨t, z, hz⟩
    have hy := Controller.advances (x.traffic.handset.surroundings p) c st
    rw [sight_taking (hy.offers hn) hy.group]
    exact Controller.onCourse_advance ho hn

lemma Watched.advance (hw : Watched i group x o) (hs : x.traffic.services[i]? = some s)
    (hc : s.controller = some c) (hp : x.traffic.handset.phones[i]? = some p)
    (hk : x.task = some k) (hn : k.stage.rank ≠ 0) (ha : AllStored (x.goOn i s c p k).2) :
    Watched i group (x.goOn i s c p k).1 o := by
  obtain ⟨-, -, h₃, h₄, h₅⟩ := hw.engaged s c p hs hc hp
  have hst : x.stage = k.stage := by
    rw [stage, hk]
    rfl
  rw [hst] at h₄ h₅
  rw [goOn_advance hn] at ha ⊢
  obtain ⟨hg, hsup, hl, hr, -, hy, -⟩ :=
    Controller.advances (x.traffic.handset.surroundings p) c k.stage
  have hl := hl fun hk => by
    obtain ⟨n, hn, -⟩ := h₃.listens (h₄ hk)
    exact hn ▸ rfl
  refine hw.taking (q := s.queue) hs hc hp (fun _ he => he) hg ?_ ?_
    (fun hn => absurd (hy.symm.trans hn) Bool.false_ne_true) fun hon => ?_
  · rw [hr, hl]
    exact .same _
  · rw [hr]
    exact ⟨fun hn => hl.trans (h₃.silent (hsup ▸ hn)), fun hn => hl ▸ h₃.listens (hsup ▸ hn)⟩
  · obtain ho | hpend | hon := h₅ (hsup ▸ hon)
    · exact .inl ho
    · exact .inr (.inl hpend)
    · exact .inr (.inr (onCourse_taking ha hon))

lemma Watched.enter {op : Operation} (hw : Watched i group x o)
    (hs : x.traffic.services[i]? = some s) (hc : s.controller = some c)
    (hp : x.traffic.handset.phones[i]? = some p) (hk : x.task = none)
    (hq : s.queue = ⟨.perform op, w⟩ :: q) :
    Watched i group (x.taking i { s with queue := q } w (c.reply op)
      (c.enter (x.traffic.handset.surroundings p) op)).1 o := by
  obtain ⟨-, -, h₃, -, h₅⟩ := hw.engaged s c p hs hc hp
  have hst : x.stage = .finished := by
    rw [stage, hk]
    rfl
  rw [hst] at h₅
  obtain ⟨he, hg, ho⟩ := Controller.enter_cases (x.traffic.handset.surroundings p) c op
  have hcs : s.commands = .perform op :: q.map (·.command) := by
    rw [Service.commands, hq]
    rfl
  have hop : ¬ op.IsUpdate := hw.plain s hs (.perform op) (hcs ▸ List.mem_cons_self)
  refine hw.taking hs hc hp (fun e he => hq ▸ List.mem_cons_of_mem _ he) hg he.enrols (he.listed h₃)
    (fun hy => ?_) fun hy => ?_
  · cases he with
    | same _ _ _ hn | off _ _ _ hn => exact absurd (hn.symm.trans hy) Bool.false_ne_true
    | on _ hs _ _ => exact hs
  · rw [sight_taking ho hg]
    -- the operation may itself be the slot change that was on its way
    by_cases hh : op = .hear p.id ∧ p.id.isValid = true
    · exact .inr (.inr (Controller.onCourse_enter hop hy fun _ => .inl hh))
    cases hsup : c.supported with
    | false => exact .inr (.inr (Controller.onCourse_enter hop hy fun ht => by simp [hsup] at ht))
    | true =>
      obtain ho | ⟨hv, hpend⟩ | hon := h₅ hsup
      · exact .inl ho
      · refine .inr (.inl ⟨hv, hpend.imp_right fun hm => ?_⟩)
        rw [hcs] at hm
        obtain hm | hm := List.mem_cons.1 hm
        · exact absurd ⟨(Command.perform.inj hm).symm, hv⟩ hh
        · exact hm
      · exact .inr (.inr (Controller.onCourse_enter hop hy fun _ => .inr hon))

lemma Watched.finish (hw : Watched i group x o) (hs : x.traffic.services[i]? = some s)
    (hc : s.controller = some c) (phase : Phase) (task : Option Task) :
    Watched i group ⟨{ x.traffic with
      handset := (x.traffic.handset.dismiss i c).1
      services := x.traffic.services.set i (s.ended phase) }, task⟩ o := by
  have hs₁ : (x.traffic.services.set i (s.ended phase))[i]? = some (s.ended phase) :=
    List.getElem?_set_self (List.getElem?_eq_some_iff.1 hs).1
  refine ⟨?_, fun s' hs' k' hk' => ?_, fun s' c' p' hs' hc' _ => ?_⟩
  · exact hw.ordered.set hs (Traffic.length_phones_dismiss _ _ _)
      (Traffic.enrols_finish hw.ordered hs hc)
  · obtain rfl := Option.some.inj (hs₁.symm.trans hs')
    cases hk'
  · obtain rfl := Option.some.inj (hs₁.symm.trans hs')
    cases hc'

lemma Watched.answered (hw : Watched i group x o) (hs : x.traffic.services[i]? = some s)
    (hc : s.controller = some c) (hk : x.task = some k) (hf : k.stage = .finished) :
    Watched i group ⟨{ x.traffic with
      services := x.traffic.services.set i (s.answered c k.waiting k.answer) }, none⟩ o := by
  have hs₁ : (x.traffic.services.set i (s.answered c k.waiting k.answer))[i]? =
      some (s.answered c k.waiting k.answer) :=
    List.getElem?_set_self (List.getElem?_eq_some_iff.1 hs).1
  have hst : x.stage = .finished := by
    rw [stage, hk]
    exact hf
  refine ⟨?_, fun s' hs' k' hk' => ?_, fun s' c' p hs' hc' hp => ?_⟩
  · refine hw.ordered.set hs rfl ?_
    rw [Traffic.ticket_eq hs hc]
    exact .same _
  · obtain rfl := Option.some.inj (hs₁.symm.trans hs')
    exact hw.plain s hs k' hk'
  · obtain rfl := Option.some.inj (hs₁.symm.trans hs')
    obtain rfl := Option.some.inj hc'
    obtain ⟨h₁, h₂, h₃, h₄, h₅⟩ := hw.engaged s c p hs hc hp
    rw [hst] at h₄ h₅
    exact ⟨h₁, h₂, h₃, h₄, h₅⟩

lemma Watched.goOn (hw : Watched i group x o) (hs : x.traffic.services[i]? = some s)
    (hc : s.controller = some c) (hp : x.traffic.handset.phones[i]? = some p)
    (hk : x.task = some k) (ha : AllStored (x.goOn i s c p k).2) :
    Watched i group (x.goOn i s c p k).1 o := by
  by_cases hn : k.stage.rank = 0
  · rw [Closeup.goOn]
    cases hst : k.stage with
    | finished => exact hw.answered hs hc hk hst
    | broken => exact hw.finish hs hc .crashed none
    | loading | looking | fetching s' | weighing s' b enforced | moving z | offering s' z
    | telling state => simp [hst, Stage.rank] at hn
  · exact hw.advance hs hc hp hk hn ha

lemma Watched.idle (hw : Watched i group x o)
    (hi : ∀ s op w q, x.traffic.services[i]? = some s → s.queue = ⟨.perform op, w⟩ :: q →
      s.controller = none) :
    Watched i group (x.around (.work i)).1 o := by
  rw [Closeup.around]
  cases Traffic.work_cases x.traffic i with
  | idle _ _ hm =>
    rw [hm]
    exact hw
  | stop s c hs hc hq _ hm =>
    rw [hm]
    exact hw.finish hs hc .stopped x.task
  | answer s c op w q _ hs hc hq _ _ _ | crash s c op w q hs hc hq _ _ _ =>
    cases hc.symm.trans (hi s op w q hs hq)

theorem Watched.step (hw : Watched i group x o) (ha : AllStored (x.step i).2) :
    Watched i group (x.step i).1 o := by
  cases hs : x.traffic.services[i]? with
  | none =>
    simp only [Closeup.step, hs]
    exact hw.idle fun s op w q hs' _ => by cases hs.symm.trans hs'
  | some s =>
    obtain ⟨p, hp⟩ := hw.ordered.phone hs
    simp only [Closeup.step, hs, hp] at ha ⊢
    cases hc : s.controller with
    | none => exact hw.idle fun s' op w q hs' _ => Option.some.inj (hs'.symm.trans hs) ▸ hc
    | some c =>
      cases hk : x.task with
      | some k =>
        simp only [hc, hk] at ha
        exact hw.goOn hs hc hp hk ha
      | none =>
        have hi : (∀ op w q, s.queue ≠ ⟨.perform op, w⟩ :: q) →
            Watched i group (x.around (.work i)).1 o := by
          intro hq
          refine hw.idle fun s' op w q hs' hq' => absurd ?_ (hq op w q)
          rwa [← Option.some.inj (hs'.symm.trans hs)]
        cases hq : s.queue with
        | nil => exact hi fun op w q h => by simp [hq] at h
        | cons e q =>
          obtain ⟨command, w⟩ := e
          cases command with
          | shutdown => exact hi fun op w q h => by simp [hq] at h
          | perform op => exact hw.enter hs hc hp hk hq

lemma Watched.of_turnsOn (hw : Watched i group x o) (ht : x.turnsOn i = true) :
    Watched i group x false := by
  refine ⟨hw.ordered, hw.plain, fun s c p hs hc hp => ?_⟩
  obtain ⟨h₁, h₂, h₃, h₄, -⟩ := hw.engaged s c p hs hc hp
  refine ⟨h₁, h₂, h₃, h₄, fun hsup => ?_⟩
  simp only [turnsOn, hs] at ht
  split at ht
  · split at ht
    · simp_all
    · cases ht
  · cases ht

lemma Watched.owed (hw : Watched i group x o) : Watched i group x true :=
  ⟨hw.ordered, hw.plain, fun s c p hs hc hp =>
    { hw.engaged s c p hs hc hp with fresh := fun _ => .inl rfl }⟩

theorem Watched.move (hw : Watched i group x o) (hc : Calm i group x m) :
    Watched i group (x.move i m).1 (x.owes i m o) := by
  by_cases hm : m = .work i
  · subst hm
    have hmv : x.move i (.work i) = x.step i := if_pos rfl
    have ha := hc.stored
    rw [hmv] at ha ⊢
    by_cases ho : outlook (x.move i (.work i)).1.traffic.handset i =
        outlook x.traffic.handset i
    · have how : x.owes i (.work i) o = if x.turnsOn i then false else o := by
        simp [owes, ho]
      rw [how]
      cases ht : x.turnsOn i with
      | true => exact (hw.of_turnsOn ht).step ha
      | false => exact hw.step ha
    · have how : x.owes i (.work i) o = true := if_pos ho
      rw [how]
      exact (hw.step ha).owed
  · exact hw.around hm hc

def CalmRun (i : Nat) (group : String) : Closeup → List Traffic.Move → Prop
  | _, [] => True
  | x, m :: ms => Calm i group x m ∧ CalmRun i group (x.move i m).1 ms

instance : ∀ x ms, Decidable (CalmRun i group x ms)
  | _, [] => inferInstanceAs (Decidable True)
  | x, m :: ms =>
    have := instDecidableCalmRun (x.move i m).1 ms
    inferInstanceAs (Decidable (_ ∧ _))

def owing (i : Nat) : Closeup → List Traffic.Move → Bool → Bool
  | _, [], o => o
  | x, m :: ms, o => owing i (x.move i m).1 ms (x.owes i m o)

theorem Watched.run (hw : Watched i group x o) (hr : CalmRun i group x ms) :
    Watched i group (x.run i ms) (owing i x ms o) := by
  induction ms generalizing x o with
  | nil => exact hw
  | cons m ms ih => exact ih (hw.move hr.1) hr.2

def spawn (phones : List Phone) (store : Preference.Store) (disk : FileSystem)
    (groups : List String) : Closeup :=
  ⟨Traffic.spawn (Handset.fresh phones store disk) groups, none⟩

variable {phones : List Phone} {store : Preference.Store} {disk : FileSystem}
  {groups : List String}

lemma watched_spawn (hn : groups.length ≤ phones.length) (hg : groups[i]? = some group) :
    Watched i group (spawn phones store disk groups) o := by
  have hs : ∀ (j : Nat) (s : Service), (spawn phones store disk groups).traffic.services[j]? = some s →
      ∃ g, groups[j]? = some g ∧ s = .fresh g := by
    intro j s hs
    obtain ⟨g, hg, rfl⟩ := Option.map_eq_some_iff.1 ((List.getElem?_map ..).symm.trans hs)
    exact ⟨g, hg, rfl⟩
  refine ⟨⟨by simpa [spawn, Traffic.spawn, Handset.fresh] using hn, ?_⟩, fun s hs' k hk => ?_,
    fun s c p hs' hc _ => ?_⟩
  · refine Registry.owned_empty fun j => ?_
    rw [Traffic.ticket, Traffic.controller?]
    cases hj : (spawn phones store disk groups).traffic.services[j]? with
    | none => rfl
    | some s =>
      obtain ⟨g, -, rfl⟩ := hs j s hj
      rfl
  · obtain ⟨g, -, rfl⟩ := hs i s hs'
    cases hk
  · obtain ⟨g, hg', rfl⟩ := hs i s hs'
    obtain rfl := Option.some.inj hc
    obtain rfl := Option.some.inj (hg.symm.trans hg')
    have hn : ∀ {P : Prop}, false = true → P := fun h => absurd h Bool.false_ne_true
    exact ⟨rfl, rfl, ⟨fun _ => rfl, hn⟩, hn, hn⟩

structure Idle (x : Closeup) (i : Nat) (c : Controller) (p : Phone) : Prop where
  controller : x.traffic.controller? i = some c
  phone : x.traffic.handset.phones[i]? = some p
  task : x.task.isNone = true
  queue : ∀ s ∈ x.traffic.services[i]?, s.queue = []
  landed : (i, p.id) ∉ x.traffic.airborne
  supported : c.supported = true

lemma Watched.upToDate (hw : Watched i group x false) (hi : x.Idle i c p) :
    c.group = group ∧ c.UpToDate (x.sight p c) := by
  obtain ⟨s, hs, hc⟩ := Option.bind_eq_some_iff.1 hi.controller
  obtain ⟨-, h₂, -, -, h₅⟩ := hw.engaged s c p hs hc hi.phone
  refine ⟨h₂, ?_⟩
  obtain ho | ⟨-, ha | hm⟩ | hon := h₅ hi.supported
  · cases ho
  · exact absurd ha hi.landed
  · rw [Service.commands, hi.queue s hs] at hm
    cases hm
  · rwa [stage, Option.isNone_iff_eq_none.1 hi.task] at hon

theorem shown_of_not_owing {b : Bundle} (hn : groups.length ≤ phones.length)
    (hg : groups[i]? = some group) (hr : CalmRun i group (spawn phones store disk groups) ms)
    (ho : owing i (spawn phones store disk groups) ms false = false)
    (hx : (spawn phones store disk groups).run i ms = x) (hi : x.Idle i c p)
    (hv : p.subscription.isValid = true)
    (hb : x.traffic.handset.bundles.get? p.subscription = some b) :
    c.shownState = State.merge b.defaultState
        (x.traffic.handset.savedState group p.subscription) false ∧
      c.sync = b.sync := by
  have hw := (watched_spawn (o := false) hn hg).run hr
  rw [ho, hx] at hw
  obtain ⟨hc, hu⟩ := hw.upToDate hi
  rw [sight_eq hc] at hu
  obtain ⟨h₁, h₂, h₃⟩ := hu.shown b hv hb
  exact ⟨(if_pos h₁).trans h₂, h₃⟩

set_option maxRecDepth 10000 in
theorem shown_after_racing_install :
    let b := (Bundle.offering false).withSync .imsOnly
    let x := spawn [.fresh ⟨0⟩ ⟨1⟩] (.memory .empty) .empty [""]
    let ms : List Traffic.Move := [.change (.install ⟨1⟩ (.offering true)),
      .act 0 (.send 0 (.perform (.setSupported true))), .work 0, .work 0, .work 0, .work 0,
      .change (.install ⟨1⟩ b), .announce ⟨0⟩, .work 0, .work 0, .act 0 (.forward ⟨0⟩), .work 0,
      .work 0, .work 0, .work 0, .work 0, .work 0, .work 0, .work 0, .work 0, .work 0, .work 0]
    let c : Controller := ⟨"", some 0, true, true, .activated, .imsOnly, ⟨1⟩⟩
    (x.run 0 ms).traffic.controller? 0 = some c ∧ c.shownState = State.merge b.defaultState
      ((x.run 0 ms).traffic.handset.savedState "" ⟨1⟩) false ∧ c.sync = b.sync := by
  intro b x ms c
  let p : Phone := ⟨⟨0⟩, ⟨1⟩, [.activated, .activated]⟩
  have hc : (x.run 0 ms).traffic.controller? 0 = some c := by decide
  have hi : (x.run 0 ms).Idle 0 c p :=
    ⟨hc, by decide, by decide, by decide, by decide, by decide⟩
  have hr : CalmRun 0 "" x ms := by decide
  have ho : owing 0 x ms false = false := by decide
  have hb : (x.run 0 ms).traffic.handset.bundles.get? p.subscription = some b := by decide
  have hs := shown_of_not_owing (x := x.run 0 ms) (c := c) (p := p) (b := b) (by decide) rfl hr ho
    rfl hi (by decide) hb
  exact ⟨hc, hs⟩

end Closeup

end CallWaiting
