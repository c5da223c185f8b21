import CallWaiting.Proofs.Handset.Telling

/-!
What is demanded between two evaluations. While call waiting is handled on the handset, an interrogation
is told the state that was asked for last, and a request is served just if it is for voice. The record is
written when another state is asked for, and by the first request after the subscription was swapped.
While it is not handled, nothing is served and nothing changes.
-/

namespace CallWaiting

lemma ServiceClass.contains_voice (classes : ServiceClass) :
    classes.contains .voice = classes.bits.toNat.testBit 0 := by
  rw [contains, Nat.testBit_zero, decide_eq_decide, ← UInt32.toNat_inj, UInt32.toNat_and]
  exact iff_of_eq (congrArg (· = 1) (Nat.and_one_is_mod _))

namespace Controller

open Preference (Batch Fate)

inductive Demand where
  | request (enable : Bool) (classes : ServiceClass) (sink : Sink)
  | interrogate (sink : Sink)

def Answer.served : Answer → Bool
  | .handled yes => yes
  | .status s => s.isSome
  | .done | .state _ => false

namespace Demand

def operation : Demand → Operation
  | .request enable classes _ => .request enable classes
  | .interrogate _ => .interrogate

def sink : Demand → Sink
  | .request _ _ sink | .interrogate sink => sink

structure Answered (x : Demand) (t : Turn) (yes : Bool) (receipt : Option Receipt) : Prop where
  returned : t.answer.map Answer.served = some yes
  received : x.sink.receive t.sent = if x.sink = .live then receipt else none

end Demand

structure Untouched (c : Controller) (t : Turn) : Prop where
  controller : t.controller = c
  offers : t.offers = []
  pushes : t.pushes = []
  records : ∀ (h : Handset) i, (h.applyAll i t.effects).SameRecords h

inductive Handles (env : Surroundings) (c : Controller) (state : State) (own : Prop) (t : Turn) :
    Demand → Prop
  | told {sink : Sink}
    (ha : (Demand.interrogate sink).Answered t true
      (some (.status ⟨state, if state = .activated then .voice else .none⟩)))
    (hu : Untouched c t) : Handles env c state own t (.interrogate sink)
  | declined {enable : Bool} {classes : ServiceClass} {sink : Sink}
    (hv : classes.bits.toNat.testBit 0 = false)
    (ha : (Demand.request enable classes sink).Answered t false none)
    (hu : Untouched c t) : Handles env c state own t (.request enable classes sink)
  | kept {enable : Bool} {classes : ServiceClass} {sink : Sink}
    (hv : classes.bits.toNat.testBit 0 = true) (hn : .ofEnabled enable = state ∧ own)
    (ha : (Demand.request enable classes sink).Answered t true (some .completed))
    (hu : Untouched c t) : Handles env c state own t (.request enable classes sink)
  | written {enable : Bool} {classes : ServiceClass} {sink : Sink} {batch : Batch}
    (hv : classes.bits.toNat.testBit 0 = true) (hn : ¬ (.ofEnabled enable = state ∧ own))
    (hb : batch = (Record.mk env.subscription (.ofEnabled enable) .none).batch c.group env.phone)
    (hf : env.fate batch ≠ .crashed)
    (ha : (Demand.request enable classes sink).Answered t true (some .completed))
    (ho : t.offers = [(batch, env.fate batch)]) (hp : t.pushes = [.ofEnabled enable])
    (hc : t.controller =
      { c with state := .ofEnabled enable, lastSubscription := env.subscription }) :
    Handles env c state own t (.request enable classes sink)
  | broken {enable : Bool} {classes : ServiceClass} {sink : Sink} {batch : Batch}
    (hv : classes.bits.toNat.testBit 0 = true) (hn : ¬ (.ofEnabled enable = state ∧ own))
    (hb : batch = (Record.mk env.subscription (.ofEnabled enable) .none).batch c.group env.phone)
    (hf : env.fate batch = .crashed) (ha : t.answer = none) (hs : t.sent = none) (ho : t.offers = [(batch, .crashed)])
    (hp : t.pushes = []) (hc : t.controller = c) :
    Handles env c state own t (.request enable classes sink)

variable {env : Surroundings} {c : Controller} {op : Operation} {x : Demand} {t : Turn} {a : Answer}

lemma Demand.answered (ha : t.answer = some a) : x.Answered t a.served t.sent := by
  refine ⟨congrArg (Option.map Answer.served) ha, ?_⟩
  cases x.sink <;> rfl

lemma untouched (hc : t.controller = c) (ho : t.offers = []) (hp : t.pushes = []) : Untouched c t := by
  refine ⟨hc, ho, hp, fun h i => ?_⟩
  have hv := Handset.applyAll_sameVault h i t.effects
  rw [← Turn.offers, ho] at hv
  exact ⟨hv.store, hv.disk, Handset.phones_applyAll hp⟩

lemma IsMoot.untouched (h : c.IsMoot env op) : Untouched c (c.perform env op) :=
  Controller.untouched h.perform.controller h.perform.offers h.perform.pushes

lemma Demand.answered_perform (ha : (c.perform env op).answer = some (c.reply op)) :
    x.Answered (c.perform env op) (c.reply op).served (c.receipt? op) := by
  rw [← sent_perform (by rw [ha]; nofun)]
  exact answered ha

lemma IsMoot.answered (h : c.IsMoot env op) {x : Demand} :
    x.Answered (c.perform env op) (c.reply op).served (c.receipt? op) :=
  Demand.answered_perform h.rests.answer

structure IsServing (c : Controller) : Prop where
  state : c.state ≠ .notSupported
  sync : c.sync = .none

lemma IsServing.serves (hc : c.IsServing) (classes : ServiceClass) :
    c.serves classes = classes.bits.toNat.testBit 0 := by
  rw [Controller.serves, hc.sync, ← ServiceClass.contains_voice]
  simp [hc.state, Sync.isLocal]

lemma IsServing.intent (hc : c.IsServing) {enable : Bool} {classes : ServiceClass}
    (hv : classes.bits.toNat.testBit 0 = true) :
    c.intent env (.request enable classes) = (c, some ⟨.ofEnabled enable, .none, false⟩) := by
  simp only [Controller.intent, (hc.serves classes).trans hv, if_true, hc.sync]

lemma IsServing.isIdle_iff (hc : c.IsServing) {state : State} :
    Transition.IsIdle env ⟨state, .none, false⟩ c ↔
      state = c.state ∧ c.lastSubscription = env.subscription := by
  rw [Transition.IsIdle, isSettled_iff]
  simp only [hc.sync, and_true]
  rw [and_comm, eq_comm (a := c.state)]

lemma IsServing.handles_request (hc : c.IsServing) (env : Surroundings) {enable : Bool}
    {classes : ServiceClass} (hv : classes.bits.toNat.testBit 0 = true) (sink : Sink) :
    Handles env c c.state (c.lastSubscription = env.subscription)
      (c.perform env (.request enable classes)) (.request enable classes sink) := by
  have hi : c.intent env (.request enable classes) =
      (c, some ⟨.ofEnabled enable, .none, false⟩) := hc.intent hv
  have hs : c.serves classes = true := (hc.serves classes).trans hv
  have hr : c.reply (.request enable classes) = .handled true := congrArg Answer.handled hs
  have hr' : c.receipt? (.request enable classes) = some .completed := if_pos hs
  by_cases hd : Transition.IsIdle env ⟨.ofEnabled enable, .none, false⟩ c
  · have hm := isMoot_of_isIdle hi hd
    have ha := hm.answered (x := .request enable classes sink)
    rw [hr, hr'] at ha
    exact .kept hv (hc.isIdle_iff.1 hd) ha hm.untouched
  · have hm := perform_moves hi
    have hn := mt hc.isIdle_iff.2 hd
    have ha := answer_perform env c (.request enable classes)
    by_cases hf : env.fate (Transition.batch env ⟨.ofEnabled enable, .none, false⟩ c) = .crashed
    · have hb := hm.crashed.2 ⟨hd, hf⟩
      obtain ⟨hx, hp⟩ := hm.broken hb
      rw [hb] at ha
      exact .broken hv hn rfl hf ha (sent_broken ha) (hf ▸ hm.offers hd) hp hx
    · have hb := hm.answers hf
      have hx := hm.controller hb
      rw [recorded, ← hc.sync] at hx
      rw [hb] at ha
      have ha := Demand.answered_perform (x := .request enable classes sink) ha
      rw [hr, hr'] at ha
      exact .written hv hn rfl hf ha (hm.offers hd) (hm.pushes hb hd) hx

theorem IsServing.handles (hc : c.IsServing) (env : Surroundings) (x : Demand) :
    Handles env c c.state (c.lastSubscription = env.subscription) (c.perform env x.operation) x := by
  cases x with
  | interrogate sink =>
    have hm : c.IsMoot env .interrogate := isMoot_of_intent rfl
    have ha := hm.answered (x := .interrogate sink)
    have hl : c.state ≠ .notSupported ∧ c.sync.isLocal = true := ⟨hc.state, by rw [hc.sync]; rfl⟩
    rw [reply, receipt?, if_pos hl, if_pos hl] at ha
    exact .told ha hm.untouched
  | request enable classes sink =>
    cases hv : classes.bits.toNat.testBit 0 with
    | true => exact hc.handles_request env hv sink
    | false =>
      have hs := (hc.serves classes).trans hv
      have hm : c.IsMoot env (.request enable classes) :=
        isMoot_of_intent (by simp [Controller.intent, hs])
      have ha := hm.answered (x := .request enable classes sink)
      rw [reply, receipt?, hs] at ha
      exact .declined hv ha hm.untouched

structure Asked where
  env : Surroundings
  demand : Demand

def Asked.occasion (x : Asked) : Occasion :=
  ⟨x.env, x.demand.operation⟩

def Execution.choice? (e : Execution) : Option State :=
  match e.op with
  | .request enable _ =>
    if e.turn.answer.map Answer.served = some true then some (.ofEnabled enable) else none
  | .hear _ | .update _ _ _ | .setSupported _ | .interrogate | .readState => none

def choices (c : Controller) (xs : List Asked) : List State :=
  (c.executions (xs.map Asked.occasion)).filterMap Execution.choice?

lemma choices_cons_none {y : Asked} (h : Execution.choice? ⟨y.env, c, y.demand.operation⟩ = none)
    (xs : List Asked) :
    c.choices (y :: xs) = (c.perform y.env y.demand.operation).controller.choices xs :=
  List.filterMap_cons_none h

lemma choices_cons_some {y : Asked} {z : State}
    (h : Execution.choice? ⟨y.env, c, y.demand.operation⟩ = some z) (xs : List Asked) :
    c.choices (y :: xs) = z :: (c.perform y.env y.demand.operation).controller.choices xs :=
  List.filterMap_cons_some h

def following (c : Controller) (s : SubscriptionId) (ys : List State) : Controller :=
  { c with
    state := ys.getLastD c.state
    lastSubscription := if ys = [] then c.lastSubscription else s }

lemma following_cons (c : Controller) (s : SubscriptionId) (y : State) (ys : List State) :
    c.following s (y :: ys) = (c.following s [y]).following s ys := by
  cases ys with
  | nil => rfl
  | cons z zs => simp only [following, List.getLastD_cons, List.cons_ne_nil, if_false]

lemma following_lastSubscription {s : SubscriptionId} {ys : List State} :
    (c.following s ys).lastSubscription = s ↔ ys ≠ [] ∨ c.lastSubscription = s := by
  by_cases hy : ys = [] <;> simp [following, hy]

lemma IsServing.perform_or (hc : c.IsServing) (env : Surroundings) (x : Demand) :
    (Execution.choice? ⟨env, c, x.operation⟩ = none ∧
      (c.perform env x.operation).controller = c) ∨
    ∃ enable, Execution.choice? ⟨env, c, x.operation⟩ = some (.ofEnabled enable) ∧
      (c.perform env x.operation).controller = c.following env.subscription [.ofEnabled enable] := by
  cases hc.handles env x with
  | told ha hu => exact .inl ⟨rfl, hu.controller⟩
  | declined hv ha hu =>
    refine .inl ⟨if_neg fun h => ?_, hu.controller⟩
    cases ha.returned.symm.trans h
  | @kept enable classes sink hv hn ha hu =>
    -- nothing is written, but the record in mind already is the one that was asked for
    refine .inr ⟨enable, if_pos ha.returned, hu.controller.trans ?_⟩
    rw [hn.1, ← show c.lastSubscription = env.subscription from hn.2]
    rfl
  | written hv hn hb hf ha ho hp hx => exact .inr ⟨_, if_pos ha.returned, hx⟩
  | broken hv hn hb hf ha hs ho hp hx =>
    refine .inl ⟨if_neg fun h => ?_, hx⟩
    rw [Execution.turn, show (Controller.perform _ _ _).answer = none from ha] at h
    cases h

lemma course_asked (c : Controller) (y : Asked) (xs : List Asked) :
    c.course ((y :: xs).map Asked.occasion) =
      (c.perform y.env y.demand.operation).controller.course (xs.map Asked.occasion) := rfl

theorem IsServing.course (hc : c.IsServing) {s : SubscriptionId} {xs : List Asked}
    (hs : ∀ y ∈ xs, y.env.subscription = s) :
    (c.course (xs.map Asked.occasion)).IsServing ∧
      c.course (xs.map Asked.occasion) = c.following s (c.choices xs) := by
  induction xs generalizing c with
  | nil => exact ⟨hc, rfl⟩
  | cons y xs ih =>
    obtain ⟨hy, hxs⟩ := List.forall_mem_cons.1 hs
    rw [course_asked]
    obtain ⟨hn, hx⟩ | ⟨enable, hz, hx⟩ := hc.perform_or y.env y.demand
    · rw [choices_cons_none hn, hx]
      exact ih hc hxs
    · rw [choices_cons_some hz, following_cons, hx, hy]
      exact ih ⟨State.ofEnabled_ne enable, hc.sync⟩ hxs

lemma answered_of_not_serving (hn : ¬ c.IsServing) (env : Surroundings) (x : Demand) :
    x.Answered (c.perform env x.operation) false none ∧ Untouched c (c.perform env x.operation) := by
  have hl : ¬ (c.state ≠ .notSupported ∧ c.sync.isLocal = true) :=
    fun h => hn ⟨h.1, of_decide_eq_true h.2⟩
  cases x with
  | interrogate sink =>
    have hm : c.IsMoot env .interrogate := isMoot_of_intent rfl
    have ha := hm.answered (x := .interrogate sink)
    rw [reply, receipt?, if_neg hl, if_neg hl] at ha
    exact ⟨ha, hm.untouched⟩
  | request enable classes sink =>
    have hs : c.serves classes = false := by
      refine Bool.eq_false_iff.2 fun h => hl ?_
      simp only [serves, Bool.and_eq_true, decide_eq_true_eq] at h
      exact ⟨h.1.1, h.2⟩
    have hm : c.IsMoot env (.request enable classes) := isMoot_of_intent (by simp [intent, hs])
    have ha := hm.answered (x := .request enable classes sink)
    rw [reply, receipt?, hs] at ha
    exact ⟨ha, hm.untouched⟩

lemma course_of_not_serving (hn : ¬ c.IsServing) (xs : List Asked) :
    c.course (xs.map Asked.occasion) = c := by
  induction xs with
  | nil => rfl
  | cons y xs ih => rwa [course_asked, (answered_of_not_serving hn y.env y.demand).2.controller]

theorem handles_demands (c : Controller) {s : SubscriptionId} {xs : List Asked} {x : Asked}
    (hs : ∀ y ∈ x :: xs, y.env.subscription = s) :
    let choices := c.choices xs
    let now := c.course (xs.map Asked.occasion)
    let t := now.perform x.env x.demand.operation
    (c.state ≠ .notSupported ∧ c.sync = .none →
      now = { c with
        state := choices.getLastD c.state
        lastSubscription := if choices = [] then c.lastSubscription else s } ∧
      Handles x.env now (choices.getLastD c.state) (choices ≠ [] ∨ c.lastSubscription = s) t
        x.demand) ∧
    (c.state = .notSupported ∨ c.sync ≠ .none →
      now = c ∧ x.demand.Answered t false none ∧ Untouched c t) := by
  intro choices now t
  obtain ⟨hx, hxs⟩ := List.forall_mem_cons.1 hs
  constructor
  · rintro ⟨hn, hl⟩
    obtain ⟨hi, he⟩ := IsServing.course ⟨hn, hl⟩ hxs
    have hh := hi.handles x.env x.demand
    have hst : now.state = choices.getLastD c.state := congrArg Controller.state he
    have hla : (now.lastSubscription = x.env.subscription) =
        (choices ≠ [] ∨ c.lastSubscription = s) := by
      rw [hx, show now = _ from he]
      exact propext following_lastSubscription
    refine ⟨he, ?_⟩
    rw [← hst, ← hla]
    exact hh
  · intro hn
    have hi : ¬ c.IsServing := fun h => hn.elim h.state (absurd h.sync)
    have he : now = c := course_of_not_serving hi xs
    have ha := answered_of_not_serving hi x.env x.demand
    rw [← he] at ha
    exact ⟨he, ha.1, he ▸ ha.2⟩

theorem handles_demands_after_swap :
    let h := (Handset.Direct.single.run [.operate 0 (.update ⟨1⟩ (some (.offering true)) false)]).handset
    let p : Phone := .fresh ⟨0⟩ ⟨2⟩
    let c : Controller := ⟨"", none, false, true, .activated, .none, ⟨1⟩⟩
    let refusing := ({ h with refusing := true } : Handset).surroundings p
    let xs : List Asked := [⟨h.surroundings p, .interrogate .absent⟩,
      ⟨refusing, .request true ⟨3⟩ .abandoned⟩, ⟨h.surroundings p, .request true ⟨4⟩ .live⟩,
      ⟨h.surroundings p, .request false ⟨1⟩ .live⟩]
    let x : Asked := ⟨refusing, .interrogate .live⟩
    let now := c.course (xs.map Asked.occasion)
    (∀ y ∈ x :: xs, y.env.subscription = ⟨2⟩) ∧ c.choices xs = [.activated, .notActivated] ∧
      now = { c with state := .notActivated, lastSubscription := ⟨2⟩ } ∧
      Handles x.env now .notActivated (c.choices xs ≠ [] ∨ c.lastSubscription = ⟨2⟩)
        (now.perform x.env x.demand.operation) x.demand := by
  intro h p c refusing xs x now
  have hs : ∀ y ∈ x :: xs, y.env.subscription = ⟨2⟩ := by
    simp only [x, xs, List.forall_mem_cons]
    exact ⟨rfl, rfl, rfl, rfl, rfl, List.forall_mem_nil _⟩
  have hc : c.choices xs = [.activated, .notActivated] := by decide
  obtain ⟨he, hh⟩ := (handles_demands c hs).1 ⟨nofun, rfl⟩
  rw [hc] at he hh
  exact ⟨hs, hc, he, hc ▸ hh⟩

end Controller

end CallWaiting
