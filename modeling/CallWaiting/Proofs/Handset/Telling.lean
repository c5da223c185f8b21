import CallWaiting.Proofs.Controller.Withdrawn
import CallWaiting.Proofs.Handset.Career
import CallWaiting.Proofs.Handset.Separation
import CallWaiting.Proofs.Service.Sequential

/-!
What a phone hears. An operation offers at most one batch, the record that the controller has in mind
from then on, and pushes its state afterwards. So whatever the store makes of the batches, the phone is
told the states of those that did not crash, and no other.
-/

namespace CallWaiting

open Preference (Batch Fate)

namespace Controller

variable {env : Surroundings} {c c' : Controller} {op : Operation}

def Effect.isDeed : Effect → Bool
  | .offer _ _ | .push _ => true
  | .register | .withdraw _ | .note _ => false

namespace Turn

def deeds (t : Turn) : List Effect :=
  t.effects.filter Effect.isDeed

def Orderly (t : Turn) : Prop :=
  t.deeds = t.offers.map (fun o => .offer o.1 o.2) ++ t.pushes.map .push

lemma filter_isDeed_eq_nil {es : List Effect} (ho : es.filterMap Effect.offer? = [])
    (hp : es.filterMap Effect.push? = []) : es.filter Effect.isDeed = [] := by
  rw [List.filter_eq_nil_iff]
  intro e he
  have ho := List.filterMap_eq_nil_iff.1 ho e he
  have hp := List.filterMap_eq_nil_iff.1 hp e he
  cases e with
  | offer b fate => cases ho
  | push state => cases hp
  | register | withdraw t | note n => exact Bool.false_ne_true

lemma Orderly.after {t : Turn} (h : t.Orderly) {es : List Effect}
    (ho : es.filterMap Effect.offer? = []) (hp : es.filterMap Effect.push? = []) :
    (t.after es).Orderly := by
  have hd := filter_isDeed_eq_nil ho hp
  simp only [Orderly, deeds, offers, pushes] at h
  simp only [Orderly, deeds, offers, pushes, Turn.after, List.filter_append, List.filterMap_append,
    ho, hp, hd, List.nil_append, h]

lemma Orderly.sending {t : Turn} (h : t.Orderly) (r : Option Receipt) : (t.sending r).Orderly := h

lemma Orderly.answering {t : Turn} (h : t.Orderly) (a : Answer) : (t.answering a).Orderly := h

lemma orderly_rest (c : Controller) (a : Answer) : (rest c a).Orderly := rfl

end Turn

lemma moveTo_orderly (env : Surroundings) (c : Controller) (state : State) (sync : Sync)
    (enforced : Bool) : (c.moveTo env state sync enforced).Orderly := by
  rw [moveTo]
  split
  · rfl
  · simp only
    split <;> rfl

lemma update_orderly (env : Surroundings) (c : Controller) (s : SubscriptionId)
    (bundle : Option Bundle) (enforced : Bool) : (c.update env s bundle enforced).Orderly := by
  cases bundle with
  | none => exact Turn.orderly_rest _ _
  | some b => exact (moveTo_orderly _ _ _ _ _).after rfl rfl

lemma reevaluate_orderly (env : Surroundings) (c : Controller) : (c.reevaluate env).Orderly := by
  rw [reevaluate]
  split
  · exact update_orderly _ _ _ _ _
  · exact (Turn.orderly_rest _ _).after rfl rfl

theorem perform_orderly (env : Surroundings) (c : Controller) (op : Operation) :
    (c.perform env op).Orderly := by
  cases op with
  | hear slot =>
    simp only [perform, hear]
    split
    · exact (Turn.orderly_rest _ _).after rfl rfl
    · split
      · exact Turn.orderly_rest _ _
      · exact reevaluate_orderly env c
  | update s bundle enforced => exact update_orderly env c s bundle enforced
  | setSupported v =>
    simp only [perform, setSupported]
    split
    · exact Turn.orderly_rest _ _
    · cases v with
      | true =>
        obtain ⟨ho, hp⟩ := registering_silent { c with supported := true }
        refine (reevaluate_orderly env _).after ?_ ?_
        · simp [List.filterMap_cons, ho, Effect.offer?]
        · simp [List.filterMap_cons, hp, Effect.push?]
      | false =>
        obtain ⟨ho, hp⟩ := withdrawing_silent env { c with supported := false }
        refine (moveTo_orderly env _ _ _ _).after ?_ ?_
        · simp [List.filterMap_cons, ho, Effect.offer?]
        · simp [List.filterMap_cons, hp, Effect.push?]
  | interrogate =>
    simp only [perform, interrogate]
    split
    · exact Turn.orderly_rest _ _
    · split
      · exact ((Turn.orderly_rest _ _).sending _).after rfl rfl
      · exact (Turn.orderly_rest _ _).after rfl rfl
  | request enable serviceClass =>
    simp only [perform, request]
    split
    · exact Turn.orderly_rest _ _
    · split
      · have hm := moveTo_orderly env c (.ofEnabled enable) c.sync false
        exact ((hm.sending _).answering _).after rfl rfl
      · exact (Turn.orderly_rest _ _).after rfl rfl
  | readState => exact Turn.orderly_rest _ _

structure Record where
  subscription : SubscriptionId
  state : State
  sync : Sync
deriving DecidableEq

def Record.batch (x : Record) (group : String) (p : PhoneId) : Batch :=
  ⟨group, [(⟨.lastSubscription, p.number⟩, x.subscription.number),
    (⟨.state, x.subscription.number⟩, x.state.code), (⟨.sync, p.number⟩, x.sync.code)]⟩

def record (c : Controller) : Record :=
  ⟨c.lastSubscription, c.state, c.sync⟩

lemma SameRecord.record (h : c.SameRecord c') : c.record = c'.record := by
  rw [Controller.record, h.lastSubscription, h.state, h.sync, ← Controller.record]

namespace Execution

def begun (e : Execution) : Record :=
  if e.controller.Loads e.op then (e.controller.load e.env).record else e.controller.record

inductive Tells (e : Execution) (group : String) (p : PhoneId) : Prop
  | nothing (hd : e.turn.deeds = []) (hr : e.turn.controller.record = e.begun)
  | record (x : Record) (hs : x.subscription = e.env.subscription)
    (hf : e.env.fate (x.batch group p) ≠ .crashed)
    (hd : e.turn.deeds =
      [.offer (x.batch group p) (e.env.fate (x.batch group p)), .push x.state])
    (hr : e.turn.controller.record = x)
  | crash (x : Record) (hs : x.subscription = e.env.subscription)
    (hd : e.turn.deeds = [.offer (x.batch group p) .crashed])
    (hr : e.turn.controller.record = e.begun)

lemma record_intent (e : Execution) : (e.controller.intent e.env e.op).1.record = e.begun := by
  rw [begun]
  split
  · exact (intent_loads ‹_›).record
  · exact (intent_unloaded e.env ‹_›).1.record

theorem tells (e : Execution) : e.Tells e.controller.group e.env.phone := by
  have ho : e.turn.Orderly := perform_orderly e.env e.controller e.op
  rw [Turn.Orderly] at ho
  obtain hr | ⟨y, hx, hy⟩ := rests_or e.env e.controller e.op
  · have hw := perform_rests hr
    have hof : e.turn.offers = [] := hw.offers
    have hpu : e.turn.pushes = [] := hw.pushes
    rw [hof, hpu] at ho
    refine .nothing ho ?_
    rw [turn, hw.controller, ← record_intent]
    rfl
  · have hca := perform_carried hx hy
    let x : Record := ⟨e.env.subscription, y.state, y.sync⟩
    have hb : y.batch e.env (e.controller.intent e.env e.op).1 =
        x.batch e.controller.group e.env.phone := by
      rw [Transition.batch, intent_group]
      rfl
    have hof : e.turn.offers = _ := hca.offers
    rw [hof] at ho
    by_cases hf : e.env.fate (y.batch e.env (e.controller.intent e.env e.op).1) = .crashed
    · obtain ⟨hc, hp, -⟩ := hca.crashed hf
      have hp : e.turn.pushes = [] := hp
      rw [hp, hf, hb] at ho
      refine .crash x rfl ho ?_
      rw [turn, hc, record_intent]
    · obtain ⟨hc, hp, -⟩ := hca.done hf
      have hp : e.turn.pushes = [y.state] := hp
      rw [hp, hb] at ho
      rw [hb] at hf
      refine .record x rfl hf ho ?_
      rw [turn, hc]
      rfl

end Execution

lemma Turn.offers_deeds (t : Turn) : t.offers = t.deeds.filterMap Effect.offer? := by
  rw [deeds, List.filterMap_filter, offers]
  congr
  funext e
  cases e <;> rfl

lemma Turn.pushes_deeds (t : Turn) : t.pushes = t.deeds.filterMap Effect.push? := by
  rw [deeds, List.filterMap_filter, pushes]
  congr
  funext e
  cases e <;> rfl

def heeded (os : List (Batch × Fate)) : List Int32 :=
  (os.filter (·.2 ≠ .crashed)).flatMap (·.1.states)

lemma heeded_append (os os' : List (Batch × Fate)) : heeded (os ++ os') = heeded os ++ heeded os' := by
  rw [heeded, List.filter_append, List.flatMap_append, ← heeded, ← heeded]

lemma Execution.Tells.pushes {e : Execution} {group : String} {p : PhoneId} (h : e.Tells group p) :
    e.turn.pushes.map State.code = heeded e.turn.offers := by
  rw [e.turn.pushes_deeds, e.turn.offers_deeds]
  cases h with
  | nothing hd => simp [hd, heeded]
  | record x hs hf hd =>
    have hb : (x.batch group p).states = [x.state.code] := states_recordBatch _ _ _ _ _
    simp [hd, List.filterMap_cons, heeded, Effect.push?, Effect.offer?, hf, hb]
  | crash x hs hd => simp [hd, heeded, Effect.push?, Effect.offer?]

structure Occasion where
  env : Surroundings
  op : Operation

def course (c : Controller) : List Occasion → Controller
  | [] => c
  | x :: xs => (c.perform x.env x.op).controller.course xs

def executions (c : Controller) : List Occasion → List Execution
  | [] => []
  | x :: xs => ⟨x.env, c, x.op⟩ :: (c.perform x.env x.op).controller.executions xs

lemma course_append (c : Controller) (xs ys : List Occasion) :
    c.course (xs ++ ys) = (c.course xs).course ys := by
  induction xs generalizing c with
  | nil => rfl
  | cons x xs ih => exact ih _

lemma executions_append (c : Controller) (xs ys : List Occasion) :
    c.executions (xs ++ ys) = c.executions xs ++ (c.course xs).executions ys := by
  induction xs generalizing c with
  | nil => rfl
  | cons x xs ih => rw [List.cons_append, executions, executions, ih, course, List.cons_append]

structure Reported (group : String) (p : PhoneId) (es : List Execution) : Prop where
  tells : ∀ e ∈ es, e.Tells group p
  pushed : (es.flatMap (·.turn.pushes)).map State.code = heeded (es.flatMap (·.turn.offers))

theorem reported_executions {p : PhoneId} {xs : List Occasion} (c : Controller)
    (hp : ∀ x ∈ xs, x.env.phone = p) : Reported c.group p (c.executions xs) := by
  induction xs generalizing c with
  | nil => exact ⟨List.forall_mem_nil _, rfl⟩
  | cons x xs ih =>
    let e : Execution := ⟨x.env, c, x.op⟩
    have he : e.Tells c.group p := by
      have ht := e.tells
      rwa [hp x List.mem_cons_self] at ht
    have hxs := ih (c.perform x.env x.op).controller fun y hy => hp y (List.mem_cons_of_mem _ hy)
    rw [perform_group] at hxs
    refine ⟨?_, ?_⟩
    · rw [executions, List.forall_mem_cons]
      exact ⟨he, hxs.tells⟩
    · rw [executions, List.flatMap_cons, List.flatMap_cons, List.map_append, heeded_append,
        he.pushes, hxs.pushed]

end Controller

namespace Handset.Direct

open Controller (Effect Operation Occasion Reported)

variable {d d' : Direct} {i : Nat} {c : Controller} {p : Phone} {xs ys : List Occasion}
  {hs hs' : List Happening} {r : Request} {rs : List Request}

def occasion (i : Nat) (d : Direct) (op : Operation) : List Occasion :=
  (d.handset.phones[i]?.map fun p => ⟨d.handset.surroundings p, op⟩).toList

def hearings (i : Nat) (d : Direct) : List PhoneId → List Occasion
  | [] => []
  | slot :: slots => occasion i d (.hear slot) ++ hearings i (d.operate i (.hear slot)).1 slots

def met (i : Nat) (d : Direct) : Request → List Occasion
  | .operate j op => if i = j then occasion i d op else []
  | .pump j =>
    if i = j then hearings i { d with queues := d.queues.set i [] } (d.queues[i]?.getD []) else []
  | .change _ | .notify _ | .drop _ | .rebuild _ _ => []

def occasions (i : Nat) (d : Direct) : List Request → List Occasion
  | [] => []
  | r :: rs => met i d r ++ occasions i (d.step r).1 rs

def Request.Keeps (i : Nat) : Request → Prop
  | .drop j | .rebuild j _ => i ≠ j
  | .change _ | .notify _ | .operate _ _ | .pump _ => True

instance (i : Nat) : (r : Request) → Decidable (r.Keeps i)
  | .drop _ | .rebuild _ _ => inferInstanceAs (Decidable (_ ≠ _))
  | .change _ | .notify _ | .operate _ _ | .pump _ => inferInstanceAs (Decidable True)

structure GoesThrough (i : Nat) (c : Controller) (p : Phone) (xs : List Occasion) (d' : Direct)
    (hs : List Happening) : Prop where
  controller : d'.controller? i = some (c.course xs)
  line : ∀ x ∈ xs, x.env.phone = p.id
  effects : own i hs = (c.executions xs).flatMap (·.turn.effects)
  phone : ∃ p', d'.handset.phones[i]? = some p' ∧ p'.id = p.id ∧
    p'.told = p.told ++ (c.executions xs).flatMap (·.turn.pushes)

lemma GoesThrough.trans (h : GoesThrough i c p xs d hs) (h' : ∀ p', d.handset.phones[i]? = some p' →
    GoesThrough i (c.course xs) p' ys d' hs') : GoesThrough i c p (xs ++ ys) d' (hs ++ hs') := by
  obtain ⟨q, hq, hi, ht⟩ := h.phone
  have hy := h' q hq
  obtain ⟨q', hq', hi', ht'⟩ := hy.phone
  refine ⟨?_, ?_, ?_, q', hq', hi'.trans hi, ?_⟩
  · rw [hy.controller, Controller.course_append]
  · rw [List.forall_mem_append]
    exact ⟨h.line, fun x hx => (hy.line x hx).trans hi⟩
  · rw [own_append, h.effects, hy.effects, Controller.executions_append, List.flatMap_append]
  · rw [ht', ht, Controller.executions_append, List.flatMap_append, List.append_assoc]

lemma goesThrough_nil (hc : d.controller? i = some c) (hp : d.handset.phones[i]? = some p) :
    GoesThrough i c p [] d [] :=
  ⟨hc, List.forall_mem_nil _, rfl, p, hp, rfl, (List.append_nil _).symm⟩

lemma goesThrough_operate (hc : d.controller? i = some c) (hp : d.handset.phones[i]? = some p)
    (op : Operation) : GoesThrough i c p (occasion i d op) (d.operate i op).1 (d.operate i op).2.2 := by
  have hx : occasion i d op = [⟨d.handset.surroundings p, op⟩] := by
    rw [occasion, hp]
    rfl
  have ht : (d.handset.operate i c op).2 = c.perform (d.handset.surroundings p) op := by
    rw [operate_eq hp]
  rw [hx]
  refine ⟨?_, ?_, ?_, ?_⟩
  · rw [controller?_operate hc, ht]
    rfl
  · simp only [List.forall_mem_singleton]
    rfl
  · rw [operate_some hc, own_happenings, ht]
    exact (List.append_nil _).symm
  · refine ⟨p.pushAll (d.handset.operate i c op).2.pushes, ?_, rfl, ?_⟩
    · rw [operate_some hc]
      exact Handset.phone_operate hp c op
    · rw [ht, Controller.executions, Controller.executions, List.flatMap_singleton]
      rfl

lemma goesThrough_deliver (hc : d.controller? i = some c) (hp : d.handset.phones[i]? = some p)
    (slots : List PhoneId) :
    GoesThrough i c p (hearings i d slots) (d.deliver i slots).1 (d.deliver i slots).2 := by
  induction slots generalizing d c p with
  | nil => exact goesThrough_nil hc hp
  | cons slot slots ih =>
    have hh := goesThrough_operate hc hp (.hear slot)
    rw [deliver_cons, hearings]
    exact hh.trans fun q hq => ih hh.controller hq

lemma goesThrough_elsewhere (hc : d.controller? i = some c) (hp : d.handset.phones[i]? = some p)
    (hr : r.place? ≠ some i) : GoesThrough i c p [] (d.step r).1 (d.step r).2.2 := by
  have ho := own_elsewhere (d := d) hr
  have hh := told_step_ne (d := d) hr
  rw [hp] at hh
  obtain ⟨q, hq, he⟩ := Option.map_eq_some_iff.1 hh
  have ht : q.told = p.told := congrArg Prod.snd he
  refine ⟨?_, List.forall_mem_nil _, ho, q, hq, congrArg Prod.fst he, ?_⟩
  · rw [controller?_step_ne hr, hc, Controller.course]
  · rw [ht]
    exact (List.append_nil _).symm

theorem goesThrough_step (hc : d.controller? i = some c) (hp : d.handset.phones[i]? = some p)
    (hk : r.Keeps i) : GoesThrough i c p (met i d r) (d.step r).1 (d.step r).2.2 := by
  by_cases hr : r.place? = some i
  · cases r with
    | change x | notify slot => cases hr
    | operate j op =>
      obtain rfl : j = i := Option.some.inj hr
      rw [met, if_pos rfl]
      exact goesThrough_operate hc hp op
    | pump j =>
      obtain rfl : j = i := Option.some.inj hr
      rw [met, if_pos rfl]
      cases hq : d.queues[j]? with
      | none =>
        have hst : d.step (.pump j) = (d, .nothing, []) := by simp only [step, hc, hq]
        rw [hst]
        exact goesThrough_nil hc hp
      | some slots =>
        have hst : d.step (.pump j) = (({ d with queues := d.queues.set j [] }.deliver j slots).1,
            .delivered slots, ({ d with queues := d.queues.set j [] }.deliver j slots).2) := by
          simp only [step, hc, hq]
        rw [hst]
        exact goesThrough_deliver (d := { d with queues := d.queues.set j [] }) hc hp slots
    | drop j | rebuild j g => exact absurd (Option.some.inj hr).symm hk
  · have hm : met i d r = [] := by
      cases r with
      | operate j op | pump j => exact if_neg fun h => hr (congrArg some h.symm)
      | change x | notify slot | drop j | rebuild j g => rfl
    rw [hm]
    exact goesThrough_elsewhere hc hp hr

theorem goesThrough_run (hc : d.controller? i = some c) (hp : d.handset.phones[i]? = some p)
    (hk : ∀ r ∈ rs, r.Keeps i) : GoesThrough i c p (occasions i d rs) (d.run rs) (d.happenings rs) := by
  induction rs generalizing d c p with
  | nil => exact goesThrough_nil hc hp
  | cons r rs ih =>
    have hh := goesThrough_step hc hp (hk r List.mem_cons_self)
    exact hh.trans fun q hq => ih hh.controller hq fun x hx => hk x (List.mem_cons_of_mem _ hx)

/-- What a controller offers and pushes, whatever surrounds each of its operations and whatever becomes
of the batches; and the phone of its place is told just what it pushes there. -/
theorem hears_offered (hc : d.controller? i = some c) (hp : d.handset.phones[i]? = some p)
    (hk : ∀ r ∈ rs, r.Keeps i) :
    (∀ xs : List Occasion, (∀ x ∈ xs, x.env.phone = p.id) →
      Reported c.group p.id (c.executions xs)) ∧
    Reported c.group p.id (c.executions (occasions i d rs)) ∧
      GoesThrough i c p (occasions i d rs) (d.run rs) (d.happenings rs) := by
  have hf := goesThrough_run hc hp hk
  exact ⟨fun xs hx => Controller.reported_executions c hx,
    Controller.reported_executions c hf.line, hf⟩

set_option maxRecDepth 10000 in
theorem hears_offered_poisoned :
    let rs : List Request := [.change (.install ⟨1⟩ (.offering true)), .operate 0 (.setSupported true),
      .change (.refuse true), .operate 0 (.request false .voice), .change .poison, .notify ⟨0⟩, .pump 0,
      .change (.refuse false), .change (.swap 0 ⟨2⟩),
      .operate 0 (.update ⟨2⟩ (some (.offering true)) false)]
    let c : Controller := .fresh ""
    let p : Phone := .fresh ⟨0⟩ ⟨1⟩
    (offers 0 (single.happenings rs)).map (·.2) =
        [.stored, .refused (.storage "disk full"), .crashed, .stored] ∧
      pushes 0 (single.happenings rs) = [.activated, .notActivated, .activated] ∧
      Reported c.group p.id (c.executions (occasions 0 single rs)) ∧
      GoesThrough 0 c p (occasions 0 single rs) (single.run rs) (single.happenings rs) := by
  intro rs c p
  have hk : ∀ r ∈ rs, r.Keeps 0 := by decide
  obtain ⟨-, hr, hf⟩ := hears_offered (d := single) (i := 0) (c := c) (p := p) rfl rfl hk
  exact ⟨by decide, by decide, hr, hf⟩

end Handset.Direct

end CallWaiting
