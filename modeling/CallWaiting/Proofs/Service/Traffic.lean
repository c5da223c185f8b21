import Mathlib.Tactic.Lemma
import CallWaiting.Handset.Direct
import CallWaiting.Service.Exchange

/-!
The services of a handset when nobody waits for anybody else. Requests, slot changes and changes
from outside arrive in any order, and in between any task may take its next step.
-/

namespace CallWaiting

open Controller (Operation Answer)
open Handset (Happening Change Direct)

def Entry.forget (n : Nat) (e : Entry) : Entry :=
  if e.waiting = some n then { e with waiting := none } else e

namespace Service

inductive Act where
  | send (handle : Nat) (c : Command)
  | ask (handle : Nat) (op : Operation)
  | forward (slot : PhoneId)
  | abandon (request : Nat)
  | shutdown (handle : Nat)
  | cloneHandle (handle : Nat)
  | dropHandle (handle : Nat)
  | keepSender (handle : Nat)
  | dropSender
deriving DecidableEq

def act (s : Service) : Act → Service
  | .send k c => if Exchange.canSend s k then s.enqueue c none else s
  | .ask k op => if Exchange.canSend s k then s.ask op else s
  | .forward slot => if s.isReachable then s.enqueue (.perform (.hear slot)) none else s
  | .abandon n => { s with queue := s.queue.map (·.forget n) }
  | .shutdown k => if s.handle? k then s.beginShutdown else s
  | .cloneHandle k => if s.handle? k then s.cloneHandle else s
  | .dropHandle k => s.dropHandle k
  | .keepSender k => if s.handle? k then { s with keptSender := true } else s
  | .dropSender => { s with keptSender := false }

def entered? (s : Service) : Act → Option Entry
  | .send k c => if s.isRunning && Exchange.canSend s k then some ⟨c, none⟩ else none
  | .ask k op =>
    if s.isRunning && Exchange.canSend s k then some ⟨.perform op, some s.nextRequest⟩ else none
  | .forward slot => if s.isReachable then some ⟨.perform (.hear slot), none⟩ else none
  | .shutdown k => if s.isRunning && s.handle? k then some ⟨.shutdown, none⟩ else none
  | .abandon _ | .cloneHandle _ | .dropHandle _ | .keepSender _ | .dropSender => none

lemma act_apart (s : Service) (a : Act) : (s.act a).controller = s.controller ∧
    (s.act a).phase = s.phase ∧ (s.act a).replies = s.replies := by
  have he : ∀ c w, (s.enqueue c w).controller = s.controller ∧ (s.enqueue c w).phase = s.phase ∧
      (s.enqueue c w).replies = s.replies := by
    intro c w
    rw [enqueue]
    split <;> exact ⟨rfl, rfl, rfl⟩
  cases a with
  | send k c =>
    simp only [act]
    split
    · exact he c none
    · exact ⟨rfl, rfl, rfl⟩
  | ask k op =>
    simp only [act]
    split
    · exact he _ _
    · exact ⟨rfl, rfl, rfl⟩
  | forward slot =>
    simp only [act]
    split
    · exact he _ _
    · exact ⟨rfl, rfl, rfl⟩
  | shutdown k =>
    simp only [act]
    split
    · exact he _ _
    · exact ⟨rfl, rfl, rfl⟩
  | cloneHandle k | keepSender k =>
    simp only [act]
    split <;> exact ⟨rfl, rfl, rfl⟩
  | abandon n | dropHandle k | dropSender => exact ⟨rfl, rfl, rfl⟩

lemma act_queue (s : Service) {a : Act} (ha : ∀ n, a ≠ .abandon n) :
    (s.act a).queue = s.queue ++ (s.entered? a).toList := by
  cases a with
  | abandon n => exact absurd rfl (ha n)
  | send k c =>
    simp only [act, entered?, enqueue]
    cases s.isRunning <;> cases Exchange.canSend s k <;> simp
  | ask k op =>
    simp only [act, entered?, ask, enqueue]
    cases s.isRunning <;> cases Exchange.canSend s k <;> simp
  | forward slot =>
    simp only [act, entered?, enqueue]
    cases hr : s.isReachable with
    | false => simp
    | true =>
      have hi : s.isRunning = true := (Bool.and_eq_true_iff.1 hr).1
      simp [hi]
  | shutdown k =>
    simp only [act, entered?, beginShutdown, enqueue]
    cases s.isRunning <;> cases s.handle? k <;> simp
  | cloneHandle k | keepSender k =>
    simp only [act, entered?]
    split <;> simp [cloneHandle]
  | dropHandle k | dropSender => simp [act, entered?, dropHandle]

lemma act_nextRequest (s : Service) (a : Act) : s.nextRequest ≤ (s.act a).nextRequest ∧
    ∀ e n, s.entered? a = some e → e.waiting = some n →
      n = s.nextRequest ∧ (s.act a).nextRequest = s.nextRequest + 1 := by
  have he : ∀ c w, (s.enqueue c w).nextRequest = s.nextRequest := by
    intro c w
    rw [enqueue]
    split <;> rfl
  cases a with
  | ask k op =>
    simp only [act, entered?, ask]
    cases s.isRunning <;> cases Exchange.canSend s k <;> simp
    rintro e n rfl hn
    exact (Option.some.inj hn).symm
  | send k c =>
    simp only [act, entered?]
    cases s.isRunning <;> cases Exchange.canSend s k <;> simp [he]
    rintro e n rfl ⟨⟩
  | forward slot =>
    simp only [act, entered?]
    cases s.isReachable <;> simp [he]
    rintro e n rfl ⟨⟩
  | shutdown k =>
    simp only [act, entered?, beginShutdown]
    cases s.isRunning <;> cases s.handle? k <;> simp [he]
    rintro e n rfl ⟨⟩
  | cloneHandle k | keepSender k =>
    simp only [act, entered?]
    split <;> simp [cloneHandle]
  | abandon n | dropHandle k | dropSender => simp [act, entered?, dropHandle]

def outcome? (s : Service) (request : Nat) : Option (Except Error Answer) :=
  match s.reply? request with
  | some a => some (.ok a)
  | none => if s.isRunning then none else some (.error .closed)

end Service

structure Traffic where
  handset : Handset
  services : List Service
  airborne : List (Nat × PhoneId)

namespace Traffic

open Service (Act)

def spawn (h : Handset) (groups : List String) : Traffic :=
  ⟨h, groups.map .fresh, []⟩

inductive Move where
  | change (c : Change)
  | announce (slot : PhoneId)
  | act (i : Nat) (a : Act)
  | work (i : Nat)
deriving DecidableEq

def permits (t : Traffic) (i : Nat) : Act → Bool
  | .forward slot => t.airborne.contains (i, slot)
  | _ => true

def remaining (t : Traffic) (i : Nat) : Act → List (Nat × PhoneId)
  | .forward slot => t.airborne.erase (i, slot)
  | _ => t.airborne

def actHappenings (t : Traffic) (i : Nat) : Act → List Happening
  | .forward _ =>
    match t.services[i]? with
    | some s => if s.isReachable then [] else [Handset.noted .undelivered]
    | none => []
  | _ => []

def exchange (t : Traffic) : Exchange :=
  ⟨t.handset, t.services, []⟩

def move (t : Traffic) : Move → Traffic × List Happening
  | .change c =>
    let (h, hs) := t.handset.change c
    ({ t with handset := h }, hs)
  | .announce slot =>
    let order := t.handset.registry.listeners
    ({ t with airborne := t.airborne ++ order.map (·, slot) },
      [Handset.noted (.announced slot order.length)])
  | .act i a =>
    if t.permits i a then
      ({ t with services := t.services.modify i (·.act a), airborne := t.remaining i a },
        t.actHappenings i a)
    else (t, [])
  | .work i =>
    let (y, hs) := t.exchange.runOne i
    ({ t with handset := y.handset, services := y.services }, hs)

def run (t : Traffic) (ms : List Move) : Traffic :=
  ms.foldl (fun t m => (t.move m).1) t

def happenings : Traffic → List Move → List Happening
  | _, [] => []
  | t, m :: ms => (t.move m).2 ++ (t.move m).1.happenings ms

@[simp] lemma run_nil (t : Traffic) : t.run [] = t := rfl

@[simp] lemma run_cons (t : Traffic) (m : Move) (ms : List Move) :
    t.run (m :: ms) = (t.move m).1.run ms := rfl

def entered? (t : Traffic) (i : Nat) : Move → Option Entry
  | .act j a => if j = i ∧ t.permits i a then t.services[i]?.bind (·.entered? a) else none
  | _ => none

def log (i : Nat) : Traffic → List Move → List Entry
  | _, [] => []
  | t, m :: ms => (t.entered? i m).toList ++ (t.move m).1.log i ms

def calls (t : Traffic) (i : Nat) (s : Service) (c : Controller) : List Direct.Request :=
  match s.queue with
  | [] => if s.hasSender then [] else [.drop i]
  | ⟨.shutdown, _⟩ :: _ => [.drop i]
  | ⟨.perform op, _⟩ :: _ =>
    .operate i op :: if (t.handset.operate i c op).2.crashed then [.drop i] else []

def requests (t : Traffic) : Move → List Direct.Request
  | .change c => [.change c]
  | .announce _ | .act _ _ => []
  | .work i =>
    match t.services[i]? with
    | some s => (s.controller.map (t.calls i s)).getD []
    | none => []

def script : Traffic → List Move → List Direct.Request
  | _, [] => []
  | t, m :: ms => t.requests m ++ (t.move m).1.script ms

variable {t : Traffic} {i : Nat}

def Stops (s : Service) : Prop :=
  s.queue = [] ∧ s.hasSender = false ∨ ∃ w q, s.queue = ⟨.shutdown, w⟩ :: q

inductive Work (t : Traffic) (i : Nat) : Prop
  | idle (hs : ∀ s, t.services[i]? = some s → s.controller = none ∨ s.queue = [] ∧ s.hasSender = true)
    (hr : t.requests (.work i) = []) (hm : t.move (.work i) = (t, []))
  | stop (s : Service) (c : Controller) (hs : t.services[i]? = some s)
    (hc : s.controller = some c) (hq : Stops s) (hr : t.requests (.work i) = [.drop i])
    (hm : t.move (.work i) = ({ t with
      handset := (t.handset.dismiss i c).1
      services := t.services.set i (s.ended .stopped) },
      t.exchange.stoppedNotice i ++ Handset.happenings i (t.handset.dismiss i c).2))
  | answer (s : Service) (c : Controller) (op : Operation) (w : Option Nat) (q : List Entry)
    (a : Answer) (hs : t.services[i]? = some s) (hc : s.controller = some c)
    (hq : s.queue = ⟨.perform op, w⟩ :: q) (ha : (t.handset.operate i c op).2.answer = some a)
    (hr : t.requests (.work i) = [.operate i op])
    (hm : t.move (.work i) = ({ t with
      handset := (t.handset.operate i c op).1
      services := t.services.set i
        ({ s with queue := q }.answered (t.handset.operate i c op).2.controller w a) },
      Handset.happenings i (t.handset.operate i c op).2.effects))
  | crash (s : Service) (c : Controller) (op : Operation) (w : Option Nat) (q : List Entry)
    (hs : t.services[i]? = some s) (hc : s.controller = some c)
    (hq : s.queue = ⟨.perform op, w⟩ :: q) (ha : (t.handset.operate i c op).2.answer = none)
    (hr : t.requests (.work i) = [.operate i op, .drop i])
    (hm : t.move (.work i) = ({ t with
      handset := ((t.handset.operate i c op).1.dismiss i (t.handset.operate i c op).2.controller).1
      services := t.services.set i (s.ended .crashed) },
      Handset.happenings i (t.handset.operate i c op).2.effects ++ Handset.happenings i
        ((t.handset.operate i c op).1.dismiss i (t.handset.operate i c op).2.controller).2))

variable {s : Service} {c : Controller} {op : Operation} {w : Option Nat} {q : List Entry}

lemma work_idle
    (hi : ∀ s, t.services[i]? = some s → s.controller = none ∨ s.queue = [] ∧ s.hasSender = true) :
    t.requests (.work i) = [] ∧ t.move (.work i) = (t, []) := by
  cases hs : t.services[i]? with
  | none => simp [requests, move, exchange, Exchange.runOne, hs]
  | some s =>
    cases hc : s.controller with
    | none => simp [requests, move, exchange, Exchange.runOne, hs, hc]
    | some c =>
      obtain hn | ⟨hq, hh⟩ := hi s hs
      · rw [hn] at hc
        cases hc
      · simp [requests, calls, move, exchange, Exchange.runOne, hs, hc, hq, hh]

lemma work_stop (hs : t.services[i]? = some s) (hc : s.controller = some c) (hq : Stops s) :
    t.requests (.work i) = [.drop i] ∧ t.move (.work i) = ({ t with
      handset := (t.handset.dismiss i c).1
      services := t.services.set i (s.ended .stopped) },
      t.exchange.stoppedNotice i ++ Handset.happenings i (t.handset.dismiss i c).2) := by
  obtain ⟨hq, hh⟩ | ⟨w, q, hq⟩ := hq
  · simp [requests, calls, move, exchange, Exchange.runOne, Exchange.stop, Exchange.finish, hs, hc,
      hq, hh]
  · simp [requests, calls, move, exchange, Exchange.runOne, Exchange.stop, Exchange.finish, hs, hc,
      hq]

lemma work_answer {a : Answer} (hs : t.services[i]? = some s) (hc : s.controller = some c)
    (hq : s.queue = ⟨.perform op, w⟩ :: q) (ha : (t.handset.operate i c op).2.answer = some a) :
    t.requests (.work i) = [.operate i op] ∧ t.move (.work i) = ({ t with
      handset := (t.handset.operate i c op).1
      services := t.services.set i
        ({ s with queue := q }.answered (t.handset.operate i c op).2.controller w a) },
      Handset.happenings i (t.handset.operate i c op).2.effects) := by
  constructor
  · simp [requests, calls, hs, hc, hq, Controller.Turn.crashed, ha]
  · simp [move, exchange, Exchange.runOne, Exchange.perform, hs, hc, hq, ha]

lemma work_crash (hs : t.services[i]? = some s) (hc : s.controller = some c)
    (hq : s.queue = ⟨.perform op, w⟩ :: q) (ha : (t.handset.operate i c op).2.answer = none) :
    t.requests (.work i) = [.operate i op, .drop i] ∧ t.move (.work i) = ({ t with
      handset := ((t.handset.operate i c op).1.dismiss i (t.handset.operate i c op).2.controller).1
      services := t.services.set i (s.ended .crashed) },
      Handset.happenings i (t.handset.operate i c op).2.effects ++ Handset.happenings i
        ((t.handset.operate i c op).1.dismiss i (t.handset.operate i c op).2.controller).2) := by
  constructor
  · simp [requests, calls, hs, hc, hq, Controller.Turn.crashed, ha]
  · simp [move, exchange, Exchange.runOne, Exchange.perform, Exchange.finish, hs, hc, hq, ha,
      Service.ended]

theorem work_cases (t : Traffic) (i : Nat) : Work t i := by
  by_cases hi : ∀ s, t.services[i]? = some s → s.controller = none ∨ s.queue = [] ∧ s.hasSender = true
  · obtain ⟨hr, hm⟩ := work_idle hi
    exact .idle hi hr hm
  · obtain ⟨s, hi⟩ := Classical.not_forall.1 hi
    obtain ⟨hs, hi⟩ := Classical.not_imp.1 hi
    obtain ⟨hn, hi⟩ := not_or.1 hi
    obtain ⟨c, hc⟩ := Option.ne_none_iff_exists'.1 hn
    cases hq : s.queue with
    | nil =>
      have hq' : Stops s := .inl ⟨hq, by simpa [hq] using hi⟩
      obtain ⟨hr, hm⟩ := work_stop hs hc hq'
      exact .stop s c hs hc hq' hr hm
    | cons e q =>
      obtain ⟨command, w⟩ := e
      cases command with
      | shutdown =>
        have hq' : Stops s := .inr ⟨w, q, hq⟩
        obtain ⟨hr, hm⟩ := work_stop hs hc hq'
        exact .stop s c hs hc hq' hr hm
      | perform op =>
        cases ha : (t.handset.operate i c op).2.answer with
        | none =>
          obtain ⟨hr, hm⟩ := work_crash hs hc hq ha
          exact .crash s c op w q hs hc hq ha hr hm
        | some a =>
          obtain ⟨hr, hm⟩ := work_answer hs hc hq ha
          exact .answer s c op w q a hs hc hq ha hr hm

lemma service_work_ne {j : Nat} (hij : j ≠ i) :
    (t.move (.work j)).1.services[i]? = t.services[i]? := by
  cases work_cases t j with
  | idle _ _ hm => rw [hm]
  | stop s c _ _ _ _ hm => rw [hm, List.getElem?_set_ne hij]
  | answer s c op w q a _ _ _ _ _ hm => rw [hm, List.getElem?_set_ne hij]
  | crash s c op w q _ _ _ _ _ hm => rw [hm, List.getElem?_set_ne hij]

@[simp] lemma length_move (t : Traffic) (m : Move) :
    (t.move m).1.services.length = t.services.length := by
  cases m with
  | change c | announce slot => rfl
  | act i a =>
    simp only [move]
    split <;> simp
  | work i =>
    cases work_cases t i with
    | idle _ _ hm => rw [hm]
    | stop s c _ _ _ _ hm => rw [hm]; simp
    | answer s c op w q a _ _ _ _ _ hm => rw [hm]; simp
    | crash s c op w q _ _ _ _ _ hm => rw [hm]; simp

@[simp] lemma length_run (t : Traffic) (ms : List Move) :
    (t.run ms).services.length = t.services.length := by
  induction ms generalizing t with
  | nil => rfl
  | cons m ms ih => rw [run_cons, ih, length_move]

end Traffic

end CallWaiting
