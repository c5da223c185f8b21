import CallWaiting.Proofs.Controller.Stage
import CallWaiting.Proofs.Handset.Registration
import CallWaiting.Proofs.Service.Traffic

/-!
The task of one service seen from close up: anything may happen between two steps of the command
that it is working on. Left alone, it does in small steps what it otherwise does in one.
-/

namespace CallWaiting

open Controller (Operation Answer Effect Stage)
open Handset (Happening)

structure Task where
  waiting : Option Nat
  answer : Answer
  stage : Stage

def Task.forget (n : Nat) (k : Task) : Task :=
  if k.waiting = some n then { k with waiting := none } else k

structure Closeup where
  traffic : Traffic
  task : Option Task

namespace Closeup

def taking (x : Closeup) (i : Nat) (s : Service) (w : Option Nat) (a : Answer)
    (y : Controller.Step) : Closeup × List Happening :=
  (⟨{ x.traffic with
      handset := x.traffic.handset.applyAll i y.effects
      services := x.traffic.services.set i { s with controller := some y.controller } },
    some ⟨w, a, y.stage⟩⟩, Handset.happenings i y.effects)

def around (x : Closeup) (m : Traffic.Move) : Closeup × List Happening :=
  let (t, hs) := x.traffic.move m
  ({ x with traffic := t }, hs)

def goOn (x : Closeup) (i : Nat) (s : Service) (c : Controller) (p : Phone) (k : Task) :
    Closeup × List Happening :=
  match k.stage with
  | .finished =>
    (⟨{ x.traffic with services := x.traffic.services.set i (s.answered c k.waiting k.answer) },
      none⟩, [])
  | .broken =>
    let (y, hs) := x.traffic.exchange.finish i s c .crashed
    (⟨{ x.traffic with handset := y.handset, services := y.services }, none⟩, hs)
  | st => x.taking i s k.waiting k.answer (c.advance (x.traffic.handset.surroundings p) st)

def step (x : Closeup) (i : Nat) : Closeup × List Happening :=
  match x.traffic.services[i]?, x.traffic.handset.phones[i]? with
  | some s, some p =>
    match s.controller, x.task, s.queue with
    | some c, some k, _ => x.goOn i s c p k
    | some c, none, ⟨.perform op, w⟩ :: q =>
      x.taking i { s with queue := q } w (c.reply op) (c.enter (x.traffic.handset.surroundings p) op)
    | _, _, _ => x.around (.work i)
  | _, _ => x.around (.work i)

def move (i : Nat) (x : Closeup) : Traffic.Move → Closeup × List Happening
  | .work j => if j = i then x.step i else x.around (.work j)
  | .act j a =>
    let (y, hs) := x.around (.act j a)
    match a with
    | .abandon n => ({ y with task := if j = i then y.task.map (·.forget n) else y.task }, hs)
    | _ => (y, hs)
  | m => x.around m

def run (i : Nat) (x : Closeup) (ms : List Traffic.Move) : Closeup :=
  ms.foldl (fun x m => (x.move i m).1) x

def alone (i : Nat) : Nat → Closeup → Closeup × List Happening
  | 0, x => (x, [])
  | n + 1, x =>
    let (y, hs) := x.step i
    let (z, hs') := alone i n y
    (z, hs ++ hs')

variable {t : Traffic} {x : Closeup} {i : Nat} {s : Service} {c : Controller} {p : Phone}
  {op : Operation} {w : Option Nat} {q : List Entry} {k : Task}

def concluded (x : Closeup) (i : Nat) (s : Service) (w : Option Nat) (a : Answer)
    (u : Controller.Turn) : Closeup × List Happening :=
  let h := x.traffic.handset.applyAll i u.effects
  if u.crashed then
    (⟨{ x.traffic with
      handset := (h.dismiss i u.controller).1
      services := x.traffic.services.set i (s.ended .crashed) }, none⟩,
      Handset.happenings i u.effects ++ Handset.happenings i (h.dismiss i u.controller).2)
  else
    (⟨{ x.traffic with
      handset := h
      services := x.traffic.services.set i (s.answered u.controller w a) }, none⟩,
      Handset.happenings i u.effects)

lemma step_task (hs : x.traffic.services[i]? = some s) (hc : s.controller = some c)
    (hp : x.traffic.handset.phones[i]? = some p) (hk : x.task = some k) :
    x.step i = x.goOn i s c p k := by
  simp only [step, hs, hp, hc, hk]

lemma goOn_advance (hn : k.stage.rank ≠ 0) : x.goOn i s c p k =
    x.taking i s k.waiting k.answer (c.advance (x.traffic.handset.surroundings p) k.stage) := by
  obtain ⟨w, a, st⟩ := k
  cases st with
  | finished | broken => exact absurd rfl hn
  | loading | looking | fetching s' | weighing s' b enforced | moving z | offering s' z
  | telling state => rfl

lemma phone_applyAll_self {h : Handset} (hp : h.phones[i]? = some p) (es : List Effect) :
    (h.applyAll i es).phones[i]? = some (p.pushAll (es.filterMap Effect.push?)) := by
  rw [Handset.phone_applyAll, if_pos rfl, hp]
  rfl

lemma remaining_applyAll {h : Handset} {es : List Effect} {states : List State} {st : Stage}
    (ho : es.filterMap Effect.offer? = []) (hl : st.isLoading = true → c.listener.isSome = true) :
    c.remaining ((h.applyAll i es).surroundings (p.pushAll states)) st =
      c.remaining (h.surroundings p) st := by
  have hv := Handset.applyAll_sameVault h i es
  rw [ho] at hv
  refine Controller.remaining_congr rfl rfl ?_ ?_ ?_ hl
  · exact congrArg Bundles.get? (Handset.bundles_applyAll h i es)
  · exact congrArg Preference.Store.get? hv.store
  · funext b
    change Handset.fate _ b = h.fate b
    rw [Handset.fate, hv.poisoned, hv.refusing, hv.store, hv.disk]
    rfl

lemma concluded_taking (x : Closeup) (i : Nat) (s : Service) (w : Option Nat) (a : Answer)
    (y : Controller.Step) (u : Controller.Turn) :
    let z := (x.taking i s w a y).1.concluded i { s with controller := some y.controller } w a u
    (z.1, (x.taking i s w a y).2 ++ z.2) = x.concluded i s w a (u.after y.effects) := by
  have hh : ∀ h : Handset, (h.applyAll i y.effects).applyAll i u.effects =
      h.applyAll i (u.after y.effects).effects := by
    intro h
    exact (List.foldl_append ..).symm
  have hc : (u.after y.effects).crashed = u.crashed := rfl
  simp only [concluded, taking, hh, hc, List.set_set]
  cases u.crashed with
  | true =>
    simp [Handset.happenings, Controller.Turn.after]
    rfl
  | false =>
    simp [Handset.happenings, Controller.Turn.after]
    rfl

lemma exists_alone_task (hs : x.traffic.services[i]? = some s) (hc : s.controller = some c)
    (hp : x.traffic.handset.phones[i]? = some p) (hk : x.task = some k)
    (hl : k.stage.isLoading = true → c.listener.isSome = true) :
    ∃ n, alone i n x = x.concluded i s k.waiting k.answer
      (c.remaining (x.traffic.handset.surroundings p) k.stage) := by
  -- by the number of steps that may remain
  induction hr : k.stage.rank using Nat.strong_induction_on generalizing x s c p k with
  | _ n ih =>
    have hst := step_task hs hc hp hk
    obtain ⟨w, a, st⟩ := k
    by_cases hn : st.rank = 0
    · refine ⟨1, ?_⟩
      simp only [alone, hst]
      cases st with
      | finished =>
        simp [goOn, concluded, Controller.remaining, Controller.Turn.rest, Controller.Turn.crashed,
          Handset.applyAll, Handset.happenings]
      | broken =>
        simp [goOn, concluded, Controller.remaining, Controller.Turn.crashed, Handset.applyAll,
          Handset.happenings, Exchange.finish, Traffic.exchange]
      | loading | looking | fetching _ | weighing _ _ _ | moving _ | offering _ _ | telling _ =>
        simp [Stage.rank] at hn
    · let y := c.advance (x.traffic.handset.surroundings p) st
      have hg : x.goOn i s c p ⟨w, a, st⟩ = x.taking i s w a y := goOn_advance hn
      have hi : i < x.traffic.services.length := (List.getElem?_eq_some_iff.1 hs).1
      have hy := Controller.advances (x.traffic.handset.surroundings p) c st
      have hl' : y.stage.isLoading = true → y.controller.listener.isSome = true := fun hn =>
        absurd (hy.isLoading.symm.trans hn) Bool.false_ne_true
      have he : Controller.remaining ((x.traffic.handset.applyAll i y.effects).surroundings
          (p.pushAll (y.effects.filterMap Effect.push?))) y.controller y.stage =
          y.controller.remaining (x.traffic.handset.surroundings p) y.stage := by
        by_cases ho : ∃ s z, st = .offering s z
        · obtain ⟨s', z, rfl⟩ := ho
          exact Controller.remaining_offered _ _ _ c s' z
        · exact remaining_applyAll (hy.offers fun s' z hz => ho ⟨s', z, hz⟩) hl'
      obtain ⟨m, hm⟩ := ih y.stage.rank (hr ▸ hy.rank hn) (x := (x.taking i s w a y).1)
        (List.getElem?_set_self hi) rfl (phone_applyAll_self hp y.effects) rfl hl' rfl
      refine ⟨m + 1, ?_⟩
      have hm := hm.trans (congrArg _ he)
      simp only [alone, hst, hg, hm, Controller.remaining_advance _ c st]
      exact concluded_taking x i s w a y _

lemma concluded_work (hs : t.services[i]? = some s) (hc : s.controller = some c)
    (hq : s.queue = ⟨.perform op, w⟩ :: q) (hp : t.handset.phones[i]? = some p) {u : Controller.Turn}
    {es : List Effect} {r : Option Controller.Receipt}
    (hu : c.perform (t.handset.surroundings p) op =
      ((u.sending r).answering (c.reply op)).after es) :
    concluded ⟨t, none⟩ i { s with queue := q } w (c.reply op) (u.after es) =
      (⟨(t.move (.work i)).1, none⟩, (t.move (.work i)).2) := by
  have ho := Handset.operate_eq hp c op
  have hcr : (c.perform (t.handset.surroundings p) op).crashed = u.crashed := by
    rw [hu]
    cases ha : u.answer <;> simp [Controller.Turn.crashed, Controller.Turn.after,
      Controller.Turn.answering, Controller.Turn.sending, ha]
  have ha : (t.handset.operate i c op).2.answer =
      if u.crashed then none else some (c.reply op) := by
    rw [ho, Controller.answer_perform, hcr]
  have hcr' : (u.after es).crashed = u.crashed := rfl
  cases hb : u.crashed with
  | false =>
    rw [hb] at ha
    rw [(Traffic.work_answer hs hc hq ha).2, concluded, hcr', hb, ho, hu]
    rfl
  | true =>
    rw [hb] at ha
    rw [(Traffic.work_crash hs hc hq ha).2, concluded, hcr', hb, ho, hu]
    rfl

theorem exists_alone (t : Traffic) (i : Nat) :
    ∃ n, alone i n ⟨t, none⟩ = (⟨(t.move (.work i)).1, none⟩, (t.move (.work i)).2) := by
  by_cases hx : ∃ s p c op w q, t.services[i]? = some s ∧ t.handset.phones[i]? = some p ∧
      s.controller = some c ∧ s.queue = ⟨.perform op, w⟩ :: q
  · obtain ⟨s, p, c, op, w, q, hs, hp, hc, hq⟩ := hx
    let x : Closeup := ⟨t, none⟩
    let y := c.enter (t.handset.surroundings p) op
    have hst : x.step i = x.taking i { s with queue := q } w (c.reply op) y := by
      simp only [step, x, hs, hp, hc, hq]
      rfl
    have hi : i < t.services.length := (List.getElem?_eq_some_iff.1 hs).1
    obtain ⟨he, -, ho⟩ := Controller.enter_cases (t.handset.surroundings p) c op
    have hl := he.listener
    obtain ⟨n, hn⟩ := exists_alone_task
      (x := (x.taking i { s with queue := q } w (c.reply op) y).1)
      (List.getElem?_set_self hi) rfl (phone_applyAll_self hp y.effects) rfl hl
    have hn := hn.trans (congrArg _ (remaining_applyAll ho hl))
    refine ⟨n + 1, ?_⟩
    simp only [alone]
    rw [hst, hn]
    exact (concluded_taking x i _ w _ y _).trans
      (concluded_work hs hc hq hp (Controller.perform_enter _ c op))
  · -- there is nothing to begin with
    refine ⟨1, ?_⟩
    have hst : step ⟨t, none⟩ i = around ⟨t, none⟩ (.work i) := by
      simp only [step]
      split
      · rename_i s p hs hp
        split
        · rename_i hk
          cases hk
        · rename_i hc _ hq
          exact absurd ⟨_, _, _, _, _, _, hs, hp, hc, hq⟩ hx
        · rfl
      · rfl
    simp [alone, hst, around]

end Closeup

end CallWaiting
