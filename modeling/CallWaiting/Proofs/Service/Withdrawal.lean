import CallWaiting.Proofs.Controller.Withdrawn
import CallWaiting.Proofs.Service.Sequential

/-!
When withdrawn support stays withdrawn. A slot change that waits in the queue while support is
withdrawn is heard all the same, and that is all that can bring the service back.
-/

namespace CallWaiting

open Controller (Operation Execution)
open Handset (Direct)

def Controller.Threads (c : Controller) : List Execution → Prop
  | [] => True
  | e :: es => e.controller = c ∧ (es ≠ [] → e.turn.crashed = false) ∧ e.turn.controller.Threads es

lemma Controller.IsOff.withdrawn_iff {c : Controller} (hc : c.IsOff) {es : List Execution}
    (ht : c.Threads es) (hm : ∀ x ∈ es, x.op.IsMild) :
    (∀ x ∈ es, x.IsWithdrawn) ↔ ∀ x ∈ es, ¬ x.Revives := by
  induction es generalizing c with
  | nil => simp
  | cons e es ih =>
    obtain ⟨rfl, hcr, ht⟩ := ht
    have hm' : ∀ x ∈ es, x.op.IsMild := fun x hx => hm x (List.mem_cons_of_mem e hx)
    by_cases hr : e.Revives
    · constructor
      · intro hw
        exact absurd (hw e List.mem_cons_self) (Execution.not_isWithdrawn_of_revives hc hr)
      · intro hn
        exact absurd hr (hn e List.mem_cons_self)
    · obtain ⟨hw, hoff⟩ := Execution.isWithdrawn_of_not_revives hc (hm e List.mem_cons_self) hr
      have hh : (∀ x ∈ es, x.IsWithdrawn) ↔ ∀ x ∈ es, ¬ x.Revives := by
        by_cases hn : es = []
        · simp [hn]
        · exact ih (hoff (hcr hn)) ht hm'
      simp [hw, hr, hh]

namespace Traffic

variable {t : Traffic} {i : Nat} {m : Move} {ms : List Move}

def due? (t : Traffic) (i : Nat) : Option Execution := do
  let s ← t.services[i]?
  let c ← s.controller
  let p ← t.handset.phones[i]?
  match s.queue with
  | ⟨.perform op, _⟩ :: _ => some ⟨t.handset.surroundings p, c, op⟩
  | _ => none

def execution? (t : Traffic) (i : Nat) : Move → Option Execution
  | .work j => if j = i then t.due? i else none
  | _ => none

def executions (i : Nat) : Traffic → List Move → List Execution
  | _, [] => []
  | t, m :: ms => (t.execution? i m).toList ++ (t.move m).1.executions i ms

lemma due?_some {e : Execution} (h : t.due? i = some e) : ∃ s p w q,
    t.services[i]? = some s ∧ s.controller = some e.controller ∧ t.handset.phones[i]? = some p ∧
      s.queue = ⟨.perform e.op, w⟩ :: q ∧ e.env = t.handset.surroundings p := by
  rw [due?] at h
  cases hs : t.services[i]? with
  | none => simp [hs] at h
  | some s =>
    cases hc : s.controller with
    | none => simp [hs, hc] at h
    | some c =>
      cases hp : t.handset.phones[i]? with
      | none => simp [hs, hp] at h
      | some p =>
        simp only [hs, hc, hp, Option.bind_eq_bind, Option.bind_some] at h
        split at h
        · rename_i op w q hq
          cases h
          exact ⟨s, p, w, q, rfl, hc, rfl, hq, rfl⟩
        · cases h

lemma controller?_of {s : Service} (hs : t.services[i]? = some s) :
    t.controller? i = s.controller := by
  rw [controller?, hs, Option.bind_some]

lemma controller?_set {h : Handset} {s s' : Service} (hs : t.services[i]? = some s) :
    controller? { t with handset := h, services := t.services.set i s' } i = s'.controller := by
  have hi : i < t.services.length := (List.getElem?_eq_some_iff.1 hs).1
  exact controller?_of (List.getElem?_set_self hi)

lemma controller?_move (h : t.execution? i m = none) :
    (t.move m).1.controller? i = t.controller? i ∨ (t.move m).1.controller? i = none := by
  cases m with
  | change c | announce slot => exact .inl rfl
  | act j a => exact .inl (controller?_act t i j a)
  | work j =>
    by_cases hij : j = i
    · subst hij
      cases work_cases t j with
      | idle _ _ hm => exact .inl (by rw [hm])
      | stop s c hs _ _ _ hm => exact .inr (by rw [hm, controller?_set hs]; rfl)
      | crash s c op w q hs _ _ _ _ hm => exact .inr (by rw [hm, controller?_set hs]; rfl)
      | answer s c op w q a hs hc hq _ _ hm =>
        -- without a phone nothing is run
        have hp : t.handset.phones[j]? = none := by
          cases hp : t.handset.phones[j]? with
          | none => rfl
          | some p =>
            rw [execution?, if_pos rfl] at h
            simp [due?, hs, hc, hp, hq] at h
        refine .inl ?_
        rw [hm, controller?_set hs, controller?_of hs, hc]
        simp [Service.answered, Handset.operate, hp, Controller.Turn.rest]
    · exact .inl (by rw [controller?, service_work_ne hij, controller?])

lemma controller?_execution {e : Execution} (h : t.execution? i m = some e) :
    t.controller? i = some e.controller ∧
      (t.move m).1.controller? i = if e.turn.crashed then none else some e.turn.controller := by
  cases m with
  | change c | announce slot | act j a => cases h
  | work j =>
    simp only [execution?] at h
    split at h
    · rename_i hij
      subst hij
      obtain ⟨s, p, w, q, hs, hc, hp, hq, he⟩ := due?_some h
      have ht : (t.handset.operate j e.controller e.op).2 = e.turn := by
        rw [Handset.operate_eq hp, Execution.turn, he]
      refine ⟨(controller?_of hs).trans hc, ?_⟩
      cases ha : (t.handset.operate j e.controller e.op).2.answer with
      | some a =>
        have hcr : e.turn.crashed = false := by rw [← ht, Controller.Turn.crashed, ha]; rfl
        rw [(work_answer hs hc hq ha).2, controller?_set hs, hcr, ht]
        rfl
      | none =>
        have hcr : e.turn.crashed = true := by rw [← ht, Controller.Turn.crashed, ha]; rfl
        rw [(work_crash hs hc hq ha).2, controller?_set hs, hcr]
        rfl
    · cases h

lemma executions_nil (h : t.controller? i = none) (ms : List Move) : t.executions i ms = [] := by
  induction ms generalizing t with
  | nil => rfl
  | cons m ms ih =>
    have he : t.execution? i m = none := by
      cases hx : t.execution? i m with
      | none => rfl
      | some e =>
        rw [(controller?_execution hx).1] at h
        cases h
    have hn : (t.move m).1.controller? i = none := (controller?_move he).elim (·.trans h) id
    rw [executions, he, ih hn]
    rfl

theorem executions_threads {c : Controller} (hc : t.controller? i = some c) (ms : List Move) :
    c.Threads (t.executions i ms) := by
  induction ms generalizing t c with
  | nil => trivial
  | cons m ms ih =>
    rw [executions]
    cases he : t.execution? i m with
    | none =>
      obtain hh | hh := controller?_move he
      · exact ih (hh.trans hc)
      · rw [executions_nil hh]
        trivial
    | some e =>
      obtain ⟨hec, hh⟩ := controller?_execution he
      have heq : e.controller = c := Option.some.inj (hec.symm.trans hc)
      cases hcr : e.turn.crashed with
      | true =>
        rw [hcr, if_pos rfl] at hh
        rw [executions_nil hh]
        exact ⟨heq, fun hn => absurd rfl hn, trivial⟩
      | false =>
        rw [hcr, if_neg nofun] at hh
        exact ⟨heq, fun _ => hcr, ih hh⟩

/-- What a task runs from the withdrawal of support on, until support is turned on again or a bundle
comes from outside: the service stays withdrawn just if nothing that it hears revives it. -/
theorem stays_withdrawn_iff {e : Execution} {es : List Execution}
    (h : t.executions i ms = e :: es) (ho : e.op = .setSupported false)
    (hs : e.controller.supported = true) (hm : ∀ x ∈ es, x.op.IsMild) :
    (∀ x ∈ e :: es, x.IsWithdrawn) ↔ ∀ x ∈ es, ¬ x.Revives := by
  have hc : ∃ c, t.controller? i = some c := by
    cases hc : t.controller? i with
    | none =>
      rw [executions_nil hc] at h
      cases h
    | some c => exact ⟨c, rfl⟩
  obtain ⟨c, hc⟩ := hc
  have ht := executions_threads hc ms
  rw [h] at ht
  obtain ⟨-, hcr, ht⟩ := ht
  obtain ⟨hw, hoff⟩ := Execution.isWithdrawn_withdrawal ho hs
  have hh : (∀ x ∈ es, x.IsWithdrawn) ↔ ∀ x ∈ es, ¬ x.Revives := by
    by_cases hn : es = []
    · simp [hn]
    · exact (hoff (hcr hn)).withdrawn_iff ht hm
  simp [hw, hh]

def supporting : Traffic :=
  (spawn Direct.single.handset [""]).run [.change (.install ⟨1⟩ (.offering true)),
    .act 0 (.ask 0 (.setSupported true)), .work 0]

set_option maxRecDepth 10000 in
theorem stays_withdrawn_without_bundle :
    let ms : List Move := [.act 0 (.ask 0 (.setSupported false)), .announce ⟨0⟩,
      .act 0 (.forward ⟨0⟩), .change (.remove ⟨1⟩), .work 0, .work 0]
    (supporting.executions 0 ms).map
        (fun x => (x.op, x.controller.supported, x.env.bundle x.env.subscription)) =
      [(.setSupported false, true, none), (.hear ⟨0⟩, false, none)] ∧
    ∀ x ∈ supporting.executions 0 ms, x.IsWithdrawn := by
  intro ms
  have hx : (supporting.executions 0 ms).map
        (fun x => (x.op, x.controller.supported, x.env.bundle x.env.subscription)) =
      [(.setSupported false, true, none), (.hear ⟨0⟩, false, none)] := by decide
  refine ⟨hx, ?_⟩
  obtain ⟨e, es, he, ho, hes⟩ := List.map_eq_cons_iff.1 hx
  obtain ⟨e', es', rfl, ho', hes'⟩ := List.map_eq_cons_iff.1 hes
  obtain rfl := List.map_eq_nil_iff.1 hes'
  obtain ⟨hop, hsup⟩ := Prod.mk.inj ho
  obtain ⟨hop', hsup'⟩ := Prod.mk.inj ho'
  rw [he]
  refine (stays_withdrawn_iff he hop (Prod.mk.inj hsup).1 ?_).2 ?_
  · intro x hx
    rw [List.mem_singleton.1 hx, hop']
    trivial
  · intro x hx hr
    obtain ⟨b, hb, -⟩ := hr.offers
    rw [List.mem_singleton.1 hx, (Prod.mk.inj hsup').2] at hb
    cases hb

set_option maxRecDepth 10000 in
theorem not_stays_withdrawn :
    let ms : List Move := [.act 0 (.ask 0 (.setSupported false)), .announce ⟨0⟩,
      .act 0 (.forward ⟨0⟩), .act 0 (.ask 0 .readState), .work 0, .work 0, .work 0]
    (supporting.executions 0 ms).map (fun x => (x.op, x.controller.supported)) =
      [(.setSupported false, true), (.hear ⟨0⟩, false), (.readState, false)] ∧
    (supporting.run ms).services[0]?.bind (·.reply? 2) = some (.state .activated) ∧
    ¬ ∀ x ∈ supporting.executions 0 ms, x.IsWithdrawn := by
  intro ms
  refine ⟨by decide, by decide, fun hw => ?_⟩
  have hp : ∃ x ∈ supporting.executions 0 ms, State.activated ∈ x.turn.pushes := by decide
  obtain ⟨x, hx, hp⟩ := hp
  cases (hw x hx).pushed .activated hp

end Traffic

end CallWaiting
