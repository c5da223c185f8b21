import CallWaiting.Proofs.Service.Abandon
import CallWaiting.Proofs.Service.Order
import CallWaiting.Proofs.Service.Withdrawal

namespace CallWaiting

open Controller (Operation Answer Execution)
open Handset (Direct)

def Controller.Execution.call (e : Execution) : Operation × Option Answer :=
  (e.op, e.turn.answer)

namespace Service

variable {s s' : Service} {log done rest : List Entry} {es : List Execution} {gone : List Nat}
  {calls : List (Operation × Option Answer)} {replies : List (Nat × Answer)} {k n : Nat}
  {op : Operation}

inductive Standing (s : Service) (log : List Command) (es : List Execution) : Prop
  | running (hp : s.phase = .running) (ha : ∀ e ∈ es, e.turn.crashed = false)
    (hl : log = es.map (.perform ·.op) ++ s.queue.map (·.command))
  | told (rest : List Command) (hp : s.phase = .stopped) (ha : ∀ e ∈ es, e.turn.crashed = false)
    (hl : log = es.map (.perform ·.op) ++ .shutdown :: rest)
  | deserted (hp : s.phase = .stopped) (hs : s.hasSender = false)
    (ha : ∀ e ∈ es, e.turn.crashed = false) (hl : log = es.map (.perform ·.op))
  | broken (done : List Execution) (e : Execution) (rest : List Command) (hp : s.phase = .crashed)
    (he : es = done ++ [e]) (hb : e.turn.crashed = true) (ha : ∀ e ∈ done, e.turn.crashed = false)
    (hl : log = es.map (.perform ·.op) ++ rest)

lemma Performed.commands (h : Performed done calls replies) :
    done.map (·.command) = calls.map (.perform ·.1) := by
  induction h with
  | nil => rfl
  | snoc h op w a ih =>
    rw [List.map_append, List.map_append, ih]
    rfl

lemma Performed.answered (h : Performed done calls replies) : ∀ c ∈ calls, c.2.isSome = true := by
  induction h with
  | nil => simp
  | snoc h op w a ih =>
    intro c hc
    obtain hc | hc := List.mem_append.1 hc
    · exact ih c hc
    · rw [List.mem_singleton.1 hc]
      rfl

lemma Performed.executions (h : Performed done (es.map (·.call)) replies) :
    done.map (·.command) = es.map (.perform ·.op) ∧ ∀ e ∈ es, e.turn.crashed = false := by
  refine ⟨?_, fun e he => ?_⟩
  · rw [h.commands, List.map_map]
    rfl
  · have ha : e.turn.answer.isSome = true := h.answered _ (List.mem_map_of_mem he)
    rw [Controller.Turn.crashed, ← Option.not_isSome, ha]
    rfl

theorem Ledger.standing (h : Ledger log (es.map (·.call)) s) :
    s.Standing (log.map (·.command)) es := by
  by_cases hcr : s.phase = .crashed
  · obtain ⟨done, calls, op, w, rest, rfl, hc, hd⟩ := h.broken hcr
    obtain ⟨es', l, rfl, rfl, hl⟩ := List.map_eq_append_iff.1 hc
    obtain ⟨e, rfl, he⟩ := List.map_eq_singleton_iff.1 hl
    obtain ⟨hop, hb⟩ := Prod.mk.inj he
    obtain ⟨hm, ha⟩ := hd.executions
    refine .broken es' e (rest.map (·.command)) hcr rfl ?_ ha ?_
    · rw [Controller.Turn.crashed, hb]
      rfl
    · rw [List.map_append, hm, List.map_append, List.append_assoc, ← hop]
      rfl
  · obtain ⟨done, rest, rfl, hd, hw⟩ := h.entries hcr
    obtain ⟨hm, ha⟩ := hd.executions
    rw [List.map_append, hm]
    cases hw with
    | running hp hc => exact .running hp ha rfl
    | stopped _ hp hc hq hr =>
      obtain ⟨rfl, hs⟩ | ⟨w, q, rfl⟩ := hr
      · exact .deserted hp hs ha (List.append_nil _)
      · exact .told (q.map (·.command)) hp ha rfl

lemma SameBut.standing {log : List Command} (h : s.SameBut gone s') (hs : s'.Standing log es) :
    s.Standing log es := by
  cases hs with
  | running hp ha hl =>
    have hq : s.queue.map (·.command) = s'.queue.map (·.command) := by
      rw [← List.forall₂_eq_eq_eq, List.forall₂_map_left_iff, List.forall₂_map_right_iff]
      exact h.queue.imp fun _ _ he => he.command
    exact .running (h.phase.trans hp) ha (hq ▸ hl)
  | told rest hp ha hl => exact .told rest (h.phase.trans hp) ha hl
  | deserted hp hs ha hl => exact .deserted (h.phase.trans hp) (h.hasSender.trans hs) ha hl
  | broken done e rest hp he hb ha hl => exact .broken done e rest (h.phase.trans hp) he hb ha hl

lemma reply?_eq_none (hn : n ∉ s.replies.map (·.1)) : s.reply? n = none := by
  rw [reply?_eq_head?, filter_of_not_mem hn]
  rfl

lemma Performed.reply? (h : Performed done calls s.replies)
    (hn : ((done ++ rest).filterMap (·.waiting)).Nodup)
    (hk : (done ++ rest)[k]? = some ⟨.perform op, some n⟩) :
    s.reply? n = calls[k]?.bind (·.2) := by
  rw [List.filterMap_append, List.nodup_append, ← h.numbers] at hn
  obtain ⟨hd, -, hdis⟩ := hn
  obtain hlt | hle := Nat.lt_or_ge k done.length
  · rw [List.getElem?_append_left hlt] at hk
    obtain ⟨a, hc, hm⟩ := h.reply hk
    rw [reply?_eq_head?, filter_of_mem hd hm, hc]
    rfl
  · rw [List.getElem?_append_right hle] at hk
    have hm : n ∈ rest.filterMap (·.waiting) :=
      List.mem_filterMap.2 ⟨_, List.mem_of_getElem? hk, rfl⟩
    rw [reply?_eq_none fun hr => hdis n hr n hm rfl, List.getElem?_eq_none (h.length ▸ hle)]
    rfl

lemma Ledger.performed (h : Ledger log calls s) : ∃ done calls' rest, log = done ++ rest ∧
    Performed done calls' s.replies ∧ ∀ k : Nat, calls'[k]?.bind (·.2) = calls[k]?.bind (·.2) := by
  by_cases hcr : s.phase = .crashed
  · obtain ⟨done, calls', op, w, rest, rfl, rfl, hd⟩ := h.broken hcr
    refine ⟨done, calls', _, rfl, hd, fun k => ?_⟩
    obtain hlt | hle := Nat.lt_or_ge k calls'.length
    · rw [List.getElem?_append_left hlt]
    · rw [List.getElem?_append_right hle, List.getElem?_eq_none hle, List.getElem?_singleton]
      split <;> rfl
  · obtain ⟨done, rest, rfl, hd, -⟩ := h.entries hcr
    exact ⟨done, calls, rest, rfl, hd, fun _ => rfl⟩

lemma Ledger.reply? (h : Ledger log calls s) (hk : log[k]? = some ⟨.perform op, some n⟩) :
    s.reply? n = calls[k]?.bind (·.2) := by
  have hn : (log.filterMap (·.waiting)).Nodup := h.increasing.imp fun hh => Nat.ne_of_lt hh
  obtain ⟨done, calls', rest, rfl, hd, hc⟩ := h.performed
  rw [hd.reply? hn hk, hc]

lemma Ledger.reply?_later (h : Ledger log calls s) (hn : s.nextRequest ≤ n) :
    s.reply? n = none := by
  obtain ⟨done, calls', rest, rfl, hd, -⟩ := h.performed
  refine reply?_eq_none fun hm => absurd (h.below n ?_) (Nat.not_lt_of_ge hn)
  rw [hd.numbers] at hm
  rw [List.filterMap_append]
  exact List.mem_append_left _ hm

def finds (s : Service) : Option Answer → Option (Except Error Answer)
  | some a => some (.ok a)
  | none => if s.isRunning then none else some (.error .closed)

lemma outcome?_eq_finds (s : Service) (n : Nat) : s.outcome? n = s.finds (s.reply? n) := by
  rw [Service.outcome?]
  cases s.reply? n <;> rfl

lemma SameBut.finds (h : s.SameBut gone s') (a : Option Answer) : s.finds a = s'.finds a := by
  cases a with
  | some a => rfl
  | none => rw [Service.finds, Service.finds, h.isRunning]

lemma Ledger.outcome? (h : Ledger log (es.map (·.call)) s)
    (hk : log[k]? = some ⟨.perform op, some n⟩) :
    s.outcome? n = s.finds (es[k]?.bind (·.turn.answer)) := by
  rw [outcome?_eq_finds, h.reply? hk, List.getElem?_map, Option.bind_map]
  rfl

lemma Ledger.outcome?_later (h : Ledger log calls s) (hn : s.nextRequest ≤ n)
    (hr : s.isRunning = false) : s.outcome? n = some (.error .closed) := by
  rw [outcome?_eq_finds, h.reply?_later hn, Service.finds, hr]
  rfl

end Service

namespace Traffic

variable {gone : Nat → List Nat} {t t' : Traffic} {i : Nat} {d : Direct} {m : Move}
  {log : List Entry} {es : List Execution}

def plain (t : Traffic) : Direct :=
  ⟨t.handset, t.services.map (·.controller), []⟩

lemma mirrors_plain (t : Traffic) : t.Mirrors t.plain := by
  refine ⟨rfl, fun i => ?_⟩
  rw [controller?, Direct.controller?, plain, List.getElem?_map]
  cases t.services[i]? <;> rfl

lemma SameBut.mirrors (h : t.SameBut gone t') (hd : t'.Mirrors d) : t.Mirrors d := by
  refine ⟨h.handset.trans hd.handset, fun i => Eq.trans ?_ (hd.controllers i)⟩
  rw [controller?, controller?]
  cases hs : t.services[i]? with
  | none => rw [h.service_none hs]
  | some s =>
    obtain ⟨s', hs', he⟩ := h.service hs
    rw [hs', Option.bind_some, Option.bind_some, he.controller]

lemma due?_eq_none (hq : ∀ s, t.services[i]? = some s → s.controller = none ∨ s.queue = [] ∨
    ∃ w q, s.queue = ⟨.shutdown, w⟩ :: q) : t.due? i = none := by
  cases hx : t.due? i with
  | none => rfl
  | some e =>
    obtain ⟨s, p, w, q, hs, hc, -, hh, -⟩ := due?_some hx
    obtain hn | hn | ⟨w', q', hn⟩ := hq s hs
    · cases hc.symm.trans hn
    · cases hh.symm.trans hn
    · cases hh.symm.trans hn

lemma execution?_eq_none (h : ∀ s ∈ t.services[i]?, s.controller = none) (m : Move) :
    t.execution? i m = none := by
  cases m with
  | work j =>
    rw [execution?]
    split
    · exact due?_eq_none fun s hs => .inl (h s hs)
    · rfl
  | change c | announce slot | act j a => rfl

lemma due?_operate {s : Service} {c : Controller} {op : Operation} {w : Option Nat}
    {q : List Entry} (ho : t.Ordered) (hs : t.services[i]? = some s) (hc : s.controller = some c)
    (hq : s.queue = ⟨.perform op, w⟩ :: q) :
    ∃ e, t.due? i = some e ∧ e.call = (op, (t.handset.operate i c op).2.answer) := by
  obtain ⟨p, hp⟩ := ho.phone hs
  refine ⟨⟨t.handset.surroundings p, c, op⟩, by simp [due?, hs, hc, hp, hq], ?_⟩
  rw [Handset.operate_eq hp]
  rfl

lemma callsAt_requests (hd : t.Mirrors d) (ho : t.Ordered) (m : Move) :
    d.callsAt i (t.requests m) = (t.execution? i m).toList.map (·.call) := by
  cases m with
  | change c | announce slot | act j a => rfl
  | work j =>
    by_cases hij : j = i
    · subst hij
      rw [execution?, if_pos rfl]
      cases work_cases t j with
      | idle hn hr _ =>
        rw [hr, due?_eq_none fun s hs => (hn s hs).imp id fun hq => .inl hq.1]
        rfl
      | stop s c hs hc hq hr _ =>
        rw [hr, due?_eq_none fun s' hs' => .inr (by
          obtain rfl := Option.some.inj (hs.symm.trans hs')
          exact hq.imp (·.1) id)]
        rfl
      | answer s c op w q a hs hc hq ha hr _ =>
        obtain ⟨e, he, hec⟩ := due?_operate ho hs hc hq
        have hc' := hd.operate_answer (hd.controller_of hs hc) op
        simp [hr, he, hec, Direct.callsAt, Direct.called, hc']
      | crash s c op w q hs hc hq ha hr _ =>
        obtain ⟨e, he, hec⟩ := due?_operate ho hs hc hq
        have hc' := hd.operate_answer (hd.controller_of hs hc) op
        simp [hr, he, hec, Direct.callsAt, Direct.called, hc']
    · rw [callsAt_work_ne hij, execution?, if_neg hij]
      rfl

def Books (gone : Nat → List Nat) (i : Nat) (t : Traffic) (log : List Entry)
    (es : List Execution) : Prop :=
  ∃ t', t.SameBut gone t' ∧ ∀ s ∈ t'.services[i]?, s.Ledger log (es.map (·.call))

theorem Books.move (hb : t.Books gone i log es) (ho : t.Ordered)
    (hg : ∀ j n, m = .act j (.abandon n) → n ∈ gone j) :
    (t.move m).1.Books gone i (log ++ (t.entered? i m).toList)
      (es ++ (t.execution? i m).toList) := by
  obtain ⟨t', he, hl⟩ := hb
  by_cases hm : m.isPatient = true
  · have hstep := he.move hm
    refine ⟨(t'.move m).1, hstep.after, fun s hs => ?_⟩
    have hi : i < t'.services.length := by
      rw [← length_move t' m]
      exact (List.getElem?_eq_some_iff.1 hs).1
    have hs₀ := List.getElem?_eq_getElem hi
    obtain ⟨s', hs', hl'⟩ := ledger_move t'.mirrors_plain hm hs₀ (hl _ hs₀)
    obtain rfl := Option.some.inj (hs'.symm.trans hs)
    rw [List.map_append, ← callsAt_requests (he.mirrors t'.mirrors_plain) ho, hstep.requests,
      hstep.entry]
    exact hl'
  · obtain ⟨j, n, rfl⟩ := eq_abandon hm
    refine ⟨t', he.abandon (hg j n rfl), fun s hs => ?_⟩
    simpa [entered?, Service.entered?, execution?] using hl s hs

end Traffic

end CallWaiting
