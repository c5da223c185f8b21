import CallWaiting.Proofs.Service.Order
import CallWaiting.Proofs.Service.Passage

/-!
The calls that stop a service, seen from close up. A call tells the task to stop and then looks
whether anybody waits for its end. Only one that finds nobody waits itself; any other returns at once,
whether the task has ended or not.
-/

namespace CallWaiting

namespace Traffic

variable {t : Traffic} {i j : Nat} {s s' : Service}

def IsRunning (i : Nat) (t : Traffic) : Prop :=
  ∃ s ∈ t.services[i]?, s.isRunning = true

structure Gone (i : Nat) (t : Traffic) : Prop where
  ended : ∃ s ∈ t.services[i]?, s.isRunning = false ∧ s.controller = none ∧ s.queue = []
  unlisted : i ∉ t.handset.registry.listeners

structure Kempt (i : Nat) (t : Traffic) : Prop where
  ordered : t.Ordered
  tidy : ∀ s ∈ t.services[i]?, s.IsTidy

lemma Kempt.gone (h : t.Kempt i) (hs : s ∈ t.services[i]?) (hr : s.isRunning = false) :
    t.Gone i := by
  obtain ⟨hc, hq⟩ := h.tidy s hs hr
  refine ⟨⟨s, hs, hr, hc, hq⟩, fun hi => ?_⟩
  obtain ⟨e, he, rfl⟩ := List.mem_map.1 hi
  have ht := h.ordered.owned.entry e he
  rw [ticket, controller?, Option.mem_def.1 hs, Option.bind_some, hc] at ht
  cases ht

lemma Gone.not_isRunning (h : t.Gone i) : ¬ t.IsRunning i := by
  obtain ⟨s, hs, hr, -⟩ := h.ended
  rintro ⟨s', hs', hr'⟩
  obtain rfl := Option.mem_unique hs hs'
  rw [hr] at hr'
  cases hr'

lemma Gone.work (h : t.Gone i) : t.move (.work i) = (t, []) := by
  obtain ⟨s, hs, -, hc, -⟩ := h.ended
  refine (work_idle fun s' hs' => .inl ?_).2
  obtain rfl := Option.mem_unique hs hs'
  exact hc

lemma Kempt.move (h : t.Kempt i) (m : Move) : (t.move m).1.Kempt i :=
  ⟨h.ordered.move m, goes_run (fun _ _ hg => hg.isTidy) h.tidy [m]⟩

def join (i : Nat) (t : Traffic) : Traffic :=
  { t with services := t.services.modify i ({ · with joined := true }) }

lemma Kempt.join (h : t.Kempt i) : (t.join i).Kempt i := by
  refine ⟨⟨?_, ?_⟩, fun s hs => ?_⟩
  · simpa [Traffic.join] using h.ordered.fits
  · rw [ticket_modify (u := t.join i) rfl fun _ => rfl]
    exact h.ordered.owned
  · obtain ⟨s₀, hs₀, rfl⟩ := mem_services_modify hs
    rw [if_pos rfl]
    exact h.tidy s₀ hs₀

lemma Gone.move (h : t.Gone i) (hk : t.Kempt i) (m : Move) : (t.move m).1.Gone i := by
  obtain ⟨s, hs, hr, hc, -⟩ := h.ended
  obtain ⟨s', hs', hr'⟩ := ended_run hs hr hc [m]
  exact (hk.move m).gone hs' hr'

lemma Gone.join (h : t.Gone i) (hk : t.Kempt i) : (t.join i).Gone i := by
  obtain ⟨s, hs, hr, -⟩ := h.ended
  refine hk.join.gone (s := { s with joined := true }) ?_ hr
  rw [Option.mem_def, Traffic.join, List.getElem?_modify, Option.mem_def.1 hs]
  simp

end Traffic

inductive Call where
  | told
  | waiting
  | returned (r : Except Error Unit)
  | abandoned
deriving DecidableEq

def Call.abandon : Call → Call
  | .returned r => .returned r
  | .told | .waiting | .abandoned => .abandoned

lemma Call.abandon_eq_returned {y : Call} {r : Except Error Unit} :
    y.abandon = .returned r ↔ y = .returned r := by
  cases y <;> simp [abandon]

structure Stopping where
  traffic : Traffic
  calls : List Call

namespace Stopping

inductive Move where
  | around (m : Traffic.Move)
  | call (handle : Nat)
  | look (n : Nat)
  | resume (n : Nat)
  | abandon (n : Nat)

def spawn (h : Handset) (groups : List String) : Stopping :=
  ⟨.spawn h groups, []⟩

def move (i : Nat) (x : Stopping) : Move → Stopping
  | .around m => { x with traffic := (x.traffic.move m).1 }
  | .call k =>
    match x.traffic.services[i]? with
    | some s =>
      if s.handle? k then
        ⟨(x.traffic.move (.act i (.send k .shutdown))).1, x.calls ++ [.told]⟩
      else x
    | none => x
  | .look n =>
    match x.calls[n]?, x.traffic.services[i]? with
    | some .told, some s =>
      if s.joined then { x with calls := x.calls.set n (.returned (s.shutdownResult false)) }
      else ⟨x.traffic.join i, x.calls.set n .waiting⟩
    | _, _ => x
  | .resume n =>
    match x.calls[n]?, x.traffic.services[i]? with
    | some .waiting, some s =>
      if s.isRunning then x
      else { x with calls := x.calls.set n (.returned (s.shutdownResult true)) }
    | _, _ => x
  | .abandon n => { x with calls := x.calls.modify n Call.abandon }

def run (i : Nat) (x : Stopping) (ms : List Move) : Stopping :=
  ms.foldl (move i) x

@[simp] lemma run_nil (i : Nat) (x : Stopping) : x.run i [] = x := rfl

@[simp] lemma run_cons (i : Nat) (x : Stopping) (m : Move) (ms : List Move) :
    x.run i (m :: ms) = (x.move i m).run i ms := rfl

variable {x : Stopping} {i n : Nat} {m : Move}

lemma modify_eq_set_of_getElem? {α : Type} {ss : List α} {s : α} (hs : ss[i]? = some s)
    (f : α → α) : ss.modify i f = ss.set i (f s) := by
  simp [List.modify_eq_set_getElem?, hs]

lemma move_act {s : Service} {a : Service.Act} {t : Traffic} (hs : t.services[i]? = some s)
    (ha : ∀ slot, a ≠ .forward slot) :
    (t.move (.act i a)).1 = { t with services := t.services.set i (s.act a) } := by
  have hm := modify_eq_set_of_getElem? hs (·.act a)
  cases a with
  | forward slot => exact absurd rfl (ha slot)
  | send k c | ask k op | abandon n | shutdown k | cloneHandle k | dropHandle k | keepSender k
  | dropSender => simp only [Traffic.move, Traffic.permits, Traffic.remaining, if_true, hm]

theorem move_begins {s : Service} {k : Nat} (hs : x.traffic.services[i]? = some s)
    (hk : s.handle? k = true) :
    (x.move i (.call k)).move i (.look x.calls.length) =
      ⟨(x.traffic.move (.act i (.shutdown k))).1,
        x.calls ++ [if s.joined then .returned (s.shutdownResult false) else .waiting]⟩ := by
  have hsend : s.act (.send k .shutdown) = s.enqueue .shutdown none := by
    simp [Service.act, Exchange.canSend, hk]
  have hshut : s.act (.shutdown k) = { s.enqueue .shutdown none with joined := true } := by
    rw [Service.act, if_pos hk]
    rfl
  have hj : (s.enqueue .shutdown none).joined = s.joined := by
    rw [Service.enqueue]
    split <;> rfl
  have hi : i < x.traffic.services.length := (List.getElem?_eq_some_iff.1 hs).1
  have hcall : x.move i (.call k) = ⟨{ x.traffic with
      services := x.traffic.services.set i (s.enqueue .shutdown none) }, x.calls ++ [.told]⟩ := by
    simp only [move, hs, hk, if_true]
    rw [move_act (a := .send k .shutdown) hs (by simp), hsend]
  rw [move_act (a := .shutdown k) hs (by simp), hshut, hcall]
  simp only [move, List.getElem?_concat_length, List.getElem?_set_self hi, hj]
  cases hb : s.joined with
  | true =>
    have he : { s.enqueue .shutdown none with joined := true } = s.enqueue .shutdown none := by
      rw [← hj.trans hb]
    have hr : (s.enqueue .shutdown none).shutdownResult false = s.shutdownResult false := rfl
    simp [he, hr]
  | false =>
    have hm := modify_eq_set_of_getElem? (List.getElem?_set_self (a := s.enqueue .shutdown none) hi)
      ({ · with joined := true })
    simp [Traffic.join, hm]

def amounts? (i : Nat) (x : Stopping) : Move → Option Traffic.Move
  | .around m => some m
  | .call k =>
    if x.traffic.services[i]?.any (·.handle? k) then some (.act i (.send k .shutdown)) else none
  | .look _ | .resume _ | .abandon _ => none

lemma traffic_amounts (i : Nat) (x : Stopping) (m : Move) :
    (∃ m', x.amounts? i m = some m' ∧ (x.move i m).traffic = (x.traffic.move m').1) ∨
      x.amounts? i m = none ∧
        ((x.move i m).traffic = x.traffic ∨ (x.move i m).traffic = x.traffic.join i) := by
  cases m with
  | around m => exact .inl ⟨m, rfl, rfl⟩
  | call k =>
    simp only [amounts?, move]
    cases hs : x.traffic.services[i]? with
    | none => exact .inr ⟨rfl, .inl rfl⟩
    | some s =>
      simp only [Option.any_some]
      split
      · exact .inl ⟨_, rfl, rfl⟩
      · exact .inr ⟨rfl, .inl rfl⟩
  | look n =>
    refine .inr ⟨rfl, ?_⟩
    simp only [move]
    split
    · split
      · exact .inl rfl
      · exact .inr rfl
    · exact .inl rfl
  | resume n =>
    refine .inr ⟨rfl, .inl ?_⟩
    simp only [move]
    split
    · split <;> rfl
    · rfl
  | abandon n => exact .inr ⟨rfl, .inl rfl⟩

lemma traffic_move (i : Nat) (x : Stopping) (m : Move) : (x.move i m).traffic = x.traffic ∨
    (x.move i m).traffic = x.traffic.join i ∨
    ∃ m', (x.move i m).traffic = (x.traffic.move m').1 := by
  obtain ⟨m', -, hm⟩ | ⟨-, hm | hm⟩ := traffic_amounts i x m
  · exact .inr (.inr ⟨m', hm⟩)
  · exact .inl hm
  · exact .inr (.inl hm)

lemma kempt_move (h : x.traffic.Kempt i) (m : Move) : (x.move i m).traffic.Kempt i := by
  obtain hm | hm | ⟨m', hm⟩ := traffic_move i x m <;> rw [hm]
  · exact h
  · exact h.join
  · exact h.move m'

lemma kempt_run (h : x.traffic.Kempt i) (ms : List Move) : (x.run i ms).traffic.Kempt i := by
  induction ms generalizing x with
  | nil => exact h
  | cons m ms ih => exact ih (kempt_move h m)

lemma gone_run (hk : x.traffic.Kempt i) (h : x.traffic.Gone i) (ms : List Move) :
    (x.run i ms).traffic.Gone i := by
  induction ms generalizing x with
  | nil => exact h
  | cons m ms ih =>
    refine ih (kempt_move hk m) ?_
    obtain hm | hm | ⟨m', hm⟩ := traffic_move i x m <;> rw [hm]
    · exact h
    · exact h.join hk
    · exact h.move hk m'

lemma kempt_spawn {phones : List Phone} {groups : List String} (hl : groups.length ≤ phones.length)
    (store : Preference.Store) (disk : FileSystem) (i : Nat) :
    (spawn (.fresh phones store disk) groups).traffic.Kempt i := by
  have hc : ∀ (j : Nat) (s : Service), (groups.map Service.fresh)[j]? = some s →
      ∃ g, s = .fresh g := by
    intro j s hs
    rw [List.getElem?_map] at hs
    obtain ⟨g, -, rfl⟩ := Option.map_eq_some_iff.1 hs
    exact ⟨g, rfl⟩
  refine ⟨⟨?_, Broadcast.Registry.owned_empty fun j => ?_⟩, fun s hs => ?_⟩
  · simpa [spawn, Traffic.spawn, Handset.fresh] using hl
  · rw [Traffic.ticket, Traffic.controller?]
    cases hs : (spawn (.fresh phones store disk) groups).traffic.services[j]? with
    | none => rfl
    | some s =>
      obtain ⟨g, rfl⟩ := hc j s hs
      rfl
  · obtain ⟨g, rfl⟩ := hc i s hs
    exact Service.isTidy_fresh g

lemma eq_of_set_returned {calls : List Call} {k : Nat} {y : Call} {r : Except Error Unit}
    (hn : calls[n]? ≠ some (.returned r)) (hy : (calls.set k y)[n]? = some (.returned r)) :
    k = n ∧ y = .returned r := by
  rw [List.getElem?_set] at hy
  split at hy
  · rename_i hk
    split at hy
    · exact ⟨hk, Option.some.inj hy⟩
    · cases hy
  · exact absurd hy hn

lemma returned_of_call {k : Nat} {r : Except Error Unit}
    (hr : (x.move i (.call k)).calls[n]? = some (.returned r)) :
    x.calls[n]? = some (.returned r) := by
  simp only [move] at hr
  split at hr
  · split at hr
    · rw [List.getElem?_append] at hr
      split at hr
      · exact hr
      · rw [List.getElem?_singleton] at hr
        split at hr <;> cases hr
    · exact hr
  · exact hr

lemma returned_of_abandon {k : Nat} {r : Except Error Unit}
    (hr : (x.move i (.abandon k)).calls[n]? = some (.returned r)) :
    x.calls[n]? = some (.returned r) := by
  simp only [move, List.getElem?_modify] at hr
  obtain ⟨y, hy, he⟩ := Option.map_eq_some_iff.1 hr
  split at he
  · rw [hy, Call.abandon_eq_returned.1 he]
  · rw [hy, ← he]

lemma returned_cases {r : Except Error Unit} (hn : x.calls[n]? ≠ some (.returned r))
    (hr : (x.move i m).calls[n]? = some (.returned r)) :
    (x.move i m).traffic = x.traffic ∧ ∃ s ∈ x.traffic.services[i]?,
      (x.calls[n]? = some .told ∧ s.joined = true ∧ r = s.shutdownResult false) ∨
        x.calls[n]? = some .waiting ∧ s.isRunning = false ∧ r = s.shutdownResult true := by
  cases m with
  | around m => exact absurd hr hn
  | call k => exact absurd (returned_of_call hr) hn
  | abandon k => exact absurd (returned_of_abandon hr) hn
  | look k =>
    simp only [move] at hr ⊢
    split at hr
    · rename_i s hk hs
      split at hr
      · rename_i hj
        obtain ⟨rfl, he⟩ := eq_of_set_returned hn hr
        rw [if_pos hj]
        exact ⟨rfl, s, hs, .inl ⟨hk, hj, (Call.returned.inj he).symm⟩⟩
      · obtain ⟨-, he⟩ := eq_of_set_returned hn hr
        cases he
    · exact absurd hr hn
  | resume k =>
    simp only [move] at hr ⊢
    split at hr
    · rename_i s hk hs
      split at hr
      · exact absurd hr hn
      · rename_i hj
        obtain ⟨rfl, he⟩ := eq_of_set_returned hn hr
        rw [if_neg hj]
        exact ⟨rfl, s, hs, .inr ⟨hk, Bool.eq_false_iff.2 hj, (Call.returned.inj he).symm⟩⟩
    · exact absurd hr hn

/-- Whenever a call returns with success, the task has ended just if the call has waited or the task
had ended before. What has ended stays so: nothing more is taken from the queue, and nobody is
registered. -/
theorem returned_gone_iff {phones : List Phone} {groups : List String} {store : Preference.Store}
    {disk : FileSystem} (hl : groups.length ≤ phones.length) (ms : List Move) (i n : Nat)
    (m : Move) :
    let x := (spawn (.fresh phones store disk) groups).run i ms
    x.calls[n]? ≠ some (.returned (.ok ())) →
      (x.move i m).calls[n]? = some (.returned (.ok ())) →
      ((x.move i m).traffic.Gone i ↔ x.calls[n]? = some .waiting ∨ ¬ x.traffic.IsRunning i) ∧
      ((x.move i m).traffic.Gone i → ∀ ms',
        let y := (x.move i m).run i ms'
        y.traffic.Gone i ∧ y.traffic.move (.work i) = (y.traffic, [])) := by
  intro x hn hr
  have hk : x.traffic.Kempt i := kempt_run (kempt_spawn hl store disk i) ms
  refine ⟨?_, fun hg ms' => ?_⟩
  · obtain ⟨hm, s, hs, ⟨ht, -, -⟩ | ⟨hw, he, -⟩⟩ := returned_cases hn hr
    · rw [hm, ht]
      refine ⟨fun hg => .inr hg.not_isRunning, ?_⟩
      rintro (h | h)
      · cases h
      · exact hk.gone hs (Bool.eq_false_iff.2 fun he => h ⟨s, hs, he⟩)
    · rw [hm]
      exact iff_of_true (hk.gone hs he) (.inl hw)
  · have hg' := gone_run (kempt_move hk m) hg ms'
    exact ⟨hg', hg'.work⟩

theorem returned_gone_having_waited :
    let ms : List Move := [.around (.act 0 (.send 0 (.perform (.setSupported true)))),
      .around (.work 0), .call 0, .look 0, .around (.work 0)]
    let x := (spawn (.fresh [.fresh ⟨0⟩ ⟨1⟩] (.memory .empty) .empty) [""]).run 0 ms
    x.calls[0]? = some .waiting ∧ (x.move 0 (.resume 0)).calls[0]? = some (.returned (.ok ())) ∧
      (x.move 0 (.resume 0)).traffic.Gone 0 := by
  intro ms x
  have hw : x.calls[0]? = some .waiting := rfl
  have hr : (x.move 0 (.resume 0)).calls[0]? = some (.returned (.ok ())) := rfl
  have hn : x.calls[0]? ≠ some (.returned (.ok ())) := by
    rw [hw]
    nofun
  have hl : [""].length ≤ [Phone.fresh ⟨0⟩ ⟨1⟩].length := Nat.le_refl 1
  exact ⟨hw, hr, (returned_gone_iff hl ms 0 0 (.resume 0) hn hr).1.2 (.inl hw)⟩

set_option maxRecDepth 10000 in
theorem not_returned_gone_second :
    let x := (spawn (.fresh [.fresh ⟨0⟩ ⟨1⟩] (.memory .empty) .empty) [""]).run 0
      [.around (.change (.install ⟨1⟩ (.offering true))),
        .around (.act 0 (.send 0 (.perform (.setSupported true)))), .around (.work 0),
        .around (.act 0 (.ask 0 (.request false .voice))), .call 0, .look 0, .call 0, .look 1]
    let y := x.move 0 (.around (.work 0))
    x.calls[1]? = some (.returned (.ok ())) ∧ x.traffic.IsRunning 0 ∧ ¬ x.traffic.Gone 0 ∧
      x.traffic.handset.registry.listeners = [0] ∧
      x.traffic.handset.store.get? "" (.state ⟨1⟩) = some 1 ∧
      y.traffic.handset.store.get? "" (.state ⟨1⟩) = some 0 ∧
      y.traffic.handset.registry.listeners = [0] := by
  intro x y
  have hr : x.traffic.IsRunning 0 := ⟨_, rfl, rfl⟩
  exact ⟨rfl, hr, fun hg => hg.not_isRunning hr, by decide, by decide, by decide, by decide⟩

end Stopping

end CallWaiting
