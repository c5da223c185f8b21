import CallWaiting.Proofs.Service.Refinement
import CallWaiting.Proofs.Service.Standing
import CallWaiting.Proofs.Service.Stopping

/-!
How a service ends. Its task is told to stop, or is left by the last sender, or is broken off by its
store; whichever it is, nothing is run behind the end, nobody waits in vain, and no registration is
left. A batch that breaks off after it has been stored is one that breaks off before, with a change
from outside behind it that stores it.
-/

namespace CallWaiting

open Controller (Execution)

lemma Traffic.SameBut.join {gone : Nat → List Nat} {t t' : Traffic} {i : Nat}
    (h : t.SameBut gone t') : (t.join i).SameBut gone t' := by
  refine ⟨h.handset, h.airborne, fun j => ?_⟩
  have hh := h.services j
  rw [Traffic.join, List.getElem?_modify]
  cases hs : t.services[j]? with
  | none => rwa [hs] at hh
  | some s =>
    obtain ⟨s', hs', he⟩ := h.service hs
    rw [hs']
    refine .some ?_
    split
    · exact { he with }
    · exact he

def Call.isTaker : Call → Bool
  | .waiting | .returned (.error _) => true
  | .told | .returned (.ok _) | .abandoned => false

lemma Call.isTaker_abandon {y : Call} (h : y.abandon.isTaker = true) : y.isTaker = true := by
  cases y with
  | returned r => exact h
  | told | waiting | abandoned => cases h

lemma Call.takers_set {calls : List Call} {n : Nat} {y z : Call} (hn : calls[n]? = some y)
    (hz : z.isTaker = true → y.isTaker = true) :
    (calls.set n z).countP Call.isTaker ≤ calls.countP Call.isTaker := by
  obtain ⟨hlt, rfl⟩ := List.getElem?_eq_some_iff.1 hn
  rw [List.countP_set hlt]
  split
  · rename_i hy
    have hp : 0 < calls.countP Call.isTaker :=
      List.countP_pos_iff.2 ⟨_, List.getElem_mem hlt, hy⟩
    split <;> omega
  · rename_i hy
    rw [if_neg fun hh => hy (hz hh)]
    exact Nat.le_refl _

namespace Stopping

variable {x : Stopping} {i n : Nat} {s s' s₀ : Service} {m : Move} {gone : Nat → List Nat}
  {entries : List Entry} {es : List Execution}

def collect {α : Type} (i : Nat) (f : Traffic → Traffic.Move → Option α) :
    Stopping → List Move → List α
  | _, [] => []
  | x, m :: ms => ((x.amounts? i m).bind (f x.traffic)).toList ++ (x.move i m).collect i f ms

def log (i : Nat) (x : Stopping) (ms : List Move) : List Entry :=
  x.collect i (·.entered? i) ms

def executions (i : Nat) (x : Stopping) (ms : List Move) : List Execution :=
  x.collect i (·.execution? i) ms

def abandoned (i : Nat) (ms : List Move) : List Nat :=
  ms.filterMap fun
    | .around (.act j (.abandon n)) => if j = i then some n else none
    | _ => none

lemma goes_move (hs' : s' ∈ (x.move i m).traffic.services[i]?) :
    ∃ s ∈ x.traffic.services[i]?, s.Goes s' := by
  obtain hm | hm | ⟨m', hm⟩ := traffic_move i x m <;> rw [hm] at hs'
  · exact ⟨s', hs', .rest⟩
  · obtain ⟨s, hs, rfl⟩ := Traffic.mem_services_modify hs'
    rw [if_pos rfl]
    exact ⟨s, hs, .joined⟩
  · exact Traffic.goes_move hs'

lemma goes_run {P : Service → Prop} (hP : ∀ s s', s.Goes s' → P s → P s')
    (h : ∀ s ∈ x.traffic.services[i]?, P s) (ms : List Move) :
    ∀ s ∈ (x.run i ms).traffic.services[i]?, P s := by
  refine List.foldlRecOn (motive := fun x : Stopping => ∀ s ∈ x.traffic.services[i]?, P s) ms _ h ?_
  intro x h m _ s' hs'
  obtain ⟨s, hs, hg⟩ := goes_move hs'
  exact hP s s' hg (h s hs)

lemma collect_eq_nil {α : Type} {f : Traffic → Traffic.Move → Option α} {P : Service → Prop}
    (hP : ∀ s s', s.Goes s' → P s → P s')
    (hf : ∀ t, (∀ s ∈ t.services[i]?, P s) → ∀ m, f t m = none)
    (h : ∀ s ∈ x.traffic.services[i]?, P s) (ms : List Move) : x.collect i f ms = [] := by
  induction ms generalizing x with
  | nil => rfl
  | cons m ms ih =>
    rw [collect, ih fun s' hs' => ?_]
    · cases x.amounts? i m with
      | none => rfl
      | some m' =>
        rw [Option.bind_some, hf _ h]
        rfl
    · obtain ⟨s, hs, hg⟩ := goes_move hs'
      exact hP s s' hg (h s hs)

lemma books_move (hb : x.traffic.Books gone i entries es) (ho : x.traffic.Ordered)
    (hg : ∀ j n, m = .around (.act j (.abandon n)) → n ∈ gone j) :
    (x.move i m).traffic.Books gone i
      (entries ++ ((x.amounts? i m).bind (x.traffic.entered? i)).toList)
      (es ++ ((x.amounts? i m).bind (x.traffic.execution? i)).toList) := by
  obtain ⟨m', ha, hm⟩ | ⟨ha, hm⟩ := traffic_amounts i x m
  · rw [ha, hm]
    refine hb.move ho fun j n hn => hg j n ?_
    cases m with
    | around m₁ => rw [Option.some.inj ha, hn]
    | call k =>
      simp only [amounts?] at ha
      split at ha
      · cases (Option.some.inj ha).trans hn
      · cases ha
    | look k | resume k | abandon k => cases ha
  · simp only [ha, Option.bind_none, Option.toList_none, List.append_nil]
    obtain hm | hm := hm <;> rw [hm]
    · exact hb
    · obtain ⟨t', he, hl⟩ := hb
      exact ⟨t', he.join, hl⟩

theorem books_run (hb : x.traffic.Books gone i entries es) (hk : x.traffic.Kempt i) {ms : List Move}
    (hg : ∀ j n, .around (.act j (.abandon n)) ∈ ms → n ∈ gone j) :
    (x.run i ms).traffic.Books gone i (entries ++ x.log i ms) (es ++ x.executions i ms) := by
  induction ms generalizing x entries es with
  | nil => simpa [Stopping.log, executions, collect] using hb
  | cons m ms ih =>
    have hb' := books_move hb hk.ordered fun j n hn => hg j n (hn ▸ List.mem_cons_self)
    have hr := ih hb' (kempt_move hk m) fun j n hn => hg j n (List.mem_cons_of_mem m hn)
    rwa [List.append_assoc, List.append_assoc] at hr

structure Heard (x : Stopping) (s : Service) : Prop where
  free : s.joined = false → x.calls.countP Call.isTaker = 0
  one : x.calls.countP Call.isTaker ≤ 1
  returned : ∀ r, .returned r ∈ x.calls →
    r = .ok () ∨ s.phase = .crashed ∧ r = .error (.internal "call waiting task failed")

lemma takers_move (hs : s ∈ x.traffic.services[i]?) (m : Move) :
    (x.move i m).calls.countP Call.isTaker ≤ x.calls.countP Call.isTaker ∨
      s.joined = false ∧ (x.move i m).traffic = x.traffic.join i ∧
        (x.move i m).calls.countP Call.isTaker ≤ x.calls.countP Call.isTaker + 1 := by
  cases m with
  | around m => exact .inl (Nat.le_refl _)
  | call k =>
    refine .inl ?_
    simp only [move]
    split
    · split
      · rw [List.countP_append]
        exact Nat.le_refl _
      · exact Nat.le_refl _
    · exact Nat.le_refl _
  | look n =>
    simp only [move]
    split
    · rename_i s₁ hn hs₁
      obtain rfl := Option.mem_unique hs hs₁
      cases hj : s.joined with
      | true => exact .inl (Call.takers_set hn fun h => by cases h)
      | false =>
        refine .inr ⟨rfl, rfl, ?_⟩
        obtain ⟨hlt, -⟩ := List.getElem?_eq_some_iff.1 hn
        change (x.calls.set n .waiting).countP Call.isTaker ≤ _
        rw [List.countP_set hlt]
        split <;> simp [Call.isTaker]
    · exact .inl (Nat.le_refl _)
  | resume n =>
    refine .inl ?_
    simp only [move]
    split
    · rename_i s₁ hn hs₁
      split
      · exact Nat.le_refl _
      · exact Call.takers_set hn fun _ => rfl
    · exact Nat.le_refl _
  | abandon n =>
    refine .inl ?_
    simp only [move]
    cases hn : x.calls[n]? with
    | none => rw [Traffic.modify_eq_self (by simp [hn])]
    | some y =>
      rw [modify_eq_set_of_getElem? hn]
      exact Call.takers_set hn Call.isTaker_abandon

lemma Heard.move (h : x.Heard s) (hs : s ∈ x.traffic.services[i]?) (ht : s.IsTidy)
    (hs' : s' ∈ (x.move i m).traffic.services[i]?) (hg : s.Goes s') : (x.move i m).Heard s' := by
  have hj : s'.joined = false → s.joined = false := fun hj' => by
    cases hj : s.joined with
    | false => rfl
    | true => cases (hg.keeps_joined hj).symm.trans hj'
  have hcr : s.phase = .crashed → s'.phase = .crashed := fun hp =>
    (hg.remains (ht.remains (by simp [Service.isRunning, hp]))).phase.trans hp
  refine ⟨fun hj' => ?_, ?_, fun r hr => ?_⟩
  · obtain hle | ⟨-, hm, -⟩ := takers_move hs m
    · exact Nat.le_zero.1 (h.free (hj hj') ▸ hle)
    · rw [hm] at hs'
      obtain ⟨s₀, -, rfl⟩ := Traffic.mem_services_modify hs'
      rw [if_pos rfl] at hj'
      cases hj'
  · obtain hle | ⟨hf, -, hle⟩ := takers_move hs m
    · exact hle.trans h.one
    · rwa [h.free hf] at hle
  · obtain ⟨n, hn⟩ := List.mem_iff_getElem?.1 hr
    by_cases ho : x.calls[n]? = some (.returned r)
    · exact (h.returned r (List.mem_of_getElem? ho)).imp id fun hh => ⟨hcr hh.1, hh.2⟩
    · obtain ⟨-, s₁, hs₁, ⟨-, -, rfl⟩ | ⟨-, -, rfl⟩⟩ := returned_cases ho hn
      · exact .inl rfl
      · obtain rfl := Option.mem_unique hs hs₁
        by_cases hp : s.phase = .crashed
        · exact .inr ⟨hcr hp, by simp [Service.shutdownResult, hp]⟩
        · exact .inl (by simp [Service.shutdownResult, hp])

theorem heard_run (hk : x.traffic.Kempt i) (h : ∀ s ∈ x.traffic.services[i]?, x.Heard s)
    (ms : List Move) : ∀ s ∈ (x.run i ms).traffic.services[i]?, (x.run i ms).Heard s := by
  induction ms generalizing x with
  | nil => exact h
  | cons m ms ih =>
    refine ih (kempt_move hk m) fun s' hs' => ?_
    obtain ⟨s, hs, hg⟩ := goes_move hs'
    exact (h s hs).move hs (hk.tidy s hs) hs' hg

/-- How a service stands after a run, with what was put into its queue, what its task has run and who
has given up waiting; and what becomes of it. -/
structure Departs (i : Nat) (x : Stopping) (entries : List Entry) (es : List Execution)
    (gone : List Nat) (s : Service) : Prop where
  standing : s.Standing (entries.map (·.command)) es
  outcome : ∀ (k : Nat) op n, entries[k]? = some ⟨.perform op, some n⟩ → n ∉ gone →
    s.outcome? n = s.finds (es[k]?.bind (·.turn.answer))
  ended : s.isRunning = false → ∀ ms,
    (x.run i ms).traffic.Gone i ∧ x.log i ms = [] ∧ x.executions i ms = [] ∧
      ∀ s' ∈ (x.run i ms).traffic.services[i]?, s'.phase = s.phase ∧ s'.replies = s.replies ∧
        ∀ n, s.nextRequest ≤ n → n ∉ gone → s'.outcome? n = some (.error .closed)
  deserted : s.hasSender = false → ∀ ms, x.log i ms = [] ∧ ∀ slot, ∃ l,
    ((x.run i ms).traffic.move (.act i (.forward slot))).1 =
      { (x.run i ms).traffic with airborne := l }
  ends : (s.hasSender = false ∨ ∃ e ∈ s.queue, e.command = .shutdown) →
    ∃ s' ∈ (x.traffic.run (List.replicate (s.queue.length + 1) (.work i))).services[i]?,
      s'.isRunning = false
  quiet : s.isRunning = true → (∃ s' ∈ (x.traffic.move (.work i)).1.services[i]?,
      s'.phase = .crashed) → (x.traffic.move (.work i)).1.handset.SameRecords x.traffic.handset
  heard : x.Heard s
  fails : s.phase = .crashed → ∀ n : Nat, x.calls[n]? = some .waiting →
    (x.move i (.resume n)).calls[n]? =
      some (.returned (.error (.internal "call waiting task failed")))
  returns : ∀ n : Nat, x.calls[n]? = some .told → (x.move i (.look n)).calls[n]? =
    some (if s.joined then .returned (.ok ()) else .waiting)

lemma fails_of_crashed (hs : s ∈ x.traffic.services[i]?) (hp : s.phase = .crashed)
    (hn : x.calls[n]? = some .waiting) : (x.move i (.resume n)).calls[n]? =
      some (.returned (.error (.internal "call waiting task failed"))) := by
  obtain ⟨hlt, -⟩ := List.getElem?_eq_some_iff.1 hn
  have hr : s.isRunning = false := by simp [Service.isRunning, hp]
  simp only [Stopping.move, hn, Option.mem_def.1 hs, hr]
  simp [hlt, Service.shutdownResult, hp]

lemma returns_of_told (hs : s ∈ x.traffic.services[i]?) (hn : x.calls[n]? = some .told) :
    (x.move i (.look n)).calls[n]? =
      some (if s.joined then .returned (.ok ()) else .waiting) := by
  obtain ⟨hlt, -⟩ := List.getElem?_eq_some_iff.1 hn
  simp only [Stopping.move, hn, Option.mem_def.1 hs]
  cases s.joined <;> simp [hlt, Service.shutdownResult]

lemma forall_mem_services {P : Service → Prop} (hs : s ∈ x.traffic.services[i]?) (hP : P s) :
    ∀ s' ∈ x.traffic.services[i]?, P s' := by
  intro s' hs'
  rwa [← Option.mem_unique hs hs']

lemma remains_run (hs : s ∈ x.traffic.services[i]?) (ht : s.IsTidy) (hr : s.isRunning = false)
    (ms : List Move) : x.log i ms = [] ∧ x.executions i ms = [] ∧
      ∀ s' ∈ (x.run i ms).traffic.services[i]?, s.Remains s' := by
  have h := forall_mem_services hs (ht.remains hr)
  have hP := fun (s₁ s₂ : Service) (hg : s₁.Goes s₂) (h : s.Remains s₁) => hg.remains h
  refine ⟨collect_eq_nil hP (fun t hrem m => ?_) h ms, collect_eq_nil hP (fun t hrem m => ?_) h ms,
    goes_run hP h ms⟩
  · refine Traffic.entered?_eq_none (fun s₁ hs₁ a => ?_) m
    exact Service.entered?_of_ended ((hrem s₁ hs₁).isRunning.trans hr) a
  · exact Traffic.execution?_eq_none (fun s₁ hs₁ => (hrem s₁ hs₁).controller) m

lemma deserted_run (hs : s ∈ x.traffic.services[i]?) (hd : s.hasSender = false) (ms : List Move) :
    x.log i ms = [] ∧ ∀ s' ∈ (x.run i ms).traffic.services[i]?, s'.hasSender = false := by
  have h := forall_mem_services (P := (·.hasSender = false)) hs hd
  have hP := fun (s₁ s₂ : Service) (hg : s₁.Goes s₂) => hg.hasSender
  refine ⟨collect_eq_nil hP (fun t hnone m => ?_) h ms, goes_run hP h ms⟩
  exact Traffic.entered?_eq_none (fun s₁ hs₁ => Service.entered?_of_deserted (hnone s₁ hs₁)) m

lemma books_spawn (h : Handset) (groups : List String) (i : Nat) :
    (spawn h groups).traffic.Books gone i [] [] := by
  refine ⟨_, .refl gone _, fun s hs => ?_⟩
  obtain ⟨g, -, rfl⟩ := List.mem_map.1 (List.mem_of_getElem? hs)
  exact Service.ledger_fresh g

lemma isSound_run (h : Handset) (groups : List String) (i : Nat) (ms : List Move) :
    ∀ s ∈ ((spawn h groups).run i ms).traffic.services[i]?, s.IsSound := by
  refine goes_run (fun _ _ hg => hg.isSound) (fun s hs => ?_) ms
  obtain ⟨g, -, rfl⟩ := List.mem_map.1 (List.mem_of_getElem? hs)
  nofun

theorem departs {phones : List Phone} {groups : List String} {store : Preference.Store}
    {disk : FileSystem} (hl : groups.length ≤ phones.length)
    (hx : spawn (.fresh phones store disk) groups = x) (i : Nat) (ms : List Move) :
    ∀ s ∈ (x.run i ms).traffic.services[i]?,
      (x.run i ms).Departs i (x.log i ms) (x.executions i ms) (abandoned i ms) s := by
  subst hx
  intro s hs
  have hk₀ := kempt_spawn hl store disk i
  have hk := kempt_run hk₀ ms
  obtain ⟨t', he, hb⟩ := books_run (books_spawn _ _ i) hk₀ fun j n hn =>
    (List.mem_filterMap.2 ⟨_, hn, if_pos rfl⟩ : n ∈ abandoned j ms)
  obtain ⟨s', hs', hes⟩ := he.service hs
  have hledger := hb s' hs'
  refine ⟨hes.standing hledger.standing, ?_, ?_, ?_, ?_, ?_, ?_, ?_, ?_⟩
  · intro k op n hk hn
    rw [hes.outcome? hn, hledger.outcome? hk, hes.finds]
    rfl
  · intro hr ms'
    obtain ⟨hlog, hexec, hrem⟩ := remains_run hs (hk.tidy s hs) hr ms'
    refine ⟨gone_run hk (hk.gone hs hr) ms', hlog, hexec, fun s₁ hs₁ => ?_⟩
    refine ⟨(hrem s₁ hs₁).phase, (hrem s₁ hs₁).replies, fun n hn hg => ?_⟩
    rw [hes.nextRequest] at hn
    rw [(hrem s₁ hs₁).outcome?, hes.outcome? hg]
    exact hledger.outcome?_later hn (hes.isRunning.symm.trans hr)
  · intro hd ms'
    obtain ⟨hlog, hd'⟩ := deserted_run hs hd ms'
    exact ⟨hlog, Traffic.forward_deserted hd'⟩
  · exact Traffic.works_end _ hs (isSound_run _ _ i ms s hs) (hk.tidy s hs) (Nat.lt_succ_self _)
  · rintro hr ⟨s₁, hs₁, hp⟩
    exact Traffic.work_quiet hs hr hs₁ hp
  · exact heard_run hk₀ (fun _ _ => ⟨fun _ => rfl, Nat.zero_le 1, nofun⟩) ms s hs
  · exact fun hp n => fails_of_crashed hs hp
  · exact fun n => returns_of_told hs

set_option maxRecDepth 10000 in
theorem departs_broken :
    let ms : List Move := [.around (.change (.install ⟨1⟩ (.offering true))),
      .around (.act 0 (.send 0 (.perform (.setSupported true)))), .around (.work 0),
      .around (.change .poison), .around (.act 0 (.ask 0 (.request false .voice))),
      .around (.act 0 (.ask 0 .readState)), .call 0, .look 0, .call 0, .around (.work 0)]
    let x := spawn (.fresh [.fresh ⟨0⟩ ⟨1⟩] (.memory .empty) .empty) [""]
    (∃ s ∈ (x.run 0 ms).traffic.services[0]?,
      (x.run 0 ms).Departs 0 (x.log 0 ms) (x.executions 0 ms) (abandoned 0 ms) s) ∧
    let y := x.run 0 ms
    (y.traffic.services[0]?).map (·.phase) = some .crashed ∧
      (y.traffic.services[0]?).bind (·.outcome? 0) = some (.error .closed) ∧
      (y.traffic.services[0]?).bind (·.outcome? 1) = some (.error .closed) ∧
      y.traffic.handset.registry.listeners = [] ∧
      y.traffic.handset.store.get? "" (.state ⟨1⟩) = some 1 ∧
      (y.move 0 (.resume 0)).calls[0]? =
        some (.returned (.error (.internal "call waiting task failed"))) ∧
      (y.move 0 (.look 1)).calls[1]? = some (.returned (.ok ())) := by
  intro ms x
  have hl : [""].length ≤ [Phone.fresh ⟨0⟩ ⟨1⟩].length := Nat.le_refl 1
  have hi : 0 < (x.run 0 ms).traffic.services.length := by decide
  have hs := List.getElem?_eq_getElem hi
  exact ⟨⟨_, hs, departs hl (x := x) rfl 0 ms _ hs⟩, by decide, by decide, by decide, by decide,
    by decide, by decide, by decide⟩

end Stopping

end CallWaiting
