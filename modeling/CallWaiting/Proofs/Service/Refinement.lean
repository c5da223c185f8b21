import CallWaiting.Proofs.Service.Abandon

/-!
The services refine their controllers. Whatever the order in which requests, slot changes and
changes from outside arrive and tasks take their steps, what comes of it is what comes of calling
the controllers directly, one command after the other.
-/

namespace CallWaiting

open Controller (Operation Answer)
open Handset (Happening Direct)

namespace Service

variable {gone : List Nat} {s s' : Service} {log : List Entry}
  {calls : List (Operation × Option Answer)}

lemma SameBut.outcome? (h : s.SameBut gone s') {n : Nat} (hn : n ∉ gone) :
    s.outcome? n = s'.outcome? n := by
  rw [Service.outcome?, Service.outcome?, reply?_eq_head?, reply?_eq_head?, h.replies n hn,
    h.isRunning]

lemma SameBut.served (h : s.SameBut gone s') (hs : s'.Served log calls []) :
    s.Served log calls gone where
  distinct := hs.distinct
  order := hs.order
  complete hq := by
    have hf := h.queue
    rw [hq] at hf
    rw [h.isRunning]
    exact hs.complete (List.forall₂_nil_left_iff.1 hf)
  answered k op n hk hl hn := by
    rw [h.outcome? hn, h.replies n hn]
    exact hs.answered k op n hk hl (List.not_mem_nil)
  closed n hn hg := by
    rw [h.outcome? hg, h.replies n hg, h.isRunning]
    exact hs.closed n hn (List.not_mem_nil)

end Service

namespace Traffic

variable {t : Traffic} {i : Nat}

lemma queue_work {s : Service} (hs : t.services[i]? = some s)
    (hc : s.controller = none → s.queue = []) :
    ∃ s', (t.move (.work i)).1.services[i]? = some s' ∧ (s'.controller = none → s'.queue = []) ∧
      s'.queue.length ≤ s.queue.length - 1 := by
  have hi : i < t.services.length := (List.getElem?_eq_some_iff.1 hs).1
  cases work_cases t i with
  | idle hn hr hm =>
    have hq : s.queue = [] := (hn s hs).elim hc (·.1)
    rw [hm]
    exact ⟨s, hs, hc, by simp [hq]⟩
  | stop s' c hs' hc' hq hr hm =>
    rw [hm]
    exact ⟨_, List.getElem?_set_self hi, fun _ => rfl, by simp [Service.ended]⟩
  | answer s' c op w q a hs' hc' hq ha hr hm =>
    obtain rfl := Option.some.inj (hs.symm.trans hs')
    rw [hm]
    exact ⟨_, List.getElem?_set_self hi, by simp [Service.answered], by simp [Service.answered, hq]⟩
  | crash s' c op w q hs' hc' hq ha hr hm =>
    rw [hm]
    exact ⟨_, List.getElem?_set_self hi, fun _ => rfl, by simp [Service.ended]⟩

theorem queue_works (n : Nat) {s : Service} (hs : t.services[i]? = some s)
    (hc : s.controller = none → s.queue = []) (hn : s.queue.length ≤ n) :
    ∃ s', (t.run (List.replicate n (.work i))).services[i]? = some s' ∧ s'.queue = [] := by
  induction n generalizing t s with
  | zero => exact ⟨s, hs, List.length_eq_zero_iff.1 (Nat.le_zero.1 hn)⟩
  | succ n ih =>
    obtain ⟨s', hs', hc', hl⟩ := queue_work hs hc
    exact ih hs' hc' (by omega)

structure Refines (t : Traffic) (d : Direct) (ms : List Move) : Prop where
  mirrors : (t.run ms).Mirrors (d.run (t.script ms))
  happenings : (t.happenings ms).filter Happening.isOwn =
    (d.happenings (t.script ms)).filter Happening.isOwn
  served : ∀ (i : Nat) (s : Service), (t.run ms).services[i]? = some s → s.phase ≠ .crashed →
    s.Served (t.log i ms) (d.callsAt i (t.script ms)) (abandoned i ms)
  drained : ∀ (i : Nat) (s : Service), (t.run ms).services[i]? = some s →
    ∃ s' : Service, ((t.run ms).run (List.replicate s.queue.length (.work i))).services[i]? = some s' ∧
      s'.queue = []
  patient : (t.run ms).handset = (t.run (ms.filter Move.isPatient)).handset ∧
    t.happenings ms = t.happenings (ms.filter Move.isPatient) ∧
    ∀ (i : Nat) (s : Service), (t.run ms).services[i]? = some s →
      ∃ s' : Service, (t.run (ms.filter Move.isPatient)).services[i]? = some s' ∧
        s.controller = s'.controller ∧ s.phase = s'.phase ∧
        ∀ n, n ∉ abandoned i ms → s.outcome? n = s'.outcome? n

lemma ledger_spawn (h : Handset) (groups : List String) (ms : List Move) {s : Service}
    (hs : ((spawn h groups).run ms).services[i]? = some s) :
    ∃ s', ((spawn h groups).run (ms.filter Move.isPatient)).services[i]? = some s' ∧
      s.SameBut (abandoned i ms) s' ∧ s'.Ledger ((spawn h groups).log i ms)
        ((Direct.fresh h groups).callsAt i ((spawn h groups).script ms)) := by
  obtain ⟨he, -, hscript, hlog⟩ := (SameBut.refl (fun i => abandoned i ms) (spawn h groups)).run
    (fun _ _ hn => hn)
  have hi : i < groups.length := by
    have hl := (List.getElem?_eq_some_iff.1 hs).1
    simpa [spawn] using hl
  have hf : (spawn h groups).services[i]? = some (.fresh groups[i]) := by
    simp [spawn, hi]
  have hp : ∀ m ∈ ms.filter Move.isPatient, m.isPatient = true :=
    fun m hm => (List.mem_filter.1 hm).2
  obtain ⟨s', hs', hes⟩ := he.service hs
  obtain ⟨s₁, hs₁, hl⟩ := ledger_run (mirrors_spawn h groups) hp hf (Service.ledger_fresh _)
  obtain rfl := Option.some.inj (hs₁.symm.trans hs')
  rw [hscript, hlog]
  exact ⟨s₁, hs₁, hes, by simpa using hl⟩

theorem refines_spawn (h : Handset) (groups : List String) (ms : List Move) :
    (spawn h groups).Refines (.fresh h groups) ms := by
  obtain ⟨hm, hh⟩ := (mirrors_spawn h groups).run ms
  obtain ⟨he, hhap, -, -⟩ := (SameBut.refl (fun i => abandoned i ms) (spawn h groups)).run
    (fun _ _ hn => hn)
  refine ⟨hm, hh, fun i s hs hc => ?_, fun i s hs => ?_, he.handset, hhap, fun i s hs => ?_⟩
  · obtain ⟨s', -, hes, hl⟩ := ledger_spawn h groups ms hs
    exact hes.served (hl.served (hes.phase ▸ hc))
  · obtain ⟨s', -, hes, hl⟩ := ledger_spawn h groups ms hs
    refine queue_works s.queue.length hs (fun hc => ?_) (Nat.le_refl _)
    have hq : s'.queue = [] := hl.queue_nil (hes.controller ▸ hc)
    have hf := hes.queue
    rw [hq] at hf
    exact List.forall₂_nil_right_iff.1 hf
  · obtain ⟨s', hs', hes⟩ := he.service hs
    exact ⟨s', hs', hes.controller, hes.phase, fun n hn => hes.outcome? hn⟩

end Traffic

end CallWaiting
