import CallWaiting.Proofs.Service.Sequential

namespace CallWaiting

open Controller (Operation Answer)
open Handset (Direct)

def Handset.Direct.called (d : Direct) (i : Nat) : Direct.Request → List (Operation × Option Answer)
  | .operate j op => if j = i then [(op, (d.operate j op).2.1)] else []
  | _ => []

def Handset.Direct.callsAt (i : Nat) : Direct → List Direct.Request → List (Operation × Option Answer)
  | _, [] => []
  | d, r :: rs => d.called i r ++ (d.step r).1.callsAt i rs

lemma Handset.Direct.callsAt_append (i : Nat) (d : Direct) (rs rs' : List Direct.Request) :
    d.callsAt i (rs ++ rs') = d.callsAt i rs ++ (d.run rs).callsAt i rs' := by
  induction rs generalizing d with
  | nil => rfl
  | cons r rs ih => simp only [List.cons_append, callsAt, ih, run_cons, List.append_assoc]

namespace Service

inductive Performed : List Entry → List (Operation × Option Answer) → List (Nat × Answer) → Prop
  | nil : Performed [] [] []
  | snoc {done : List Entry} {calls : List (Operation × Option Answer)}
    {replies : List (Nat × Answer)} (h : Performed done calls replies) (op : Operation)
    (w : Option Nat) (a : Answer) :
    Performed (done ++ [⟨.perform op, w⟩]) (calls ++ [(op, some a)])
      (replies ++ (w.map (·, a)).toList)

inductive Waiting (s : Service) : List Entry → Prop
  | running (hp : s.phase = .running) (hc : s.controller.isSome = true) : Waiting s s.queue
  | stopped (rest : List Entry) (hp : s.phase = .stopped) (hc : s.controller = none)
    (hq : s.queue = [])
    (hr : rest = [] ∧ s.hasSender = false ∨ ∃ w q, rest = ⟨.shutdown, w⟩ :: q) : Waiting s rest

structure Ledger (log : List Entry) (calls : List (Operation × Option Answer)) (s : Service) :
    Prop where
  entries : s.phase ≠ .crashed →
    ∃ done rest, log = done ++ rest ∧ Performed done calls s.replies ∧ s.Waiting rest
  crashed : s.phase = .crashed → s.controller = none ∧ s.queue = []
  broken : s.phase = .crashed → ∃ done calls' op w rest, log = done ++ ⟨.perform op, w⟩ :: rest ∧
    calls = calls' ++ [(op, none)] ∧ Performed done calls' s.replies
  increasing : (log.filterMap (·.waiting)).Pairwise (· < ·)
  below : ∀ n ∈ log.filterMap (·.waiting), n < s.nextRequest

variable {s : Service} {log : List Entry} {calls : List (Operation × Option Answer)}

lemma ledger_fresh (group : String) : Ledger [] [] (fresh group) where
  entries _ := ⟨[], [], rfl, .nil, .running rfl rfl⟩
  crashed h := by cases h
  broken h := by cases h
  increasing := .nil
  below := by simp

lemma entered?_of_ended (hr : s.isRunning = false) (a : Act) : s.entered? a = none := by
  cases a <;> simp [entered?, hr, isReachable]

lemma handle?_of_deserted (h : s.hasSender = false) (k : Nat) : s.handle? k = false := by
  rw [hasSender, Bool.or_eq_false_iff, List.any_eq_false] at h
  rw [handle?, List.getD_eq_getElem?_getD]
  cases hk : s.handles[k]? with
  | none => rfl
  | some b => simpa using h.2 b (List.mem_of_getElem? hk)

lemma canSend_of_deserted (h : s.hasSender = false) (k : Nat) : Exchange.canSend s k = false := by
  rw [Exchange.canSend, handle?_of_deserted h, Bool.or_false]
  exact (Bool.or_eq_false_iff.1 h).1

lemma isReachable_of_deserted (h : s.hasSender = false) : s.isReachable = false := by
  rw [isReachable, h, Bool.and_false]

lemma hasSender_act (h : s.hasSender = false) (a : Act) : (s.act a).hasSender = false := by
  cases a with
  | send k c | ask k op => simpa only [Service.act, canSend_of_deserted h] using! h
  | forward slot => simpa only [Service.act, isReachable_of_deserted h] using! h
  | shutdown k | cloneHandle k | keepSender k =>
    simpa only [Service.act, handle?_of_deserted h] using! h
  | abandon n => exact h
  | dropSender => exact Bool.or_eq_false_iff.2 ⟨rfl, (Bool.or_eq_false_iff.1 h).2⟩
  | dropHandle k =>
    obtain ⟨hk, hh⟩ := Bool.or_eq_false_iff.1 h
    refine Bool.or_eq_false_iff.2 ⟨hk, List.any_eq_false.2 fun b hb => ?_⟩
    obtain hb | rfl := List.mem_or_eq_of_mem_set hb
    · exact List.any_eq_false.1 hh b hb
    · exact Bool.false_ne_true

lemma entered?_of_deserted (h : s.hasSender = false) (a : Act) : s.entered? a = none := by
  cases a <;> simp [entered?, canSend_of_deserted h, isReachable_of_deserted h,
    handle?_of_deserted h]

lemma waiting_entered? {a : Act} {n : Nat}
    (hn : n ∈ (s.entered? a).toList.filterMap (·.waiting)) :
    n = s.nextRequest ∧ (s.act a).nextRequest = s.nextRequest + 1 := by
  obtain ⟨e, he, hw⟩ := List.mem_filterMap.1 hn
  exact (act_nextRequest s a).2 e n (Option.mem_toList.1 he) hw

lemma Ledger.act (h : Ledger log calls s) {a : Act} (ha : ∀ n, a ≠ .abandon n) :
    Ledger (log ++ (s.entered? a).toList) calls (s.act a) := by
  obtain ⟨hc, hp, hr⟩ := act_apart s a
  have hq := act_queue s ha
  refine ⟨fun hcr => ?_, fun hcr => ?_, fun hcr => ?_, ?_, ?_⟩
  · rw [hp] at hcr
    obtain ⟨done, rest, rfl, hd, hw⟩ := h.entries hcr
    rw [← hr] at hd
    cases hw with
    | running hpr hcs =>
      refine ⟨done, (s.act a).queue, ?_, hd, .running (hp.trans hpr) (hc ▸ hcs)⟩
      rw [hq, List.append_assoc]
    | stopped rest hps hcn hqn hrest =>
      have he : s.entered? a = none := entered?_of_ended (by simp [isRunning, hps]) a
      rw [he] at hq ⊢
      refine ⟨done, rest, by simp, hd, .stopped rest (hp.trans hps) (hc.trans hcn) ?_ ?_⟩
      · simpa [hqn] using hq
      · exact hrest.imp (fun hh => ⟨hh.1, hasSender_act hh.2 a⟩) id
  · rw [hp] at hcr
    obtain ⟨hcn, hqn⟩ := h.crashed hcr
    have he : s.entered? a = none := entered?_of_ended (by simp [isRunning, hcr]) a
    exact ⟨hc.trans hcn, by simp [hq, hqn, he]⟩
  · rw [hp] at hcr
    have he : s.entered? a = none := entered?_of_ended (by simp [isRunning, hcr]) a
    rw [he, hr, Option.toList_none, List.append_nil]
    exact h.broken hcr
  · rw [List.filterMap_append, List.pairwise_append]
    refine ⟨h.increasing, ?_, fun m hm n hn => ?_⟩
    · cases s.entered? a with
      | none => exact .nil
      | some e => cases hw : e.waiting <;> simp [hw]
    · rw [(waiting_entered? hn).1]
      exact h.below m hm
  · intro n hn
    rw [List.filterMap_append, List.mem_append] at hn
    obtain hn | hn := hn
    · exact (h.below n hn).trans_le (act_nextRequest s a).1
    · obtain ⟨rfl, hs⟩ := waiting_entered? hn
      omega

lemma Ledger.running {c : Controller} (h : Ledger log calls s) (hc : s.controller = some c) :
    s.phase = .running ∧ ∃ done, log = done ++ s.queue ∧ Performed done calls s.replies := by
  have hcr : s.phase ≠ .crashed := fun hcr => by cases hc.symm.trans (h.crashed hcr).1
  obtain ⟨done, rest, rfl, hd, hw⟩ := h.entries hcr
  cases hw with
  | running hp => exact ⟨hp, done, rfl, hd⟩
  | stopped _ _ hn => cases hc.symm.trans hn

lemma Ledger.answered {op : Operation} {w : Option Nat} {q : List Entry} (h : Ledger log calls s)
    {c : Controller} (hc : s.controller = some c) (hq : s.queue = ⟨.perform op, w⟩ :: q)
    (c' : Controller) (a : Answer) :
    Ledger log (calls ++ [(op, some a)]) ({ s with queue := q }.answered c' w a) := by
  obtain ⟨hp, done, rfl, hd⟩ := h.running hc
  have hn : s.phase ≠ .crashed := by simp [hp]
  refine ⟨fun _ => ?_, fun hcr => absurd hcr hn, fun hcr => absurd hcr hn, h.increasing, h.below⟩
  refine ⟨done ++ [⟨.perform op, w⟩], q, ?_, ?_, .running hp rfl⟩
  · rw [hq, List.append_assoc]
    rfl
  · have hh := hd.snoc op w a
    cases w <;> simpa [Service.answered] using hh

lemma Ledger.stopped {c : Controller} (h : Ledger log calls s) (hc : s.controller = some c)
    (hq : Traffic.Stops s) : Ledger log calls (s.ended .stopped) := by
  refine ⟨fun _ => ?_, nofun, nofun, h.increasing, h.below⟩
  obtain ⟨-, done, rfl, hd⟩ := h.running hc
  exact ⟨done, s.queue, rfl, hd, .stopped _ rfl rfl rfl hq⟩

lemma Ledger.crash {op : Operation} {w : Option Nat} {q : List Entry} (h : Ledger log calls s)
    {c : Controller} (hc : s.controller = some c) (hq : s.queue = ⟨.perform op, w⟩ :: q) :
    Ledger log (calls ++ [(op, none)]) (s.ended .crashed) := by
  refine ⟨fun hcr => absurd rfl hcr, fun _ => ⟨rfl, rfl⟩, fun _ => ?_, h.increasing, h.below⟩
  obtain ⟨-, done, rfl, hd⟩ := h.running hc
  exact ⟨done, calls, op, w, q, by rw [hq], rfl, hd⟩

lemma Ledger.queue_nil (h : Ledger log calls s) (hc : s.controller = none) : s.queue = [] := by
  by_cases hp : s.phase = .crashed
  · exact (h.crashed hp).2
  · obtain ⟨done, rest, -, -, hw⟩ := h.entries hp
    cases hw with
    | running _ hcs =>
      rw [hc] at hcs
      cases hcs
    | stopped _ _ _ hq _ => exact hq

end Service

namespace Traffic

variable {t : Traffic} {d : Direct} {i : Nat} {log : List Entry}
  {calls : List (Operation × Option Answer)}

def Move.isPatient : Move → Bool
  | .act _ (.abandon _) => false
  | _ => true

lemma Mirrors.operate_answer (hd : t.Mirrors d) {c : Controller} (hc : d.controller? i = some c)
    (op : Operation) : (d.operate i op).2.1 = (t.handset.operate i c op).2.answer := by
  rw [Direct.operate_some hc, hd.handset]

lemma ledger_act {j : Nat} {a : Service.Act} (ha : ∀ n, a ≠ .abandon n) {s : Service}
    (hs : t.services[i]? = some s) (hl : s.Ledger log calls) :
    ∃ s', (t.move (.act j a)).1.services[i]? = some s' ∧
      s'.Ledger (log ++ (t.entered? i (.act j a)).toList) calls := by
  simp only [move, entered?]
  by_cases hp : t.permits j a = true
  · rw [if_pos hp]
    by_cases hij : j = i
    · subst hij
      refine ⟨s.act a, ?_, ?_⟩
      · simp [hs]
      · rw [if_pos ⟨rfl, hp⟩, hs, Option.bind_some]
        exact hl.act ha
    · refine ⟨s, ?_, ?_⟩
      · simp [hij, hs]
      · simpa [hij] using hl
  · refine ⟨s, by rwa [if_neg hp], ?_⟩
    have hn : ¬ (j = i ∧ t.permits i a = true) := by
      rintro ⟨rfl, hp'⟩
      exact hp hp'
    simpa [hn] using hl

lemma ledger_work (hd : t.Mirrors d) {s : Service} (hs : t.services[i]? = some s)
    (hl : s.Ledger log calls) : ∃ s', (t.move (.work i)).1.services[i]? = some s' ∧
      s'.Ledger log (calls ++ d.callsAt i (t.requests (.work i))) := by
  have hi : i < t.services.length := (List.getElem?_eq_some_iff.1 hs).1
  cases work_cases t i with
  | idle _ hr hm =>
    rw [hr, hm]
    exact ⟨s, hs, by simpa [Direct.callsAt] using hl⟩
  | stop s' c hs' hc hq hr hm =>
    obtain rfl := Option.some.inj (hs.symm.trans hs')
    rw [hr, hm]
    refine ⟨_, List.getElem?_set_self hi, ?_⟩
    simpa [Direct.callsAt, Direct.called] using hl.stopped hc hq
  | answer s' c op w q a hs' hc hq ha hr hm =>
    obtain rfl := Option.some.inj (hs.symm.trans hs')
    rw [hr, hm]
    refine ⟨_, List.getElem?_set_self hi, ?_⟩
    have hc' := hd.operate_answer (hd.controller_of hs hc) op
    simpa [Direct.callsAt, Direct.called, hc', ha] using
      hl.answered hc hq (t.handset.operate i c op).2.controller a
  | crash s' c op w q hs' hc hq ha hr hm =>
    obtain rfl := Option.some.inj (hs.symm.trans hs')
    rw [hr, hm]
    refine ⟨_, List.getElem?_set_self hi, ?_⟩
    have hc' := hd.operate_answer (hd.controller_of hs hc) op
    simpa [Direct.callsAt, Direct.called, hc', ha] using hl.crash hc hq

lemma callsAt_work_ne {j : Nat} (hij : j ≠ i) : d.callsAt i (t.requests (.work j)) = [] := by
  cases work_cases t j with
  | idle _ hr _ => rw [hr]; rfl
  | stop s c _ _ _ hr _ => rw [hr]; rfl
  | answer s c op w q a _ _ _ _ hr _ => simp [hr, Direct.callsAt, Direct.called, hij]
  | crash s c op w q _ _ _ _ hr _ => simp [hr, Direct.callsAt, Direct.called, hij]

lemma ledger_move (hd : t.Mirrors d) {m : Move} (hm : m.isPatient = true) {s : Service}
    (hs : t.services[i]? = some s) (hl : s.Ledger log calls) :
    ∃ s', (t.move m).1.services[i]? = some s' ∧
      s'.Ledger (log ++ (t.entered? i m).toList) (calls ++ d.callsAt i (t.requests m)) := by
  cases m with
  | change c | announce slot =>
    refine ⟨s, hs, ?_⟩
    simpa [entered?, requests, Direct.callsAt, Direct.called] using hl
  | act j a =>
    have ha : ∀ n, a ≠ .abandon n := by
      rintro n rfl
      cases hm
    rw [requests, Direct.callsAt, List.append_nil]
    exact ledger_act ha hs hl
  | work j =>
    simp only [entered?, Option.toList_none, List.append_nil]
    by_cases hij : j = i
    · subst hij
      exact ledger_work hd hs hl
    · rw [callsAt_work_ne hij, List.append_nil, service_work_ne hij]
      exact ⟨s, hs, hl⟩

theorem ledger_run (hd : t.Mirrors d) {ms : List Move} (hm : ∀ m ∈ ms, m.isPatient = true)
    {s : Service} (hs : t.services[i]? = some s) (hl : s.Ledger log calls) :
    ∃ s', (t.run ms).services[i]? = some s' ∧
      s'.Ledger (log ++ t.log i ms) (calls ++ d.callsAt i (t.script ms)) := by
  induction ms generalizing t d s log calls with
  | nil => exact ⟨s, hs, by simpa [Traffic.log, script, Direct.callsAt] using hl⟩
  | cons m ms ih =>
    obtain ⟨s', hs', hl'⟩ := ledger_move hd (hm m List.mem_cons_self) hs hl
    obtain ⟨s'', hs'', hl''⟩ :=
      ih (hd.move m).1 (fun m' h => hm m' (List.mem_cons_of_mem m h)) hs' hl'
    refine ⟨s'', hs'', ?_⟩
    rw [Traffic.log, script, Direct.callsAt_append, ← List.append_assoc, ← List.append_assoc]
    exact hl''

end Traffic

end CallWaiting
