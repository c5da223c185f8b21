import CallWaiting.Proofs.Service.Ledger

namespace CallWaiting

namespace Service

variable {s s' s₀ : Service}

def IsTidy (s : Service) : Prop :=
  s.isRunning = false → s.controller = none ∧ s.queue = []

lemma isTidy_fresh (group : String) : (fresh group).IsTidy := nofun

lemma IsTidy.act (h : s.IsTidy) (a : Act) : (s.act a).IsTidy := by
  obtain ⟨hc, hp, -⟩ := s.act_apart a
  intro hr
  have hr' : s.isRunning = false := by rwa [isRunning, ← hp]
  obtain ⟨hn, hq⟩ := h hr'
  refine ⟨hc.trans hn, ?_⟩
  by_cases ha : ∃ n, a = .abandon n
  · obtain ⟨n, rfl⟩ := ha
    simp only [Service.act, hq, List.map_nil]
  · rw [s.act_queue (fun n hn => ha ⟨n, hn⟩), hq, entered?_of_ended hr']
    rfl

inductive Goes (s : Service) : Service → Prop
  | rest : Goes s s
  | act (a : Act) : Goes s (s.act a)
  | joined : Goes s { s with joined := true }
  | answered (c : Controller) (hc : s.controller = some c) (q : List Entry) (c' : Controller)
    (w : Option Nat) (a : Controller.Answer) : Goes s ({ s with queue := q }.answered c' w a)
  | ended (c : Controller) (hc : s.controller = some c) (phase : Phase) (hp : phase ≠ .running) :
    Goes s (s.ended phase)

lemma Goes.isTidy (h : s.Goes s') (hs : s.IsTidy) : s'.IsTidy := by
  cases h with
  | act a => exact hs.act a
  | answered c hc q c' w a => exact fun hr => by cases hc.symm.trans (hs hr).1
  | ended c hc phase hp => exact fun _ => ⟨rfl, rfl⟩
  | rest | joined => exact hs

lemma Goes.hasSender (h : s.Goes s') (hs : s.hasSender = false) : s'.hasSender = false := by
  cases h with
  | act a => exact hasSender_act hs a
  | rest | joined | answered c hc q c' w a | ended c hc phase hp => exact hs

lemma enqueue_joined (s : Service) (c : Command) (w : Option Nat) :
    (s.enqueue c w).joined = s.joined := by
  rw [enqueue]
  split <;> rfl

lemma Goes.keeps_joined (h : s.Goes s') (hj : s.joined = true) : s'.joined = true := by
  cases h with
  | act a =>
    cases a with
    | send k c | ask k op | forward slot =>
      simp only [Service.act]
      split
      · exact (enqueue_joined _ _ _).trans hj
      · exact hj
    | shutdown k =>
      simp only [Service.act]
      split
      · rfl
      · exact hj
    | cloneHandle k | keepSender k =>
      simp only [Service.act]
      split <;> exact hj
    | abandon n | dropHandle k | dropSender => exact hj
  | joined => rfl
  | rest | answered c hc q c' w a | ended c hc phase hp => exact hj

def IsSound (s : Service) : Prop :=
  s.controller = none → s.isRunning = false

lemma Goes.isSound (h : s.Goes s') (hs : s.IsSound) : s'.IsSound := by
  cases h with
  | act a =>
    obtain ⟨hc, hp, -⟩ := s.act_apart a
    rw [IsSound, hc, isRunning, hp]
    exact hs
  | answered c hc q c' w a => exact fun hn => by cases hn
  | ended c hc phase hp => exact fun _ => decide_eq_false hp
  | rest | joined => exact hs

structure Remains (s₀ s : Service) : Prop where
  controller : s.controller = none
  phase : s.phase = s₀.phase
  replies : s.replies = s₀.replies

lemma IsTidy.remains (ht : s.IsTidy) (hr : s.isRunning = false) : s.Remains s :=
  ⟨(ht hr).1, rfl, rfl⟩

lemma Remains.isRunning (h : s₀.Remains s) : s.isRunning = s₀.isRunning := by
  rw [Service.isRunning, Service.isRunning, h.phase]

lemma Remains.outcome? (h : s₀.Remains s) (n : Nat) : s.outcome? n = s₀.outcome? n := by
  rw [Service.outcome?, Service.outcome?, reply?, reply?, h.isRunning, h.replies]

lemma Goes.remains (h : s.Goes s') (hs : s₀.Remains s) : s₀.Remains s' := by
  cases h with
  | act a =>
    obtain ⟨hc, hp, hr⟩ := s.act_apart a
    exact ⟨hc.trans hs.controller, hp.trans hs.phase, hr.trans hs.replies⟩
  | answered c hc q c' w a => cases hc.symm.trans hs.controller
  | ended c hc phase hp => cases hc.symm.trans hs.controller
  | rest => exact hs
  | joined => exact ⟨hs.controller, hs.phase, hs.replies⟩

end Service

namespace Traffic

variable {t : Traffic} {i j : Nat} {s s' : Service} {m : Move}

lemma mem_services_set (hs : s ∈ (t.services.set i s')[i]?) : s = s' := by
  rw [List.getElem?_set_self'] at hs
  obtain ⟨-, -, rfl⟩ := Option.map_eq_some_iff.1 hs
  rfl

lemma mem_services_modify {f : Service → Service} (hs : s ∈ (t.services.modify j f)[i]?) :
    ∃ s₀ ∈ t.services[i]?, s = if j = i then f s₀ else s₀ := by
  rw [List.getElem?_modify] at hs
  obtain ⟨s₀, hs₀, rfl⟩ := Option.map_eq_some_iff.1 hs
  exact ⟨s₀, hs₀, rfl⟩

lemma goes_move (hs' : s' ∈ (t.move m).1.services[i]?) : ∃ s ∈ t.services[i]?, s.Goes s' := by
  cases m with
  | change c | announce slot => exact ⟨s', hs', .rest⟩
  | act j a =>
    rw [move] at hs'
    split at hs'
    · obtain ⟨s, hs, rfl⟩ := mem_services_modify hs'
      refine ⟨s, hs, ?_⟩
      split
      · exact .act a
      · exact .rest
    · exact ⟨s', hs', .rest⟩
  | work j =>
    by_cases hj : j = i
    · subst hj
      cases work_cases t j with
      | idle _ _ hm =>
        rw [hm] at hs'
        exact ⟨s', hs', .rest⟩
      | stop s c hs hc hq hr hm =>
        rw [hm] at hs'
        exact ⟨s, hs, mem_services_set hs' ▸ .ended c hc .stopped (by decide)⟩
      | answer s c op w q a hs hc hq ha hr hm =>
        rw [hm] at hs'
        exact ⟨s, hs, mem_services_set hs' ▸ .answered c hc q _ w a⟩
      | crash s c op w q hs hc hq ha hr hm =>
        rw [hm] at hs'
        exact ⟨s, hs, mem_services_set hs' ▸ .ended c hc .crashed (by decide)⟩
    · rw [service_work_ne hj] at hs'
      exact ⟨s', hs', .rest⟩

lemma goes_run {P : Service → Prop} (hP : ∀ s s', s.Goes s' → P s → P s')
    (h : ∀ s ∈ t.services[i]?, P s) (ms : List Move) : ∀ s ∈ (t.run ms).services[i]?, P s := by
  refine List.foldlRecOn (motive := fun t : Traffic => ∀ s ∈ t.services[i]?, P s) ms _ h ?_
  intro t h m _ s' hs'
  obtain ⟨s, hs, hg⟩ := goes_move hs'
  exact hP s s' hg (h s hs)

lemma entered?_eq_none (h : ∀ s ∈ t.services[i]?, ∀ a, s.entered? a = none) (m : Move) :
    t.entered? i m = none := by
  cases m with
  | act j a =>
    rw [entered?]
    split
    · cases hs : t.services[i]? with
      | none => rfl
      | some s => exact h s hs a
    · rfl
  | change c | announce slot | work j => rfl

lemma modify_eq_self {α : Type} {ss : List α} {f : α → α} (h : ∀ s ∈ ss[i]?, f s = s) :
    ss.modify i f = ss := by
  refine List.ext_getElem? fun j => ?_
  rw [List.getElem?_modify]
  cases hs : ss[j]? with
  | none => rfl
  | some s =>
    split
    · rename_i hij
      subst hij
      exact congrArg some (h s hs)
    · rfl

lemma forward_deserted (h : ∀ s ∈ t.services[i]?, s.hasSender = false) (slot : PhoneId) :
    ∃ l, (t.move (.act i (.forward slot))).1 = { t with airborne := l } := by
  have hm : t.services.modify i (·.act (.forward slot)) = t.services := modify_eq_self fun s hs => by
    rw [Service.act, Service.isReachable_of_deserted (h s hs)]
    rfl
  rw [move]
  split
  · exact ⟨t.remaining i (.forward slot), by rw [hm]⟩
  · exact ⟨t.airborne, rfl⟩

lemma work_quiet (hs : s ∈ t.services[i]?) (hr : s.isRunning = true)
    (hs' : s' ∈ (t.move (.work i)).1.services[i]?) (hp : s'.phase = .crashed) :
    (t.move (.work i)).1.handset.SameRecords t.handset := by
  have hn : s.phase = .running := of_decide_eq_true hr
  cases work_cases t i with
  | idle _ _ hm =>
    rw [hm] at hs'
    obtain rfl := Option.mem_unique hs hs'
    cases hn.symm.trans hp
  | stop s₁ c hs₁ hc hq _ hm =>
    rw [hm] at hs'
    rw [mem_services_set hs'] at hp
    cases hp
  | answer s₁ c op w q a hs₁ hc hq ha _ hm =>
    obtain rfl := Option.mem_unique hs hs₁
    rw [hm] at hs'
    rw [mem_services_set hs'] at hp
    cases hn.symm.trans hp
  | crash s₁ c op w q hs₁ hc hq ha _ hm =>
    rw [hm]
    have hb : (t.handset.operate i c op).2.crashed = true := by rw [Controller.Turn.crashed, ha]; rfl
    exact (Handset.dismiss_sameRecords _ i _).trans (Handset.operate_broken hb)

lemma ended_run (hs : s ∈ t.services[i]?) (hr : s.isRunning = false) (hc : s.controller = none)
    (ms : List Move) : ∃ s' ∈ (t.run ms).services[i]?, s'.isRunning = false := by
  have hi : i < (t.run ms).services.length := by
    rw [length_run]
    exact (List.getElem?_eq_some_iff.1 hs).1
  have hs' := List.getElem?_eq_getElem hi
  have h₀ : ∀ s₁ ∈ t.services[i]?, s.Remains s₁ := by
    intro s₁ hs₁
    obtain rfl := Option.mem_unique hs hs₁
    exact ⟨hc, rfl, rfl⟩
  have hk := goes_run (fun _ _ hg h => hg.remains h) h₀ ms _ hs'
  exact ⟨_, hs', hk.isRunning.trans hr⟩

theorem works_end (n : Nat) (hs : s ∈ t.services[i]?) (hsound : s.IsSound) (htidy : s.IsTidy)
    (hn : s.queue.length < n)
    (hq : s.hasSender = false ∨ ∃ e ∈ s.queue, e.command = .shutdown) :
    ∃ s' ∈ (t.run (List.replicate n (.work i))).services[i]?, s'.isRunning = false := by
  induction n generalizing t s with
  | zero => exact absurd hn (Nat.not_lt_zero _)
  | succ n ih =>
    cases hr : s.isRunning with
    | false => exact ended_run hs hr (htidy hr).1 _
    | true =>
      have hi : i < t.services.length := (List.getElem?_eq_some_iff.1 hs).1
      rw [List.replicate_succ, run_cons]
      cases work_cases t i with
      | idle hidle _ _ =>
        obtain hc | ⟨hq₀, hh⟩ := hidle s hs
        · cases hr.symm.trans (hsound hc)
        · simp [hq₀, hh] at hq
      | stop s₁ c hs₁ hc _ _ hm =>
        rw [hm]
        exact ended_run (List.getElem?_set_self hi) rfl rfl _
      | crash s₁ c op w q hs₁ hc _ _ _ hm =>
        rw [hm]
        exact ended_run (List.getElem?_set_self hi) rfl rfl _
      | answer s₁ c op w q a hs₁ hc hq₁ ha _ hm =>
        obtain rfl := Option.mem_unique hs hs₁
        rw [hm]
        refine ih (List.getElem?_set_self hi) nofun ?_ ?_ (hq.imp id ?_)
        · intro hr'
          cases hr.symm.trans hr'
        · rw [hq₁] at hn
          exact Nat.lt_of_succ_lt_succ hn
        · rintro ⟨e, he, hec⟩
          rw [hq₁] at he
          obtain rfl | he := List.mem_cons.1 he
          · cases hec
          · exact ⟨e, he, hec⟩

end Traffic

end CallWaiting
