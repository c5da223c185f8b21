import CallWaiting.Proofs.Controller.Course

namespace CallWaiting.Controller

open Preference (Batch Fate)

variable {env : Surroundings} {c : Controller} {op : Operation} {f : Batch → Fate}

namespace Turn

def Meets (t : Turn) (f : Batch → Fate) : Prop :=
  ∀ o ∈ t.offers, f o.1 = o.2

lemma Meets.of_after {t : Turn} {es : List Effect} (h : (t.after es).Meets f) : t.Meets f := by
  intro o ho
  refine h o ?_
  rw [offers, after, List.filterMap_append]
  exact List.mem_append_right _ ho

end Turn

lemma moveTo_fate {state : State} {sync : Sync} {enforced : Bool}
    (h : (c.moveTo env state sync enforced).Meets f) :
    c.moveTo { env with fate := f } state sync enforced = c.moveTo env state sync enforced := by
  by_cases hi : Transition.IsIdle env ⟨state, sync, enforced⟩ c
  · exact (attempt_idle { env with fate := f } c _ hi).trans (attempt_idle env c _ hi).symm
  · have ho := (attempt_carried env c _ hi).offers
    have hf := h _ (by
      change _ ∈ (c.attempt env (some ⟨state, sync, enforced⟩)).offers
      rw [ho]
      exact List.mem_singleton.2 rfl)
    rw [Transition.batch] at hf
    rw [moveTo, moveTo]
    simp only at hf ⊢
    rw [hf]
    rfl

lemma update_fate {s : SubscriptionId} {bundle : Option Bundle} {enforced : Bool}
    (h : (c.update env s bundle enforced).Meets f) :
    c.update { env with fate := f } s bundle enforced = c.update env s bundle enforced := by
  cases bundle with
  | none => rfl
  | some b => exact congrArg (Turn.after · _) (moveTo_fate h.of_after)

lemma reevaluate_fate (h : (c.reevaluate env).Meets f) :
    c.reevaluate { env with fate := f } = c.reevaluate env := by
  by_cases hv : env.subscription.isValid = true
  · simp only [reevaluate, hv, if_true] at h ⊢
    exact update_fate h
  · simp only [reevaluate, hv]
    rfl

theorem perform_fate (h : (c.perform env op).Meets f) :
    c.perform { env with fate := f } op = c.perform env op := by
  cases op with
  | hear slot =>
    simp only [perform, hear] at h ⊢
    split
    · rfl
    · rename_i hv
      rw [if_neg hv] at h
      split
      · rfl
      · rename_i hs
        rw [if_neg hs] at h
        exact reevaluate_fate h
  | update s bundle enforced => exact update_fate h
  | setSupported v =>
    simp only [perform, setSupported] at h ⊢
    split
    · rfl
    · rename_i hs
      rw [if_neg hs] at h
      split
      · rename_i hv
        rw [if_pos hv] at h
        exact congrArg (Turn.after · _) (reevaluate_fate h.of_after)
      · rename_i hv
        rw [if_neg hv] at h
        exact congrArg (Turn.after · _) (moveTo_fate h.of_after)
  | request enable serviceClass =>
    simp only [perform, request] at h ⊢
    split
    · rfl
    · rename_i hs
      rw [if_neg hs] at h
      split
      · rename_i hl
        rw [if_pos hl] at h
        refine congrArg (fun t => Turn.after (Turn.answering (Turn.sending t _) _) _) (moveTo_fate ?_)
        exact h.of_after
      · rfl
  | interrogate | readState => rfl

lemma fate_of_mem_offers {o : Batch × Fate} (ho : o ∈ (c.perform env op).offers) :
    env.fate o.1 = o.2 := by
  obtain hn | ⟨y, x, hn, -⟩ := offers_perform env c op
  · rw [hn] at ho
    cases ho
  · rw [hn, List.mem_singleton] at ho
    rw [ho]

end CallWaiting.Controller
