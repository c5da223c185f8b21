import CallWaiting.Proofs.Handset.Outcome
import CallWaiting.Proofs.Handset.Run

namespace CallWaiting.Handset

open Controller (Operation Turn)

namespace Direct

def Request.place? : Request → Option Nat
  | .operate i _ | .pump i | .drop i | .rebuild i _ => some i
  | .change _ | .notify _ => none

structure Accepts (d : Direct) (r : Request) : Prop where
  offered : AllStored (d.step r).2.2
  put : ∀ b, r = .change (.put b) → (d.handset.store.put d.handset.disk b).2.2 = .ok ()

def IsOpened (d : Direct) : Prop :=
  d.handset.store.IsOpened d.handset.disk

variable {d : Direct} {r : Request} {i j : Nat} {op : Operation}

lemma isStored_operate {c : Controller} (hc : d.controller? i = some c)
    (hs : AllStored (d.operate i op).2.2) : (d.handset.operate i c op).2.IsStored := by
  rw [operate_some hc] at hs
  exact hs.isStored

lemma deliver_preserved (Inv : Direct → Prop)
    (hh : ∀ d slot, AllStored (d.operate i (.hear slot)).2.2 → Inv d →
      Inv (d.operate i (.hear slot)).1)
    {slots : List PhoneId} (hs : AllStored (d.deliver i slots).2) (hd : Inv d) :
    Inv (d.deliver i slots).1 := by
  induction slots generalizing d with
  | nil => exact hd
  | cons slot slots ih =>
    rw [deliver_cons] at hs ⊢
    obtain ⟨h₁, h₂⟩ := hs.append
    exact ih h₂ (hh d slot h₁ hd)

lemma step_pump (d : Direct) (i : Nat) : d.step (.pump i) = (d, .nothing, []) ∨
    ∃ slots, d.queues[i]? = some slots ∧ d.step (.pump i) =
      (({ d with queues := d.queues.set i [] }.deliver i slots).1, .delivered slots,
        ({ d with queues := d.queues.set i [] }.deliver i slots).2) := by
  simp only [step]
  split
  · rename_i slots hc hq
    exact .inr ⟨slots, hq, rfl⟩
  · exact .inl rfl

lemma isOpened_operate (hs : AllStored (d.operate i op).2.2) (ho : d.IsOpened) :
    (d.operate i op).1.IsOpened := by
  cases hc : d.controller? i with
  | none => rwa [operate_none hc]
  | some c =>
    have hs' := isStored_operate hc hs
    rw [operate_some hc]
    exact Handset.isOpened_operate hs' ho

lemma isOpened_drop (i : Nat) (ho : d.IsOpened) : (d.drop i).1.IsOpened := by
  have hv := drop_sameVault d i
  rwa [IsOpened, hv.store, hv.disk]

lemma reopened_store {h : Handset} (ho : h.store.IsOpened h.disk) : h.reopened.1 = h.store := by
  rw [reopened]
  cases hs : h.store with
  | memory m => rfl
  | file f =>
    have hf : Preference.File.load h.disk f.path = .ok f := by
      rw [hs] at ho
      exact ho
    simp only [hf]

lemma isOpened_step (ha : d.Accepts r) (ho : d.IsOpened) : (d.step r).1.IsOpened := by
  cases r with
  | change c =>
    cases c with
    | put b => exact Preference.Store.isOpened_put (ha.put b rfl)
    | reopen => simpa only [IsOpened, step, change, reopened_store ho] using ho
    | swap i s | install s b | remove s | refuse on | poison | withdrawAll => exact ho
  | notify slot => exact ho
  | operate i op => exact isOpened_operate ha.offered ho
  | pump i =>
    have hs := ha.offered
    obtain hp | ⟨slots, -, hp⟩ := step_pump d i
    · rwa [hp]
    · rw [hp] at hs ⊢
      exact deliver_preserved IsOpened (fun d slot hs ho => isOpened_operate hs ho) hs ho
  | drop i => exact isOpened_drop i ho
  | rebuild i group => exact isOpened_drop i ho

lemma controller?_deliver_ne (hij : i ≠ j) (d : Direct) (slots : List PhoneId) :
    (d.deliver j slots).1.controller? i = d.controller? i :=
  deliver_keeps (fun d' => d'.controller? i = d.controller? i)
    (fun _ _ h => (controller?_operate_ne hij _).trans h) rfl slots

lemma controller?_step_ne (hr : r.place? ≠ some i) : (d.step r).1.controller? i = d.controller? i := by
  cases r with
  | change c | notify slot => rfl
  | operate j op =>
    have hij : i ≠ j := fun h => hr (congrArg some h.symm)
    exact controller?_operate_ne hij op
  | pump j =>
    have hij : i ≠ j := fun h => hr (congrArg some h.symm)
    obtain hp | ⟨slots, -, hp⟩ := step_pump d j
    · rw [hp]
    · rw [hp]
      exact controller?_deliver_ne hij _ slots
  | drop j =>
    have hij : i ≠ j := fun h => hr (congrArg some h.symm)
    exact controller?_drop_ne hij
  | rebuild j group =>
    have hij : i ≠ j := fun h => hr (congrArg some h.symm)
    exact (controller?_set hij).trans (controller?_drop_ne hij)

section Everywhere

variable {P : Controller → Prop} (hp : ∀ env c op, P c → P (Controller.perform env c op).controller)
  (h : ∀ i c, d.controller? i = some c → P c)

include hp h

lemma controllers_operate (i : Nat) (op : Operation) :
    ∀ j c, (d.operate i op).1.controller? j = some c → P c := by
  intro j c hc
  cases hi : d.controller? i with
  | none =>
    rw [operate_none hi] at hc
    exact h j c hc
  | some x =>
    by_cases hj : j = i
    · subst hj
      rw [controller?_operate hi] at hc
      cases hc
      exact controller_operate hp _ j (h j x hi) op
    · rw [controller?_operate_ne hj] at hc
      exact h j c hc

lemma controllers_deliver (i : Nat) (slots : List PhoneId) :
    ∀ j c, (d.deliver i slots).1.controller? j = some c → P c :=
  deliver_keeps (fun d => ∀ j c, d.controller? j = some c → P c)
    (fun _ slot h => controllers_operate hp h i (.hear slot)) h slots

theorem controllers_step (hf : ∀ group, P (.fresh group)) (r : Request) :
    ∀ j c, (d.step r).1.controller? j = some c → P c := by
  cases r with
  | change x | notify slot => exact h
  | operate i op => exact controllers_operate hp h i op
  | pump i =>
    obtain hst | ⟨slots, -, hst⟩ := step_pump d i
    · rwa [hst]
    · rw [hst]
      exact controllers_deliver (d := { d with queues := d.queues.set i [] }) hp h i slots
  | drop i =>
    intro j c hc
    by_cases hj : j = i
    · subst hj
      cases (controller?_drop d j).symm.trans hc
    · exact h j c ((controller?_drop_ne hj).symm.trans hc)
  | rebuild i group =>
    intro j c hc
    by_cases hj : j = i
    · subst hj
      rw [controller?_rebuild hc]
      exact hf group
    · exact h j c ((controller?_drop_ne hj).symm.trans ((controller?_set hj).symm.trans hc))

end Everywhere

lemma phone_operate_ne (hij : i ≠ j) (d : Direct) (op : Operation) :
    (d.operate j op).1.handset.phones[i]? = d.handset.phones[i]? := by
  cases hc : d.controller? j with
  | none => rw [operate_none hc]
  | some c =>
    rw [operate_some hc]
    cases hp : d.handset.phones[j]? with
    | none => simp only [Handset.operate, hp]
    | some p => rw [operate_eq hp, phone_applyAll, if_neg hij.symm]

lemma phone_deliver_ne (hij : i ≠ j) (d : Direct) (slots : List PhoneId) :
    (d.deliver j slots).1.handset.phones[i]? = d.handset.phones[i]? :=
  deliver_keeps (fun d' => d'.handset.phones[i]? = d.handset.phones[i]?)
    (fun d' _ h => (phone_operate_ne hij d' _).trans h) rfl slots

lemma phone_drop_ne (hij : i ≠ j) (d : Direct) :
    (d.drop j).1.handset.phones[i]? = d.handset.phones[i]? := by
  cases hc : d.controller? j with
  | none => rw [drop_none hc]
  | some c =>
    rw [drop_some hc, Handset.dismiss]
    split
    · rw [phone_applyAll, if_neg hij.symm]
    · rfl

end Direct

end CallWaiting.Handset
