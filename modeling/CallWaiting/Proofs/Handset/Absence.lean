import CallWaiting.Proofs.Handset.Account

/-!
Records of subscriptions that are none. An evaluation writes nothing while the phone has no valid
subscription. A request that is served and the withdrawal of support take whatever the phone says at
the time for the subscription, and put a record down under it.
-/

namespace CallWaiting

open Preference (Batch Fate Key)
open Controller (Operation Transition recordBatch)

def Preference.Batch.NamesAbsent (b : Batch) : Prop :=
  ∃ s : SubscriptionId, s.isValid = false ∧
    ((∃ p, (Key.lastSubscription p, s.number) ∈ b.entries) ∨ ∃ v, (Key.state s, v) ∈ b.entries)

lemma SubscriptionId.eq_of_number {s t : SubscriptionId} (h : s.number = t.number) : s = t := by
  obtain ⟨n⟩ := s
  obtain rfl : n = t.number := h
  rfl

lemma namesAbsent_recordBatch (group : String) (p : PhoneId) (s : SubscriptionId) (state : State)
    (sync : Sync) : (recordBatch group p s state sync).NamesAbsent ↔ s.isValid = false := by
  constructor
  · rintro ⟨t, ht, ⟨q, hm⟩ | ⟨v, hm⟩⟩ <;>
      simp only [recordBatch, Key.lastSubscription, Key.state, Key.sync, List.mem_cons, Prod.mk.injEq,
        Key.mk.injEq, reduceCtorEq, false_and, true_and, List.not_mem_nil, or_false, false_or] at hm
    · rwa [← SubscriptionId.eq_of_number hm.2]
    · rwa [← SubscriptionId.eq_of_number hm.1]
  · intro hs
    exact ⟨s, hs, .inl ⟨p, List.mem_cons_self⟩⟩

lemma value?_of_not_namesAbsent {b : Batch} (hb : ¬ b.NamesAbsent) {s : SubscriptionId}
    (hs : s.isValid = false) (group : String) : b.value? group (.state s) = none := by
  rw [Batch.value?]
  split
  · refine List.lookup_eq_none_iff.2 fun e he => bne_iff_ne.2 fun hk => hb ⟨s, hs, .inr ⟨e.2, ?_⟩⟩
    rw [hk]
    exact List.mem_reverse.1 he
  · rfl

namespace Controller

variable {env : Surroundings} {c : Controller} {op : Operation}

/-- An operation that puts down another record than the one in mind, or is told to put it down in
any case, without a look at the phone's subscription. -/
def Amends (env : Surroundings) (c : Controller) : Operation → Prop
  | .request enable classes =>
    c.serves classes = true ∧ c.isSettled env (.ofEnabled enable) c.sync = false
  | .setSupported on =>
    on = false ∧ c.supported = true ∧ c.isSettled env .notSupported c.sync = false
  | .update s bundle enforced => ∃ b ∈ bundle, enforced = true ∨
    c.isSettled env (.merge b.defaultState (c.savedState env s) enforced) b.sync = false
  | .hear _ | .interrogate | .readState => False

lemma amends_iff (hs : env.subscription.isValid = false) : c.Amends env op ↔ ¬ c.Rests env op := by
  have hl : ∀ c : Controller, (c.lookAgain env).2 = none := by
    intro c
    rw [lookAgain, if_neg (by simp [hs])]
  have hr : ∀ {y : Transition}, (c.intent env op).2 = some y →
      (c.Rests env op ↔ y.IsIdle env (c.intent env op).1) := by
    intro y hy
    simp [Rests, hy]
  cases op with
  | hear slot =>
    have hx : (c.intent env (.hear slot)).2 = none := by
      rw [intent]
      split
      · exact hl c
      · rfl
    simp [Rests, Amends, hx]
  | update s bundle enforced =>
    cases bundle with
    | none => simp [Rests, Amends, intent, weigh]
    | some b =>
      rw [hr rfl]
      change (∃ b' ∈ some b, _) ↔ ¬ (c.isSettled env _ _ = true ∧ enforced = false)
      cases enforced <;> simp
  | setSupported on =>
    by_cases hc : c.supported = on
    · cases on <;> simp [Rests, Amends, intent, hc]
    · cases on with
      | true => simp [Rests, Amends, intent, hc, hl]
      | false =>
        have hx : c.intent env (.setSupported false) =
            ({ c with supported := false, listener := none },
              some ⟨.notSupported, c.sync, false⟩) := by
          rw [intent, if_neg hc, if_neg Bool.false_ne_true]
        rw [hr (congrArg Prod.snd hx), hx]
        change _ ↔ ¬ (c.isSettled env _ _ = true ∧ false = false)
        simp [Amends, hc]
  | request enable classes =>
    cases hv : c.serves classes with
    | false => simp [Rests, Amends, intent, hv]
    | true =>
      have hx : c.intent env (.request enable classes) =
          (c, some ⟨.ofEnabled enable, c.sync, false⟩) := by rw [intent, if_pos hv]
      rw [hr (congrArg Prod.snd hx), hx]
      change _ ↔ ¬ (c.isSettled env _ _ = true ∧ false = false)
      simp [Amends, hv]
  | interrogate | readState => simp [Rests, Amends, intent]

def AmendsAbsent (env : Surroundings) (c : Controller) (op : Operation) : Prop :=
  env.subscription.isValid = false ∧ c.Amends env op

theorem namesAbsent_perform (env : Surroundings) (c : Controller) (op : Operation) :
    (∃ o ∈ (c.perform env op).offers, o.1.NamesAbsent) ↔ c.AmendsAbsent env op := by
  obtain hr | ⟨y, hx, hy⟩ := rests_or env c op
  · rw [(perform_rests hr).offers]
    simp only [Turn.offers_rest, List.not_mem_nil, false_and, exists_false, false_iff]
    exact fun h => (amends_iff h.1).1 h.2 hr
  · have hr : ¬ c.Rests env op := fun hr => hy (hr y hx)
    rw [(perform_carried hx hy).offers]
    simp only [List.mem_singleton, exists_eq_left, Transition.batch, namesAbsent_recordBatch]
    exact ⟨fun hs => ⟨hs, (amends_iff hs).2 hr⟩, And.left⟩

end Controller

namespace Handset

lemma numberAfter_none {group : String} {k : Key} {os : List (Batch × Fate)}
    (h : ∀ o ∈ os, o.1.value? group k = none) (n : Option Int32) :
    numberAfter group k n os = n := by
  induction os generalizing n with
  | nil => rfl
  | cons o os ih =>
    have ho := h o List.mem_cons_self
    rw [numberAfter, List.foldl_cons, ho, Option.none_or, ite_self]
    exact ih (fun o hm => h o (List.mem_cons_of_mem _ hm)) n

namespace Direct

variable {d : Direct} {r : Request} {i j : Nat} {c : Controller} {op : Operation} {group : String}
  {s : SubscriptionId}

def AmendsAbsent (i : Nat) (d : Direct) : Request → Prop
  | .operate j op => j = i ∧ ∃ c ∈ d.controller? i, ∃ p ∈ d.handset.phones[i]?,
    c.AmendsAbsent (d.handset.surroundings p) op
  | .change _ | .notify _ | .pump _ | .drop _ | .rebuild _ _ => False

lemma namesAbsent_operate (d : Direct) (i : Nat) (op : Operation) :
    (∃ o ∈ offers i (d.operate i op).2.2, o.1.NamesAbsent) ↔ d.AmendsAbsent i (.operate i op) := by
  simp only [AmendsAbsent, true_and]
  cases hc : d.controller? i with
  | none => simp [operate_none hc, offers, own]
  | some c =>
    rw [operate_some hc, offers_happenings]
    cases hp : d.handset.phones[i]? with
    | none => simp [Handset.operate, hp, Controller.Turn.rest]
    | some p =>
      rw [operate_eq hp]
      simp only [Option.mem_def, Option.some.injEq, exists_eq_left']
      exact Controller.namesAbsent_perform (d.handset.surroundings p) c op

lemma not_namesAbsent_hear (d : Direct) (i : Nat) (slot : PhoneId) :
    ∀ o ∈ offers i (d.operate i (.hear slot)).2.2, ¬ o.1.NamesAbsent := by
  intro o ho hn
  obtain ⟨-, c, -, p, -, -, hm⟩ := (namesAbsent_operate d i (.hear slot)).1 ⟨o, ho, hn⟩
  exact hm

lemma not_namesAbsent_deliver (d : Direct) (i : Nat) (slots : List PhoneId) :
    ∀ o ∈ offers i (d.deliver i slots).2, ¬ o.1.NamesAbsent := by
  induction slots generalizing d with
  | nil => nofun
  | cons slot slots ih =>
    rw [deliver_cons, offers_append]
    intro o ho
    obtain ho | ho := List.mem_append.1 ho
    · exact not_namesAbsent_hear d i slot o ho
    · exact ih _ o ho

lemma offers_drop (d : Direct) (i : Nat) : offers i (d.drop i).2 = [] := by
  cases hc : d.controller? i with
  | none => rw [drop_none hc]; rfl
  | some c =>
    rw [drop_some hc, offers_happenings, dismiss]
    split
    · exact (Controller.withdrawing_silent _ c).1
    · rfl

lemma offers_elsewhere (hr : r.place? ≠ some i) : offers i (d.step r).2.2 = [] := by
  rw [offers, own_elsewhere hr]
  rfl

theorem namesAbsent_step (d : Direct) (i : Nat) (r : Request) :
    (∃ o ∈ offers i (d.step r).2.2, o.1.NamesAbsent) ↔ d.AmendsAbsent i r := by
  by_cases hi : r.place? = some i
  · cases r with
    | change x | notify slot => cases hi
    | operate j op =>
      obtain rfl := Option.some.inj hi
      exact namesAbsent_operate d j op
    | pump j =>
      obtain rfl := Option.some.inj hi
      refine iff_of_false ?_ id
      rintro ⟨o, ho, hn⟩
      obtain hst | ⟨slots, -, hst⟩ := step_pump d j <;> rw [hst] at ho
      · cases ho
      · exact not_namesAbsent_deliver _ j slots o ho hn
    | drop j | rebuild j g =>
      obtain rfl := Option.some.inj hi
      refine iff_of_false ?_ id
      rintro ⟨o, ho, -⟩
      have hd : o ∈ offers j (d.drop j).2 := ho
      rw [offers_drop] at hd
      cases hd
  · rw [offers_elsewhere hi]
    refine iff_of_false (by simp) ?_
    cases r with
    | operate j op => exact fun h => hi (congrArg some h.1)
    | change x | notify slot | pump j | drop j | rebuild j g => exact id

lemma get?_operate_absent (hs : s.isValid = false)
    (hn : ∀ o ∈ offers i (d.operate i op).2.2, ¬ o.1.NamesAbsent) (group : String) :
    (d.operate i op).1.handset.store.get? group (.state s) =
      d.handset.store.get? group (.state s) := by
  cases hc : d.controller? i with
  | none => rw [operate_none hc]
  | some c =>
    rw [operate_some hc, offers_happenings] at hn
    rw [operate_some hc]
    simp only [get?_operate]
    exact numberAfter_none (fun o ho => value?_of_not_namesAbsent (hn o ho) hs group) _

lemma get?_deliver_absent (hs : s.isValid = false) (d : Direct) (i : Nat) (slots : List PhoneId)
    (group : String) : (d.deliver i slots).1.handset.store.get? group (.state s) =
      d.handset.store.get? group (.state s) :=
  deliver_keeps
    (fun d' => d'.handset.store.get? group (.state s) = d.handset.store.get? group (.state s))
    (fun d' slot h => (get?_operate_absent hs (not_namesAbsent_hear d' i slot) group).trans h) rfl
    slots

lemma get?_step_absent (hs : s.isValid = false) (hr : r.place? = some i) (hn : ¬ d.AmendsAbsent i r)
    (group : String) : (d.step r).1.handset.store.get? group (.state s) =
      d.handset.store.get? group (.state s) := by
  cases r with
  | change x | notify slot => cases hr
  | operate j op =>
    obtain rfl := Option.some.inj hr
    refine get?_operate_absent hs (fun o ho hm => hn ?_) group
    exact (namesAbsent_operate d j op).1 ⟨o, ho, hm⟩
  | pump j =>
    obtain hst | ⟨slots, -, hst⟩ := step_pump d j
    · rw [hst]
    · rw [hst]
      exact get?_deliver_absent hs _ j slots group
  | drop j | rebuild j g => exact congrArg (·.get? group (.state s)) (drop_sameVault d j).store

def LeavesSaved (i : Nat) (group : String) (s : SubscriptionId) (d : Direct) (r : Request) : Prop :=
  r.place? ≠ some i → (d.step r).1.handset.store.get? group (.state s) =
    d.handset.store.get? group (.state s)

/-- In a run the controllers of a place offer no batch that names no subscription just if none of
them puts a record down outside of an evaluation while the phone has none. Then what the store has for
such a subscription is what it had at the beginning, unless others put it there. -/
theorem namesAbsent_account_iff (d : Direct) (i : Nat) (rs : List Request) :
    ((∀ o ∈ (account i d rs).offers, ¬ o.1.NamesAbsent) ↔ Along (fun d r => ¬ d.AmendsAbsent i r) d rs) ∧
    ∀ group s, s.isValid = false → Along (fun d r => ¬ d.AmendsAbsent i r) d rs →
      Along (LeavesSaved i group s) d rs →
        (d.run rs).handset.store.get? group (.state s) = d.handset.store.get? group (.state s) := by
  constructor
  · induction rs generalizing d with
    | nil => exact iff_of_true (by simp [account]) trivial
    | cons r rs ih =>
      rw [Along, ← ih, ← namesAbsent_step]
      simp only [account, List.mem_append]
      constructor
      · intro h
        refine ⟨?_, fun o ho => h o (.inr ho)⟩
        rintro ⟨o, ho, hn⟩
        exact h o (.inl ho) hn
      · rintro ⟨h₁, h₂⟩ o (ho | ho)
        · exact fun hn => h₁ ⟨o, ho, hn⟩
        · exact h₂ o ho
  · intro group s hs hn hr
    induction rs generalizing d with
    | nil => rfl
    | cons r rs ih =>
      refine (ih _ hn.2 hr.2).trans ?_
      by_cases hi : r.place? = some i
      · exact get?_step_absent hs hi hn.1 group
      · exact hr.1 hi

set_option maxRecDepth 10000 in
theorem namesAbsent_account_between_cards :
    let rs : List Request := [.change (.install ⟨1⟩ (.offering true)),
      .operate 0 (.setSupported true), .change (.swap 0 .absent), .operate 0 (.hear ⟨0⟩),
      .operate 0 .interrogate, .change (.swap 0 ⟨1⟩), .operate 0 (.request false .voice)]
    Along (fun d r => ¬ d.AmendsAbsent 0 r) single rs ∧
      (single.run rs).handset.store.get? "" (.state .absent) = none := by
  intro rs
  obtain ⟨hi, hs⟩ := namesAbsent_account_iff single 0 rs
  have ho : (account 0 single rs).offers =
      [(recordBatch "" ⟨0⟩ ⟨1⟩ .activated .none, .stored),
        (recordBatch "" ⟨0⟩ ⟨1⟩ .notActivated .none, .stored)] := by decide
  have hn : Along (fun d r => ¬ d.AmendsAbsent 0 r) single rs := by
    refine hi.1 fun o hm => ?_
    simp only [ho, List.mem_cons, List.not_mem_nil, or_false] at hm
    obtain rfl | rfl := hm <;>
      exact fun hn => absurd ((namesAbsent_recordBatch _ _ _ _ _).1 hn) (by decide)
  have hr : Along (LeavesSaved 0 "" .absent) single rs :=
    ⟨fun _ => rfl, fun h => absurd rfl h, fun _ => rfl, fun h => absurd rfl h, fun h => absurd rfl h,
      fun _ => rfl, fun h => absurd rfl h, trivial⟩
  exact ⟨hn, hs "" .absent (by decide) hn hr⟩

set_option maxRecDepth 10000 in
theorem namesAbsent_account_without_card :
    let rs : List Request := [.change (.install ⟨1⟩ (.offering true)),
      .operate 0 (.setSupported true), .change (.swap 0 .absent), .operate 0 (.hear ⟨0⟩),
      .operate 0 (.request false .voice)]
    let rs' : List Request := [.rebuild 0 "", .operate 0 (.setSupported true)]
    (recordBatch "" ⟨0⟩ .absent .notActivated .none, .stored) ∈ (account 0 single rs).offers ∧
      ¬ (∀ o ∈ (account 0 single rs).offers, ¬ o.1.NamesAbsent) ∧
      ((single.run (rs ++ rs')).controller? 0).map (·.state) = some .notActivated := by
  intro rs rs'
  have hm : (recordBatch "" ⟨0⟩ .absent .notActivated .none, .stored) ∈
      (account 0 single rs).offers := by decide
  refine ⟨hm, fun h => h _ hm ?_, by decide⟩
  exact (namesAbsent_recordBatch _ _ _ _ _).2 (by decide)

end Direct

end Handset

end CallWaiting
