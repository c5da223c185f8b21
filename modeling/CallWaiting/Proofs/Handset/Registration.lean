import CallWaiting.Proofs.Controller.Course
import CallWaiting.Proofs.Handset.Effects

namespace CallWaiting

namespace Broadcast.Registry

variable {r r' : Registry Nat} {cs : Nat → Option Ticket} {i j : Nat} {l : Option Ticket}

structure Owned (r : Registry Nat) (cs : Nat → Option Ticket) : Prop where
  entry : ∀ e ∈ r.entries, cs e.2 = some e.1
  unique : ∀ i j t, cs i = some t → cs j = some t → i = j
  below : ∀ i t, cs i = some t → t < r.next

inductive Enrols (i : Nat) (r : Registry Nat) : Option Ticket → Registry Nat → Option Ticket → Prop
  | same (l : Option Ticket) : Enrols i r l r l
  | joins : Enrols i r none (r.register i) (some r.next)
  | leaves (t : Ticket) : Enrols i r (some t) (r.withdraw t) none

lemma owned_empty (h : ∀ i, cs i = none) : (empty : Registry Nat).Owned cs :=
  ⟨nofun, fun i j t hi => by simp [h] at hi, fun i t hi => by simp [h] at hi⟩

lemma Owned.withdrawAll (ho : r.Owned cs) : r.withdrawAll.Owned cs :=
  ⟨nofun, ho.unique, ho.below⟩

lemma Owned.enrols (ho : r.Owned cs) (he : Enrols i r (cs i) r' l) :
    r'.Owned (Function.update cs i l) := by
  generalize hl : cs i = k at he
  cases he with
  | same => rwa [← hl, Function.update_eq_self]
  | joins =>
    refine ⟨fun e he => ?_, fun j k t hj hk => ?_, fun j t hj => ?_⟩
    · obtain he | he := List.mem_append.1 he
      · have hc := ho.entry e he
        rwa [Function.update_of_ne]
        rintro rfl
        rw [hc] at hl
        cases hl
      · obtain rfl := List.mem_singleton.1 he
        exact Function.update_self _ _ _
    · -- the new ticket is above all that are held
      simp only [Function.update_apply] at hj hk
      split at hj <;> split at hk
      · simp_all
      · cases hj
        exact absurd (ho.below k _ hk) (Nat.lt_irrefl _)
      · cases hk
        exact absurd (ho.below j _ hj) (Nat.lt_irrefl _)
      · exact ho.unique j k t hj hk
    · rw [Function.update_apply] at hj
      split at hj
      · cases hj
        exact Nat.lt_succ_self _
      · exact Nat.lt_succ_of_lt (ho.below j t hj)
  | leaves t =>
    refine ⟨fun e he => ?_, fun j k u hj hk => ?_, fun j u hj => ?_⟩
    · obtain ⟨he, ht⟩ := List.mem_filter.1 he
      have hc := ho.entry e he
      rwa [Function.update_of_ne]
      intro hi
      rw [hi, hl] at hc
      cases hc
      simp at ht
    · simp only [Function.update_apply] at hj hk
      split at hj <;> split at hk <;> simp_all [ho.unique j k u]
    · rw [Function.update_apply] at hj
      split at hj
      · cases hj
      · exact ho.below j u hj

lemma count_filter_keep {es : List (Ticket × Nat)} {f : Ticket × Nat → Bool}
    (h : ∀ e ∈ es, e.2 = i → f e = true) :
    ((es.filter f).map (·.2)).count i = (es.map (·.2)).count i := by
  induction es with
  | nil => rfl
  | cons e es ih =>
    have ih := ih fun e he => h e (List.mem_cons_of_mem _ he)
    have he := h e List.mem_cons_self
    by_cases hi : e.2 = i
    · simp [he hi, ih, hi]
    · cases hf : f e <;> simp [hf, ih, hi]

lemma count_filter_drop {es : List (Ticket × Nat)} {f : Ticket × Nat → Bool}
    (h : ∀ e ∈ es, e.2 = i → f e = false) : ((es.filter f).map (·.2)).count i = 0 := by
  refine List.count_eq_zero.2 fun hi => ?_
  obtain ⟨e, he, rfl⟩ := List.mem_map.1 hi
  obtain ⟨he, hf⟩ := List.mem_filter.1 he
  simp [h e he rfl] at hf

lemma Owned.count_ne (ho : r.Owned cs) (hij : i ≠ j) (he : Enrols j r (cs j) r' l) :
    r'.listeners.count i = r.listeners.count i := by
  generalize hl : cs j = k at he
  cases he with
  | same => rfl
  | joins => simp [listeners, register, hij.symm]
  | leaves t =>
    refine count_filter_keep fun e he hi => ?_
    have hc := ho.entry e he
    refine decide_eq_true fun ht => hij ?_
    exact ho.unique i j t (by rw [← hi, hc, ht]) hl

lemma Owned.mem_ne (ho : r.Owned cs) (hij : i ≠ j) (he : Enrols j r (cs j) r' l) {t : Ticket}
    (ht : (t, i) ∈ r.entries) : (t, i) ∈ r'.entries := by
  generalize hl : cs j = k at he
  cases he with
  | same => exact ht
  | joins => exact List.mem_append_left _ ht
  | leaves u =>
    refine List.mem_filter.2 ⟨ht, decide_eq_true fun hu => hij ?_⟩
    exact ho.unique i j t (ho.entry _ ht) (hl.trans (congrArg some hu.symm))

lemma Owned.count_self (ho : r.Owned cs) (he : Enrols i r (cs i) r' l) :
    r'.listeners.count i = if (cs i).isSome = l.isSome then r.listeners.count i
      else if l.isSome then r.listeners.count i + 1 else 0 := by
  generalize hl : cs i = k at he
  cases he with
  | same => rw [if_pos rfl]
  | joins => simp [listeners, register]
  | leaves t =>
    simp only [Option.isSome_some, Option.isSome_none, Bool.true_eq_false, if_false,
      Bool.false_eq_true]
    refine count_filter_drop fun e he hi => ?_
    have hc := ho.entry e he
    rw [hi, hl] at hc
    cases hc
    simp

end Broadcast.Registry

namespace Handset

open Controller (Effect Operation)
open Broadcast (Registry)

variable {h : Handset} {i : Nat} {p : Phone} {c : Controller}

def heed (i : Nat) (r : Registry Nat) : Effect → Registry Nat
  | .register => r.register i
  | .withdraw t => r.withdraw t
  | .offer _ _ | .push _ | .note _ => r

lemma registry_applyAll (h : Handset) (i : Nat) (es : List Effect) :
    (h.applyAll i es).registry = (es.filter Effect.isListing).foldl (heed i) h.registry := by
  induction es generalizing h with
  | nil => rfl
  | cons e es ih =>
    refine (ih (apply i h e)).trans ?_
    cases e with
    | offer b fate => simp only [apply, (offer_apart h b).2.2]; rfl
    | register | withdraw t | push state | note n => rfl

lemma enrols_operate (h : Handset) (i : Nat) (c : Controller) (op : Operation) :
    Registry.Enrols i h.registry c.listener (h.operate i c op).1.registry
      (h.operate i c op).2.controller.listener := by
  cases hp : h.phones[i]? with
  | none =>
    simp only [operate, hp]
    exact .same _
  | some p =>
    simp only [operate_eq hp, registry_applyAll, Controller.perform_listings,
      (Controller.perform_standing _ c op).2]
    cases op with
    | setSupported v =>
      simp only [Controller.listings, Controller.holding]
      split
      · exact .same _
      · cases v with
        | true =>
          cases hl : c.listener with
          | none =>
            simp only [Controller.registering, hl, if_true]
            exact .joins
          | some t =>
            simp only [Controller.registering, hl, if_true]
            exact .same _
        | false =>
          cases c.listener with
          | none => exact .same _
          | some t => exact .leaves t
    | hear slot | update s bundle enforced | interrogate | request enable serviceClass
    | readState => exact .same _

lemma enrols_dismiss (hp : h.phones[i]? = some p) (c : Controller) :
    Registry.Enrols i h.registry c.listener (h.dismiss i c).1.registry none := by
  simp only [dismiss, hp, registry_applyAll, Controller.withdrawing_listings]
  cases c.listener with
  | none => exact .same _
  | some t => exact .leaves t

end Handset

end CallWaiting
