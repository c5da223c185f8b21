import CallWaiting.Handset.Basic
import CallWaiting.Proofs.Controller.Course
import CallWaiting.Proofs.Preference.Store

namespace CallWaiting

def Phone.pushAll (p : Phone) (states : List State) : Phone :=
  { p with told := p.told ++ states }

@[simp] lemma Phone.pushAll_nil (p : Phone) : p.pushAll [] = p := by
  rw [pushAll, List.append_nil]

namespace Handset

open Controller (Effect Operation Turn)
open Preference (Batch Fate Key)

variable {h h' : Handset} {i : Nat} {p : Phone} {c : Controller} {op : Operation}

structure SameVault (h h' : Handset) : Prop where
  store : h.store = h'.store
  disk : h.disk = h'.disk
  refusing : h.refusing = h'.refusing
  poisoned : h.poisoned = h'.poisoned

lemma SameVault.trans {h'' : Handset} (hv : h.SameVault h') (hv' : h'.SameVault h'') :
    h.SameVault h'' :=
  ⟨hv.store.trans hv'.store, hv.disk.trans hv'.disk, hv.refusing.trans hv'.refusing,
    hv.poisoned.trans hv'.poisoned⟩

lemma SameVault.offer (hv : h.SameVault h') (b : Batch) : (h.offer b).SameVault (h'.offer b) := by
  simp only [Handset.offer]
  rw [hv.poisoned, hv.refusing]
  split
  · exact ⟨hv.store, hv.disk, rfl, rfl⟩
  · split
    · exact hv
    · simp only [putBatch, hv.store, hv.disk]
      exact ⟨rfl, rfl, hv.refusing, hv.poisoned⟩

def offerAll (h : Handset) (os : List (Batch × Fate)) : Handset :=
  os.foldl (fun h o => h.offer o.1) h

lemma SameVault.offerAll (hv : h.SameVault h') (os : List (Batch × Fate)) :
    (h.offerAll os).SameVault (h'.offerAll os) := by
  induction os generalizing h h' with
  | nil => exact hv
  | cons o os ih => exact ih (hv.offer o.1)

lemma apply_sameVault {e : Effect} (he : e.offer? = none) : (apply i h e).SameVault h := by
  cases e with
  | offer b fate => cases he
  | register | withdraw t | push state | note n => exact ⟨rfl, rfl, rfl, rfl⟩

lemma applyAll_sameVault (h : Handset) (i : Nat) (es : List Effect) :
    (h.applyAll i es).SameVault (h.offerAll (es.filterMap Effect.offer?)) := by
  induction es generalizing h with
  | nil => exact ⟨rfl, rfl, rfl, rfl⟩
  | cons e es ih =>
    have hh := ih (apply i h e)
    cases e with
    | offer b fate => exact hh
    | register | withdraw t | push state | note n =>
      exact hh.trans ((apply_sameVault rfl).offerAll _)

lemma offer_apart (h : Handset) (b : Batch) : (h.offer b).phones = h.phones ∧
    (h.offer b).bundles = h.bundles ∧ (h.offer b).registry = h.registry := by
  rw [offer]
  split
  · exact ⟨rfl, rfl, rfl⟩
  · split <;> exact ⟨rfl, rfl, rfl⟩

@[simp] lemma bundles_applyAll (h : Handset) (i : Nat) (es : List Effect) :
    (h.applyAll i es).bundles = h.bundles := by
  induction es generalizing h with
  | nil => rfl
  | cons e es ih =>
    refine (ih (apply i h e)).trans ?_
    cases e with
    | offer b fate => exact (offer_apart h b).2.1
    | register | withdraw t | push state | note n => rfl

def lines (h : Handset) : List (PhoneId × SubscriptionId) :=
  h.phones.map fun p => (p.id, p.subscription)

@[simp] lemma lines_applyAll (h : Handset) (i : Nat) (es : List Effect) :
    (h.applyAll i es).lines = h.lines := by
  induction es generalizing h with
  | nil => rfl
  | cons e es ih =>
    refine (ih (apply i h e)).trans ?_
    cases e with
    | push state =>
      apply List.ext_getElem?
      intro j
      simp only [lines, apply, List.getElem?_map, List.getElem?_modify]
      by_cases hij : i = j <;> cases h.phones[j]? <;> simp [hij, Phone.push]
    | offer b fate => simp only [lines, apply, (offer_apart h b).1]
    | register | withdraw t | note n => rfl

lemma phone_applyAll (h : Handset) (i j : Nat) (es : List Effect) :
    (h.applyAll i es).phones[j]? =
      if i = j then h.phones[j]?.map (·.pushAll (es.filterMap Effect.push?)) else h.phones[j]? := by
  induction es generalizing h with
  | nil =>
    cases hp : h.phones[j]? <;> simp [applyAll, Phone.pushAll, hp]
  | cons e es ih =>
    refine (ih (apply i h e)).trans ?_
    cases e with
    | push state =>
      by_cases hij : i = j
      · subst hij
        cases hp : h.phones[i]? <;> simp [apply, Phone.pushAll, Phone.push, Effect.push?, hp]
      · simp [apply, hij]
    | offer b fate => simp only [apply, (offer_apart h b).1]; rfl
    | register | withdraw t | note n => rfl

@[simp] lemma surroundings_subscription (h : Handset) (p : Phone) :
    (h.surroundings p).subscription = p.subscription := rfl

lemma operate_eq (hp : h.phones[i]? = some p) (c : Controller) (op : Operation) :
    h.operate i c op = (h.applyAll i (c.perform (h.surroundings p) op).effects,
      c.perform (h.surroundings p) op) := by
  simp only [operate, hp]

lemma controller_operate {P : Controller → Prop}
    (hP : ∀ env c op, P c → P (c.perform env op).controller) (h : Handset) (i : Nat) (hc : P c)
    (op : Operation) : P (h.operate i c op).2.controller := by
  cases hp : h.phones[i]? with
  | none =>
    simp only [operate, hp]
    exact hc
  | some p =>
    rw [operate_eq hp]
    exact hP _ c op hc

lemma group_operate (h : Handset) (i : Nat) (c : Controller) (op : Operation) :
    (h.operate i c op).2.controller.group = c.group :=
  controller_operate (P := (·.group = c.group))
    (fun env x op hx => (Controller.perform_group env x op).trans hx) h i rfl op

@[simp] lemma lines_operate (h : Handset) (i : Nat) (c : Controller) (op : Operation) :
    (h.operate i c op).1.lines = h.lines := by
  cases hp : h.phones[i]? with
  | none => simp only [operate, hp]
  | some p => simp [operate_eq hp]

lemma phone_operate (hp : h.phones[i]? = some p) (c : Controller) (op : Operation) :
    (h.operate i c op).1.phones[i]? = some (p.pushAll (h.operate i c op).2.pushes) := by
  rw [operate_eq hp, phone_applyAll, if_pos rfl, hp]
  rfl

@[simp] lemma bundles_operate (h : Handset) (i : Nat) (c : Controller) (op : Operation) :
    (h.operate i c op).1.bundles = h.bundles := by
  cases hp : h.phones[i]? with
  | none => simp only [operate, hp]
  | some p => simp [operate_eq hp]

lemma operate_sameVault (h : Handset) (i : Nat) (c : Controller) (op : Operation) :
    (h.operate i c op).1.SameVault (h.offerAll (h.operate i c op).2.offers) := by
  cases hp : h.phones[i]? with
  | none =>
    simp only [operate, hp]
    exact ⟨rfl, rfl, rfl, rfl⟩
  | some p =>
    simp only [operate_eq hp]
    exact applyAll_sameVault h i _

lemma fate_stored {b : Batch} (hf : h.fate b = .stored) :
    (h.store.put h.disk b).2.2 = .ok () ∧ h.offer b = h.putBatch b := by
  rw [fate] at hf
  split at hf
  · cases hf
  · rename_i hp
    split at hf
    · cases hf
    · rename_i hr
      split at hf
      · rename_i hok
        exact ⟨hok, by simp [offer, hp, hr]⟩
      · cases hf

lemma get?_offer {b : Batch} (hf : h.fate b = .stored) (group : String) (k : Key) :
    (h.offer b).store.get? group k = (b.value? group k).or (h.store.get? group k) := by
  obtain ⟨hok, hb⟩ := fate_stored hf
  rw [hb]
  exact Preference.Store.get?_put hok group k

lemma store_offer_of_not_stored {b : Batch} (hf : h.fate b ≠ .stored) :
    (h.offer b).store = h.store := by
  rw [fate] at hf
  rw [offer]
  split
  · rfl
  · rename_i hp
    rw [if_neg hp] at hf
    split
    · rfl
    · rename_i hr
      rw [if_neg hr] at hf
      cases hput : (h.store.put h.disk b).2.2 with
      | ok u => simp [hput] at hf
      | error e => exact Preference.Store.put_error hput

lemma store_offer_of_crashed {b : Batch} (hf : h.fate b = .crashed) :
    (h.offer b).store = h.store ∧ (h.offer b).disk = h.disk := by
  have hp : h.poisoned = true := by
    rw [fate] at hf
    split at hf
    · assumption
    · split at hf
      · cases hf
      · split at hf <;> cases hf
  rw [offer, if_pos hp]
  exact ⟨rfl, rfl⟩

lemma phones_applyAll {es : List Effect} (hs : es.filterMap Effect.push? = []) :
    (h.applyAll i es).phones = h.phones := by
  refine List.ext_getElem? fun j => ?_
  rw [phone_applyAll, hs]
  split
  · cases h.phones[j]? <;> simp
  · rfl

structure SameRecords (h h' : Handset) : Prop where
  store : h.store = h'.store
  disk : h.disk = h'.disk
  phones : h.phones = h'.phones

lemma SameRecords.trans {h'' : Handset} (hr : h.SameRecords h') (hr' : h'.SameRecords h'') :
    h.SameRecords h'' :=
  ⟨hr.store.trans hr'.store, hr.disk.trans hr'.disk, hr.phones.trans hr'.phones⟩

theorem operate_broken (hb : (h.operate i c op).2.crashed = true) :
    (h.operate i c op).1.SameRecords h := by
  cases hp : h.phones[i]? with
  | none => simp [operate, hp, Turn.crashed, Turn.rest] at hb
  | some p =>
    simp only [operate_eq hp] at hb ⊢
    obtain ⟨hs, b, ho, hf⟩ := Controller.perform_broken hb
    have hv := applyAll_sameVault h i (c.perform (h.surroundings p) op).effects
    rw [← Turn.offers, ho] at hv
    obtain ⟨hst, hd⟩ := store_offer_of_crashed hf
    exact ⟨hv.store.trans hst, hv.disk.trans hd, phones_applyAll hs⟩

lemma dismiss_sameRecords (h : Handset) (i : Nat) (c : Controller) :
    (h.dismiss i c).1.SameRecords h := by
  rw [dismiss]
  split
  · rename_i p _
    obtain ⟨ho, hs⟩ := c.withdrawing_silent (h.surroundings p)
    have hv := applyAll_sameVault h i (c.withdrawing (h.surroundings p))
    rw [ho] at hv
    exact ⟨hv.store, hv.disk, phones_applyAll hs⟩
  · exact ⟨rfl, rfl, rfl⟩

lemma isOpened_offer {b : Batch} (hf : h.fate b = .stored) :
    (h.offer b).store.IsOpened (h.offer b).disk := by
  obtain ⟨hok, hb⟩ := fate_stored hf
  rw [hb]
  exact Preference.Store.isOpened_put hok

end Handset

end CallWaiting
