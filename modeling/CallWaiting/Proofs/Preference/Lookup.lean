import Mathlib.Data.List.Dedup
import Mathlib.Tactic.Lemma
import Mathlib.Tactic.Tauto
import CallWaiting.Preference.Document.Basic
import CallWaiting.Preference.Memory

namespace CallWaiting.Preference

def Batch.value? (b : Batch) (group : String) (k : Key) : Option Int32 :=
  if b.group = group then b.entries.reverse.lookup k else none

def Batch.addresses (b : Batch) : List Address :=
  b.entries.map fun e => ⟨b.group, e.1⟩

lemma lookup_foldl {α : Type} (read : α → Option Int32) (write : α → Key × Int32 → α) (k : Key)
    (h : ∀ a e, read (write a e) = if e.1 = k then some e.2 else read a)
    (es : List (Key × Int32)) (a : α) :
    read (es.foldl write a) = (es.reverse.lookup k).or (read a) := by
  induction es generalizing a with
  | nil => rfl
  | cons e es ih =>
    rw [List.foldl_cons, ih, h, List.reverse_cons, List.lookup_append, Option.or_assoc]
    congr 1
    obtain ⟨k', v⟩ := e
    by_cases he : k' = k
    · simp [he]
    · have hb : (k == k') = false := by simpa using Ne.symm he
      simp [List.lookup_cons, he, hb]

lemma lookup_foldl_apart {α : Type} (read : α → Option Int32) (write : α → Key × Int32 → α)
    (h : ∀ a e, read (write a e) = read a) (es : List (Key × Int32)) (a : α) :
    read (es.foldl write a) = read a := by
  induction es generalizing a with
  | nil => rfl
  | cons e es ih => rw [List.foldl_cons, ih, h]

namespace Memory

lemma getElem?_insert (vs : Std.ExtTreeMap Address Int32) (a a' : Address) (v : Int32) :
    (vs.insert a v)[a']? = if a = a' then some v else vs[a']? := by
  simp only [Std.ExtTreeMap.getElem?_insert, Std.compare_eq_iff_eq]

theorem get?_put (m : Memory) (b : Batch) (group : String) (k : Key) :
    (m.put b).get? group k = (b.value? group k).or (m.get? group k) := by
  rw [get?, put, Batch.value?]
  by_cases hg : b.group = group
  · subst hg
    rw [if_pos rfl]
    refine lookup_foldl (fun vs => vs[(⟨b.group, k⟩ : Address)]?) _ k ?_ b.entries m.values
    rintro vs ⟨k', v⟩
    simp only [getElem?_insert, Address.mk.injEq, true_and]
  · rw [if_neg hg]
    refine lookup_foldl_apart (fun vs => vs[(⟨group, k⟩ : Address)]?) _ ?_ b.entries m.values
    rintro vs ⟨k', v⟩
    simp only [getElem?_insert, Address.mk.injEq, hg, false_and, if_false]

variable {m : Memory} {b : Batch} {a : Address}

lemma mem_put : a ∈ (m.put b).values ↔ a ∈ m.values ∨ a ∈ b.addresses := by
  rw [put, Batch.addresses]
  dsimp only
  generalize m.values = vs
  induction b.entries generalizing vs with
  | nil => simp
  | cons e es ih =>
    rw [List.foldl_cons, ih, List.map_cons, List.mem_cons, Std.ExtTreeMap.mem_insert,
      Std.compare_eq_iff_eq, eq_comm (a := a)]
    tauto

lemma mem_foldl_put {bs : List Batch} :
    a ∈ (bs.foldl put m).values ↔ a ∈ m.values ∨ a ∈ bs.flatMap Batch.addresses := by
  induction bs generalizing m with
  | nil => simp
  | cons b bs ih => rw [List.foldl_cons, ih, mem_put, List.flatMap_cons, List.mem_append, or_assoc]

lemma size_eq {as : List Address} (h : ∀ a, a ∈ m.values ↔ a ∈ as) : m.size = as.dedup.length := by
  have hp : m.values.keys.Perm as.dedup := by
    refine (List.perm_ext_iff_of_nodup Std.ExtTreeMap.nodup_keys as.nodup_dedup).2 fun a => ?_
    rw [Std.ExtTreeMap.mem_keys, h, List.mem_dedup]
  rw [size, ← Std.ExtTreeMap.length_keys, hp.length_eq]

end Memory

namespace Document

theorem get?_insert (d : Document) (group group' : String) (k k' : Key) (v : Int32) :
    (d.insert group k v).get? group' k' =
      if group = group' ∧ k = k' then some v else d.get? group' k' := by
  obtain ⟨field, scope⟩ := k
  obtain ⟨field', scope'⟩ := k'
  simp only [get?, insert, Std.ExtTreeMap.getElem?_insert, Std.compare_eq_iff_eq, Key.mk.injEq]
  by_cases hg : group = group'
  · subst hg
    simp only [true_and, if_true, Option.bind_eq_bind, Option.bind_some,
      Std.ExtTreeMap.getElem?_insert, Std.compare_eq_iff_eq]
    by_cases hf : field = field'
    · subst hf
      simp only [true_and, if_true, Option.bind_some, Std.ExtTreeMap.getElem?_insert,
        Std.compare_eq_iff_eq]
      by_cases hs : scope = scope'
      · simp [hs]
      · cases hd : d.groups[group]? with
        | none => simp [hs]
        | some fields => cases hfs : fields[field]? <;> simp [hs, hfs]
    · cases hd : d.groups[group]? <;> simp [hf]
  · simp [hg]

theorem get?_apply (d : Document) (b : Batch) (group : String) (k : Key) :
    (d.apply b).get? group k = (b.value? group k).or (d.get? group k) := by
  rw [apply, Batch.value?]
  by_cases hg : b.group = group
  · subst hg
    rw [if_pos rfl]
    refine lookup_foldl (fun d => d.get? b.group k) _ k ?_ b.entries d
    rintro d ⟨k', v⟩
    simp only [get?_insert, true_and]
  · rw [if_neg hg]
    refine lookup_foldl_apart (fun d => d.get? group k) _ ?_ b.entries d
    rintro d ⟨k', v⟩
    simp only [get?_insert, hg, false_and, if_false]

end Document

end CallWaiting.Preference
