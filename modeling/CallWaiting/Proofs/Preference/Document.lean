import CallWaiting.Preference.Document.Format
import CallWaiting.Proofs.Json.Form

namespace CallWaiting.Preference.Document

open Json (toJson LawfulForm IsPrintable)

section Maps

variable {α β : Type} [Ord α] [Std.TransOrd α] [Std.LawfulEqOrd α]

lemma ofList_toList (m : Std.ExtTreeMap α β) : Std.ExtTreeMap.ofList m.toList = m := by
  classical
  apply Std.ExtTreeMap.ext_getElem?
  intro k
  cases h : m[k]? with
  | some v =>
    exact Std.ExtTreeMap.getElem?_ofList_of_mem (Std.compare_eq_iff_eq.2 rfl)
      Std.ExtTreeMap.distinct_keys_toList (Std.ExtTreeMap.mem_toList_iff_getElem?_eq_some.2 h)
  | none =>
    apply Std.ExtTreeMap.getElem?_ofList_of_contains_eq_false
    rw [Std.ExtTreeMap.map_fst_toList_eq_keys]
    simpa using h

lemma map?_tree {key : α → Octets} {value : β → Json} {key? : Octets → Option α}
    {value? : Json → Option β} (hk : ∀ k, key? (key k) = some k) (hv : ∀ v, value? (value v) = some v)
    (m : Std.ExtTreeMap α β) : map? key? value? (tree key value m) = some m := by
  have hm : (m.toList.map fun e => (key e.1, value e.2)).mapM
      (fun e => do return (← key? e.1, ← value? e.2)) = some m.toList := by
    rw [List.mapM_map]
    refine Json.mapM_of_forall₂ (List.forall₂_same.2 fun e _ => ?_)
    simp [hk, hv]
  change (do return Std.ExtTreeMap.ofList (← (m.toList.map fun e => (key e.1, value e.2)).mapM
    fun e => do return (← key? e.1, ← value? e.2))) = some m
  rw [hm]
  exact congrArg some (ofList_toList m)

omit [Std.LawfulEqOrd α] in
lemma isPrintable_tree {key : α → Octets} {value : β → Json} (hk : ∀ k, Json.Token.IsBody (key k))
    (hv : ∀ v, IsPrintable (value v)) (m : Std.ExtTreeMap α β) : IsPrintable (tree key value m) := by
  apply Json.hasPrintable_iff.2
  intro e he
  obtain ⟨⟨k, v⟩, -, rfl⟩ := List.mem_map.1 he
  exact ⟨hk k, hv v⟩

end Maps

lemma isPrintable_toTree (d : Document) : IsPrintable d.toTree := by
  refine ⟨Json.Token.isBody_ofText _, ?_, trivial⟩
  refine isPrintable_tree Json.Token.isBody_ofText (fun f => ?_) _
  refine isPrintable_tree (fun k => Json.Token.isBody_ofText _) (fun s => ?_) _
  exact isPrintable_tree (fun k => Json.Token.isBody_ofInt _) (fun v => (LawfulForm.isWritten v).isPrintable) _

lemma scope?_ofInt (k : Int32) : scope? (Numeral.ofInt k.toInt) = some k := by
  rw [scope?, if_pos (Json.Token.isNumber_ofInt _), Json.int?_ofInt, Option.bind_some,
    Numeral.int32?_toInt]

lemma field?_ofText (f : Field) : field? (Json.Escape.ofText f.name) = some f := by
  rw [field?, Json.Escape.text?_ofText, Option.bind_some]
  cases f <;> decide

lemma ofTree?_toTree (d : Document) : ofTree? d.toTree = some d := by
  have hs : ∀ s : Scopes, scopes? (scopesTree s) = some s := map?_tree scope?_ofInt LawfulForm.ofJson?_toJson
  have hf : ∀ f : Fields, groupFields? (fieldsTree f) = some f := map?_tree field?_ofText hs
  have hg := map?_tree Json.Escape.text?_ofText hf d.groups
  simp [ofTree?, toTree, Json.record, Json.fields?, Json.lookup?, hg]

theorem decode?_encode (d : Document) : decode? d.encode = some d := by
  rw [decode?, encode, Json.read?_toBytes _ (isPrintable_toTree d)]
  exact ofTree?_toTree d

lemma encode_size_ne_zero (d : Document) : d.encode.size ≠ 0 := by
  intro h
  have hd := decode?_encode d
  rw [ByteArray.size_eq_zero_iff.1 h] at hd
  cases hd

end CallWaiting.Preference.Document
