import CallWaiting.Proofs.Json.Scanning
import CallWaiting.Proofs.Preference.Lookup

/-!
Keys as they are written. Nothing stands between the name of a field and the scope, but no name begins
with another one, and a scope is read off its digits. So two keys are written alike only if they are
one key, and what is put down under it is found under no other.
-/

namespace CallWaiting

lemma Numeral.ofInt_injective : Function.Injective ofInt := by
  intro i j h
  have hs : some i = some j := by rw [← Json.int?_ofInt i, h, Json.int?_ofInt]
  exact Option.some.inj hs

namespace Preference

variable {f g : Field} {k k' : Key}

lemma Field.eq_of_name_begins (h : f.name.toList <+: g.name.toList) : f = g := by
  revert h
  cases f <;> cases g <;> decide

lemma Field.eq_of_name_append {cs ds : List Char}
    (h : f.name.toList ++ cs = g.name.toList ++ ds) : f = g := by
  have hf : f.name.toList <+: g.name.toList ++ ds := h ▸ List.prefix_append _ _
  obtain hp | hp := List.prefix_or_prefix_of_prefix hf (List.prefix_append _ ds)
  · exact eq_of_name_begins hp
  · exact (eq_of_name_begins hp).symm

lemma Key.toList_text (k : Key) : k.text.toList = k.field.name.toList ++ Numeral.ofInt k.scope.toInt := by
  rw [text, Numeral.text, String.toList_append, String.toList_ofList]

lemma Key.eq_of_text (h : k.text = k'.text) : k = k' := by
  have hl : k.field.name.toList ++ Numeral.ofInt k.scope.toInt =
      k'.field.name.toList ++ Numeral.ofInt k'.scope.toInt := by
    rw [← toList_text, h, toList_text]
  have hf : k.field = k'.field := Field.eq_of_name_append hl
  rw [hf] at hl
  have hs : k.scope = k'.scope :=
    Int32.toInt_inj.1 (Numeral.ofInt_injective (List.append_cancel_left hl))
  cases k
  cases k'
  exact congr (congrArg mk hf) hs

theorem told_by_text :
    (∀ k k' : Key, k.text = k'.text ↔ k = k') ∧
    ∀ (d : Document) (group : String) (k : Key) (v : Int32),
      (d.insert group k v).get? group k = some v ∧
      ∀ group' k', (group', k') ≠ (group, k) →
        (d.insert group k v).get? group' k' = d.get? group' k' := by
  refine ⟨fun k k' => ⟨Key.eq_of_text, congrArg Key.text⟩, fun d group k v => ⟨?_, ?_⟩⟩
  · rw [Document.get?_insert, if_pos ⟨rfl, rfl⟩]
  · intro group' k' hne
    rw [Document.get?_insert, if_neg]
    rintro ⟨rfl, rfl⟩
    exact hne rfl

theorem told_by_text_signs_apart :
    Key.text ⟨.state, 1⟩ ≠ Key.text ⟨.state, -1⟩ ∧
    ((Document.empty.insert "g" ⟨.state, 1⟩ 1).insert "g" ⟨.state, -1⟩ 0).get? "g" ⟨.state, 1⟩ =
      some 1 := by
  obtain ⟨htext, hinsert⟩ := told_by_text
  refine ⟨mt (htext _ _).1 (by decide), ?_⟩
  rw [(hinsert _ _ _ _).2 "g" ⟨.state, 1⟩ (by decide)]
  exact (hinsert _ _ _ _).1

end Preference

end CallWaiting
