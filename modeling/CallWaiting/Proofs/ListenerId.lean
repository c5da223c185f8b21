import Mathlib.Algebra.Group.Nat.Defs
import CallWaiting.ListenerId

namespace CallWaiting

lemma Numeral.hexDigit?_digitChar {n : Nat} (h : n < 16) : hexDigit? n.digitChar = some n := by
  revert n
  decide

namespace ListenerId

variable {ds : List Char}

lemma length_hexDigits (k n : Nat) : (hexDigits k n).length = k := by
  induction k generalizing n with
  | zero => rfl
  | succ k ih => rw [hexDigits, List.length_append, ih, List.length_singleton]

lemma mapM_hexDigits (k n : Nat) : ∃ vs, (hexDigits k n).mapM Numeral.hexDigit? = some vs ∧
    vs.length = k ∧ vs.foldl (fun m d => m * 16 + d) 0 = n % 16 ^ k := by
  induction k generalizing n with
  | zero => exact ⟨[], rfl, rfl, (Nat.mod_one n).symm⟩
  | succ k ih =>
    obtain ⟨vs, hv, hl, hs⟩ := ih (n / 16)
    have hd := Numeral.hexDigit?_digitChar (Nat.mod_lt n (show 0 < 16 by decide))
    refine ⟨vs ++ [n % 16], ?_, by simp [hl], ?_⟩
    · rw [hexDigits, List.mapM_append, hv]
      simp [hd]
    · rw [List.foldl_append, hs, Nat.pow_succ, Nat.mul_comm (16 ^ k), Nat.mod_mul]
      simp only [List.foldl_cons, List.foldl_nil]
      omega

lemma ofDigits?_hexDigits (l : ListenerId) : ofDigits? (hexDigits 32 l.bits.toNat) = some l := by
  obtain ⟨vs, hv, hl, hs⟩ := mapM_hexDigits 32 l.bits.toNat
  have hb : vs.foldl (fun m d => m * 16 + d) 0 = l.bits.toNat :=
    hs.trans (Nat.mod_eq_of_lt l.bits.isLt)
  simp only [ofDigits?, hv, Option.bind_eq_bind, Option.bind_some, if_pos hl, hb,
    BitVec.ofNat_toNat, BitVec.setWidth_eq]

lemma unhyphenate?_groups {a b c d e : List Char} (ha : a.length = 8) (hb : b.length = 4)
    (hc : c.length = 4) (hd : d.length = 4) :
    unhyphenate? (a ++ '-' :: b ++ '-' :: c ++ '-' :: d ++ '-' :: e) =
      some (a ++ b ++ c ++ d ++ e) := by
  simp [unhyphenate?, List.getElem?_append, List.getElem?_cons, List.drop_append,
    List.drop_of_length_le, ha, hb, hc, hd]

lemma unhyphenate?_hyphenate (h : ds.length = 32) : unhyphenate? (hyphenate ds) = some ds := by
  have hd : ∀ i j k, k = i + j → (ds.drop i).take j ++ ds.drop k = ds.drop i := by
    rintro i j _ rfl
    rw [← List.drop_drop, List.take_append_drop]
  rw [hyphenate, unhyphenate?_groups (by simp [h]) (by simp [h]) (by simp [h]) (by simp [h])]
  simp only [List.append_assoc]
  rw [hd 16 4 20 rfl, hd 12 4 16 rfl, hd 8 4 12 rfl, List.take_append_drop]

theorem ofText?_text (l : ListenerId) : ofText? l.text = some l := by
  have hl : (hyphenate (hexDigits 32 l.bits.toNat)).length = 36 := by
    simp [hyphenate, length_hexDigits]
  simp only [ofText?, text, String.toList_ofList, hl]
  rw [unhyphenate?_hyphenate (length_hexDigits 32 _), Option.bind_some, ofDigits?_hexDigits]

end ListenerId

end CallWaiting
