import CallWaiting.Form.Tables
import CallWaiting.Proofs.Json.Scanning
import CallWaiting.Proofs.Settings.Fields

/-!
Texts from the environment. What looks like a truth value or a number is taken for one, and a field that
wants a text gets it back as that value is written. So it is the text of the variable just if the
variable was written that way.
-/

namespace CallWaiting

namespace Numeral

variable {c : Char} {cs : List Char} {i : Int}

inductive IsPlain : List Char → Prop where
  | zero : IsPlain ['0']
  | positive {c : Char} {cs : List Char} (hd : c.isDigit = true) (hz : c ≠ '0') : IsPlain (c :: cs)
  | negative {c : Char} {cs : List Char} (hd : c.isDigit = true) (hz : c ≠ '0') :
      IsPlain ('-' :: c :: cs)

lemma digitChar_toNat (h : c.isDigit = true) :
    c.toNat - '0'.toNat < 10 ∧ (c.toNat - '0'.toNat).digitChar = c := by
  have hr : '0'.toNat ≤ c.toNat ∧ c.toNat ≤ '9'.toNat := by
    simpa [Char.isDigit, UInt32.le_iff_toNat_le] using h
  have hlt : c.toNat - '0'.toNat < 10 := by
    have h₀ : '0'.toNat = 48 := rfl
    have h₉ : '9'.toNat = 57 := rfl
    omega
  have hd : ∀ n < 10, n.digitChar = Char.ofNat ('0'.toNat + n) := by decide
  refine ⟨hlt, ?_⟩
  rw [hd _ hlt, Nat.add_sub_cancel' hr.1, Char.ofNat_toNat]

lemma ofDigitChars_concat (cs : List Char) (d : Char) :
    Nat.ofDigitChars 10 (cs ++ [d]) 0 = 10 * Nat.ofDigitChars 10 cs 0 + (d.toNat - '0'.toNat) := by
  rw [Nat.ofDigitChars_append, Nat.ofDigitChars_cons]
  rfl

lemma toDigits_ofDigitChars (hd : ∀ x ∈ c :: cs, x.isDigit = true) (hz : c ≠ '0') :
    Nat.ofDigitChars 10 (c :: cs) 0 ≠ 0 ∧
      Nat.toDigits 10 (Nat.ofDigitChars 10 (c :: cs) 0) = c :: cs := by
  induction cs using List.reverseRecOn with
  | nil =>
    obtain ⟨hlt, hc⟩ := digitChar_toNat (hd c List.mem_cons_self)
    have hn : Nat.ofDigitChars 10 [c] 0 = c.toNat - '0'.toNat :=
      (ofDigitChars_concat [] c).trans (by simp)
    rw [hn]
    refine ⟨fun h => hz ?_, by rw [Nat.toDigits_of_lt_base hlt, hc]⟩
    rw [← hc, h]
    rfl
  | append_singleton cs d ih =>
    obtain ⟨hpos, hcs⟩ := ih fun x hx => hd x (by simp only [List.mem_cons, List.mem_append] at hx ⊢; tauto)
    obtain ⟨hlt, hdc⟩ := digitChar_toNat (hd d (by simp))
    rw [← List.cons_append, ofDigitChars_concat]
    refine ⟨by omega, ?_⟩
    rw [Nat.toDigits_of_base_le (by omega) (by omega), Nat.mul_add_div (by omega),
      Nat.div_eq_of_lt hlt, Nat.add_zero, hcs, Nat.mul_add_mod, Nat.mod_eq_of_lt hlt, hdc]

lemma isPlain_ofInt (i : Int) : IsPlain (ofInt i) := by
  rcases ofInt_cases i with ⟨n, -, h⟩ | ⟨n, -, hn, h⟩
  · obtain ⟨c, cs, hc, hd, hz⟩ := toDigits_head n
    rw [h]
    by_cases hn : n = 0
    · rw [hn]
      exact .zero
    · rw [hc]
      exact .positive hd (hz hn)
  · obtain ⟨c, cs, hc, hd, hz⟩ := toDigits_head n
    rw [h, hc]
    exact .negative hd (hz hn)

lemma ofInt_eq_iff (h : toInt? cs = some i) : ofInt i = cs ↔ IsPlain cs := by
  refine ⟨fun hc => hc ▸ isPlain_ofInt i, fun hp => ?_⟩
  cases hp with
  | zero =>
    obtain rfl : 0 = i := Option.some.inj h
    rfl
  | @positive c cs hd hz =>
    have hplus : c ≠ '+' := by
      rintro rfl
      exact absurd hd (by decide)
    have hminus : c ≠ '-' := by
      rintro rfl
      exact absurd hd (by decide)
    rw [toInt?.eq_3 _ (by simpa using hplus) (by simpa using hminus)] at h
    obtain ⟨n, hn, rfl⟩ := Option.map_eq_some_iff.1 h
    obtain ⟨hds, rfl⟩ := toNat?_some hn
    have hneg : ¬ Int.ofNat (Nat.ofDigitChars 10 (c :: cs) 0) < 0 := Int.not_lt.2 (Int.natCast_nonneg _)
    rw [ofInt, if_neg hneg]
    exact (toDigits_ofDigitChars hds hz).2
  | @negative c cs hd hz =>
    obtain ⟨j, hj, rfl⟩ := Option.map_eq_some_iff.1 h
    obtain ⟨n, hn, hjn⟩ := Option.bind_eq_some_iff.1 hj
    obtain rfl : (n : Int) = j := Option.some.inj hjn
    obtain ⟨hds, rfl⟩ := toNat?_some hn
    obtain ⟨hpos, hdigits⟩ := toDigits_ofDigitChars hds hz
    rw [ofInt, if_pos (by omega), Int.natAbs_neg, Int.natAbs_natCast, hdigits]

end Numeral

namespace Settings

namespace Environment

variable {value : String}

/-- A truth value in small letters, an integer with no sign or zero in front of it that could be left
out, the shortest text of another number, or none of these. -/
def IsVerbatim (value : String) : Prop :=
  match guess value with
  | .bool _ => value = "true" ∨ value = "false"
  | .integer _ => Numeral.IsPlain value.toList
  | .float x => x.text = value
  | _ => True

lemma guess_cases (value : String) :
    (∃ b, bool? value = some b ∧ guess value = .bool b) ∨
      (∃ i, Numeral.toInt? value.toList = some i ∧ guess value = .integer i) ∨
      (∃ x, guess value = .float x) ∨ guess value = .text value := by
  rw [guess]
  split
  · exact .inl ⟨_, ‹_›, rfl⟩
  · rename_i i _ hi
    exact .inr (.inl ⟨i, (Option.filter_eq_some_iff.1 hi).1, rfl⟩)
  · exact .inr (.inr (.inl ⟨_, rfl⟩))
  · exact .inr (.inr (.inr rfl))

lemma bool?_text {b : Bool} (h : bool? value = some b) :
    (if b then "true" else "false") = value ↔ value = "true" ∨ value = "false" := by
  constructor
  · rintro rfl
    cases b
    · exact .inr rfl
    · exact .inl rfl
  · rintro (rfl | rfl)
    · obtain rfl : true = b := Option.some.inj h
      rfl
    · obtain rfl : false = b := Option.some.inj h
      rfl

lemma text?_guess (value : String) :
    ∃ t, (guess value).text? = some t ∧ (guess value).optionalText? = some (some t) ∧
      (t = value ↔ IsVerbatim value) := by
  rcases guess_cases value with ⟨b, hb, h⟩ | ⟨i, hi, h⟩ | ⟨x, h⟩ | h
  · refine ⟨if b then "true" else "false", by rw [h]; rfl, by rw [h]; rfl, ?_⟩
    rw [IsVerbatim, h]
    exact bool?_text hb
  · refine ⟨Numeral.text i, by rw [h]; rfl, by rw [h]; rfl, ?_⟩
    rw [IsVerbatim, h, Numeral.text, ← Numeral.ofInt_eq_iff hi]
    constructor
    · rintro rfl
      exact String.toList_ofList.symm
    · intro ht
      rw [ht, String.ofList_toList]
  · refine ⟨x.text, by rw [h]; rfl, by rw [h]; rfl, ?_⟩
    rw [IsVerbatim, h]
  · refine ⟨value, by rw [h]; rfl, by rw [h]; rfl, ?_⟩
    rw [IsVerbatim, h]
    exact iff_of_true rfl trivial

end Environment

open Environment (value? IsVerbatim)

variable {host : Host} {fs : FileSystem} {file : Option FileSystem.Path}
  {env : List (String × String)} {s : Settings}

theorem verbatim_iff (h : load? host fs file env = some (.ok s)) :
    (∀ v, value? env "CALL_WAITING__PREFERENCE_GROUP" = some v → (s.group = v ↔ IsVerbatim v)) ∧
      ∀ v, value? env "CALL_WAITING__STORE_PATH" = some v → (s.storePath = some v ↔ IsVerbatim v) := by
  obtain ⟨entries, -, hs⟩ := load?_ok h
  have hr := reads_settings hs
  constructor
  · intro v hv
    obtain ⟨t, ht, -, hiff⟩ := Environment.text?_guess v
    have hg := read_of_value? (f := .group) (by decide +kernel) (fun _ _ => isLeaf_of_text?) hv hr.group
    obtain rfl := Option.some.inj (hg.symm.trans ht)
    exact hiff
  · intro v hv
    obtain ⟨t, -, ht, hiff⟩ := Environment.text?_guess v
    have hp := read_of_value? (f := .storePath) (by decide +kernel) (fun _ _ => isLeaf_of_optionalText?)
      hv hr.storePath
    rw [Option.some.inj (hp.symm.trans ht), Option.some.injEq]
    exact hiff

theorem verbatim_numeral_and_path :
    let env := [("CALL_WAITING__PREFERENCE_GROUP", "-12"), ("call_waiting__store_path", "0x10")]
    let s : Settings := ⟨"-12", some "0x10", .default⟩
    load? .plain .empty none env = some (.ok s) ∧ value? env "CALL_WAITING__PREFERENCE_GROUP" = some "-12" ∧
      value? env "CALL_WAITING__STORE_PATH" = some "0x10" ∧ IsVerbatim "-12" ∧ IsVerbatim "0x10" := by
  intro env s
  have h : load? .plain .empty none env = some (.ok s) := by decide +kernel
  have hg : value? env "CALL_WAITING__PREFERENCE_GROUP" = some "-12" := by decide +kernel
  have hp : value? env "CALL_WAITING__STORE_PATH" = some "0x10" := by decide +kernel
  exact ⟨h, hg, hp, ((verbatim_iff h).1 _ hg).1 rfl, ((verbatim_iff h).2 _ hp).1 rfl⟩

theorem not_verbatim_zeros :
    let env := [("CALL_WAITING__PREFERENCE_GROUP", "007")]
    load? .plain .empty none env = some (.ok ⟨"7", none, .default⟩) ∧
      value? env "CALL_WAITING__PREFERENCE_GROUP" = some "007" ∧ "7" ≠ "007" ∧
      Settings.ofToml "preference_group = \"007\"" = .ok ⟨"007", none, .default⟩ := by
  exact ⟨by decide +kernel, by decide +kernel, by decide, by decide +kernel⟩

end Settings

end CallWaiting
