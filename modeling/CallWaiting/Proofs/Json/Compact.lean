import CallWaiting.Proofs.Json.RoundTrip

namespace CallWaiting

namespace Octets

variable {o : Octets} {c : Char}

def IsText (o : Octets) : Prop :=
  ∃ s, o = ofText s

def IsAscii (o : Octets) : Prop :=
  ∀ c ∈ o, c.toNat < 128

instance (o : Octets) : Decidable o.IsAscii :=
  List.decidableBAll (fun c : Char => c.toNat < 128) o

lemma ofText_append (s t : String) : ofText (s ++ t) = ofText s ++ ofText t := by
  simp [ofText, ofBytes, String.toByteArray_append]

lemma ofText_ofList (cs : List Char) : ofText (String.ofList cs) = cs.flatMap ofChar := by
  simp only [ofText, ofBytes, String.toUTF8, String.toByteArray_ofList, List.utf8Encode]
  simp only [List.data_toByteArray, List.map_flatMap]
  rfl

lemma isText_nil : IsText [] := ⟨"", rfl⟩

lemma IsText.append {xs ys : Octets} (hx : IsText xs) (hy : IsText ys) : IsText (xs ++ ys) := by
  obtain ⟨s, rfl⟩ := hx
  obtain ⟨t, rfl⟩ := hy
  exact ⟨s ++ t, (ofText_append s t).symm⟩

lemma ofChar_ascii (h : c.toNat < 128) : ofChar c = [c] := by
  have hv : c.val.toNat ≤ 127 := Nat.le_of_lt_succ h
  have he : String.utf8EncodeChar c = [c.toUInt8] := if_pos hv
  rw [ofChar, he, List.map_singleton, ofUInt8_toUInt8 (by omega)]

lemma ofChar_wide (h : 128 ≤ c.toNat) : ∀ d ∈ ofChar c, 128 ≤ d.toNat := by
  have hv : ¬ c.val.toNat ≤ 127 := Nat.not_le_of_gt h
  have hb : ∀ n ∈ String.utf8EncodeChar c, 128 ≤ n.toNat := by
    simp only [String.utf8EncodeChar, if_neg hv]
    split_ifs <;> simp only [List.forall_mem_cons, List.not_mem_nil, false_implies, implies_true,
      and_true, UInt8.toNat_ofNat'] <;> omega
  intro d hd
  obtain ⟨n, hn, rfl⟩ := List.mem_map.1 hd
  change 128 ≤ n.toUInt32.toNat
  rw [UInt8.toNat_toUInt32]
  exact hb n hn

lemma isText_ofChar (c : Char) : IsText (ofChar c) :=
  ⟨String.ofList [c], by rw [ofText_ofList, List.flatMap_singleton]⟩

lemma IsAscii.isText (h : o.IsAscii) : o.IsText := by
  refine ⟨String.ofList o, ?_⟩
  rw [ofText_ofList]
  induction o with
  | nil => rfl
  | cons c o ih =>
    rw [List.flatMap_cons, ofChar_ascii (h c List.mem_cons_self),
      ← ih fun d hd => h d (List.mem_cons_of_mem c hd), List.singleton_append]

lemma IsText.cons (hc : c.toNat < 128) (h : o.IsText) : IsText (c :: o) := by
  have hs : IsAscii [c] := by simpa [IsAscii] using hc
  exact hs.isText.append h

end Octets

namespace Json

namespace Escape

variable {c : Char}

lemma hexDigit_ascii (n : Nat) (h : n < 16) : (hexDigit n).toNat < 128 := by
  revert n
  decide

lemma isAscii_octet (h : c.toNat < 128) : Octets.IsAscii (octet c) := by
  simp only [octet]
  split
  case h_8 =>
    split
    · have hlo := hexDigit_ascii (c.toNat / 16) (by omega)
      have hhi := hexDigit_ascii (c.toNat % 16) (by omega)
      simp [Octets.IsAscii, hlo, hhi]
    · simpa [Octets.IsAscii] using h
  all_goals simp [Octets.IsAscii]

lemma octet_wide (h : 128 ≤ c.toNat) : octet c = [c] := by
  simp only [octet]
  split
  case h_8 => exact if_neg (by omega)
  all_goals exact absurd h (by decide)

lemma encode_wide {o : Octets} (h : ∀ d ∈ o, 128 ≤ d.toNat) : encode o = o := by
  induction o with
  | nil => rfl
  | cons d o ih =>
    rw [encode, List.flatMap_cons, octet_wide (h d List.mem_cons_self), List.singleton_append]
    exact congrArg (d :: ·) (ih fun d' hd => h d' (List.mem_cons_of_mem d hd))

lemma isText_encode_ofChar (c : Char) : Octets.IsText (encode (Octets.ofChar c)) := by
  by_cases h : c.toNat < 128
  · rw [Octets.ofChar_ascii h, encode, List.flatMap_singleton]
    exact (isAscii_octet h).isText
  · rw [encode_wide (Octets.ofChar_wide (by omega))]
    exact Octets.isText_ofChar c

lemma isText_ofText (s : String) : Octets.IsText (ofText s) := by
  have hs : Octets.ofText s = s.toList.flatMap Octets.ofChar := by
    rw [← Octets.ofText_ofList, String.ofList_toList]
  rw [ofText, hs]
  induction s.toList with
  | nil => exact Octets.isText_nil
  | cons c cs ih =>
    rw [List.flatMap_cons, encode, List.flatMap_append]
    exact (isText_encode_ofChar c).append ih

end Escape

namespace Token

lemma ends_bracket (cs : Octets) : Ends (']' :: cs) := by simp [Ends]; decide
lemma ends_brace (cs : Octets) : Ends ('}' :: cs) := by simp [Ends]; decide

mutual

theorem run_compact (j : Json) (h : j.IsPrintable) (rest : Octets) (hr : Ends rest) :
    run .between (compact j ++ rest) = (run .between rest).map (spell j ++ ·) := by
  match j, h with
  | .null, _ => exact run_wordOf rfl rfl (by decide) rfl hr
  | .bool true, _ => exact run_wordOf rfl rfl (by decide) rfl hr
  | .bool false, _ => exact run_wordOf rfl rfl (by decide) rfl hr
  | .number _, ⟨i, rfl⟩ => exact run_ofInt i hr
  | .text body, h => exact run_quoted h rest
  | .array js, h =>
    simp only [compact, List.cons_append, List.append_assoc, List.nil_append]
    rw [run_step .between [.openBracket] rfl, run_compactItems js h _ (ends_bracket _),
      run_step .between [.closeBracket] rfl]
    cases js <;> simp [spell, spellItems, Function.comp_def]
  | .object ms, h =>
    simp only [compact, List.cons_append, List.append_assoc, List.nil_append]
    rw [run_step .between [.openBrace] rfl, run_compactMembers ms h _ (ends_brace _),
      run_step .between [.closeBrace] rfl]
    cases ms <;> simp [spell, spellMembers, Function.comp_def]

theorem run_compactItems (js : List Json) (h : ArePrintable js) (rest : Octets) (hr : Ends rest) :
    run .between (compactItems js ++ rest) =
      (run .between rest).map ((spellItems js).tail ++ ·) := by
  match js, h with
  | [], _ => simp [compactItems, spellItems]
  | [j], ⟨hj, _⟩ =>
    simp only [compactItems]
    rw [run_compact j hj rest hr]
    simp [spellItems]
  | j :: j' :: js, ⟨hj, hjs⟩ =>
    -- `spellItems` puts a comma in front of each item, and `tail` takes off the first one
    simp only [compactItems, List.cons_append, List.append_assoc]
    rw [run_compact j hj _ (ends_comma _), run_step .between [.comma] rfl,
      run_compactItems (j' :: js) hjs rest hr]
    simp [spellItems, Function.comp_def]

theorem run_compactMembers (ms : List (Octets × Json)) (h : HasPrintable ms) (rest : Octets)
    (hr : Ends rest) :
    run .between (compactMembers ms ++ rest) =
      (run .between rest).map ((spellMembers ms).tail ++ ·) := by
  match ms, h with
  | [], _ => simp [compactMembers, spellMembers]
  | [(k, j)], ⟨hk, hj, _⟩ =>
    simp only [compactMembers, List.cons_append, List.append_assoc]
    rw [run_quoted hk, run_step .between [.colon] rfl, run_compact j hj rest hr]
    simp [spellMembers, Function.comp_def]
  | (k, j) :: m :: ms, ⟨hk, hj, hms⟩ =>
    simp only [compactMembers, List.cons_append, List.append_assoc]
    rw [run_quoted hk, run_step .between [.colon] rfl, run_compact j hj _ (ends_comma _),
      run_step .between [.comma] rfl, run_compactMembers (m :: ms) hms rest hr]
    simp [spellMembers, Function.comp_def]

end

theorem scan_compact (j : Json) (h : j.IsPrintable) : scan (compact j) = some (spell j) := by
  have hj := run_compact j h [] ends_nil
  rw [List.append_nil] at hj
  rw [scan, hj]
  simp [run, last]

end Token

theorem read?_compact (j : Json) (h : j.IsPrintable) : read? (compact j) = some j := by
  rw [read?, Token.scan_compact j h]
  exact ofTokens?_spell j

end Json

end CallWaiting
