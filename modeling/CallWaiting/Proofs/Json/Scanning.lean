import Mathlib.Data.List.TakeWhile
import CallWaiting.Json.Form
import CallWaiting.Proofs.Json.Escape

namespace CallWaiting

namespace Numeral

lemma toDigits_head (n : Nat) :
    ∃ c cs, Nat.toDigits 10 n = c :: cs ∧ c.isDigit = true ∧ (n ≠ 0 → c ≠ '0') := by
  induction n using Nat.strongRecOn with
  | ind n ih =>
    by_cases h : n < 10
    · refine ⟨n.digitChar, [], Nat.toDigits_of_lt_base h, ?_⟩
      clear ih
      revert n
      decide
    · obtain ⟨c, cs, hc, hd, hz⟩ := ih (n / 10) (by omega)
      refine ⟨c, cs ++ [(n % 10).digitChar], ?_, hd, fun _ => hz (by omega)⟩
      rw [Nat.toDigits_of_base_le (by omega) (by omega), hc, List.cons_append]

lemma all_isDigit_toDigits (n : Nat) : ∀ c ∈ Nat.toDigits 10 n, c.isDigit = true :=
  fun _ hc => Nat.isDigit_of_mem_toDigits (by decide) (by decide) hc

lemma ofInt_cases (i : Int) :
    (∃ n : Nat, i = n ∧ ofInt i = Nat.toDigits 10 n) ∨
      ∃ n : Nat, i = -n ∧ n ≠ 0 ∧ ofInt i = '-' :: Nat.toDigits 10 n := by
  by_cases h : i < 0
  · exact .inr ⟨i.natAbs, by omega, by omega, by simp [ofInt, h]⟩
  · exact .inl ⟨i.natAbs, by omega, by simp [ofInt, h]⟩

end Numeral

namespace Json

@[simp] theorem int?_ofInt (i : Int) : int? (Numeral.ofInt i) = some i := by
  rcases Numeral.ofInt_cases i with ⟨n, rfl, h⟩ | ⟨n, rfl, hn, h⟩
  · obtain ⟨c, cs, hc, hd, -⟩ := Numeral.toDigits_head n
    have hm : c ≠ '-' := by rintro rfl; exact absurd hd (by decide)
    rw [h, int?.eq_def]
    split
    · exact absurd (hc.symm.trans ‹_›) (by simp [hm])
    · rw [Numeral.toNat?_toDigits]
      rfl
  · rw [h]
    simp [int?, Numeral.toNat?_toDigits, hn]

namespace Token

lemma isUnsigned_toDigits (n : Nat) : isUnsigned (Nat.toDigits 10 n) = true := by
  by_cases hn : n = 0
  · subst hn
    rfl
  · obtain ⟨c, cs, hc, -, hz⟩ := Numeral.toDigits_head n
    have ha : ∀ c ∈ Nat.toDigits 10 n, c.isDigit = true := Numeral.all_isDigit_toDigits n
    have hd : (Nat.toDigits 10 n).dropWhile Char.isDigit = [] := List.dropWhile_eq_nil_iff.2 ha
    have ht : (Nat.toDigits 10 n).takeWhile Char.isDigit = Nat.toDigits 10 n :=
      List.takeWhile_eq_self_iff.2 ha
    rw [isUnsigned.eq_def]
    split
    · exact absurd (hc.symm.trans ‹_›) (by simp [hz hn])
    · simp [hd, ht, Nat.toDigits_ne_nil, isTail]

lemma isNumber_ofInt (i : Int) : isNumber (Numeral.ofInt i) = true := by
  rcases Numeral.ofInt_cases i with ⟨n, -, h⟩ | ⟨n, -, -, h⟩
  · obtain ⟨c, cs, hc, hd, -⟩ := Numeral.toDigits_head n
    have hm : c ≠ '-' := by rintro rfl; exact absurd hd (by decide)
    rw [h, isNumber.eq_def]
    split
    · exact absurd (hc.symm.trans ‹_›) (by simp [hm])
    · exact isUnsigned_toDigits n
  · rw [h]
    exact isUnsigned_toDigits n

def Ends (rest : Octets) : Prop :=
  ∀ c ∈ rest.head?, isNumberSign c = false ∧ c.isLower = false

lemma ends_nil : Ends [] := by simp [Ends]
lemma ends_comma (cs : Octets) : Ends (',' :: cs) := by simp [Ends]; decide
lemma ends_newline (level : Nat) (cs : Octets) : Ends (newline level ++ cs) := by
  simp [Ends, newline]; decide

lemma run_step {m : Mode} (m' : Mode) {c : Char} (ts : List Token) (h : step m c = some (m', ts))
    (cs : Octets) : run m (c :: cs) = (run m' cs).map (ts ++ ·) := by
  rw [run, h, Option.map_eq_bind]
  rfl

lemma run_ended {m : Mode} {t : Token} {rest : Octets} (hl : last m = some [t])
    (hs : ∀ c ∈ rest.head?, step m c = finish (some t) c) :
    run m rest = (run .between rest).map (t :: ·) := by
  cases rest with
  | nil =>
    rw [run, hl]
    rfl
  | cons c cs =>
    have hm : step m c = finish (some t) c := hs c rfl
    have hb : step .between c = start c := rfl
    simp only [run, hm, hb, finish]
    cases start c <;> simp [Option.map_eq_bind, Option.bind_assoc]

lemma run_reading {mode : Octets → Mode} {isSign : Char → Bool}
    (hm : ∀ read c, isSign c = true → step (mode read) c = some (mode (c :: read), []))
    {cs : Octets} (hcs : ∀ c ∈ cs, isSign c = true) (read rest : Octets) :
    run (mode read) (cs ++ rest) = run (mode (cs.reverse ++ read)) rest := by
  induction cs generalizing read with
  | nil => rfl
  | cons c cs ih =>
    rw [List.cons_append, run_some _ (hm read c (hcs c List.mem_cons_self)),
      ih fun c' h => hcs c' (List.mem_cons_of_mem c h)]
    simp

lemma run_wordOf {cs ds : Octets} {c : Char} {t : Token} (hcs : cs = c :: ds)
    (hc : start c = some (.word [c], [])) (hd : ds.all Char.isLower = true)
    (ht : ofWord cs = some t) {rest : Octets} (hr : Ends rest) :
    run .between (cs ++ rest) = (run .between rest).map (t :: ·) := by
  have hs : step .between c = some (.word [c], []) := hc
  have ho : ofWord (ds.reverse ++ [c]).reverse = some t := by simpa [hcs] using ht
  have hl : run (.word [c]) (ds ++ rest) = run (.word (ds.reverse ++ [c])) rest :=
    run_reading (fun read c h => by simp [step, h]) (List.all_eq_true.1 hd) [c] rest
  rw [hcs, List.cons_append, run_some _ hs, hl]
  refine run_ended (by rw [last, ho]; rfl) fun c hc => ?_
  rw [step, (hr c hc).2, ho]
  rfl

lemma start_digit {c : Char} (h : c.isDigit = true) : start c = some (.number [c], []) := by
  simp only [start]
  split
  all_goals first | exact absurd h (by decide) | skip
  have hn : ∀ d : Char, d.isDigit = false → (c == d) = false := by
    intro d hd
    refine beq_false_of_ne ?_
    rintro rfl
    rw [h] at hd
    cases hd
  have hb : isBlank c = false := by
    rw [isBlank, hn ' ' rfl, hn '\n' rfl, hn '\t' rfl, hn '\r' rfl]
    rfl
  simp [hb, h]

lemma toNat_lt_of_isDigit {c : Char} (h : c.isDigit = true) : 32 ≤ c.toNat ∧ c.toNat < 128 := by
  have hd : 48 ≤ c.val.toNat ∧ c.val.toNat ≤ 57 := by
    simpa [Char.isDigit, UInt32.le_iff_toNat_le] using h
  change 32 ≤ c.val.toNat ∧ c.val.toNat < 128
  omega

lemma isBody_ofInt (i : Int) : IsBody (Numeral.ofInt i) := by
  have hds : ∀ ds : Octets, (∀ c ∈ ds, c.isDigit = true) → IsBody ds := by
    intro ds hds
    induction ds with
    | nil => exact isBody_nil
    | cons c ds ih =>
      have hc : c.isDigit = true := hds c List.mem_cons_self
      obtain ⟨hlo, hhi⟩ := toNat_lt_of_isDigit hc
      have hq : c ≠ '"' := by rintro rfl; exact absurd hc (by decide)
      have hb : c ≠ '\\' := by rintro rfl; exact absurd hc (by decide)
      exact (isBody_plain (by omega) hlo hq hb).append (ih fun c' h => hds c' (List.mem_cons_of_mem c h))
  rcases Numeral.ofInt_cases i with ⟨n, -, h⟩ | ⟨n, -, -, h⟩
  · exact h ▸ hds _ (Numeral.all_isDigit_toDigits n)
  · have hm : IsBody ['-'] := isBody_plain (by decide) (by decide) (by decide) (by decide)
    exact h ▸ hm.append (hds _ (Numeral.all_isDigit_toDigits n))

lemma run_ofInt (i : Int) {rest : Octets} (hr : Ends rest) :
    run .between (Numeral.ofInt i ++ rest) =
      (run .between rest).map (number (Numeral.ofInt i) :: ·) := by
  have hsign : ∀ c, c.isDigit = true → isNumberSign c = true := by
    intro c hc
    simp [isNumberSign, hc]
  obtain ⟨c, cs, hi, hc, hcs⟩ : ∃ c cs, Numeral.ofInt i = c :: cs ∧
      step .between c = some (.number [c], []) ∧ ∀ c ∈ cs, isNumberSign c = true := by
    rcases Numeral.ofInt_cases i with ⟨n, -, h⟩ | ⟨n, -, -, h⟩
    · obtain ⟨c, cs, hc, hd, -⟩ := Numeral.toDigits_head n
      refine ⟨c, cs, h.trans hc, ?_, fun c' h' => hsign c' ?_⟩
      · exact start_digit hd
      · exact Numeral.all_isDigit_toDigits n c' (hc ▸ List.mem_cons_of_mem c h')
    · exact ⟨'-', _, h, rfl, fun c' h' => hsign c' (Numeral.all_isDigit_toDigits n c' h')⟩
  have ho : ofNumber (cs.reverse ++ [c]).reverse = some (number (Numeral.ofInt i)) := by
    rw [List.reverse_append, List.reverse_reverse, List.reverse_singleton, List.singleton_append,
      ← hi, ofNumber, if_pos (isNumber_ofInt i)]
  have hl : run (.number [c]) (cs ++ rest) = run (.number (cs.reverse ++ [c])) rest :=
    run_reading (fun read c h => by simp [step, h]) hcs [c] rest
  rw [hi, List.cons_append, run_some _ hc, hl, ← hi]
  refine run_ended (by rw [last, ho]; rfl) fun c hc => ?_
  rw [step, (hr c hc).1, ho]
  rfl

lemma run_quoted {body : Octets} (hb : IsBody body) (rest : Octets) :
    run .between (quoted body ++ rest) = (run .between rest).map (text body :: ·) := by
  rw [quoted, List.cons_append, List.cons_append, run_some (.text []) rfl, List.append_assoc,
    hb.passes, List.append_nil, List.singleton_append,
    run_step .between [text body] (by simp [step])]
  rfl

lemma run_newline (level : Nat) (rest : Octets) :
    run .between (newline level ++ rest) = run .between rest := by
  rw [newline, List.cons_append, run_some .between rfl]
  induction 2 * level with
  | zero => rfl
  | succ n ih => rw [List.replicate_succ, List.cons_append, run_some .between rfl, ih]

end Token

end Json

end CallWaiting
