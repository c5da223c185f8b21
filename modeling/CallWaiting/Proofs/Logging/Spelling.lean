import Mathlib.Data.List.Forall2
import Mathlib.Data.List.TakeWhile
import Mathlib.Tactic.Lemma
import CallWaiting.Logging.Directive

namespace CallWaiting.Logging

namespace Threshold

def names : List (List Char × Threshold) :=
  ("OFF".toList, none) :: Level.all.map fun l => (l.name.toList, some l)

def numerals : List (List Char × Threshold) :=
  [(['0'], none), (['1'], some .error), (['2'], some .warn), (['3'], some .info), (['4'], some .debug),
    (['5'], some .trace)]

def Spells (cs : List Char) (t : Threshold) : Prop :=
  (cs.map Char.toUpper, t) ∈ names ∨ (cs, t) ∈ numerals

end Threshold

namespace Directive

structure IsTarget (target : List Char) : Prop where
  start : target.head?.any isStart = true
  inner : ∀ c ∈ target, c ≠ '=' ∧ c ≠ ',' ∧ c ≠ '['

instance (target : List Char) : Decidable (IsTarget target) :=
  decidable_of_iff (target.head?.any isStart = true ∧
      (target.all fun c => c ≠ '=' ∧ c ≠ ',' ∧ c ≠ '[') = true)
    ⟨fun h => ⟨h.1, by simpa using h.2⟩, fun h => ⟨h.start, by simpa using h.inner⟩⟩

inductive Spells : List Char → Directive → Prop where
  | level {cs : List Char} {t : Threshold} (h : t.Spells cs) : Spells cs ⟨none, t⟩
  | target {target : String} {cs : List Char} {t : Threshold} (ht : IsTarget target.toList)
      (h : t.Spells cs) : Spells (target.toList ++ '=' :: cs) ⟨some target, t⟩

def Lists (value : String) (ds : List Directive) : Prop :=
  ∃ pieces, List.Forall₂ Spells pieces ds ∧ value.toList = List.intercalate [','] pieces

end Directive

namespace Threshold

variable {cs : List Char} {t : Threshold} {c : Char}

lemma toUpper_of_isDigit (h : c.isDigit = true) : c.toUpper = c := by
  have hl : ¬ ('a'.val ≤ c.val ∧ c.val ≤ 'z'.val) := by
    simp only [Char.isDigit, Bool.and_eq_true, decide_eq_true_eq] at h
    intro hl
    exact absurd (UInt32.le_trans hl.1 h.2) (by decide)
  exact dif_neg hl

lemma isAlphanum_of_toUpper (h : c.toUpper.isAlphanum = true) : c.isAlphanum = true := by
  by_cases hl : 'a'.val ≤ c.val ∧ c.val ≤ 'z'.val
  · have hlower : c.isLower = true :=
      Bool.and_eq_true_iff.2 ⟨decide_eq_true hl.1, decide_eq_true hl.2⟩
    have halpha : c.isAlpha = true := Bool.or_eq_true_iff.2 (.inr hlower)
    exact Bool.or_eq_true_iff.2 (.inl halpha)
  · have hc : c.toUpper = c := dif_neg hl
    rwa [hc] at h

lemma letters_of_mem_names {p : List Char × Threshold} (h : p ∈ names) :
    p.1 ≠ [] ∧ ∀ c ∈ p.1, c.isAlphanum = true ∧ c.isDigit = false := by
  have hall : (names.all fun p => p.1 ≠ [] && p.1.all fun c => c.isAlphanum && !c.isDigit) = true := by
    decide
  have hp := List.all_eq_true.1 hall p h
  simpa only [Bool.and_eq_true, List.all_eq_true, decide_eq_true_eq, Bool.not_eq_true'] using hp

lemma threshold_of_mem_names : ∀ p ∈ names,
    (if p.1 = "OFF".toList then some none
      else (Level.all.find? (·.name.toList = p.1)).map some) = some p.2 := by
  decide

lemma alphanum_of_mem_numerals {p : List Char × Threshold} (h : p ∈ numerals) :
    p.1 ≠ [] ∧ ∀ c ∈ p.1, c.isAlphanum = true := by
  have hall : (numerals.all fun p => p.1 ≠ [] && p.1.all Char.isAlphanum) = true := by decide
  have hp := List.all_eq_true.1 hall p h
  simpa only [Bool.and_eq_true, List.all_eq_true, decide_eq_true_eq] using hp

lemma ofText?_of_mem_numerals : ∀ p ∈ numerals, ofText? (String.ofList p.1) = some p.2 := by
  decide

lemma Spells.alphanum (h : t.Spells cs) : cs ≠ [] ∧ ∀ c ∈ cs, c.isAlphanum = true := by
  rcases h with h | h
  · obtain ⟨hne, hl⟩ := letters_of_mem_names h
    refine ⟨fun he => hne (by rw [he, List.map_nil]), fun c hc => ?_⟩
    exact isAlphanum_of_toUpper (hl _ (List.mem_map_of_mem hc)).1
  · exact alphanum_of_mem_numerals h

lemma unsigned64?_of_mem_names (h : (cs.map Char.toUpper, t) ∈ names) :
    Level.unsigned64? cs = none := by
  obtain ⟨hne, hl⟩ := letters_of_mem_names h
  cases cs with
  | nil => exact absurd rfl hne
  | cons c cs =>
    have hc := hl _ (List.mem_map_of_mem List.mem_cons_self)
    have hplus : c ≠ '+' := by
      rintro rfl
      exact absurd hc.1 (by decide)
    have hdigit : c.isDigit = false := by
      by_contra hd
      rw [toUpper_of_isDigit (Bool.not_eq_false _ ▸ hd)] at hc
      exact hd hc.2
    simp [Level.unsigned64?, hplus, Numeral.toNat?, hdigit]

lemma Spells.ofText? (h : t.Spells cs) : ofText? (String.ofList cs) = some t := by
  rcases h with h | h
  · have hn := unsigned64?_of_mem_names h
    simp only [Threshold.ofText?, Level.ofText?, Level.capitals, String.toList_ofList, hn]
    exact threshold_of_mem_names (cs.map Char.toUpper, t) h
  · exact ofText?_of_mem_numerals (cs, t) h

end Threshold

namespace Directive

variable {cs : List Char} {d : Directive} {c : Char}

lemma isStart_of_isAlphanum (h : c.isAlphanum = true) : isStart c = true := by
  simp [isStart, h]

lemma ofText?_level {t : Threshold} (h : t.Spells cs) :
    ofText? (String.ofList cs) = some ⟨none, t⟩ := by
  obtain ⟨hne, ha⟩ := h.alphanum
  have ht : cs.takeWhile (· ≠ '=') = cs := by
    refine List.takeWhile_eq_self_iff.2 fun c hc => ?_
    have he : c ≠ '=' := by
      rintro rfl
      exact absurd (ha _ hc) (by decide)
    simp [he]
  have hb : cs.contains '[' = false := by
    by_contra hb
    exact absurd (ha '[' (by simpa using hb)) (by decide)
  have hs : cs.head?.any isStart = true := by
    cases cs with
    | nil => exact absurd rfl hne
    | cons c cs => exact isStart_of_isAlphanum (ha c List.mem_cons_self)
  simp only [ofText?, String.toList_ofList, ht, hs, hb, List.drop_length, h.ofText?]
  rfl

lemma ofText?_target {target : String} {t : Threshold} (ht : IsTarget target.toList)
    (h : t.Spells cs) :
    ofText? (String.ofList (target.toList ++ '=' :: cs)) = some ⟨some target, t⟩ := by
  have hw : (target.toList ++ '=' :: cs).takeWhile (· ≠ '=') = target.toList := by
    rw [List.takeWhile_append_of_pos fun c hc => by simp [(ht.inner c hc).1]]
    simp
  have hb : target.toList.contains '[' = false := by
    by_contra hb
    exact (ht.inner '[' (by simpa using hb)).2.2 rfl
  have hs : (target.toList ++ '=' :: cs).head?.any isStart = true := by
    have hs := ht.start
    cases hc : target.toList with
    | nil => simp [hc] at hs
    | cons c rest => simpa [hc] using hs
  obtain ⟨c, cs, rfl⟩ := List.exists_cons_of_ne_nil h.alphanum.1
  simp only [ofText?, String.toList_ofList, hw, hs, hb, List.drop_left, h.ofText?]
  simp

lemma Spells.ofText? (h : Spells cs d) : ofText? (String.ofList cs) = some d := by
  cases h with
  | level h => exact ofText?_level h
  | target ht h => exact ofText?_target ht h

lemma Spells.inner (h : Spells cs d) : cs ≠ [] ∧ ',' ∉ cs := by
  cases h with
  | level h => exact ⟨h.alphanum.1, fun hc => absurd (h.alphanum.2 _ hc) (by decide)⟩
  | target ht h =>
    refine ⟨List.append_ne_nil_of_right_ne_nil _ (List.cons_ne_nil _ _), fun hc => ?_⟩
    rw [List.mem_append, List.mem_cons] at hc
    rcases hc with hc | hc | hc
    · exact (ht.inner _ hc).2.1 rfl
    · exact absurd hc (by decide)
    · exact absurd (h.alphanum.2 _ hc) (by decide)

lemma splitCommas_piece (h : ',' ∉ cs) : splitCommas cs = [cs] := by
  induction cs with
  | nil => rfl
  | cons c cs ih =>
    obtain ⟨hc, hcs⟩ := not_or.1 (List.mem_cons.not.1 h)
    rw [splitCommas.eq_3 _ _ (Ne.symm hc), ih hcs]

lemma splitCommas_append (h : ',' ∉ cs) (rest : List Char) :
    splitCommas (cs ++ ',' :: rest) = cs :: splitCommas rest := by
  induction cs with
  | nil => rfl
  | cons c cs ih =>
    obtain ⟨hc, hcs⟩ := not_or.1 (List.mem_cons.not.1 h)
    rw [List.cons_append, splitCommas.eq_3 _ _ (Ne.symm hc), ih hcs]

lemma splitCommas_intercalate {p : List Char} {ps : List (List Char)}
    (h : ∀ q ∈ p :: ps, ',' ∉ q) : splitCommas (List.intercalate [','] (p :: ps)) = p :: ps := by
  induction ps generalizing p with
  | nil =>
    rw [List.intercalate_singleton]
    exact splitCommas_piece (h p List.mem_cons_self)
  | cons q qs ih =>
    rw [List.intercalate_cons_cons, List.append_assoc, List.singleton_append,
      splitCommas_append (h p List.mem_cons_self), ih fun r hr => h r (List.mem_cons_of_mem _ hr)]

lemma filterMap_pieces {pieces : List (List Char)} {ds : List Directive}
    (h : List.Forall₂ Spells pieces ds) :
    (pieces.filterMap fun piece => if piece = [] then none else Directive.ofText? (String.ofList piece))
      = ds := by
  induction h with
  | nil => rfl
  | cons hd _ ih => rw [List.filterMap_cons, if_neg hd.inner.1, hd.ofText?, ih]

theorem listOfText_of_lists {value : String} {ds : List Directive} (h : Lists value ds) :
    listOfText value = ds := by
  obtain ⟨pieces, hp, hv⟩ := h
  rw [listOfText, hv]
  cases pieces with
  | nil =>
    cases hp
    rfl
  | cons p ps =>
    have hcomma : ∀ q ∈ p :: ps, ',' ∉ q := by
      intro q hq
      obtain ⟨i, hi, rfl⟩ := List.getElem_of_mem hq
      have hs := hp.get hi (hp.length_eq ▸ hi)
      exact hs.inner.2
    rw [splitCommas_intercalate hcomma]
    exact filterMap_pieces hp

end Directive

end CallWaiting.Logging
