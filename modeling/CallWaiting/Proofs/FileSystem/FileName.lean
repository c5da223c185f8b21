import Mathlib.Data.List.TakeWhile
import Mathlib.Tactic.ByContra
import Mathlib.Tactic.Lemma
import CallWaiting.FileSystem.Path

/-!
The shapes of a path that ends in a file name: a front, the name, and slashes and single dots that
do not count. A path with another extension leads to another name beside it, or back up where the
name is nothing but two dots and an extension.
-/

namespace CallWaiting.FileSystem.Path

variable {cs front name stem e t : List Char} {p : Path}

inductive Tail : List Char → Prop
  | nil : Tail []
  | slash {t : List Char} (h : Tail t) : Tail (t ++ ['/'])
  | dot {t : List Char} (h : Tail t) : Tail (t ++ ['/', '.'])

def IsFront (cs : List Char) : Prop :=
  cs = [] ∨ ∃ f, cs = f ++ ['/']

structure IsPiece (cs : List Char) : Prop where
  slash : '/' ∉ cs
  nonempty : cs ≠ []
  dot : cs ≠ ['.']

structure IsName (cs : List Char) : Prop extends IsPiece cs where
  up : cs ≠ ['.', '.']

lemma Tail.take (h : Tail t) (n : Nat) : Tail (t.take n) := by
  induction h with
  | nil => simpa using Tail.nil
  | @slash t h ih =>
    rw [List.take_append]
    cases hn : n - t.length with
    | zero => simpa using ih
    | succ m =>
      rw [List.take_of_length_le (by omega : t.length ≤ n)]
      simpa using h.slash
  | @dot t h ih =>
    rw [List.take_append]
    cases hn : n - t.length with
    | zero => simpa using ih
    | succ m =>
      rw [List.take_of_length_le (by omega : t.length ≤ n)]
      cases m with
      | zero => simpa using h.slash
      | succ m => simpa using h.dot

lemma dropEmptyReversed_tail (h : Tail t) (cs : List Char) :
    dropEmptyReversed (t.reverse ++ cs) = dropEmptyReversed cs := by
  induction h with
  | nil => rfl
  | slash h ih => simpa [dropEmptyReversed] using ih
  | dot h ih => simpa [dropEmptyReversed] using ih

lemma dropEmptyReversed_piece (h : IsPiece name) (front : List Char) :
    dropEmptyReversed (front ++ name).reverse = (front ++ name).reverse := by
  have hr := List.reverse_eq_nil_iff.not.2 h.nonempty
  rw [List.reverse_append]
  cases hn : name.reverse with
  | nil => exact absurd hn hr
  | cons c cs =>
    have hs : ∀ x ∈ c :: cs, x ≠ '/' := by
      rintro x hx rfl
      exact h.slash (List.mem_reverse.1 (hn ▸ hx))
    have hc := hs c List.mem_cons_self
    rw [List.cons_append, dropEmptyReversed]
    · intro r hr
      exact hc (List.cons.inj hr).1
    · intro r hr
      obtain ⟨hd, ht⟩ := List.cons.inj hr
      cases cs with
      | nil => exact h.dot (by simpa [hd] using congrArg List.reverse hn)
      | cons d cs => exact hs d (List.mem_cons_of_mem _ List.mem_cons_self) (List.cons.inj ht).1

lemma trimmed_of_tail (hn : IsPiece name) (ht : Tail t) (hp : p.text.toList = front ++ name ++ t) :
    p.trimmed = front ++ name := by
  rw [trimmed, hp, List.reverse_append, dropEmptyReversed_tail ht, dropEmptyReversed_piece hn,
    List.reverse_reverse]

lemma exists_tail_reversed (cs : List Char) :
    ∃ t, Tail t ∧ cs.reverse = (dropEmptyReversed cs).reverse ++ t ∧
      (cs.head? = some '/' → ∃ t', Tail t' ∧ t = t' ++ ['/']) := by
  fun_induction dropEmptyReversed cs with
  | case1 cs ih =>
    obtain ⟨t, ht, he, -⟩ := ih
    exact ⟨t ++ ['/'], ht.slash, by simp [he], fun _ => ⟨t, ht, rfl⟩⟩
  | case2 cs ih =>
    obtain ⟨t, -, he, hs⟩ := ih
    obtain ⟨t', ht', rfl⟩ := hs rfl
    refine ⟨t' ++ ['/', '.'], ht'.dot, ?_, nofun⟩
    rw [List.reverse_cons, he]
    simp
  | case3 cs h₁ h₂ =>
    refine ⟨[], .nil, by simp, fun hs => ?_⟩
    cases cs with
    | nil => cases hs
    | cons c cs =>
      obtain rfl := Option.some.inj hs
      exact absurd rfl (h₁ cs)

lemma exists_tail (p : Path) : ∃ t, Tail t ∧ p.text.toList = p.trimmed ++ t := by
  obtain ⟨t, ht, he, -⟩ := exists_tail_reversed p.text.toList.reverse
  exact ⟨t, ht, by rwa [List.reverse_reverse] at he⟩

lemma exists_last (c : Char) (cs : List Char) : c ∉ cs ∨ ∃ a b, cs = a ++ c :: b ∧ c ∉ b := by
  by_cases h : c ∈ cs
  · obtain ⟨b, a, hr, hb⟩ := List.eq_append_cons_of_mem (List.mem_reverse.2 h)
    refine .inr ⟨a.reverse, b.reverse, ?_, fun hm => hb (List.mem_reverse.1 hm)⟩
    simpa using congrArg List.reverse hr
  · exact .inl h

lemma ne_of_mem_reverse {c : Char} (h : c ∉ cs) : ∀ x ∈ cs.reverse, decide (x ≠ c) = true := by
  intro x hx
  refine decide_eq_true ?_
  rintro rfl
  exact h (List.mem_reverse.1 hx)

lemma takeWhile_reverse {c : Char} (h : c ∉ cs) (a : List Char) :
    (a ++ c :: cs).reverse.takeWhile (· ≠ c) = cs.reverse ∧
      (a ++ c :: cs).reverse.dropWhile (· ≠ c) = c :: a.reverse := by
  have hr : (a ++ c :: cs).reverse = cs.reverse ++ c :: a.reverse := by simp
  rw [hr, List.takeWhile_append_of_pos (ne_of_mem_reverse h),
    List.dropWhile_append_of_pos (ne_of_mem_reverse h)]
  simp

lemma takeWhile_reverse_of_notMem {c : Char} (h : c ∉ cs) :
    cs.reverse.takeWhile (· ≠ c) = cs.reverse ∧ cs.reverse.dropWhile (· ≠ c) = [] := by
  have hn := ne_of_mem_reverse h
  exact ⟨List.takeWhile_eq_self_iff.2 hn, List.dropWhile_eq_nil_iff.2 hn⟩

lemma cut_append (hf : IsFront front) (hn : '/' ∉ name) : cut (front ++ name) = (front, name) := by
  obtain rfl | ⟨f, rfl⟩ := hf
  · obtain ⟨ht, hd⟩ := takeWhile_reverse_of_notMem hn
    rw [List.nil_append, cut, ht, hd, List.reverse_reverse, List.reverse_nil]
  · obtain ⟨ht, hd⟩ := takeWhile_reverse hn f
    rw [List.append_assoc, List.singleton_append, cut, ht, hd]
    simp

lemma exists_cut (cs : List Char) :
    ∃ front name, IsFront front ∧ '/' ∉ name ∧ cs = front ++ name := by
  obtain h | ⟨a, b, rfl, hb⟩ := exists_last '/' cs
  · exact ⟨[], cs, .inl rfl, h, rfl⟩
  · exact ⟨a ++ ['/'], b, .inr ⟨a, rfl⟩, hb, by simp⟩

theorem fileName?_eq_some_iff : p.fileName? = some (front, name) ↔
    IsFront front ∧ IsName name ∧ ∃ t, Tail t ∧ p.text.toList = front ++ name ++ t := by
  constructor
  · intro h
    obtain ⟨t, ht, hp⟩ := exists_tail p
    obtain ⟨f, n, hf, hn, hc⟩ := exists_cut p.trimmed
    rw [hc] at hp
    simp only [fileName?, hc, cut_append hf hn] at h
    split at h
    · cases h
    · rename_i hne
      simp only [not_or] at hne
      cases h
      exact ⟨hf, ⟨⟨hn, hne.1, hne.2.1⟩, hne.2.2⟩, t, ht, hp⟩
  · rintro ⟨hf, hn, t, ht, hp⟩
    simp only [fileName?, trimmed_of_tail hn.toIsPiece ht hp, cut_append hf hn.slash]
    rw [if_neg]
    simp [hn.nonempty, hn.dot, hn.up]

lemma cutName_append (hs : stem ≠ []) (he : '.' ∉ e) :
    cutName (stem ++ '.' :: e) = (stem, some e) := by
  obtain ⟨ht, hd⟩ := takeWhile_reverse he stem
  simp only [cutName, ht, hd]
  simp [hs]

lemma cutName_cases (name : List Char) : cutName name = (name, none) ∨
    ∃ stem e, stem ≠ [] ∧ '.' ∉ e ∧ name = stem ++ '.' :: e := by
  obtain h | ⟨stem, e, rfl, he⟩ := exists_last '.' name
  · obtain ⟨-, hd⟩ := takeWhile_reverse_of_notMem h
    exact .inl (by simp only [cutName, hd, List.drop_nil, List.reverse_nil, if_true])
  · by_cases hs : stem = []
    · obtain ⟨-, hd⟩ := takeWhile_reverse he stem
      refine .inl ?_
      simp only [cutName, hd]
      simp [hs]
    · exact .inr ⟨stem, e, hs, he, rfl⟩

lemma mem_of_mem_cutName {c : Char} (h : c ∈ (cutName name).1) : c ∈ name := by
  obtain hn | ⟨stem, e, hs, he, rfl⟩ := cutName_cases name
  · rwa [hn] at h
  · rw [cutName_append hs he] at h
    exact List.mem_append_left _ h

lemma stem_ne_nil (hn : name ≠ []) : (cutName name).1 ≠ [] := by
  obtain hc | ⟨stem, e, hs, he, rfl⟩ := cutName_cases name
  · rwa [hc]
  · rwa [cutName_append hs he]

lemma cutName_ne (he : '.' ∈ e) : (cutName name).1 ++ '.' :: e ≠ name := by
  intro h
  obtain hn | ⟨a, b, rfl, hb⟩ := exists_last '.' e
  · exact hn he
  · have hn : name = ((cutName name).1 ++ '.' :: a) ++ '.' :: b := by
      rw [List.append_assoc]
      exact h.symm
    have hs : (cutName name).1 ++ '.' :: a ≠ [] := by simp
    have hc := cutName_append hs hb
    rw [← hn] at hc
    have hl := congrArg (fun x => x.1.length) hc
    simp at hl

lemma isPiece_up : IsPiece ['.', '.'] := ⟨by decide, by decide, by decide⟩

lemma fileName?_up (hf : IsFront front) (hp : p.text.toList = front ++ ['.', '.']) :
    p.fileName? = none := by
  have ht : p.trimmed = front ++ ['.', '.'] :=
    trimmed_of_tail isPiece_up .nil (by rw [hp, List.append_nil])
  simp only [fileName?, ht, cut_append hf isPiece_up.slash]
  rw [if_pos (by simp)]

lemma text_putExtension (h : p.fileName? = some (front, name)) (e : List Char) :
    (p.putExtension e).text.toList = front ++ (cutName name).1 ++ '.' :: e := by
  simp only [putExtension, h, String.toList_ofList]

lemma text_putExtension_cut {old : List Char} (hf : IsFront front)
    (hn : IsName (stem ++ '.' :: old)) (hs : stem ≠ []) (ho : '.' ∉ old) (ht : Tail t)
    (hp : p.text.toList = front ++ (stem ++ '.' :: (old ++ t).take t.length)) (e : List Char) :
    (p.putExtension e).text.toList = front ++ stem ++ '.' :: e ∨
      (p.putExtension e).text.toList = front ++ ['.', '.'] := by
  by_cases hl : old.length ≤ t.length
  · have hp' : p.text.toList = front ++ (stem ++ '.' :: old) ++ t.take (t.length - old.length) := by
      rw [hp, List.take_append, List.take_of_length_le hl]
      simp
    have hfn := fileName?_eq_some_iff.2 ⟨hf, hn, _, ht.take _, hp'⟩
    left
    simpa only [cutName_append hs ho] using text_putExtension hfn e
  · have hp' : p.text.toList = front ++ (stem ++ '.' :: old.take t.length) := by
      rw [hp, List.take_append_of_le_length (by omega)]
    by_cases hu : stem ++ '.' :: old.take t.length = ['.', '.']
    · right
      rw [hu] at hp'
      simpa only [putExtension, fileName?_up hf hp'] using hp'
    · have hn' : IsName (stem ++ '.' :: old.take t.length) := by
        refine ⟨⟨fun hm => hn.slash ?_, by simp, fun hd => ?_⟩, hu⟩
        · simp only [List.mem_append, List.mem_cons] at hm ⊢
          exact hm.imp_right fun hm => hm.imp_right List.mem_of_mem_take
        · simp [List.append_eq_cons_iff, hs] at hd
      have hfn := fileName?_eq_some_iff.2 ⟨hf, hn', [], .nil, by rw [hp', List.append_nil]⟩
      have ho' : '.' ∉ old.take t.length := fun hm => ho (List.mem_of_mem_take hm)
      have hc := cutName_append hs ho'
      left
      simpa only [hc] using text_putExtension hfn e

/-- The old extension is cut off by its length alone, before the file name is looked for again. What
is cut leaves the stem all the same, unless there is then nothing left of the name but two dots. -/
theorem text_withExtension (h : p.fileName? = some (front, name)) (e : List Char) :
    (p.withExtension e).text.toList = front ++ (cutName name).1 ++ '.' :: e ∨
      (p.withExtension e).text.toList = front ++ ['.', '.'] := by
  obtain ⟨hf, hn, t, ht, hp⟩ := fileName?_eq_some_iff.1 h
  obtain hc | ⟨stem, old, hs, ho, rfl⟩ := cutName_cases name
  · have hx : p.extension? = none := by simp only [extension?, h, Option.bind_some, hc]
    left
    simpa only [withExtension, hx] using text_putExtension h e
  · have hc := cutName_append hs ho
    have hx : p.extension? = some old := by simp only [extension?, h, Option.bind_some, hc]
    have hl : p.text.length - old.length = (front ++ stem ++ ['.']).length + t.length := by
      rw [← String.length_toList, hp]
      simp
      omega
    have ha : p.text.toList = front ++ stem ++ ['.'] ++ (old ++ t) := by simp [hp]
    rw [hc]
    simp only [withExtension, hx]
    refine text_putExtension_cut hf hn hs ho ht ?_ e
    rw [String.toList_ofList, hl, ha, List.take_length_add_append]
    simp

lemma split_ne_nil (cs : List Char) : split cs ≠ [] := by
  fun_cases split cs <;> simp

lemma split_append (a b : List Char) : split (a ++ '/' :: b) = split a ++ split b := by
  induction a with
  | nil => simp [split]
  | cons c a ih =>
    by_cases hc : c = '/'
    · subst hc
      simp [split, ih]
    · cases hs : split a with
      | nil => exact absurd hs (split_ne_nil a)
      | cons x xs => simp [split, ih, hs]

lemma split_piece (h : '/' ∉ cs) : split cs = [cs] := by
  induction cs with
  | nil => rfl
  | cons c cs ih =>
    obtain ⟨hc, hcs⟩ := not_or.1 (List.mem_cons.not.1 h)
    rw [split, ih hcs]
    rintro rfl
    exact hc rfl

def partsOf (cs : List Char) : List String :=
  ((split cs).filter fun piece => piece ≠ [] && piece ≠ ['.']).map String.ofList

lemma parts_eq (p : Path) : p.parts = partsOf p.text.toList := rfl

lemma partsOf_append (a b : List Char) : partsOf (a ++ '/' :: b) = partsOf a ++ partsOf b := by
  rw [partsOf, split_append, List.filter_append, List.map_append]
  rfl

lemma partsOf_piece (h : IsPiece cs) : partsOf cs = [String.ofList cs] := by
  simp [partsOf, split_piece h.slash, h.nonempty, h.dot]

lemma partsOf_tail (h : Tail t) (cs : List Char) : partsOf (cs ++ t) = partsOf cs := by
  induction h with
  | nil => rw [List.append_nil]
  | slash h ih =>
    have hn : partsOf [] = [] := rfl
    rw [← List.append_assoc, partsOf_append, ih, hn, List.append_nil]
  | dot h ih =>
    have hn : partsOf ['.'] = [] := rfl
    rw [← List.append_assoc, partsOf_append, ih, hn, List.append_nil]

lemma partsOf_front (hf : IsFront front) (h : IsPiece cs) :
    partsOf (front ++ cs) = partsOf front ++ [String.ofList cs] := by
  obtain rfl | ⟨f, rfl⟩ := hf
  · exact partsOf_piece h
  · have hh := partsOf_append f []
    have hn : partsOf [] = [] := rfl
    rw [hn, List.append_nil] at hh
    rw [List.append_assoc, List.singleton_append, partsOf_append, partsOf_piece h, hh]

lemma parts_of_fileName? (h : p.fileName? = some (front, name)) :
    p.parts = partsOf front ++ [String.ofList name] := by
  obtain ⟨hf, hn, t, ht, hp⟩ := fileName?_eq_some_iff.1 h
  rw [parts_eq, hp, partsOf_tail ht, partsOf_front hf hn.toIsPiece]

lemma asksDirectory_front (hf : IsFront front) (h : IsPiece cs) (hp : p.text.toList = front ++ cs) :
    p.asksDirectory = false := by
  have hl : (split (front ++ cs)).getLast? = some cs := by
    obtain rfl | ⟨f, rfl⟩ := hf
    · simp [split_piece h.slash]
    · rw [List.append_assoc, List.singleton_append, split_append, split_piece h.slash]
      simp
  have hn := h.nonempty
  have hd := h.dot
  rw [asksDirectory, hp, hl]
  split <;> simp_all

structure IsPlain (p : Path) : Prop where
  name : p.fileName?.isSome = true
  level : p.hasRise = false

lemma IsPlain.ne_nil (h : p.IsPlain) : p.parts ≠ [] := by
  obtain ⟨⟨front, name⟩, hn⟩ := Option.isSome_iff_exists.1 h.name
  simp [parts_of_fileName? hn]

lemma IsPlain.up_notMem (h : p.IsPlain) : up ∉ p.parts := by
  simpa [hasRise] using h.level

structure Beside (p q : Path) : Prop where
  front : q.parts.dropLast = p.parts.dropLast
  ne : q.parts ≠ p.parts
  ne_nil : q.parts ≠ []
  up_notMem : up ∉ q.parts
  file : q.asksDirectory = false

lemma Beside.length (h : p.Beside q) (hp : p.parts ≠ []) : q.parts.length = p.parts.length := by
  have hl := congrArg List.length h.front
  have hp' := List.length_pos_iff.2 hp
  have hq := List.length_pos_iff.2 h.ne_nil
  simp only [List.length_dropLast] at hl
  omega

lemma Beside.not_prefix (h : p.Beside q) (hp : p.parts ≠ []) :
    ¬ q.parts <+: p.parts ∧ ¬ p.parts <+: q.parts :=
  ⟨fun hh => h.ne (hh.eq_of_length (h.length hp)),
    fun hh => h.ne (hh.eq_of_length (h.length hp).symm).symm⟩

theorem IsPlain.withExtension (h : p.IsPlain) (he : '.' ∈ e) (hs : '/' ∉ e) :
    p.Beside (p.withExtension e) ∨ (p.withExtension e).parts = p.parts.dropLast ++ [up] := by
  obtain ⟨⟨front, name⟩, hfn⟩ := Option.isSome_iff_exists.1 h.name
  obtain ⟨hf, hname, -⟩ := fileName?_eq_some_iff.1 hfn
  have hparts := parts_of_fileName? hfn
  obtain ht | ht := text_withExtension hfn e
  · left
    rw [List.append_assoc] at ht
    have hl : 3 ≤ ((cutName name).1 ++ '.' :: e).length := by
      have h₁ := List.length_pos_iff.2 (stem_ne_nil hname.nonempty)
      have h₂ := List.length_pos_of_mem he
      simp only [List.length_append, List.length_cons]
      omega
    have hp : IsPiece ((cutName name).1 ++ '.' :: e) := by
      refine ⟨fun hm => ?_, by simp, fun hd => ?_⟩
      · obtain hm | hm := List.mem_append.1 hm
        · exact hname.slash (mem_of_mem_cutName hm)
        · simp_all
      · rw [hd] at hl
        simp at hl
    have hq : (p.withExtension e).parts =
        partsOf front ++ [String.ofList ((cutName name).1 ++ '.' :: e)] := by
      rw [parts_eq, ht, partsOf_front hf hp]
    refine ⟨by rw [hparts, hq, List.dropLast_concat, List.dropLast_concat], fun heq => ?_,
      by simp [hq], fun hm => ?_, asksDirectory_front hf hp ht⟩
    · rw [hparts, hq] at heq
      have hn := List.singleton_inj.1 (List.append_cancel_left heq)
      exact cutName_ne he (String.ofList_inj.1 hn)
    · rw [hq] at hm
      obtain hm | hm := List.mem_append.1 hm
      · exact h.up_notMem (hparts ▸ List.mem_append_left _ hm)
      · have hu := congrArg String.toList (List.mem_singleton.1 hm)
        rw [String.toList_ofList] at hu
        rw [← hu] at hl
        exact absurd hl (by decide)
  · right
    rw [parts_eq, ht, partsOf_front hf isPiece_up, hparts, List.dropLast_concat]
    rfl

end CallWaiting.FileSystem.Path
