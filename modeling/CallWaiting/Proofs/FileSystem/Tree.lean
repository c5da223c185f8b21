import Mathlib.Data.List.Induction
import Mathlib.Tactic.ByContra
import CallWaiting.Proofs.FileSystem.Walk

namespace CallWaiting.FileSystem

variable {fs fs' : FileSystem} {p q : Path} {l s t : Location} {ps : List String} {c : ByteArray}

def IsTree (fs : FileSystem) : Prop :=
  ∀ l, l ≠ [] → fs.entry? l ≠ none → fs.entry? l.dropLast = some .directory

lemma entry?_empty (hl : l ≠ []) : empty.entry? l = none := by
  simp only [ FileSystem.entry?, if_neg hl]
  rfl

lemma entry?_empty_ne_file (l : Location) (c : ByteArray) : empty.entry? l ≠ some (.file c) := by
  by_cases hl : l = []
  · subst hl
    exact nofun
  · rw [entry?_empty hl]
    exact nofun

lemma isTree_empty : empty.IsTree := fun _ hl he => absurd (entry?_empty hl) he

lemma ne_nil_of_entry? (h : fs.entry? l ≠ some .directory) : l ≠ [] := by
  rintro rfl
  exact h rfl

lemma dropLast_ne (hl : l ≠ []) : l ≠ l.dropLast := by
  intro h
  have hh := congrArg List.length h
  have hp := List.length_pos_iff.2 hl
  rw [List.length_dropLast] at hh
  omega

lemma prefix_dropLast (h : s <+: l) (hne : s ≠ l) : s <+: l.dropLast := by
  obtain rfl | ⟨m, part, rfl⟩ := List.eq_nil_or_concat l
  · exact absurd (List.prefix_nil.1 h) hne
  · rw [List.concat_eq_append] at h hne ⊢
    rw [List.dropLast_concat]
    exact (List.prefix_concat_iff.1 h).resolve_left hne

lemma IsTree.rooted (ht : fs.IsTree) (hl : fs.entry? l ≠ none) : fs.Rooted l := by
  induction l using List.reverseRecOn with
  | nil => exact rooted_nil fs
  | append_singleton l part ih =>
    have hd : fs.entry? l = some .directory := by
      simpa using ht (l ++ [part]) (by simp) hl
    intro p hp hne
    have hpl := (List.prefix_concat_iff.1 hp).resolve_left hne
    by_cases hpe : p = l
    · rw [hpe, hd]
    · exact ih (by simp [hd]) p hpl hpe

lemma IsTree.directory (ht : fs.IsTree) (hl : fs.entry? l = some .directory) (hs : s <+: l) :
    fs.entry? s = some .directory := by
  by_cases he : s = l
  · rw [he, hl]
  · exact ht.rooted (by simp [hl]) s hs he

lemma IsTree.rooted_of_dropLast (ht : fs.IsTree) (hd : fs.entry? l.dropLast = some .directory) :
    fs.Rooted l :=
  fun _ hq hne => ht.directory hd (prefix_dropLast hq hne)

lemma IsTree.put (ht : fs.IsTree) (hl : l ≠ []) (hd : fs.entry? l ≠ some .directory)
    (hp : fs.entry? l.dropLast = some .directory) (e : Entry) : (fs.put l e).IsTree := by
  intro l' hl' he
  rw [entry?_put hl] at he ⊢
  by_cases hll : l = l'
  · subst hll
    rwa [if_neg (dropLast_ne hl)]
  · rw [if_neg hll] at he
    have hh := ht l' hl' he
    have hne : l ≠ l'.dropLast := by
      rintro rfl
      exact hd hh
    rwa [if_neg hne]

lemma IsTree.entry?_erase (ht : fs.IsTree) (hs : fs.entry? s ≠ some .directory) (l : Location) :
    FileSystem.entry? (fs.erase s) l = if l = s then none else fs.entry? l := by
  have hn := ne_nil_of_entry? hs
  by_cases hl : isWithin l s = true
  · have hp : s <+: l := List.isPrefixOf_iff_prefix.1 hl
    have hl' : l ≠ [] := by
      rintro rfl
      exact hn (List.prefix_nil.1 hp)
    rw [entry?_erase_within hl' hl]
    split
    · rfl
    · rename_i hls
      by_contra he
      exact hs (ht.rooted (Ne.symm he) s hp (Ne.symm hls))
  · rw [FileSystem.entry?_erase (Bool.eq_false_iff.2 hl), if_neg]
    rintro rfl
    exact hl (List.isPrefixOf_iff_prefix.2 (List.prefix_refl l))

lemma IsTree.erase (ht : fs.IsTree) (hs : fs.entry? s ≠ some .directory) : (fs.erase s).IsTree := by
  intro l hl he
  rw [ht.entry?_erase hs] at he ⊢
  split at he
  · exact absurd rfl he
  · have hh := ht l hl he
    rw [if_neg]
    · exact hh
    · rintro rfl
      exact hs hh

lemma walk_cases (hu : Path.up ∉ ps) (hl : fs.Rooted l) :
    (fs.walk l ps = .ok (l ++ ps) ∧ fs.Rooted (l ++ ps)) ∨
      ∃ q, q <+: l ++ ps ∧ q ≠ l ++ ps ∧ fs.Rooted q ∧
        ((fs.walk l ps = .error .notFound ∧ fs.entry? q = none) ∨
          fs.walk l ps = .error .notDirectory ∧ ∃ c, fs.entry? q = some (.file c)) := by
  induction ps generalizing l with
  | nil => exact .inl (by simpa [walk] using hl)
  | cons part ps ih =>
    simp only [List.mem_cons, not_or] at hu
    have hlt : l <+: l ++ part :: ps := List.prefix_append _ _
    have hne : l ≠ l ++ part :: ps := by simp
    cases he : fs.entry? l with
    | none =>
      have ha : fs.advance l part = .error .notFound := by simp only [advance, he]
      exact .inr ⟨l, hlt, hne, hl, .inl ⟨by rw [walk, ha]; rfl, he⟩⟩
    | some e =>
      cases e with
      | file c =>
        have ha : fs.advance l part = .error .notDirectory := by simp only [advance, he]
        exact .inr ⟨l, hlt, hne, hl, .inr ⟨by rw [walk, ha]; rfl, c, he⟩⟩
      | directory =>
        have ha : fs.advance l part = .ok (l ++ [part]) := by
          simp only [advance, he, if_neg (Ne.symm hu.1)]
        have hw : fs.walk l (part :: ps) = fs.walk (l ++ [part]) ps := by
          rw [walk, ha]
          rfl
        have hh := ih hu.2 (hl.advance ha).2
        rwa [← hw, List.append_assoc] at hh

lemma locate_eq (hp : p.parts ≠ []) : fs.locate p = fs.walk [] p.parts := by
  rw [locate, if_neg]
  intro ht
  rw [Path.parts, ht] at hp
  exact hp rfl

lemma locate_ok (hp : p.parts ≠ []) (hu : Path.up ∉ p.parts) (h : fs.locate p = .ok l) :
    l = p.parts ∧ fs.Rooted p.parts := by
  rw [locate_eq hp] at h
  obtain ⟨hw, hr⟩ | ⟨q, -, -, -, ⟨hw, -⟩ | ⟨hw, -⟩⟩ := walk_cases hu (rooted_nil fs)
  · rw [h] at hw
    exact ⟨Except.ok.inj hw, hr⟩
  · rw [h] at hw
    cases hw
  · rw [h] at hw
    cases hw

lemma locate_of_rooted (hp : p.parts ≠ []) (hu : Path.up ∉ p.parts) (hr : fs.Rooted p.parts) :
    fs.locate p = .ok p.parts := by
  rw [locate_eq hp]
  obtain ⟨hw, -⟩ | ⟨q, hq, hne, -, ⟨-, he⟩ | ⟨-, c, he⟩⟩ := walk_cases hu (rooted_nil fs)
  · exact hw
  · rw [hr q hq hne] at he
    cases he
  · rw [hr q hq hne] at he
    cases he

def Entry.reading (p : Path) : Entry → Except Fault ByteArray
  | directory => .error .isDirectory
  | file c => if p.asksDirectory then .error .notDirectory else .ok c

lemma IsTree.read_of_entry (ht : fs.IsTree) (hp : p.parts ≠ []) (hu : Path.up ∉ p.parts) {e : Entry}
    (he : fs.entry? p.parts = some e) : fs.read p = e.reading p := by
  have hl := locate_of_rooted hp hu (ht.rooted (by simp [he]))
  cases e <;> simp [read, hl, he, Entry.reading, bind, Except.bind]

lemma IsTree.read_of_none (ht : fs.IsTree) (hp : p.parts ≠ []) (hu : Path.up ∉ p.parts)
    (he : fs.entry? p.parts = none) :
    (fs.read p = .error .notFound ∧ ∀ q, q <+: p.parts → ∀ c, fs.entry? q ≠ some (.file c)) ∨
      fs.read p = .error .notDirectory ∧ ∃ q, q <+: p.parts ∧ ∃ c, fs.entry? q = some (.file c) := by
  have hfile : ∀ q, q <+: p.parts → fs.Rooted q → fs.entry? q = none →
      ∀ q', q' <+: p.parts → ∀ c, fs.entry? q' ≠ some (.file c) := by
    intro q hq hr hn q' hq' c hc
    obtain hqq | hqq := List.prefix_or_prefix_of_prefix hq hq'
    · have hne : q ≠ q' := by
        rintro rfl
        rw [hn] at hc
        cases hc
      rw [ht.rooted (by simp [hc]) q hqq hne] at hn
      cases hn
    · have hne : q' ≠ q := by
        rintro rfl
        rw [hn] at hc
        cases hc
      rw [hr q' hqq hne] at hc
      cases hc
  rw [read, locate_eq hp]
  obtain ⟨hw, hr⟩ | ⟨q, hq, -, hr, ⟨hw, hn⟩ | ⟨hw, hc⟩⟩ := walk_cases hu (rooted_nil fs)
  · exact .inl ⟨by simp [hw, he, bind, Except.bind], hfile _ (List.prefix_refl _) hr he⟩
  · exact .inl ⟨by rw [hw]; rfl, hfile q hq hr hn⟩
  · exact .inr ⟨by rw [hw]; rfl, q, hq, hc⟩

theorem IsTree.read_congr (ht : fs.IsTree) (ht' : fs'.IsTree) (hp : p.parts ≠ [])
    (hu : Path.up ∉ p.parts) (he : fs'.entry? p.parts = fs.entry? p.parts)
    (hf : ∀ q, q <+: p.parts → ∀ c, fs'.entry? q = some (.file c) ↔ fs.entry? q = some (.file c)) :
    fs'.read p = fs.read p := by
  cases hn : fs.entry? p.parts with
  | some e => rw [ht.read_of_entry hp hu hn, ht'.read_of_entry hp hu (he.trans hn)]
  | none =>
    obtain ⟨h, hq⟩ | ⟨h, q, hq, c, hc⟩ := ht.read_of_none hp hu hn
    · obtain ⟨h', -⟩ | ⟨-, q, hq', c, hc⟩ := ht'.read_of_none hp hu (he.trans hn)
      · rw [h, h']
      · exact absurd ((hf q hq' c).1 hc) (hq q hq' c)
    · obtain ⟨-, hq'⟩ | ⟨h', -⟩ := ht'.read_of_none hp hu (he.trans hn)
      · exact absurd ((hf q hq c).2 hc) (hq' q hq c)
      · rw [h, h']

end CallWaiting.FileSystem
