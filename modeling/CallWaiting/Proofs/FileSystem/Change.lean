import CallWaiting.Proofs.FileSystem.Tree

namespace CallWaiting.FileSystem

variable {fs fs' fs'' : FileSystem} {p q : Path} {l l' : Location} {ps done : List String}
  {c : ByteArray}

structure Furnishes (fs fs' : FileSystem) (l : Location) : Prop where
  tree : fs'.IsTree
  entry : ∀ q, fs'.entry? q = fs.entry? q ∨
    q <+: l ∧ fs.entry? q = none ∧ fs'.entry? q = some .directory

lemma Furnishes.refl (ht : fs.IsTree) (l : Location) : Furnishes fs fs l := ⟨ht, fun _ => .inl rfl⟩

lemma Furnishes.directory (h : Furnishes fs fs' l) (hd : fs.entry? l' = some .directory) :
    fs'.entry? l' = some .directory := by
  obtain he | ⟨-, -, he⟩ := h.entry l'
  · rw [he, hd]
  · exact he

lemma Furnishes.file_iff (h : Furnishes fs fs' l) (q : Location) (c : ByteArray) :
    fs'.entry? q = some (.file c) ↔ fs.entry? q = some (.file c) := by
  obtain he | ⟨-, hn, he⟩ := h.entry q
  · rw [he]
  · simp [hn, he]

lemma Furnishes.trans (h : Furnishes fs fs' l) (h' : Furnishes fs' fs'' l') (hl : l <+: l') :
    Furnishes fs fs'' l' := by
  refine ⟨h'.tree, fun q => ?_⟩
  obtain he | ⟨hq, hn, he⟩ := h.entry q
  · simpa only [he] using h'.entry q
  · exact .inr ⟨hq.trans hl, hn, h'.directory he⟩

lemma makeDirectory_ok (ht : fs.IsTree) (hu : Path.up ∉ ps) (h : fs.makeDirectory ps = .ok fs') :
    Furnishes fs fs' ps ∧ fs'.entry? ps = some .directory := by
  rw [makeDirectory] at h
  obtain ⟨hw, hr⟩ | ⟨q, -, -, -, ⟨hw, -⟩ | ⟨hw, -⟩⟩ := walk_cases hu (rooted_nil fs)
  · rw [hw] at h
    simp only [List.nil_append, bind, Except.bind] at h hr
    cases he : fs.entry? ps with
    | none =>
      simp only [he, Except.ok.injEq] at h
      subst h
      have hne : fs.entry? ps ≠ some .directory := by simp [he]
      have hn := ne_nil_of_entry? hne
      have hd := hr ps.dropLast (List.dropLast_prefix ps) (dropLast_ne hn).symm
      refine ⟨⟨ht.put hn hne hd _, fun q => ?_⟩, by rw [entry?_put hn, if_pos rfl]⟩
      rw [entry?_put hn]
      by_cases hq : ps = q
      · subst hq
        exact .inr ⟨List.prefix_refl _, he, if_pos rfl⟩
      · exact .inl (if_neg hq)
    | some e =>
      cases e with
      | directory =>
        simp only [he, Except.ok.injEq] at h
        subst h
        exact ⟨.refl ht _, he⟩
      | file c => simp [he] at h
  · simp [hw, bind, Except.bind] at h
  · simp [hw, bind, Except.bind] at h

lemma makeAllAfter_ok (ht : fs.IsTree) (hu : Path.up ∉ done ++ ps)
    (hd : fs.entry? done = some .directory) (h : fs.makeAllAfter done ps = .ok fs') :
    Furnishes fs fs' (done ++ ps) ∧ fs'.entry? (done ++ ps) = some .directory := by
  induction ps generalizing fs done with
  | nil =>
    cases h
    simpa using And.intro (Furnishes.refl ht done) hd
  | cons part ps ih =>
    rw [List.append_cons] at hu ⊢
    rw [makeAllAfter] at h
    cases hm : fs.makeDirectory (done ++ [part]) with
    | error f => simp [hm, bind, Except.bind] at h
    | ok fs₁ =>
      obtain ⟨hf, he⟩ := makeDirectory_ok ht (fun hm => hu (List.mem_append_left _ hm)) hm
      obtain ⟨hf', he'⟩ := ih hf.tree hu he (by simpa [hm, bind, Except.bind] using h)
      exact ⟨hf.trans hf' (List.prefix_append _ _), he'⟩

theorem makeAll_ok (ht : fs.IsTree) (hu : Path.up ∉ ps) (h : fs.makeAll ps = .ok fs') :
    Furnishes fs fs' ps ∧ fs'.entry? ps = some .directory :=
  makeAllAfter_ok ht hu rfl h

lemma exists_makeDirectory (hu : Path.up ∉ ps) (hr : fs.Rooted ps)
    (hf : ∀ c, fs.entry? ps ≠ some (.file c)) : ∃ fs', fs.makeDirectory ps = .ok fs' := by
  rw [makeDirectory]
  obtain ⟨hw, -⟩ | ⟨q, hq, hne, -, ⟨-, he⟩ | ⟨-, c, he⟩⟩ := walk_cases hu (rooted_nil fs)
  · simp only [hw, List.nil_append, bind, Except.bind]
    cases he : fs.entry? ps with
    | none => exact ⟨_, rfl⟩
    | some e =>
      cases e with
      | directory => exact ⟨_, rfl⟩
      | file c => exact absurd he (hf c)
  · rw [hr q hq hne] at he
    cases he
  · rw [hr q hq hne] at he
    cases he

lemma exists_makeAllAfter (ht : fs.IsTree) (hu : Path.up ∉ done ++ ps)
    (hd : fs.entry? done = some .directory)
    (hf : ∀ q, q <+: done ++ ps → ∀ c, fs.entry? q ≠ some (.file c)) :
    ∃ fs', fs.makeAllAfter done ps = .ok fs' := by
  induction ps generalizing fs done with
  | nil => exact ⟨fs, rfl⟩
  | cons part ps ih =>
    rw [List.append_cons] at hu hf
    have hu' : Path.up ∉ done ++ [part] := fun hm => hu (List.mem_append_left _ hm)
    have hr : fs.Rooted (done ++ [part]) := ht.rooted_of_dropLast (by rwa [List.dropLast_concat])
    obtain ⟨fs₁, hm⟩ := exists_makeDirectory hu' hr (hf _ (List.prefix_append _ _))
    obtain ⟨h₁, he⟩ := makeDirectory_ok ht hu' hm
    obtain ⟨fs', h⟩ := ih h₁.tree hu he fun q hq c hc => hf q hq c ((h₁.file_iff q c).1 hc)
    exact ⟨fs', by simpa [makeAllAfter, hm, bind, Except.bind] using h⟩

theorem exists_makeAll (ht : fs.IsTree) (hu : Path.up ∉ ps)
    (hf : ∀ q, q <+: ps → ∀ c, fs.entry? q ≠ some (.file c)) : ∃ fs', fs.makeAll ps = .ok fs' :=
  exists_makeAllAfter ht hu rfl hf

theorem IsTree.write_ok (ht : fs.IsTree) (hp : p.parts ≠ []) (hu : Path.up ∉ p.parts)
    (h : fs.write p c = .ok fs') : fs'.IsTree ∧ fs.entry? p.parts ≠ some .directory ∧
      ∀ l, fs'.entry? l = if p.parts = l then some (.file c) else fs.entry? l := by
  obtain ⟨l, hl, he, rfl⟩ := write_eq_put h
  obtain ⟨rfl, hr⟩ := locate_ok hp hu hl
  have hd := hr p.parts.dropLast (List.dropLast_prefix _) (dropLast_ne hp).symm
  exact ⟨ht.put hp he hd _, he, entry?_put hp _⟩

lemma walk_append (fs : FileSystem) (l : Location) (ps qs : List String) :
    fs.walk l (ps ++ qs) = fs.walk l ps >>= fun m => fs.walk m qs := by
  induction ps generalizing l with
  | nil => rfl
  | cons part ps ih =>
    rw [List.cons_append, walk, walk]
    cases fs.advance l part with
    | error f => rfl
    | ok m => exact ih m

lemma write_up {dir : List String} (hp : p.parts = dir ++ [Path.up]) (hu : Path.up ∉ dir) :
    fs.write p c ≠ .ok fs' := by
  intro h
  obtain ⟨l, hl, hne, -⟩ := write_eq_put h
  rw [locate_eq (by simp [hp]), hp, walk_append] at hl
  obtain ⟨hw, hr⟩ | ⟨q, -, -, -, ⟨hw, -⟩ | ⟨hw, -⟩⟩ := walk_cases hu (rooted_nil fs)
  · simp only [hw, List.nil_append, bind, Except.bind, walk] at hl hr
    cases ha : fs.advance dir Path.up with
    | error f => simp [ha] at hl
    | ok m =>
      simp only [ha, Except.ok.injEq] at hl
      subst hl
      rw [advance] at ha
      split at ha
      case h_1 | h_2 => cases ha
      case h_3 he =>
        rw [if_pos rfl] at ha
        cases ha
        -- a directory, like all that lead to one
        by_cases hd : dir = []
        · subst hd
          exact hne rfl
        · exact hne (hr _ (List.dropLast_prefix dir) (dropLast_ne hd).symm)
  · simp [hw, bind, Except.bind] at hl
  · simp [hw, bind, Except.bind] at hl

theorem exists_write (hp : p.parts ≠ []) (hu : Path.up ∉ p.parts) (hr : fs.Rooted p.parts)
    (hd : fs.entry? p.parts ≠ some .directory) (ha : p.asksDirectory = false) (c : ByteArray) :
    ∃ fs', fs.write p c = .ok fs' := by
  rw [write, locate_of_rooted hp hu hr]
  simp only [bind, Except.bind, ha, Bool.false_eq_true, if_false]
  split
  · rename_i he
    exact absurd he hd
  · exact ⟨_, rfl⟩
  · exact ⟨_, rfl⟩

theorem IsTree.rename_ok (ht : fs.IsTree) (hp : p.parts ≠ []) (hpu : Path.up ∉ p.parts)
    (hq : q.parts ≠ []) (hqu : Path.up ∉ q.parts) (h : fs.rename p q = .ok fs') :
    fs'.IsTree ∧ fs.entry? q.parts ≠ some .directory ∧ q.asksDirectory = false ∧
      ∃ c, fs.entry? p.parts = some (.file c) ∧ ∀ l, fs'.entry? l =
        if q.parts = l then some (.file c) else if l = p.parts then none else fs.entry? l := by
  obtain ⟨s, t, c, hs, hl, hc, hd, ha, rfl⟩ := rename_eq_put h
  obtain ⟨rfl, -⟩ := locate_ok hp hpu hs
  obtain ⟨rfl, hr⟩ := locate_ok hq hqu hl
  have hf : fs.entry? p.parts ≠ some .directory := by simp [hc]
  have he := ht.entry?_erase hf
  have hup := hr q.parts.dropLast (List.dropLast_prefix _) (dropLast_ne hq).symm
  have hne : q.parts.dropLast ≠ p.parts := by
    intro hh
    rw [hh] at hup
    exact hf hup
  refine ⟨(ht.erase hf).put hq ?_ ?_ _, hd, ha, c, hc, fun l => ?_⟩
  · rw [he]
    split
    · simp
    · exact hd
  · rw [he, if_neg hne, hup]
  · rw [entry?_put hq, he]

theorem exists_rename (hp : p.parts ≠ []) (hpu : Path.up ∉ p.parts) (hq : q.parts ≠ [])
    (hqu : Path.up ∉ q.parts) (hr : fs.Rooted p.parts) (hc : fs.entry? p.parts = some (.file c))
    (hr' : fs.Rooted q.parts) (hd : fs.entry? q.parts ≠ some .directory)
    (ha : q.asksDirectory = false) : ∃ fs', fs.rename p q = .ok fs' := by
  rw [rename, locate_of_rooted hp hpu hr, locate_of_rooted hq hqu hr']
  cases he : fs.entry? q.parts with
  | none => exact ⟨_, by simp [bind, Except.bind, hc, he, ha]; rfl⟩
  | some e =>
    cases e with
    | directory => exact absurd he hd
    | file c' => exact ⟨_, by simp [bind, Except.bind, hc, he, ha]; rfl⟩

structure SameAt (p : Path) (fs fs' : FileSystem) : Prop where
  read : fs'.read p = fs.read p
  entry : ∀ l, p.parts <+: l → fs'.entry? l = fs.entry? l

lemma SameAt.refl (p : Path) (fs : FileSystem) : SameAt p fs fs := ⟨rfl, fun _ _ => rfl⟩

lemma SameAt.trans (h : SameAt p fs fs') (h' : SameAt p fs' fs'') : SameAt p fs fs'' :=
  ⟨h'.read.trans h.read, fun l hl => (h'.entry l hl).trans (h.entry l hl)⟩

lemma Furnishes.sameAt (h : Furnishes fs fs' l) (ht : fs.IsTree) (hp : p.parts ≠ [])
    (hu : Path.up ∉ p.parts) (hl : ¬ p.parts <+: l) : SameAt p fs fs' := by
  have he : ∀ l', p.parts <+: l' → fs'.entry? l' = fs.entry? l' := by
    intro l' hp'
    obtain he | ⟨hq, -, -⟩ := h.entry l'
    · exact he
    · exact absurd (hp'.trans hq) hl
  exact ⟨ht.read_congr h.tree hp hu (he _ (List.prefix_refl _)) fun q _ c => h.file_iff q c, he⟩

lemma IsTree.sameAt (ht : fs.IsTree) (ht' : fs'.IsTree) (hp : p.parts ≠ []) (hu : Path.up ∉ p.parts)
    {ls : List Location} (h : ∀ l, l ∉ ls → fs'.entry? l = fs.entry? l)
    (hl : ∀ l ∈ ls, ¬ l <+: p.parts ∧ ¬ p.parts <+: l) : SameAt p fs fs' := by
  have hq : ∀ q, q <+: p.parts → fs'.entry? q = fs.entry? q :=
    fun q hq => h q fun hm => (hl q hm).1 hq
  exact ⟨ht.read_congr ht' hp hu (hq _ (List.prefix_refl _)) fun q hp' c => by rw [hq q hp'],
    fun l hp' => h l fun hm => (hl l hm).2 hp'⟩

end CallWaiting.FileSystem
