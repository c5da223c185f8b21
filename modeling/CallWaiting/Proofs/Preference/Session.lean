import CallWaiting.Proofs.Preference.Lifetime

/-!
A file that is open, and the batch on its way to it one step at a time. What a session changes lies
at its own document, at its own temporary file, or is a new directory above them.
-/

namespace CallWaiting.Preference

open FileSystem (Path SameAt Furnishes Location)

structure Session where
  file : File
  call : Option (Batch × Nat)
  acknowledged : List Batch

namespace Session

open File (Step steps temporary load performAll)

inductive Move where
  | call (b : Batch)
  | advance
  | linger (k : Nat)
  | giveUp

def opened (f : File) : Session := ⟨f, none, []⟩

def plan (c : Session) (b : Batch) : List Step :=
  steps c.file.path (c.file.document.apply b)

def took (c : Session) (b : Batch) : Session :=
  ⟨⟨c.file.path, c.file.document.apply b⟩, none, c.acknowledged ++ [b]⟩

def move (c : Session) (fs : FileSystem) (m : Move) : FileSystem × Session :=
  match m, c.call with
  | .call b, none => (fs, { c with call := some (b, 0) })
  | .advance, some (b, n) =>
    match (c.plan b)[n]? with
    | none => (fs, c)
    | some s =>
      match s.perform fs with
      | .error _ => (fs, { c with call := none })
      | .ok fs' =>
        -- the last step brings the answer with it
        if n + 1 < (c.plan b).length then (fs', { c with call := some (b, n + 1) })
        else (fs', c.took b)
  | .linger k, some (b, n) =>
    ((performAll fs (((c.plan b)[n]?.map (Step.begun k)).getD [])).1, c)
  | .giveUp, some _ => (fs, { c with call := none })
  | _, _ => (fs, c)

def moves (c : Session) (fs : FileSystem) (ms : List Move) : FileSystem × Session :=
  ms.foldl (fun s m => s.2.move s.1 m) (fs, c)

inductive Comes (c : Session) (fs : FileSystem) : FileSystem → Session → Prop
  | same : Comes c fs fs c
  | called (b : Batch) : Comes c fs fs { c with call := some (b, 0) }
  | ended : Comes c fs fs { c with call := none }
  | lingered {b : Batch} {n : Nat} {s : Step} {fs' : FileSystem} (hc : c.call = some (b, n))
    (hn : n < 2) (hs : s.Prepares c.file.path) (h : s.perform fs = .ok fs') : Comes c fs fs' c
  | furnished {b : Batch} {fs' : FileSystem} (hc : c.call = some (b, 0))
    (h : fs.makeAll c.file.path.parts.dropLast = .ok fs') :
    Comes c fs fs' { c with call := some (b, 1) }
  | written {b : Batch} {fs' : FileSystem} (hc : c.call = some (b, 1))
    (h : fs.write (temporary c.file.path) (c.file.document.apply b).encode = .ok fs') :
    Comes c fs fs' { c with call := some (b, 2) }
  | replaced {b : Batch} {fs' : FileSystem} (hc : c.call = some (b, 2))
    (h : fs.rename (temporary c.file.path) c.file.path = .ok fs') : Comes c fs fs' (c.took b)

variable {c c' : Session} {fs fs' : FileSystem} {p q : Path} {d : Document} {b : Batch} {n : Nat}
  {s : Step} {t : Location}

lemma comes_linger (hc : c.call = some (b, n)) (k : Nat) :
    Comes c fs (performAll fs (((c.plan b)[n]?.map (Step.begun k)).getD [])).1 c := by
  have hs : ∀ s : Step, n < 2 → s.Prepares c.file.path → Comes c fs (performAll fs [s]).1 c := by
    intro s hn hs
    rw [performAll]
    cases h : s.perform fs with
    | error fault => exact .same
    | ok fs' => exact .lingered hc hn hs h
  rcases n with _ | _ | _ | n
  · exact hs _ (by decide) (List.take_prefix k _)
  · exact hs _ (by decide) rfl
  · exact .same
  · exact .same

lemma advance_ok (hc : c.call = some (b, n)) (hs : (c.plan b)[n]? = some s)
    (h : s.perform fs = .ok fs') : c.move fs .advance =
      (fs', if n + 1 < (c.plan b).length then { c with call := some (b, n + 1) } else c.took b) := by
  simp only [move, hc, hs, h]
  split <;> rfl

lemma advance_error {fault : FileSystem.Fault} (hc : c.call = some (b, n))
    (hs : (c.plan b)[n]? = some s) (h : s.perform fs = .error fault) :
    c.move fs .advance = (fs, { c with call := none }) := by
  simp only [move, hc, hs, h]

lemma comes_advance (hc : c.call = some (b, n)) :
    Comes c fs (c.move fs .advance).1 (c.move fs .advance).2 := by
  cases hs : (c.plan b)[n]? with
  | none =>
    simp only [move, hc, hs]
    exact .same
  | some s =>
    cases h : s.perform fs with
    | error fault =>
      rw [advance_error hc hs h]
      exact .ended
    | ok fs' =>
      rw [advance_ok hc hs h]
      rcases n with _ | _ | _ | n
      · cases hs
        exact .furnished hc h
      · cases hs
        exact .written hc h
      · cases hs
        exact .replaced hc h
      · cases hs

lemma comes_move (c : Session) (fs : FileSystem) (m : Move) :
    Comes c fs (c.move fs m).1 (c.move fs m).2 := by
  cases hc : c.call with
  | none =>
    cases m <;> simp only [move, hc]
    · exact .called _
    all_goals exact .same
  | some call =>
    cases m with
    | call b =>
      simp only [move, hc]
      exact .same
    | advance => exact comes_advance hc
    | linger k =>
      simp only [move, hc]
      exact comes_linger hc k
    | giveUp =>
      simp only [move, hc]
      exact .ended

lemma moves_cons (c : Session) (fs : FileSystem) (m : Move) (ms : List Move) :
    c.moves fs (m :: ms) = (c.move fs m).2.moves (c.move fs m).1 ms := rfl

lemma moves_idle (hc : c.call = none) (fs : FileSystem) (k : Nat) :
    c.moves fs (List.replicate k .advance) = (fs, c) := by
  induction k with
  | zero => rfl
  | succ k ih =>
    have hm : c.move fs .advance = (fs, c) := by simp only [move, hc]
    rw [List.replicate_succ, moves_cons, hm, ih]

lemma moves_advance {k : Nat} (hc : c.call = some (b, n)) (hk : n + (k + 1) = (c.plan b).length)
    (fs : FileSystem) : c.moves fs (List.replicate (k + 1) .advance) =
      match performAll fs ((c.plan b).drop n) with
      | (fs', .ok ()) => (fs', c.took b)
      | (fs', .error _) => (fs', { c with call := none }) := by
  induction k generalizing c n fs with
  | zero =>
    have hn : n < (c.plan b).length := by omega
    have hs := List.getElem?_eq_getElem hn
    have hl : ¬ n + 1 < (c.plan b).length := by omega
    rw [List.drop_eq_getElem_cons hn, List.drop_eq_nil_of_le (Nat.le_of_not_lt hl), performAll]
    rw [List.replicate_succ, moves_cons]
    cases h : (c.plan b)[n].perform fs with
    | error fault =>
      rw [advance_error hc hs h]
      rfl
    | ok fs' =>
      rw [advance_ok hc hs h, if_neg hl]
      rfl
  | succ k ih =>
    have hn : n < (c.plan b).length := by omega
    have hs := List.getElem?_eq_getElem hn
    have hl : n + 1 < (c.plan b).length := by omega
    rw [List.drop_eq_getElem_cons hn, performAll]
    rw [List.replicate_succ, moves_cons]
    cases h : (c.plan b)[n].perform fs with
    | error fault =>
      rw [advance_error hc hs h]
      exact moves_idle rfl fs (k + 1)
    | ok fs' =>
      rw [advance_ok hc hs h, if_pos hl]
      have hk' : n + 1 + (k + 1) = (c.plan b).length := by omega
      exact ih (c := { c with call := some (b, n + 1) }) rfl hk' fs'

theorem moves_call (hc : c.call = none) (fs : FileSystem) (b : Batch) :
    c.moves fs (.call b :: List.replicate 3 .advance) = match c.file.put fs b with
      | (fs', f, .ok ()) => (fs', ⟨f, none, c.acknowledged ++ [b]⟩)
      | (fs', f, .error _) => (fs', ⟨f, none, c.acknowledged⟩) := by
  have hm : c.move fs (.call b) = (fs, { c with call := some (b, 0) }) := by simp only [move, hc]
  have ha := moves_advance (c := { c with call := some (b, 0) }) (k := 2) rfl rfl fs
  have hp : ({ c with call := some (b, 0) } : Session).plan b =
      steps c.file.path (c.file.document.apply b) := rfl
  rw [moves_cons, hm]
  refine ha.trans ?_
  rw [hp, List.drop_zero, File.put]
  rcases performAll fs (steps c.file.path (c.file.document.apply b)) with ⟨fs', e | u⟩ <;> rfl

/-- Where a document is written to before it is put in place. Nothing can be written to a path that
goes up in the end. -/
def scratch? (p : Path) : Option Location :=
  if (temporary p).hasRise then none else some (temporary p).parts

lemma scratch?_eq_some_iff (hp : p.IsPlain) :
    scratch? p = some t ↔ p.Beside (temporary p) ∧ t = (temporary p).parts := by
  rw [scratch?]
  constructor
  · intro h
    split at h
    · cases h
    · rename_i hr
      refine ⟨(File.beside_or_up hp).resolve_right fun hu => hr ?_, (Option.some.inj h).symm⟩
      simp [Path.hasRise, hu]
  · rintro ⟨hb, ht⟩
    have hr : ¬ (temporary p).hasRise = true := by simpa [Path.hasRise] using hb.up_notMem
    rw [if_neg hr, ht]

structure ConfinedTo (p : Path) (fs fs' : FileSystem) : Prop where
  tree : fs'.IsTree
  entry : ∀ l, fs'.entry? l = fs.entry? l ∨ l = p.parts ∨ scratch? p = some l ∨
    l <+: p.parts.dropLast ∧ fs.entry? l = none ∧ fs'.entry? l = some .directory

lemma ConfinedTo.refl (ht : fs.IsTree) (p : Path) : ConfinedTo p fs fs := ⟨ht, fun _ => .inl rfl⟩

lemma confinedTo_prepares (hp : p.IsPlain) (ht : fs.IsTree) (hs : s.Prepares p)
    (h : s.perform fs = .ok fs') : ConfinedTo p fs fs' := by
  cases s with
  | makeParents parts =>
    have hu : Path.up ∉ parts := fun hm => File.up_notMem_dropLast hp (hs.subset hm)
    obtain ⟨hf, -⟩ := FileSystem.makeAll_ok ht hu h
    refine ⟨hf.tree, fun l => ?_⟩
    obtain he | ⟨hl, hn, hd⟩ := hf.entry l
    · exact .inl he
    · exact .inr (.inr (.inr ⟨hl.trans hs, hn, hd⟩))
  | write t content =>
    obtain rfl : t = temporary p := hs
    have hb := File.beside_of_write hp h
    obtain ⟨ht', -, he⟩ := ht.write_ok hb.ne_nil hb.up_notMem h
    refine ⟨ht', fun l => ?_⟩
    by_cases hl : (temporary p).parts = l
    · exact .inr (.inr (.inl ((scratch?_eq_some_iff hp).2 ⟨hb, hl.symm⟩)))
    · exact .inl (by rw [he, if_neg hl])
  | replace t q => cases hs

structure Sound (p : Path) (d : Document) (fs : FileSystem) (c : Session) : Prop where
  file : c.file = ⟨p, d.applyAll c.acknowledged⟩
  found : load fs p = .ok c.file
  ready : ∀ b, c.call = some (b, 2) → ∃ t, scratch? p = some t ∧
    fs.entry? t = some (.file (c.file.document.apply b).encode)

lemma sound_opened {f : File} (hl : load fs p = .ok f) : Sound p f.document fs (opened f) := by
  have hf : f.path = p := File.load_path hl
  refine ⟨?_, hl, nofun⟩
  rw [← hf]
  rfl

lemma Sound.comes (hp : p.IsPlain) (ht : fs.IsTree) (h : Sound p d fs c) (hc : Comes c fs fs' c') :
    Sound p d fs' c' ∧ ConfinedTo p fs fs' := by
  have hpath : c.file.path = p := by rw [h.file]
  cases hc with
  | same => exact ⟨h, .refl ht p⟩
  | called b => exact ⟨⟨h.file, h.found, nofun⟩, .refl ht p⟩
  | ended => exact ⟨⟨h.file, h.found, nofun⟩, .refl ht p⟩
  | lingered hc hn hs hd =>
    rw [hpath] at hs
    obtain ⟨-, hsame⟩ := hs.sameAt hp ht hd
    refine ⟨⟨h.file, (File.load_congr hsame).trans h.found, fun b hb => ?_⟩,
      confinedTo_prepares hp ht hs hd⟩
    rw [hc] at hb
    cases hb
    omega
  | @furnished b _ hc hd =>
    rw [hpath] at hd
    have hs : (Step.makeParents p.parts.dropLast).Prepares p := List.prefix_refl _
    obtain ⟨-, hsame⟩ := hs.sameAt hp ht hd
    exact ⟨⟨h.file, (File.load_congr hsame).trans h.found, nofun⟩, confinedTo_prepares hp ht hs hd⟩
  | @written b _ hc hd =>
    rw [hpath] at hd
    have hs : (Step.write (temporary p) (c.file.document.apply b).encode).Prepares p := rfl
    obtain ⟨-, hsame⟩ := hs.sameAt hp ht hd
    refine ⟨⟨h.file, (File.load_congr hsame).trans h.found, fun b' hb => ?_⟩,
      confinedTo_prepares hp ht hs hd⟩
    cases hb
    have hb := File.beside_of_write hp hd
    obtain ⟨-, -, he⟩ := ht.write_ok hb.ne_nil hb.up_notMem hd
    exact ⟨_, (scratch?_eq_some_iff hp).2 ⟨hb, rfl⟩, by rw [he, if_pos rfl]⟩
  | @replaced b _ hc hd =>
    rw [hpath] at hd
    -- what is put in place is what this session wrote
    obtain ⟨t, hscratch, hcontent⟩ := h.ready b hc
    obtain ⟨hb, htemporary⟩ := (scratch?_eq_some_iff hp).1 hscratch
    rw [htemporary] at hscratch hcontent
    obtain ⟨ht', -, hfile, content, hfrom, he⟩ :=
      ht.rename_ok hb.ne_nil hb.up_notMem hp.ne_nil hp.up_notMem hd
    obtain rfl : content = (c.file.document.apply b).encode := by
      simpa [hcontent] using hfrom.symm
    have hnew := he p.parts
    rw [if_pos rfl] at hnew
    refine ⟨⟨?_, ?_, nofun⟩, ht', fun l => ?_⟩
    · rw [took, h.file, Document.applyAll_concat]
    · rw [File.load_of_entry hp hfile ht' hnew, took, hpath]
    · rw [he]
      split
      · rename_i hl
        exact .inr (.inl hl.symm)
      · split
        · rename_i hl
          exact .inr (.inr (.inl (hl ▸ hscratch)))
        · exact .inl rfl

end Session

end CallWaiting.Preference
