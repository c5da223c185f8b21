import CallWaiting.Proofs.Preference.Neighbours

/-!
Calls after which a store does not find what it was brought, one for each way in which a path can be
in the way of another. So stores keep to themselves just if each of their paths stays clear of every other.
-/

namespace CallWaiting.Preference

open FileSystem (Path SameAt Furnishes Location)
open File (Step temporary load)
open Session (Move scratch? scratch?_eq_some_iff)

namespace Session

variable {c : Session} {fs fs' : FileSystem} {p : Path} {b : Batch}

lemma move_call (hc : c.call = none) (fs : FileSystem) (b : Batch) :
    c.move fs (.call b) = (fs, { c with call := some (b, 0) }) := by
  simp only [move, hc]

lemma advance_furnished (hc : c.call = some (b, 0))
    (h : fs.makeAll c.file.path.parts.dropLast = .ok fs') :
    c.move fs .advance = (fs', { c with call := some (b, 1) }) := by
  have hl : 0 + 1 < (c.plan b).length := by simp [plan, File.steps]
  rw [advance_ok (s := .makeParents c.file.path.parts.dropLast) hc rfl h, if_pos hl]

lemma advance_written (hc : c.call = some (b, 1))
    (h : fs.write (temporary c.file.path) (c.file.document.apply b).encode = .ok fs') :
    c.move fs .advance = (fs', { c with call := some (b, 2) }) := by
  have hl : 1 + 1 < (c.plan b).length := by simp [plan, File.steps]
  rw [advance_ok (s := .write (temporary c.file.path) (c.file.document.apply b).encode) hc rfl h,
    if_pos hl]

lemma advance_replaced (hc : c.call = some (b, 2))
    (h : fs.rename (temporary c.file.path) c.file.path = .ok fs') :
    c.move fs .advance = (fs', c.took b) := by
  have hl : ¬ 2 + 1 < (c.plan b).length := by simp [plan, File.steps]
  rw [advance_ok (s := .replace (temporary c.file.path) c.file.path) hc rfl h, if_neg hl]

lemma moves_append (c : Session) (fs : FileSystem) (ms ms' : List Move) :
    c.moves fs (ms ++ ms') = (c.moves fs ms).2.moves (c.moves fs ms).1 ms' :=
  List.foldl_append

def IsFree (fs : FileSystem) (p : Path) : Prop :=
  ∀ l, l <+: p.parts.dropLast → ∀ content, fs.entry? l ≠ some (.file content)

lemma isFree_of_beside {q : Path} (hb : p.Beside q) (ht : fs.IsTree)
    (he : fs.entry? q.parts ≠ none) : IsFree fs p := by
  intro l hl content hc
  rw [← hb.front] at hl
  have hd := ht.directory (ht q.parts hb.ne_nil he) hl
  rw [hd] at hc
  cases hc

lemma exists_furnished (hp : c.file.path.IsPlain) (hc : c.call = none) (ht : fs.IsTree)
    (hf : IsFree fs c.file.path) (b : Batch) :
    ∃ fs', c.moves fs [.call b, .advance] = (fs', { c with call := some (b, 1) }) ∧
      Furnishes fs fs' c.file.path.parts.dropLast ∧
      fs'.entry? c.file.path.parts.dropLast = some .directory := by
  have hu := File.up_notMem_dropLast hp
  obtain ⟨fs', h⟩ := FileSystem.exists_makeAll ht hu hf
  refine ⟨fs', ?_, FileSystem.makeAll_ok ht hu h⟩
  have ha := advance_furnished (c := { c with call := some (b, 0) }) rfl h
  rw [moves_cons, move_call hc, moves_cons, ha]
  rfl

def writing (b : Batch) : List Move := [.call b, .advance, .advance]

lemma exists_written (hp : c.file.path.IsPlain) (hb : c.file.path.Beside (temporary c.file.path))
    (hc : c.call = none) (ht : fs.IsTree) (hf : IsFree fs c.file.path)
    (hd : fs.entry? (temporary c.file.path).parts ≠ some .directory) (b : Batch) :
    ∃ fs', c.moves fs (writing b) = (fs', { c with call := some (b, 2) }) ∧
      fs'.IsTree ∧
      fs'.entry? (temporary c.file.path).parts = some (.file (c.file.document.apply b).encode) := by
  obtain ⟨fs₁, hm, h₁, he₁⟩ := exists_furnished hp hc ht hf b
  rw [← hb.front] at h₁ he₁
  have hd₁ : fs₁.entry? (temporary c.file.path).parts ≠ some .directory := by
    obtain he | ⟨hl, -, -⟩ := h₁.entry (temporary c.file.path).parts
    · rwa [he]
    · exact absurd hl (File.not_prefix_dropLast hb.ne_nil)
  obtain ⟨fs', h⟩ := FileSystem.exists_write hb.ne_nil hb.up_notMem
    (h₁.tree.rooted_of_dropLast he₁) hd₁ hb.file (c.file.document.apply b).encode
  obtain ⟨ht', -, he⟩ := h₁.tree.write_ok hb.ne_nil hb.up_notMem h
  refine ⟨fs', ?_, ht', by rw [he, if_pos rfl]⟩
  have ha := advance_written (c := { c with call := some (b, 1) }) rfl h
  refine (moves_append c fs [.call b, .advance] [.advance]).trans ?_
  rw [hm, moves_cons, ha]
  rfl

def poised (p : Path) (b : Batch) : Session :=
  ⟨⟨p, .empty⟩, some (b, 2), []⟩

end Session

namespace File

variable {fs : FileSystem} {p : Path} {l : Location} {content : ByteArray}

lemma load_directory (hp : p.IsPlain) (ht : fs.IsTree) (he : fs.entry? p.parts = some .directory) :
    load fs p = .error (.io .isDirectory) := by
  rw [load, ht.read_of_entry hp.ne_nil hp.up_notMem he]
  rfl

lemma load_below_file (hp : p.IsPlain) (ht : fs.IsTree) (hl : l <+: p.parts) (hne : l ≠ p.parts)
    (he : fs.entry? l = some (.file content)) : load fs p = .error (.io .notDirectory) := by
  have hn : fs.entry? p.parts = none := by
    by_contra hn
    rw [ht.rooted hn l hl hne] at he
    cases he
  obtain ⟨-, hq⟩ | ⟨hr, -⟩ := ht.read_of_none hp.ne_nil hp.up_notMem hn
  · exact absurd he (hq l hl content)
  · rw [load, hr]

end File

namespace Neighbours

variable {ι : Type} [DecidableEq ι] {paths : ι → Path} {i j : ι}

lemma run_append (s : Neighbours ι) (ms ms' : List (ι × Move)) :
    s.run (ms ++ ms') = (s.run ms).run ms' :=
  List.foldl_append

lemma run_alone {s : Neighbours ι} {ms : List Move} {fs : FileSystem} {c c' : Session}
    (hc : s.sessions i = c) (h : c.moves s.disk ms = (fs, c')) :
    (s.run (ms.map (Prod.mk i))).disk = fs ∧ (s.run (ms.map (Prod.mk i))).sessions i = c' ∧
      ∀ j, j ≠ i → (s.run (ms.map (Prod.mk i))).sessions j = s.sessions j := by
  induction ms generalizing s c with
  | nil =>
    obtain ⟨rfl, rfl⟩ := Prod.mk.inj h
    exact ⟨rfl, hc, fun _ _ => rfl⟩
  | cons m ms ih =>
    subst hc
    obtain ⟨hd, hi, hj⟩ := ih (s := s.step i m) (Function.update_self ..) h
    exact ⟨hd, hi, fun j hji => (hj j hji).trans (Function.update_of_ne hji ..)⟩

def blank (paths : ι → Path) : Neighbours ι :=
  opened .empty fun i => ⟨paths i, .empty⟩

lemma isFree_empty (p : Path) : Session.IsFree .empty p :=
  fun l _ => FileSystem.entry?_empty_ne_file l

def probe (v : Int32) : Batch := ⟨"", [(⟨.state, 0⟩, v)]⟩

lemma get?_probe (d : Document) (v : Int32) : (d.apply (probe v)).get? "" ⟨.state, 0⟩ = some v := by
  rw [Document.get?_apply]
  rfl

lemma exists_written_new {fs : FileSystem} {p : Path} (hp : p.IsPlain) (hb : p.Beside (temporary p))
    (ht : fs.IsTree) (hf : Session.IsFree fs p)
    (hd : fs.entry? (temporary p).parts ≠ some .directory) (b : Batch) :
    ∃ fs', (Session.opened ⟨p, .empty⟩).moves fs (Session.writing b) = (fs', .poised p b) ∧
      fs'.IsTree ∧ fs'.entry? (temporary p).parts = some (.file (Document.empty.apply b).encode) :=
  Session.exists_written (c := .opened ⟨p, .empty⟩) hp hb rfl ht hf hd b

lemma entry?_empty_ne_directory {p : Path} (hb : p.Beside (temporary p)) :
    FileSystem.empty.entry? (temporary p).parts ≠ some .directory := by
  rw [FileSystem.entry?_empty hb.ne_nil]
  exact nofun

lemma exists_overwritten (hi : (paths i).IsPlain) (hj : (paths j).IsPlain) (hij : i ≠ j)
    {t : Location} (ht : scratch? (paths i) = some t) (ht' : scratch? (paths j) = some t) :
    ∃ ms fs, ((blank paths).run ms).disk = fs ∧ fs.IsTree ∧
      fs.entry? t = some (.file (Document.empty.apply (probe 1)).encode) ∧
      ((blank paths).run ms).sessions i = .poised (paths i) (probe 0) := by
  obtain ⟨hb, hi'⟩ := (scratch?_eq_some_iff hi).1 ht
  obtain ⟨hb', hj'⟩ := (scratch?_eq_some_iff hj).1 ht'
  obtain ⟨fs₁, hm₁, ht₁, he₁⟩ := exists_written_new hi hb FileSystem.isTree_empty (isFree_empty _)
    (entry?_empty_ne_directory hb) (probe 0)
  rw [← hi', hj'] at he₁
  have hfree : Session.IsFree fs₁ (paths j) :=
    Session.isFree_of_beside hb' ht₁ (by rw [he₁]; exact nofun)
  have hd : fs₁.entry? (temporary (paths j)).parts ≠ some .directory := by
    rw [he₁]
    exact nofun
  obtain ⟨fs₂, hm₂, ht₂, he₂⟩ := exists_written_new hj hb' ht₁ hfree hd (probe 1)
  rw [← hj'] at he₂
  obtain ⟨hdisk₁, hi₁, hj₁⟩ := run_alone (s := blank paths) rfl hm₁
  obtain ⟨hdisk₂, -, hi₂⟩ := run_alone (hj₁ j hij.symm) (hdisk₁ ▸ hm₂)
  rw [← run_append] at hdisk₂ hi₂
  exact ⟨_, fs₂, hdisk₂, ht₂, he₂, (hi₂ i hij).trans hi₁⟩

variable (hp : ∀ i, (paths i).IsPlain)
  (hu : ∀ ms, Undisturbed paths (fun _ => .empty) ((blank paths).run ms))

include hp hu

lemma not_prefix_of_undisturbed (hne : (paths j).parts ≠ (paths i).parts) :
    ¬ (paths j).parts <+: (paths i).parts := by
  intro hpre
  obtain ⟨fs, hm, hf, hd⟩ := Session.exists_furnished (c := .opened ⟨paths i, .empty⟩) (hp i) rfl
    FileSystem.isTree_empty (isFree_empty _) (probe 0)
  have hj := hf.tree.directory hd (FileSystem.prefix_dropLast hpre hne)
  obtain ⟨hdisk, -, -⟩ := run_alone (s := blank paths) rfl hm
  have hfound := (hu ([.call (probe 0), .advance].map (Prod.mk i))).found j
  rw [hdisk, File.load_directory (hp j) hf.tree hj] at hfound
  cases hfound

lemma scratch_not_prefix_of_undisturbed (hij : i ≠ j) (hf : (paths j).asksDirectory = false)
    {t : Location} (ht : scratch? (paths i) = some t) : ¬ t <+: (paths j).parts := by
  intro hpre
  obtain ⟨hb, ht⟩ := (scratch?_eq_some_iff (hp i)).1 ht
  rw [ht] at hpre
  obtain ⟨fs, hm, htree, he⟩ := exists_written_new (hp i) hb FileSystem.isTree_empty
    (isFree_empty _) (entry?_empty_ne_directory hb) (probe 0)
  obtain ⟨hdisk, -, hsession⟩ := run_alone (s := blank paths) rfl hm
  have hfound := (hu ((Session.writing (probe 0)).map (Prod.mk i))).found j
  rw [hdisk, hsession j hij.symm] at hfound
  by_cases hl : (temporary (paths i)).parts = (paths j).parts
  · rw [hl] at he
    rw [File.load_of_entry (hp j) hf htree he] at hfound
    have hd : Document.empty.apply (probe 0) = .empty :=
      congrArg File.document (Except.ok.inj hfound)
    have hget := get?_probe .empty 0
    rw [hd] at hget
    cases hget
  · rw [File.load_below_file (hp j) htree hpre hl he] at hfound
    cases hfound

lemma scratch_ne_of_undisturbed (hij : i ≠ j) (hf : (paths i).asksDirectory = false) {t : Location}
    (ht : scratch? (paths i) = some t) : scratch? (paths j) ≠ some t := by
  intro ht'
  obtain ⟨ms, fs, hdisk, htree, he, hi⟩ := exists_overwritten (hp i) (hp j) hij ht ht'
  obtain ⟨hb, ht⟩ := (scratch?_eq_some_iff (hp i)).1 ht
  rw [ht] at he
  have hn : fs.entry? (paths i).parts ≠ some .directory := by
    intro hn
    have hfound := (hu ms).found i
    rw [hdisk, File.load_directory (hp i) htree hn] at hfound
    cases hfound
  have hup : fs.entry? (paths i).parts.dropLast = some .directory := by
    rw [← hb.front]
    exact htree _ hb.ne_nil (by rw [he]; exact nofun)
  obtain ⟨fs', h⟩ := FileSystem.exists_rename hb.ne_nil hb.up_notMem (hp i).ne_nil (hp i).up_notMem
    (htree.rooted (by rw [he]; exact nofun)) he (htree.rooted_of_dropLast hup) hn hf
  obtain ⟨htree', -, -, content, hc, he'⟩ :=
    htree.rename_ok hb.ne_nil hb.up_notMem (hp i).ne_nil (hp i).up_notMem h
  rw [he, Option.some.injEq, FileSystem.Entry.file.injEq] at hc
  have hnew := he' (paths i).parts
  rw [if_pos rfl, ← hc] at hnew
  have hm : (Session.poised (paths i) (probe 0)).moves fs [.advance] =
      (fs', (Session.poised (paths i) (probe 0)).took (probe 0)) := by
    have ha : (Session.poised (paths i) (probe 0)).move fs .advance = _ :=
      Session.advance_replaced rfl h
    rw [Session.moves_cons, ha]
    rfl
  obtain ⟨hdisk', hi', -⟩ := run_alone hi (hdisk ▸ hm)
  rw [← run_append] at hdisk' hi'
  have hfound := (hu (ms ++ [.advance].map (Prod.mk i))).found i
  rw [hdisk', hi', File.load_of_entry (hp i) hf htree' hnew] at hfound
  have hd : Document.empty.apply (probe 1) = Document.empty.apply (probe 0) :=
    congrArg File.document (Except.ok.inj hfound)
  have hget := get?_probe .empty 1
  rw [hd, get?_probe] at hget
  cases hget

omit hp hu

theorem undisturbed_iff (hp : ∀ i, (paths i).IsPlain) (hf : ∀ i, (paths i).asksDirectory = false)
    (hne : ∀ i j, i ≠ j → (paths i).parts ≠ (paths j).parts) :
    (∀ fs files, fs.IsTree → (∀ i, load fs (paths i) = .ok (files i)) → ∀ ms,
      Undisturbed paths (fun i => (files i).document) ((opened fs files).run ms)) ↔
      ∀ i j, i ≠ j → StaysClear (paths i) (paths j) := by
  constructor
  · intro h i j hij
    have hu := h .empty (fun i => ⟨paths i, .empty⟩) FileSystem.isTree_empty
      fun i => File.load_empty (hp i)
    exact ⟨not_prefix_of_undisturbed hp hu (hne j i hij.symm), fun t ht =>
      ⟨scratch_not_prefix_of_undisturbed hp hu hij (hf j) ht,
        scratch_ne_of_undisturbed hp hu hij (hf i) ht⟩⟩
  · intro hs fs files ht hl ms
    have hstart : AllSound paths (fun i => (files i).document) (opened fs files) :=
      ⟨ht, fun i => Session.sound_opened (hl i)⟩
    exact (hstart.run hp hs ms).undisturbed hp hs

def inOneDirectory : Bool → Path
  | false => ⟨"d/prefs.json"⟩
  | true => ⟨"d/other.json"⟩

theorem undisturbed_in_one_directory :
    ((∀ i, (inOneDirectory i).IsPlain) ∧ (∀ i, (inOneDirectory i).asksDirectory = false) ∧
      ∀ i j, i ≠ j → (inOneDirectory i).parts ≠ (inOneDirectory j).parts) ∧
    ∀ fs files, fs.IsTree → (∀ i, load fs (inOneDirectory i) = .ok (files i)) → ∀ ms,
      Undisturbed inOneDirectory (fun i => (files i).document) ((opened fs files).run ms) := by
  have hp : ∀ i, (inOneDirectory i).IsPlain := by
    intro i
    cases i
    · exact ⟨by decide, by decide⟩
    · exact ⟨by decide, by decide⟩
  have hf : ∀ i, (inOneDirectory i).asksDirectory = false := by decide
  have hne : ∀ i j, i ≠ j → (inOneDirectory i).parts ≠ (inOneDirectory j).parts := by decide
  exact ⟨⟨hp, hf, hne⟩, (undisturbed_iff hp hf hne).2 (by decide +kernel)⟩

def atTemporary : Bool → Path
  | false => ⟨"prefs.json"⟩
  | true => ⟨"prefs.json.tmp"⟩

def lost : Neighbours Bool :=
  (blank atTemporary).run
    ((.call ⟨"g", [(⟨.state, 1⟩, 1)]⟩ :: List.replicate 3 .advance).map (Prod.mk true) ++
      (.call ⟨"g", [(⟨.state, 2⟩, 0)]⟩ :: List.replicate 3 .advance).map (Prod.mk false))

theorem not_undisturbed_at_temporary :
    ((∀ i, (atTemporary i).IsPlain) ∧ (atTemporary false).parts ≠ (atTemporary true).parts ∧
      ∀ i, load .empty (atTemporary i) = .ok ⟨atTemporary i, .empty⟩) ∧
    (lost.sessions true).acknowledged = [⟨"g", [(⟨.state, 1⟩, 1)]⟩] ∧
    (lost.sessions false).acknowledged = [⟨"g", [(⟨.state, 2⟩, 0)]⟩] ∧
    lost.disk.list = ["prefs.json"] ∧
    load lost.disk (atTemporary true) ≠
      .ok ⟨atTemporary true, Document.empty.applyAll (lost.sessions true).acknowledged⟩ := by
  have hp : ∀ i, (atTemporary i).IsPlain := by
    intro i
    cases i
    · exact ⟨by decide, by decide⟩
    · exact ⟨by decide, by decide⟩
  have hleft : (lost.sessions true).acknowledged = [⟨"g", [(⟨.state, 1⟩, 1)]⟩] ∧
      (lost.sessions false).acknowledged = [⟨"g", [(⟨.state, 2⟩, 0)]⟩] ∧
      lost.disk.list = ["prefs.json"] ∧
      (load lost.disk (atTemporary true)).toOption.bind (·.get? "g" ⟨.state, 1⟩) = none := by
    decide +kernel
  obtain ⟨htrue, hfalse, hlist, hget⟩ := hleft
  refine ⟨⟨hp, by decide, fun i => File.load_empty (hp i)⟩, htrue, hfalse, hlist, fun h => ?_⟩
  rw [h, htrue] at hget
  revert hget
  decide

end Neighbours

end CallWaiting.Preference
