import CallWaiting.Preference.Store
import CallWaiting.Proofs.Preference.Interruption

/-!
A file store from the moment it is opened. Batches are brought to it one after the other and may
fail anywhere, and between two of them the file system changes under it. What it answers is told by
the document it was opened with and the batches it took since, and so is the file after each of them.
-/

namespace CallWaiting.Preference

open FileSystem (Path SameAt)

def Document.applyAll (d : Document) (bs : List Batch) : Document :=
  bs.foldl apply d

lemma Document.applyAll_concat (d : Document) (bs : List Batch) (b : Batch) :
    d.applyAll (bs ++ [b]) = (d.applyAll bs).apply b := by
  simp only [applyAll, List.foldl_append, List.foldl_cons, List.foldl_nil]

/-- A failure that the entries do not tell of, such as a full disk: the step it comes in, how many
pieces of that step are done by then, and what is said of it. -/
structure Mishap where
  step : Fin 3
  pieces : Nat
  error : Error

namespace File

variable {fs fs' : FileSystem} {p : Path} {f : File} {b : Batch}

def performUntil (fs : FileSystem) (ss : List Step) :
    Option Mishap → FileSystem × Except Error Unit
  | none => performAll fs ss
  | some m =>
    match performAll fs (stepsUntil m.step m.pieces ss) with
    | (fs', .ok ()) => (fs', .error m.error)
    | (fs', .error e) => (fs', .error e)

def settle (f : File) (d : Document) :
    FileSystem × Except Error Unit → FileSystem × File × Except Error Unit
  | (fs, .ok ()) => (fs, { f with document := d }, .ok ())
  | (fs, .error e) => (fs, f, .error e)

def putUntil (f : File) (fs : FileSystem) (b : Batch) (m : Option Mishap) :
    FileSystem × File × Except Error Unit :=
  let d := f.document.apply b
  f.settle d (performUntil fs (steps f.path d) m)

theorem putUntil_none (f : File) (fs : FileSystem) (b : Batch) :
    f.putUntil fs b none = f.put fs b := by
  rw [putUntil, performUntil, put]
  rcases performAll fs (steps f.path (f.document.apply b)) with ⟨fs', ⟨⟩ | ⟨⟩⟩ <;> rfl

lemma performUntil_steps (hp : p.IsPlain) (ht : fs.IsTree) (d : Document) (m : Option Mishap) :
    (∃ fs', performUntil fs (steps p d) m = (fs', .ok ()) ∧ fs'.IsTree ∧
      fs'.read p = .ok d.encode) ∨
    ∃ fs' e, performUntil fs (steps p d) m = (fs', .error e) ∧ fs'.IsTree ∧ SameAt p fs fs' := by
  cases m with
  | none => exact performAll_steps hp ht d
  | some m =>
    obtain ⟨ht', hs⟩ := performAll_sameAt hp (prepares_begun p d m.step.isLt m.pieces) ht
    rw [performUntil]
    rcases hr : performAll fs (stepsUntil m.step m.pieces (steps p d)) with ⟨fs', e | u⟩ <;>
      rw [hr] at ht' hs
    · exact .inr ⟨fs', e, rfl, ht', hs⟩
    · exact .inr ⟨fs', m.error, rfl, ht', hs⟩

lemma putUntil_cases (hp : f.path.IsPlain) (ht : fs.IsTree) (b : Batch) (m : Option Mishap) :
    (∃ fs', f.putUntil fs b m = (fs', ⟨f.path, f.document.apply b⟩, .ok ()) ∧ fs'.IsTree ∧
      fs'.read f.path = .ok (f.document.apply b).encode) ∨
    ∃ fs' e, f.putUntil fs b m = (fs', f, .error e) ∧ fs'.IsTree ∧ SameAt f.path fs fs' := by
  rw [putUntil]
  obtain ⟨fs', hr, h⟩ | ⟨fs', e, hr, h⟩ := performUntil_steps hp ht (f.document.apply b) m
  · exact .inl ⟨fs', by rw [hr, settle], h⟩
  · exact .inr ⟨fs', e, by rw [hr, settle], h⟩

end File

inductive Event where
  | batch (b : Batch) (m : Option Mishap)
  | outside (fs : FileSystem)

structure Lifetime where
  disk : FileSystem
  file : File
  acknowledged : List Batch

namespace Lifetime

variable {s : Lifetime} {fs : FileSystem} {p : Path} {d : Document} {f : File} {e : Event}
  {es : List Event}

def opened (fs : FileSystem) (f : File) : Lifetime := ⟨fs, f, []⟩

def step (s : Lifetime) : Event → Lifetime
  | .batch b m =>
    match s.file.putUntil s.disk b m with
    | (fs, f, .ok ()) => ⟨fs, f, s.acknowledged ++ [b]⟩
    | (fs, f, .error _) => ⟨fs, f, s.acknowledged⟩
  | .outside fs => { s with disk := fs }

def run (s : Lifetime) (es : List Event) : Lifetime :=
  es.foldl step s

structure Keeps (p : Path) (d : Document) (s : Lifetime) : Prop where
  tree : s.disk.IsTree
  file : s.file = ⟨p, d.applyAll s.acknowledged⟩

lemma Keeps.step (hp : p.IsPlain) (h : Keeps p d s) (he : ∀ fs, e = .outside fs → fs.IsTree) :
    Keeps p d (s.step e) := by
  cases e with
  | outside fs => exact ⟨he fs rfl, h.file⟩
  | batch b m =>
    have hp' : s.file.path.IsPlain := by rwa [h.file]
    obtain ⟨fs', hr, ht, -⟩ | ⟨fs', e, hr, ht, -⟩ := File.putUntil_cases hp' h.tree b m
    · rw [Lifetime.step, hr]
      refine ⟨ht, ?_⟩
      rw [h.file, Document.applyAll_concat]
    · rw [Lifetime.step, hr]
      exact ⟨ht, h.file⟩

lemma Keeps.run (hp : p.IsPlain) (h : Keeps p d s) (he : ∀ fs, Event.outside fs ∈ es → fs.IsTree) :
    Keeps p d (s.run es) := by
  induction es generalizing s with
  | nil => exact h
  | cons e es ih =>
    have hs : Keeps p d (s.step e) :=
      h.step hp fun fs hfs => he fs (hfs ▸ List.mem_cons_self)
    exact ih hs fun fs hfs => he fs (List.mem_cons_of_mem _ hfs)

/-- At any time the answers are those of the document that was opened, with the batches that were
acknowledged since and with no other. A batch that fails changes no answer and nothing at the path,
and behind one that is acknowledged the path holds that whole document. -/
theorem answers_acknowledged (hp : p.IsPlain) (ht : fs.IsTree) (hl : File.load fs p = .ok f)
    (he : ∀ fs', Event.outside fs' ∈ es → fs'.IsTree) :
    let s := (opened fs f).run es
    (∀ group k default, (Store.file s.file).get group k default =
      ((f.document.applyAll s.acknowledged).get? group k).getD default) ∧
    ∀ b m, match s.file.putUntil s.disk b m with
      | (fs', _, .ok ()) =>
        fs'.read p = .ok (f.document.applyAll (s.acknowledged ++ [b])).encode
      | (fs', f', .error _) => SameAt p s.disk fs' ∧ ∀ group k default,
        (Store.file f').get group k default = (Store.file s.file).get group k default := by
  intro s
  have hk : Keeps p f.document s := by
    refine Keeps.run hp ⟨ht, ?_⟩ he
    have hf : f.path = p := File.load_path hl
    rw [← hf]
    rfl
  refine ⟨fun group k default => by rw [hk.file]; rfl, fun b m => ?_⟩
  have hpath : s.file.path = p := by rw [hk.file]
  have hp' : s.file.path.IsPlain := by rwa [hpath]
  obtain ⟨fs', hr, -, hread⟩ | ⟨fs', e, hr, -, hs⟩ := File.putUntil_cases hp' hk.tree b m
  · rw [hr, Document.applyAll_concat]
    rwa [hk.file] at hread
  · rw [hr]
    exact ⟨hpath ▸ hs, fun _ _ _ => rfl⟩

theorem answers_acknowledged_in_want :
    let f : File := ⟨⟨"d/prefs.json"⟩, .empty⟩
    let es : List Event := [.batch ⟨"g", [(.state ⟨1⟩, 0)]⟩ none, .outside .empty,
      .batch ⟨"g", [(.state ⟨1⟩, 1)]⟩ (some ⟨1, 7, .io .busy⟩)]
    f.path.IsPlain ∧ FileSystem.empty.IsTree ∧ File.load .empty f.path = .ok f ∧
      (∀ fs, Event.outside fs ∈ es → fs.IsTree) ∧
      (Store.file ((opened .empty f).run es).file).get "g" (.state ⟨1⟩) (-1) =
        ((Document.empty.applyAll ((opened .empty f).run es).acknowledged).get? "g"
          (.state ⟨1⟩)).getD (-1) := by
  intro f es
  have hp : f.path.IsPlain := ⟨by decide, by decide⟩
  have hl : File.load .empty f.path = .ok f := File.load_empty hp
  have he : ∀ fs, Event.outside fs ∈ es → fs.IsTree := by
    intro fs hfs
    simp only [es, List.mem_cons, reduceCtorEq, Event.outside.injEq, List.not_mem_nil, or_false,
      false_or] at hfs
    rw [hfs]
    exact FileSystem.isTree_empty
  exact ⟨hp, FileSystem.isTree_empty, hl, he,
    (answers_acknowledged hp FileSystem.isTree_empty hl he).1 "g" (.state ⟨1⟩) (-1)⟩

end Lifetime

end CallWaiting.Preference
