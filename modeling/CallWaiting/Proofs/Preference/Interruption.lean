import CallWaiting.Proofs.FileSystem.Change
import CallWaiting.Proofs.FileSystem.FileName
import CallWaiting.Proofs.Preference.File

/-!
Bringing a batch to a file that stops anywhere. All that is done before the document is put in place
is done beside it or above it, so that its path holds what it held before, or the new document as a
whole.
-/

namespace CallWaiting.Preference.File

open FileSystem (Path Fault SameAt Location)

variable {fs fs' : FileSystem} {p : Path} {f : File} {b : Batch} {d : Document} {s : Step}
  {ss : List Step}

/-- What has been done of a step when it stops after so many of its pieces: directories from the
outside in, octets from the front. Putting the document in place is done at once. -/
def Step.begun (k : Nat) : Step → List Step
  | .makeParents parts => [.makeParents (parts.take k)]
  | .write temporary content => [.write temporary (content.extract 0 k)]
  | .replace _ _ => []

def stepsUntil (i k : Nat) (ss : List Step) : List Step :=
  ss.take i ++ ((ss[i]?).map (Step.begun k)).getD []

def stopped (f : File) (fs : FileSystem) (b : Batch) (i k : Nat) : FileSystem :=
  (performAll fs (stepsUntil i k (steps f.path (f.document.apply b)))).1

lemma beside_or_up (hp : p.IsPlain) : p.Beside (temporary p) ∨
    (temporary p).parts = p.parts.dropLast ++ [Path.up] :=
  hp.withExtension (by decide) (by decide)

lemma up_notMem_dropLast (hp : p.IsPlain) : Path.up ∉ p.parts.dropLast :=
  fun hm => hp.up_notMem (List.dropLast_subset _ hm)

lemma beside_of_write (hp : p.IsPlain) {c : ByteArray} (h : fs.write (temporary p) c = .ok fs') :
    p.Beside (temporary p) :=
  (beside_or_up hp).resolve_right fun hu => FileSystem.write_up hu (up_notMem_dropLast hp) h

lemma not_prefix_dropLast {l : Location} (hl : l ≠ []) : ¬ l <+: l.dropLast := by
  intro h
  have hh := h.length_le
  have hp := List.length_pos_iff.2 hl
  rw [List.length_dropLast] at hh
  omega

def Step.Prepares (p : Path) : Step → Prop
  | .makeParents parts => parts <+: p.parts.dropLast
  | .write t _ => t = temporary p
  | .replace _ _ => False

lemma Step.Prepares.sameAt (hs : s.Prepares p) (hp : p.IsPlain) (ht : fs.IsTree)
    (h : s.perform fs = .ok fs') : fs'.IsTree ∧ SameAt p fs fs' := by
  cases s with
  | makeParents parts =>
    have hu : Path.up ∉ parts := fun hm => up_notMem_dropLast hp (hs.subset hm)
    obtain ⟨hf, -⟩ := FileSystem.makeAll_ok ht hu h
    exact ⟨hf.tree, hf.sameAt ht hp.ne_nil hp.up_notMem
      fun hl => not_prefix_dropLast hp.ne_nil (hl.trans hs)⟩
  | write t c =>
    obtain rfl : t = temporary p := hs
    have hb := beside_of_write hp h
    obtain ⟨ht', -, he⟩ := ht.write_ok hb.ne_nil hb.up_notMem h
    have hother : ∀ l, l ∉ [(temporary p).parts] → fs'.entry? l = fs.entry? l := by
      intro l hl
      rw [he, if_neg fun hh => hl (List.mem_singleton.2 hh.symm)]
    refine ⟨ht', ht.sameAt ht' hp.ne_nil hp.up_notMem hother fun l hl => ?_⟩
    rw [List.mem_singleton.1 hl]
    exact hb.not_prefix hp.ne_nil
  | replace t q => cases hs

lemma performAll_append (fs : FileSystem) (ss ss' : List Step) :
    performAll fs (ss ++ ss') = match performAll fs ss with
      | (fs', .ok ()) => performAll fs' ss'
      | (fs', .error e) => (fs', .error e) := by
  induction ss generalizing fs with
  | nil => rfl
  | cons s ss ih =>
    simp only [List.cons_append, performAll]
    cases s.perform fs with
    | error fault => rfl
    | ok fs' => exact ih fs'

lemma performAll_sameAt (hp : p.IsPlain) (hs : ∀ s ∈ ss, s.Prepares p) (ht : fs.IsTree) :
    (performAll fs ss).1.IsTree ∧ SameAt p fs (performAll fs ss).1 := by
  induction ss generalizing fs with
  | nil => exact ⟨ht, .refl p fs⟩
  | cons s ss ih =>
    rw [performAll]
    cases h : s.perform fs with
    | error fault => exact ⟨ht, .refl p fs⟩
    | ok fs' =>
      obtain ⟨ht', hsame⟩ := (hs s List.mem_cons_self).sameAt hp ht h
      obtain ⟨ht'', hsame'⟩ := ih (fun s hm => hs s (List.mem_cons_of_mem _ hm)) ht'
      exact ⟨ht'', hsame.trans hsame'⟩

def preparations (p : Path) (d : Document) : List Step :=
  [.makeParents p.parts.dropLast, .write (temporary p) d.encode]

lemma steps_eq (p : Path) (d : Document) :
    steps p d = preparations p d ++ [.replace (temporary p) p] := rfl

lemma prepares_preparations (p : Path) (d : Document) : ∀ s ∈ preparations p d, s.Prepares p := by
  simp [preparations, Step.Prepares]

lemma beside_of_preparations (hp : p.IsPlain)
    (h : performAll fs (preparations p d) = (fs', .ok ())) : p.Beside (temporary p) := by
  simp only [preparations, performAll, Step.perform] at h
  split at h
  case h_2 => cases h
  case h_1 =>
    split at h
    case h_2 => cases h
    case h_1 hw => exact beside_of_write hp hw

lemma performAll_steps (hp : p.IsPlain) (ht : fs.IsTree) (d : Document) :
    (∃ fs', performAll fs (steps p d) = (fs', .ok ()) ∧ fs'.IsTree ∧ fs'.read p = .ok d.encode) ∨
    ∃ fs' e, performAll fs (steps p d) = (fs', .error e) ∧ fs'.IsTree ∧ SameAt p fs fs' := by
  obtain ⟨ht₁, hs₁⟩ := performAll_sameAt hp (prepares_preparations p d) ht
  rcases hr : performAll fs (preparations p d) with ⟨fs₁, e | u⟩ <;> rw [hr] at ht₁ hs₁
  · exact .inr ⟨fs₁, e, by rw [steps_eq, performAll_append, hr], ht₁, hs₁⟩
  · have hb := beside_of_preparations hp hr
    have hall : performAll fs (steps p d) = performAll fs₁ [.replace (temporary p) p] := by
      rw [steps_eq, performAll_append, hr]
    cases hm : fs₁.rename (temporary p) p with
    | error fault =>
      have hfail : performAll fs (steps p d) =
          (fs₁, .error (Step.error (.replace (temporary p) p) fault)) := by
        rw [hall]
        simp only [performAll, Step.perform, hm]
      exact .inr ⟨fs₁, _, hfail, ht₁, hs₁⟩
    | ok fs₂ =>
      have hdone : performAll fs (steps p d) = (fs₂, .ok ()) := by
        rw [hall]
        simp only [performAll, Step.perform, hm]
      obtain ⟨ht₂, -⟩ := ht₁.rename_ok hb.ne_nil hb.up_notMem hp.ne_nil hp.up_notMem hm
      exact .inl ⟨fs₂, hdone, ht₂, read_performAll hdone⟩

lemma prepares_begun (p : Path) (d : Document) {i : Nat} (hi : i < 3) (k : Nat) :
    ∀ s ∈ stepsUntil i k (steps p d), s.Prepares p := by
  match i, hi with
  | 0, _ => simp [stepsUntil, steps, Step.begun, Step.Prepares, List.take_prefix]
  | 1, _ => simp [stepsUntil, steps, Step.begun, Step.Prepares]
  | 2, _ => simp [stepsUntil, steps, Step.begun, Step.Prepares]

lemma put_fst (f : File) (fs : FileSystem) (b : Batch) :
    (f.put fs b).1 = (performAll fs (steps f.path (f.document.apply b))).1 := by
  rw [put]
  rcases performAll fs (steps f.path (f.document.apply b)) with ⟨fs', ⟨⟩ | ⟨⟩⟩ <;> rfl

lemma stopped_of_le {i : Nat} (hi : 3 ≤ i) (f : File) (fs : FileSystem) (b : Batch) (k : Nat) :
    f.stopped fs b i k = (f.put fs b).1 := by
  have hs : ∀ d, stepsUntil i k (steps f.path d) = steps f.path d := by
    intro d
    rw [stepsUntil, List.take_of_length_le (by simpa [steps] using hi),
      List.getElem?_eq_none (by simpa [steps] using hi)]
    simp
  rw [stopped, hs, put_fst]

lemma stopped_sameAt (hp : f.path.IsPlain) (ht : fs.IsTree) {i : Nat} (hi : i < 3) (b : Batch)
    (k : Nat) : (f.stopped fs b i k).IsTree ∧ SameAt f.path fs (f.stopped fs b i k) :=
  performAll_sameAt hp (prepares_begun _ _ hi k) ht

lemma isTree_put (hp : f.path.IsPlain) (ht : fs.IsTree) (b : Batch) : (f.put fs b).1.IsTree := by
  rw [put_fst]
  obtain ⟨fs', h, ht', -⟩ | ⟨fs', e, h, ht', -⟩ := performAll_steps hp ht (f.document.apply b)
  · rwa [h]
  · rwa [h]

lemma load_congr (h : SameAt p fs fs') : load fs' p = load fs p := by
  rw [load, load, h.read]

lemma load_of_entry (hp : p.IsPlain) (hf : p.asksDirectory = false) (ht : fs.IsTree)
    (he : fs.entry? p.parts = some (.file d.encode)) : load fs p = .ok ⟨p, d⟩ := by
  apply load_of_read
  rw [ht.read_of_entry hp.ne_nil hp.up_notMem he]
  simp only [FileSystem.Entry.reading, hf, Bool.false_eq_true, if_false]

lemma load_empty (hp : p.IsPlain) : load .empty p = .ok ⟨p, .empty⟩ := by
  have he : FileSystem.empty.entry? p.parts = none := FileSystem.entry?_empty hp.ne_nil
  have hr : FileSystem.empty.read p = .error .notFound := by
    obtain ⟨hr, -⟩ | ⟨-, q, -, c, hc⟩ :=
      FileSystem.isTree_empty.read_of_none hp.ne_nil hp.up_notMem he
    · exact hr
    · exact absurd hc (FileSystem.entry?_empty_ne_file q c)
  rw [load, hr]

/-- Wherever bringing a batch to the file stops, its path holds what it held before or the new
document as a whole. Where opening it found a document before, it finds this one afterwards or the
new one. -/
theorem stopped_whole (ht : fs.IsTree) (hp : f.path.IsPlain) (b : Batch) (i k : Nat) :
    (SameAt f.path fs (f.stopped fs b i k) ∨
      (f.stopped fs b i k).read f.path = .ok (f.document.apply b).encode) ∧
      ∀ g, load fs f.path = .ok g → load (f.stopped fs b i k) f.path = .ok g ∨
        load (f.stopped fs b i k) f.path = .ok ⟨f.path, f.document.apply b⟩ := by
  have h : SameAt f.path fs (f.stopped fs b i k) ∨
      (f.stopped fs b i k).read f.path = .ok (f.document.apply b).encode := by
    by_cases hi : i < 3
    · exact .inl (stopped_sameAt hp ht hi b k).2
    · rw [stopped_of_le (Nat.le_of_not_lt hi), put_fst]
      obtain ⟨fs', h, -, hr⟩ | ⟨fs', e, h, -, hs⟩ := performAll_steps hp ht (f.document.apply b)
      · exact .inr (by rwa [h])
      · exact .inl (by rwa [h])
  refine ⟨h, fun g hg => ?_⟩
  obtain hs | hr := h
  · exact .inl (by rw [load_congr hs, hg])
  · exact .inr (load_of_read hr)

theorem stopped_whole_in_writing : ∃ fs f,
    (File.mk ⟨"d/prefs.json"⟩ .empty).put .empty ⟨"g", [(.state ⟨1⟩, 0)]⟩ = (fs, f, .ok ()) ∧
      fs.IsTree ∧ f.path.IsPlain ∧ load fs f.path = .ok f ∧
      (load (f.stopped fs ⟨"g", [(.state ⟨1⟩, 1)]⟩ 1 7) f.path = .ok f ∨
        load (f.stopped fs ⟨"g", [(.state ⟨1⟩, 1)]⟩ 1 7) f.path =
          .ok ⟨f.path, f.document.apply ⟨"g", [(.state ⟨1⟩, 1)]⟩⟩) := by
  have hp : (⟨"d/prefs.json"⟩ : Path).IsPlain := ⟨by decide, by decide⟩
  rcases hr : (File.mk ⟨"d/prefs.json"⟩ .empty).put .empty ⟨"g", [(.state ⟨1⟩, 0)]⟩ with ⟨fs, f, r⟩
  have ht := isTree_put (f := ⟨⟨"d/prefs.json"⟩, .empty⟩) hp FileSystem.isTree_empty
    ⟨"g", [(.state ⟨1⟩, 0)]⟩
  have hok : ((File.mk ⟨"d/prefs.json"⟩ .empty).put .empty
      ⟨"g", [(.state ⟨1⟩, 0)]⟩).2.2 = .ok () := by rfl
  rw [hr] at ht hok
  obtain rfl := hok
  obtain ⟨hl, he⟩ := load_put hr
  have hp' : f.path.IsPlain := by rwa [he]
  exact ⟨fs, f, rfl, ht, hp', hl, (stopped_whole ht hp' ⟨"g", [(.state ⟨1⟩, 1)]⟩ 1 7).2 f hl⟩

end CallWaiting.Preference.File
