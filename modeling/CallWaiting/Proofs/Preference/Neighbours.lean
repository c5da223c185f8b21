import Mathlib.Logic.Function.Basic
import CallWaiting.Proofs.Preference.Session

namespace CallWaiting.Preference

open FileSystem (Path SameAt Furnishes Location)
open File (temporary load)
open Session (Move Sound ConfinedTo scratch? scratch?_eq_some_iff)

/-- Nothing that is done for the first path makes a difference at the second, or to what is written
for it. -/
structure StaysClear (p q : Path) : Prop where
  above : ¬ q.parts <+: p.parts
  scratch : ∀ t, scratch? p = some t → ¬ t <+: q.parts ∧ scratch? q ≠ some t

instance {p q : Path} : Decidable (StaysClear p q) :=
  decidable_of_iff
    (¬ q.parts <+: p.parts ∧ ∀ t ∈ scratch? p, ¬ t <+: q.parts ∧ scratch? q ≠ some t)
    ⟨fun h => ⟨h.1, h.2⟩, fun h => ⟨h.above, h.scratch⟩⟩

namespace Session

variable {fs fs' : FileSystem} {p q : Path} {t : Location} {content : ByteArray}

lemma not_prefix_scratch (hp : p.IsPlain) (hs : StaysClear p q) (ht : scratch? p = some t) :
    ¬ q.parts <+: t := by
  intro hq
  obtain ⟨hb, he⟩ := (scratch?_eq_some_iff hp).1 ht
  by_cases hqt : q.parts = t
  · have hself : t <+: q.parts := by simp only [hqt, List.prefix_refl]
    exact (hs.scratch t ht).1 hself
  · have hd := FileSystem.prefix_dropLast hq hqt
    rw [he, hb.front] at hd
    exact hs.above (hd.trans (List.dropLast_prefix _))

lemma ConfinedTo.sameAt (h : ConfinedTo p fs fs') (ht : fs.IsTree) (hp : p.IsPlain) (hq : q.IsPlain)
    (hs : StaysClear p q) (hs' : StaysClear q p) : SameAt q fs fs' := by
  have hbelow : ∀ l, q.parts <+: l → fs'.entry? l = fs.entry? l := by
    intro l hl
    obtain he | rfl | hscratch | ⟨hd, -, -⟩ := h.entry l
    · exact he
    · exact absurd hl hs.above
    · exact absurd hl (not_prefix_scratch hp hs hscratch)
    · exact absurd (hl.trans (hd.trans (List.dropLast_prefix _))) hs.above
  have habove : ∀ l, l <+: q.parts →
      ∀ c, fs'.entry? l = some (.file c) ↔ fs.entry? l = some (.file c) := by
    intro l hl c
    obtain he | rfl | hscratch | ⟨-, hn, hd⟩ := h.entry l
    · rw [he]
    · exact absurd hl hs'.above
    · exact absurd hl (hs.scratch l hscratch).1
    · simp [hn, hd]
  exact ⟨ht.read_congr h.tree hq.ne_nil hq.up_notMem (hbelow _ (List.prefix_refl _)) habove, hbelow⟩

lemma ConfinedTo.scratch (h : ConfinedTo p fs fs') (hs : StaysClear p q) (hs' : StaysClear q p)
    (ht : scratch? q = some t) (hc : fs.entry? t = some (.file content)) :
    fs'.entry? t = some (.file content) := by
  obtain he | rfl | hscratch | ⟨-, hn, -⟩ := h.entry t
  · rw [he, hc]
  · exact absurd (List.prefix_refl _) (hs'.scratch _ ht).1
  · exact absurd ht (hs.scratch _ hscratch).2
  · rw [hn] at hc
    cases hc

end Session

structure Neighbours (ι : Type) where
  disk : FileSystem
  sessions : ι → Session

namespace Neighbours

variable {ι : Type} [DecidableEq ι] {s : Neighbours ι} {fs fs' : FileSystem} {i j : ι}
  {paths : ι → Path} {docs : ι → Document}

def opened (fs : FileSystem) (files : ι → File) : Neighbours ι :=
  ⟨fs, fun i => .opened (files i)⟩

def step (s : Neighbours ι) (i : ι) (m : Move) : Neighbours ι :=
  let (fs, c) := (s.sessions i).move s.disk m
  ⟨fs, Function.update s.sessions i c⟩

def run (s : Neighbours ι) (ms : List (ι × Move)) : Neighbours ι :=
  ms.foldl (fun s m => s.step m.1 m.2) s

structure Undisturbed (paths : ι → Path) (docs : ι → Document) (s : Neighbours ι) : Prop where
  found : ∀ i, load s.disk (paths i) =
    .ok ⟨paths i, (docs i).applyAll (s.sessions i).acknowledged⟩
  same : ∀ i m j, j ≠ i → SameAt (paths j) s.disk (s.step i m).disk

structure AllSound (paths : ι → Path) (docs : ι → Document) (s : Neighbours ι) : Prop where
  tree : s.disk.IsTree
  session : ∀ i, Sound (paths i) (docs i) s.disk (s.sessions i)

lemma AllSound.confinedTo (hp : ∀ i, (paths i).IsPlain) (h : AllSound paths docs s) (i : ι) (m : Move) :
    Sound (paths i) (docs i) (s.step i m).disk ((s.step i m).sessions i) ∧
      ConfinedTo (paths i) s.disk (s.step i m).disk := by
  have hs : (s.step i m).sessions i = ((s.sessions i).move s.disk m).2 := Function.update_self ..
  rw [hs]
  exact (h.session i).comes (hp i) h.tree (Session.comes_move _ _ m)

lemma AllSound.sameAt (hp : ∀ i, (paths i).IsPlain)
    (hs : ∀ i j, i ≠ j → StaysClear (paths i) (paths j)) (h : AllSound paths docs s) (m : Move)
    (hji : j ≠ i) : SameAt (paths j) s.disk (s.step i m).disk :=
  (h.confinedTo hp i m).2.sameAt h.tree (hp i) (hp j) (hs i j hji.symm) (hs j i hji)

lemma AllSound.step (hp : ∀ i, (paths i).IsPlain)
    (hs : ∀ i j, i ≠ j → StaysClear (paths i) (paths j)) (h : AllSound paths docs s) (i : ι) (m : Move) :
    AllSound paths docs (s.step i m) := by
  obtain ⟨hown, hconfined⟩ := h.confinedTo hp i m
  refine ⟨hconfined.tree, fun j => ?_⟩
  by_cases hji : j = i
  · subst hji
    exact hown
  · have hc : (s.step i m).sessions j = s.sessions j := Function.update_of_ne hji ..
    obtain ⟨hfile, hfound, hready⟩ := h.session j
    rw [hc]
    refine ⟨hfile, (File.load_congr (h.sameAt hp hs m hji)).trans hfound, fun b hb => ?_⟩
    obtain ⟨t, ht, hcontent⟩ := hready b hb
    exact ⟨t, ht, hconfined.scratch (hs i j (Ne.symm hji)) (hs j i hji) ht hcontent⟩

lemma AllSound.run (hp : ∀ i, (paths i).IsPlain)
    (hs : ∀ i j, i ≠ j → StaysClear (paths i) (paths j)) (h : AllSound paths docs s)
    (ms : List (ι × Move)) : AllSound paths docs (s.run ms) := by
  induction ms generalizing s with
  | nil => exact h
  | cons m ms ih => exact ih (h.step hp hs m.1 m.2)

lemma AllSound.undisturbed (hp : ∀ i, (paths i).IsPlain)
    (hs : ∀ i j, i ≠ j → StaysClear (paths i) (paths j)) (h : AllSound paths docs s) :
    Undisturbed paths docs s :=
  ⟨fun i => (h.session i).found.trans (congrArg _ (h.session i).file),
    fun _ m _ hji => h.sameAt hp hs m hji⟩

end Neighbours

end CallWaiting.Preference
