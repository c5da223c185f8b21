import CallWaiting.Proofs.Preference.Lifetime

/-!
One text for every document. A document that batches have built up from nothing is told by the
numbers in it, so that two files whose stores answer alike hold the same octets, whatever way the
numbers came into them.
-/

namespace CallWaiting.Preference

section Answers

variable {α β ι ν : Type} [Ord α] [Std.TransOrd α] [Std.LawfulEqOrd α]

lemma eq_of_answers {m m' : Std.ExtTreeMap α β} {P : β → Prop} (read : β → ι → Option ν)
    (hs : ∀ b, P b → ∃ i, read b i ≠ none)
    (he : ∀ b b', P b → P b' → (∀ i, read b i = read b' i) → b = b')
    (hm : ∀ (a : α) (b : β), m[a]? = some b → P b)
    (hm' : ∀ (a : α) (b : β), m'[a]? = some b → P b)
    (h : ∀ (a : α) (i : ι), m[a]?.bind (read · i) = m'[a]?.bind (read · i)) : m = m' := by
  apply Std.ExtTreeMap.ext_getElem?
  intro a
  have h := h a
  cases hb : m[a]? with
  | none =>
    cases hb' : m'[a]? with
    | none => rfl
    | some b' =>
      obtain ⟨i, hi⟩ := hs b' (hm' a b' hb')
      simp only [hb, hb', Option.bind_none, Option.bind_some] at h
      exact absurd (h i).symm hi
  | some b =>
    cases hb' : m'[a]? with
    | none =>
      obtain ⟨i, hi⟩ := hs b (hm a b hb)
      simp only [hb, hb', Option.bind_none, Option.bind_some] at h
      exact absurd (h i) hi
    | some b' =>
      simp only [hb, hb', Option.bind_some] at h
      rw [he b b' (hm a b hb) (hm' a b' hb') h]

end Answers

def Fields.get? (fields : Fields) (k : Key) : Option Int32 :=
  fields[k.field]?.bind fun scopes => scopes[k.scope]?

structure Fields.IsTight (fields : Fields) : Prop where
  number : ∃ k, Fields.get? fields k ≠ none
  scope : ∀ (f : Field) (scopes : Scopes), fields[f]? = some scopes → ∃ n : Int32, scopes[n]? ≠ none

namespace Document

variable {d d' : Document} {group : String} {k : Key} {v : Int32} {b : Batch}

def IsTight (d : Document) : Prop :=
  ∀ (group : String) (fields : Fields), d.groups[group]? = some fields → Fields.IsTight fields

lemma isTight_empty : IsTight empty := by
  intro group fields h
  simp [empty] at h

lemma IsTight.insert (hd : d.IsTight) (group : String) (k : Key) (v : Int32) :
    (d.insert group k v).IsTight := by
  intro group' fields h
  simp only [Document.insert, Std.ExtTreeMap.getElem?_insert, Std.compare_eq_iff_eq] at h
  split at h
  · obtain rfl := Option.some.inj h
    refine ⟨⟨k, by simp [Fields.get?]⟩, fun f scopes hf => ?_⟩
    simp only [Std.ExtTreeMap.getElem?_insert, Std.compare_eq_iff_eq] at hf
    split at hf
    · obtain rfl := Option.some.inj hf
      exact ⟨k.scope, by simp⟩
    · -- another field is there only if it was there before
      cases hg : d.groups[group]? with
      | none => simp [hg] at hf
      | some fields =>
        rw [hg, Option.getD_some] at hf
        exact (hd group fields hg).scope f scopes hf
  · exact hd group' fields h

lemma IsTight.apply (hd : d.IsTight) (b : Batch) : (d.apply b).IsTight := by
  rw [Document.apply]
  induction b.entries generalizing d with
  | nil => exact hd
  | cons e es ih => exact ih (hd.insert b.group e.1 e.2)

lemma eq_of_get? (hd : d.IsTight) (hd' : d'.IsTight)
    (h : ∀ group k, d.get? group k = d'.get? group k) : d = d' := by
  have hf : ∀ fields fields' : Fields, Fields.IsTight fields → Fields.IsTight fields' →
      (∀ k, Fields.get? fields k = Fields.get? fields' k) → fields = fields' := by
    intro fields fields' ht ht' hk
    refine eq_of_answers (P := fun scopes : Scopes => ∃ n : Int32, scopes[n]? ≠ none)
      (fun scopes n => scopes[n]?) (fun _ hn => hn) (fun _ _ _ _ => Std.ExtTreeMap.ext_getElem?)
      ht.scope ht'.scope fun f n => hk ⟨f, n⟩
  have hg : d.groups = d'.groups :=
    eq_of_answers Fields.get? (fun _ ht => ht.number) hf hd hd' h
  exact congrArg mk hg

lemma encode_injective (h : d.encode = d'.encode) : d = d' := by
  have hd := decode?_encode d
  rw [h, decode?_encode] at hd
  exact (Option.some.inj hd).symm

end Document

namespace File

variable {fs fs' : FileSystem} {f f' : File} {b : Batch} {m : Option Mishap}

lemma putUntil_ok (h : f.putUntil fs b m = (fs', f', .ok ())) :
    f' = ⟨f.path, f.document.apply b⟩ ∧ fs'.read f.path = .ok f'.document.encode := by
  cases m with
  | none =>
    rw [putUntil_none] at h
    obtain ⟨hp, rfl⟩ := put_ok h
    exact ⟨rfl, read_performAll hp⟩
  | some m =>
    rw [putUntil, performUntil] at h
    rcases hr : performAll fs (stepsUntil m.step m.pieces (steps f.path (f.document.apply b))) with
      ⟨fs'', e | u⟩ <;> simp [hr, settle] at h

lemma putUntil_file (f : File) (fs : FileSystem) (b : Batch) (m : Option Mishap) :
    (f.putUntil fs b m).2.1 = f ∨ (f.putUntil fs b m).2.1 = ⟨f.path, f.document.apply b⟩ := by
  rcases h : f.putUntil fs b m with ⟨fs', f', e | u⟩
  · rw [putUntil] at h
    rcases hr : performUntil fs (steps f.path (f.document.apply b)) m with ⟨fs'', e | u⟩ <;>
      simp only [hr, settle, Prod.mk.injEq, reduceCtorEq, and_false] at h
    exact .inl h.2.1.symm
  · exact .inr (putUntil_ok h).1

lemma putUntil_bare (d : Document) (b : Batch) :
    ((File.mk ⟨"a.json"⟩ d).putUntil .empty b none).2.2 = .ok () := by
  have hm : FileSystem.empty.makeAll (FileSystem.Path.mk "a.json").parts.dropLast = .ok .empty := by
    rfl
  have hw : ∀ c, FileSystem.empty.write (temporary ⟨"a.json"⟩) c =
      .ok (FileSystem.empty.put ["a.json.tmp"] (.file c)) := fun c => by rfl
  have hr : ∀ c, ∃ fs, (FileSystem.empty.put ["a.json.tmp"] (.file c)).rename
      (temporary ⟨"a.json"⟩) ⟨"a.json"⟩ = .ok fs := fun c => ⟨_, by rfl⟩
  obtain ⟨fs, hr⟩ := hr (d.apply b).encode
  simp only [putUntil, performUntil, steps, performAll, Step.perform, hm, hw, hr, settle]

end File

namespace Lifetime

variable {s : Lifetime} {fs fs' : FileSystem} {p q : FileSystem.Path} {f f' : File}

structure IsGrown (p : FileSystem.Path) (f : File) : Prop where
  path : f.path = p
  tight : f.document.IsTight

lemma IsGrown.step (h : IsGrown p s.file) (e : Event) : IsGrown p (s.step e).file := by
  cases e with
  | outside fs => exact h
  | batch b m =>
    have hf : (s.step (.batch b m)).file = (s.file.putUntil s.disk b m).2.1 := by
      rw [Lifetime.step]
      rcases s.file.putUntil s.disk b m with ⟨fs', f', e | u⟩ <;> rfl
    rw [hf]
    obtain h' | h' := s.file.putUntil_file s.disk b m
    · rwa [h']
    · rw [h']
      exact ⟨h.path, h.tight.apply b⟩

lemma IsGrown.run (h : IsGrown p s.file) (es : List Event) : IsGrown p (s.run es).file := by
  induction es generalizing s with
  | nil => exact h
  | cons e es ih => exact ih (h.step e)

/-- A store that was opened empty at a path, has been through any events, and has just taken a
batch, with the file system as it is then. -/
def Written (p : FileSystem.Path) (fs : FileSystem) (f : File) : Prop :=
  ∃ fs₀ f₀ es b m, File.load fs₀ p = .ok f₀ ∧ f₀.document = .empty ∧
    ((opened fs₀ f₀).run es).file.putUntil ((opened fs₀ f₀).run es).disk b m = (fs, f, .ok ())

lemma isGrown_opened (hl : File.load fs p = .ok f) (he : f.document = .empty) :
    IsGrown p (opened fs f).file := by
  refine ⟨File.load_path hl, ?_⟩
  change f.document.IsTight
  rw [he]
  exact Document.isTight_empty

lemma written (hl : File.load fs p = .ok f) (he : f.document = .empty) (es : List Event) (b : Batch)
    (m : Option Mishap) (h : (((opened fs f).run es).file.putUntil
      ((opened fs f).run es).disk b m).2.2 = .ok ()) :
    ∃ fs', Written p fs' ⟨p, ((opened fs f).run es).file.document.apply b⟩ := by
  rcases hp : ((opened fs f).run es).file.putUntil ((opened fs f).run es).disk b m with ⟨fs', f', r⟩
  rw [hp] at h
  obtain rfl : r = .ok () := h
  have hf := (File.putUntil_ok hp).1
  rw [((isGrown_opened hl he).run es).path] at hf
  exact ⟨fs', fs, f, es, b, m, hl, he, hf ▸ hp⟩

lemma Written.grown (h : Written p fs f) :
    IsGrown p f ∧ fs.read p = .ok f.document.encode := by
  obtain ⟨fs₀, f₀, es, b, m, hl, he, hp⟩ := h
  have h₁ := (isGrown_opened hl he).run es
  obtain ⟨rfl, hr⟩ := File.putUntil_ok hp
  rw [h₁.path] at hr
  exact ⟨⟨h₁.path, h₁.tight.apply b⟩, hr⟩

lemma document_eq_of_get
    (h : ∀ group k default,
      (Store.file f).get group k default = (Store.file f').get group k default)
    (group : String) (k : Key) : f.document.get? group k = f'.document.get? group k := by
  -- two defaults are enough to tell an absent number from any that is there
  have h₀ : (f.document.get? group k).getD 0 = (f'.document.get? group k).getD 0 := h group k 0
  have h₁ : (f.document.get? group k).getD 1 = (f'.document.get? group k).getD 1 := h group k 1
  cases hf : f.document.get? group k with
  | none =>
    cases hf' : f'.document.get? group k with
    | none => rfl
    | some v =>
      simp only [hf, hf', Option.getD_none, Option.getD_some] at h₀ h₁
      exact absurd (h₀.trans h₁.symm) (by decide)
  | some v =>
    cases hf' : f'.document.get? group k with
    | none =>
      simp only [hf, hf', Option.getD_none, Option.getD_some] at h₀ h₁
      exact absurd (h₀.symm.trans h₁) (by decide)
    | some v' =>
      simp only [hf, hf', Option.getD_some] at h₀
      rw [h₀]

/-- A document is read back as it was written, and what opening reads from any octets is read back
once it has been written. The files of two stores that began empty hold the same octets behind a
batch just if the stores answer alike, whatever became of the batches before and in whatever order
and grouping they came. -/
theorem encode_canonical :
    (∀ d : Document, Document.decode? d.encode = some d) ∧
    (∀ fs p content f, FileSystem.read fs p = .ok content → content.size ≠ 0 →
      File.load fs p = .ok f → Document.decode? content = some f.document ∧
        Document.decode? f.document.encode = Document.decode? content) ∧
    ∀ p fs f q fs' f', Written p fs f → Written q fs' f' →
      ((∀ group k default,
          (Store.file f).get group k default = (Store.file f').get group k default) ↔
        ∃ content, fs.read p = .ok content ∧ fs'.read q = .ok content) := by
  refine ⟨Document.decode?_encode, fun fs p content f hr hn hl => ?_, fun p fs f q fs' f' h h' => ?_⟩
  · rw [File.load, hr] at hl
    simp only [if_neg hn] at hl
    split at hl <;> cases hl
    rename_i hd
    exact ⟨hd, by rw [hd, Document.decode?_encode]⟩
  · obtain ⟨hg, hr⟩ := h.grown
    obtain ⟨hg', hr'⟩ := h'.grown
    constructor
    · intro ha
      have hd : f.document = f'.document :=
        Document.eq_of_get? hg.tight hg'.tight (document_eq_of_get ha)
      exact ⟨_, hr, by rw [hr', hd]⟩
    · rintro ⟨content, hc, hc'⟩ group k default
      have he : f.document.encode = f'.document.encode :=
        (Except.ok.inj (hr.symm.trans hc)).trans (Except.ok.inj (hr'.symm.trans hc')).symm
      change (f.document.get? group k).getD default = (f'.document.get? group k).getD default
      rw [Document.encode_injective he]

theorem encode_canonical_by_hand :
    (∃ content fs f, FileSystem.empty.write ⟨"a.json"⟩ content = .ok fs ∧
      File.load fs ⟨"a.json"⟩ = .ok f ∧
      Document.decode? f.document.encode = Document.decode? content) ∧
    ∃ fs f fs' f', Written ⟨"a.json"⟩ fs f ∧ Written ⟨"a.json"⟩ fs' f' ∧
      ∃ content, fs.read ⟨"a.json"⟩ = .ok content ∧ fs'.read ⟨"a.json"⟩ = .ok content := by
  obtain ⟨-, hopen, hsame⟩ := encode_canonical
  constructor
  · let content : ByteArray := String.toUTF8 "\x7b \"groups\": \x7b\"g\": \x7b\"state\": \x7b\"1\": 1,
      \"1\": 0\x7d, \"subId\": \x7b\"0\": 1\x7d\x7d\x7d\x7d"
    let fs : FileSystem := FileSystem.empty.put ["a.json"] (.file content)
    obtain ⟨d, hd⟩ : ∃ d, Document.decode? content = some d :=
      Option.isSome_iff_exists.1 (by decide +kernel)
    have hw : FileSystem.empty.write ⟨"a.json"⟩ content = .ok fs := by rfl
    have hr : fs.read ⟨"a.json"⟩ = .ok content := by rfl
    have hl : File.load fs ⟨"a.json"⟩ = .ok ⟨⟨"a.json"⟩, d⟩ := by
      rw [File.load, hr]
      simp only [hd]
      rfl
    exact ⟨content, fs, _, hw, hl, (hopen fs _ content _ hr (by decide) hl).2⟩
  · have hl : File.load .empty ⟨"a.json"⟩ = .ok ⟨⟨"a.json"⟩, .empty⟩ :=
      File.load_empty ⟨by decide, by decide⟩
    let b₁ : Batch := ⟨"g", [(.sync ⟨0⟩, 2)]⟩
    let b₂ : Batch := ⟨"g", [(.state ⟨1⟩, 1), (.state ⟨1⟩, 0)]⟩
    let b : Batch := ⟨"g", [(.sync ⟨0⟩, 2), (.state ⟨1⟩, 0)]⟩
    let s : Lifetime := (opened .empty ⟨⟨"a.json"⟩, .empty⟩).run [.batch b₁ none, .outside .empty]
    have hs : s.disk = .empty ∧ s.file = ⟨⟨"a.json"⟩, Document.empty.apply b₁⟩ := by
      rcases hp : (File.mk ⟨"a.json"⟩ .empty).putUntil .empty b₁ none with ⟨fs, f, r⟩
      obtain rfl : r = .ok () := by rw [← File.putUntil_bare .empty b₁, hp]
      simp only [s, run, List.foldl_cons, List.foldl_nil, step, opened, hp]
      exact ⟨trivial, (File.putUntil_ok hp).1⟩
    obtain ⟨fs, hw⟩ := written hl rfl [] b none (File.putUntil_bare _ b)
    obtain ⟨fs', hw'⟩ := written hl rfl [.batch b₁ none, .outside .empty] b₂ none
      (by rw [show (opened _ _).run _ = s from rfl, hs.1, hs.2]; exact File.putUntil_bare _ b₂)
    rw [show (opened _ _).run _ = s from rfl, hs.2] at hw'
    refine ⟨_, _, _, _, hw, hw', (hsame _ _ _ _ _ _ hw hw').1 fun group k default => ?_⟩
    change ((Document.empty.apply b).get? group k).getD default =
      (((Document.empty.apply b₁).apply b₂).get? group k).getD default
    congr 1
    simp only [Document.get?_apply, Batch.value?, b, b₁, b₂]
    by_cases hg : "g" = group
    · simp only [if_pos hg, List.reverse_cons, List.reverse_nil, List.nil_append, List.cons_append,
        List.lookup_cons]
      cases k == Key.state ⟨1⟩ <;> cases k == Key.sync ⟨0⟩ <;> rfl
    · simp only [if_neg hg, Option.none_or]

end Lifetime

end CallWaiting.Preference
