import Mathlib.Data.List.Forall2
import CallWaiting.Proofs.Json.Compact

namespace CallWaiting.Json

lemma arePrintable_iff {js : List Json} : ArePrintable js ↔ ∀ j ∈ js, IsPrintable j := by
  induction js with
  | nil => simp [ArePrintable]
  | cons j js ih => simp [ArePrintable, ih]

structure IsWritten (j : Json) : Prop where
  isPrintable : j.IsPrintable
  isText : Octets.IsText (compact j)

section Trees

variable {js : List Json} {fields : List (String × Json)}

lemma isWritten_null : IsWritten null := ⟨trivial, Octets.IsAscii.isText (by decide)⟩

lemma isWritten_bool (b : Bool) : IsWritten (bool b) := by
  refine ⟨trivial, Octets.IsAscii.isText ?_⟩
  cases b <;> decide

lemma isWritten_ofInt (i : Int) : IsWritten (ofInt i) := by
  have hd : ∀ n : Nat, Octets.IsAscii (Nat.toDigits 10 n) := fun n c hc =>
    (Token.toNat_lt_of_isDigit (Numeral.all_isDigit_toDigits n c hc)).2
  refine ⟨⟨i, rfl⟩, ?_⟩
  change Octets.IsText (Numeral.ofInt i)
  rcases Numeral.ofInt_cases i with ⟨n, -, h⟩ | ⟨n, -, -, h⟩
  · rw [h]
    exact (hd n).isText
  · rw [h]
    exact (hd n).isText.cons (by decide)

lemma isText_quoted {body : Octets} (h : body.IsText) : Octets.IsText (quoted body) :=
  (h.append (Octets.IsAscii.isText (o := ['"']) (by decide))).cons (by decide)

lemma isWritten_ofText (s : String) : IsWritten (ofText s) :=
  ⟨Token.isBody_ofText s, isText_quoted (Escape.isText_ofText s)⟩

lemma isText_compactItems (h : ∀ j ∈ js, Octets.IsText (compact j)) :
    Octets.IsText (compactItems js) := by
  induction js with
  | nil => exact Octets.isText_nil
  | cons j js ih =>
    have hj : Octets.IsText (compact j) := h j List.mem_cons_self
    have hjs := ih fun j' hj' => h j' (List.mem_cons_of_mem j hj')
    cases js with
    | nil => exact hj
    | cons j' js => exact hj.append (hjs.cons (by decide))

lemma isText_compactMembers (h : ∀ f ∈ fields, Octets.IsText (compact f.2)) :
    Octets.IsText (compactMembers (fields.map fun f => (Escape.ofText f.1, f.2))) := by
  induction fields with
  | nil => exact Octets.isText_nil
  | cons f fs ih =>
    have hk : Octets.IsText (quoted (Escape.ofText f.1)) := isText_quoted (Escape.isText_ofText f.1)
    have hf : Octets.IsText (compact f.2) := h f List.mem_cons_self
    have hfs := ih fun f' hf' => h f' (List.mem_cons_of_mem f hf')
    cases fs with
    | nil => exact hk.append (hf.cons (by decide))
    | cons f' fs =>
      have hm := hk.append ((hf.append (hfs.cons (c := ',') (by decide))).cons (c := ':') (by decide))
      simpa [compactMembers] using hm

lemma isWritten_array (h : ∀ j ∈ js, IsWritten j) : IsWritten (array js) := by
  have hb : Octets.IsText [']'] := Octets.IsAscii.isText (by decide)
  exact ⟨arePrintable_iff.2 fun j hj => (h j hj).isPrintable,
    ((isText_compactItems fun j hj => (h j hj).isText).append hb).cons (by decide)⟩

lemma isWritten_record (h : ∀ f ∈ fields, IsWritten f.2) : IsWritten (record fields) := by
  have hb : Octets.IsText ['}'] := Octets.IsAscii.isText (by decide)
  refine ⟨hasPrintable_iff.2 fun m hm => ?_,
    ((isText_compactMembers fun f hf => (h f hf).isText).append hb).cons (by decide)⟩
  obtain ⟨f, hf, rfl⟩ := List.mem_map.1 hm
  exact ⟨Token.isBody_ofText f.1, (h f hf).isPrintable⟩

end Trees

class LawfulForm (α : Type) [Form α] : Prop where
  isWritten (x : α) : IsWritten (toJson x)
  ofJson?_toJson (x : α) : ofJson? (toJson x) = some x

attribute [simp] LawfulForm.ofJson?_toJson

class SolidForm (α : Type) [Form α] : Prop where
  toJson_ne_null (x : α) : toJson x ≠ null

instance : LawfulForm Int32 where
  isWritten i := isWritten_ofInt i.toInt
  ofJson?_toJson i := by
    change (int? (Numeral.ofInt i.toInt)).bind Numeral.int32? = some i
    rw [int?_ofInt, Option.bind_some, Numeral.int32?_toInt]

instance : LawfulForm UInt32 where
  isWritten i := isWritten_ofInt i.toNat
  ofJson?_toJson i := by
    change (int? (Numeral.ofInt i.toNat)).bind Numeral.uint32? = some i
    rw [int?_ofInt, Option.bind_some, Numeral.uint32?_toNat]

instance : LawfulForm Bool where
  isWritten := isWritten_bool
  ofJson?_toJson _ := rfl

instance : LawfulForm String where
  isWritten := isWritten_ofText
  ofJson?_toJson := Escape.text?_ofText

section Containers

variable {α : Type} [Form α] [LawfulForm α]

instance : LawfulForm (List α) where
  isWritten xs := by
    refine isWritten_array fun j hj => ?_
    obtain ⟨x, -, rfl⟩ := List.mem_map.1 hj
    exact LawfulForm.isWritten x
  ofJson?_toJson xs := by
    change (xs.map toJson).mapM ofJson? = some xs
    have hx : (ofJson? ∘ toJson : α → Option α) = pure := funext LawfulForm.ofJson?_toJson
    rw [List.mapM_map, hx, List.mapM_pure]
    simp

omit [LawfulForm α] in
lemma ofJson?_of_ne_null {j : Json} (h : j ≠ null) :
    (ofJson? j : Option (Option α)) = (ofJson? j).map some := by
  cases j with
  | null => exact absurd rfl h
  | _ => rfl

instance [SolidForm α] : LawfulForm (Option α) where
  isWritten
    | some x => LawfulForm.isWritten x
    | none => isWritten_null
  ofJson?_toJson
    | some x => by
      have hx : ofJson? (toJson x) = some x := LawfulForm.ofJson?_toJson x
      exact (ofJson?_of_ne_null (SolidForm.toJson_ne_null x)).trans (by rw [hx, Option.map_some])
    | none => rfl

end Containers

instance : SolidForm Int32 := ⟨nofun⟩
instance : SolidForm Bool := ⟨nofun⟩
instance : SolidForm String := ⟨nofun⟩
instance {α : Type} [Form α] : SolidForm (List α) := ⟨nofun⟩

section Records

variable {fields named : List (String × Json)} {j : Json}

/-- The trees in which a record can be given: the array of its fields, and an object that has each of
them once, in any order and among members of other names. -/
inductive Gives (fields : List (String × Json)) : Json → Prop where
  | array : Gives fields (array (fields.map (·.2)))
  | object {members : List (Octets × Json)} {named : List (String × Json)}
      (hn : List.Forall₂ (fun m n => Escape.text? m.1 = some n.1 ∧ m.2 = n.2) members named)
      (hp : (named.filter fun n => n.1 ∈ fields.map (·.1)).Perm fields) :
      Gives fields (object members)

lemma mapM_of_forall₂ {α β : Type} {f : α → Option β} {xs : List α} {ys : List β}
    (h : List.Forall₂ (fun x y => f x = some y) xs ys) : xs.mapM f = some ys := by
  induction h with
  | nil => rfl
  | cons hx _ ih => simp [List.mapM_cons, hx, ih]

lemma filter_name (hn : (fields.map (·.1)).Nodup) {f : String × Json} (hf : f ∈ fields) :
    fields.filter (·.1 = f.1) = [f] := by
  induction fields with
  | nil => cases hf
  | cons g gs ih =>
    rw [List.map_cons, List.nodup_cons] at hn
    obtain ⟨hg, hgs⟩ := hn
    obtain rfl | hf := List.mem_cons.1 hf
    · have hnone : gs.filter (·.1 = f.1) = [] := by
        refine List.filter_eq_nil_iff.2 fun h hh => ?_
        rw [decide_eq_true_eq]
        exact fun he => hg (he ▸ List.mem_map_of_mem hh)
      rw [List.filter_cons_of_pos (by simp), hnone]
    · have hne : g.1 ≠ f.1 := fun he => hg (he ▸ List.mem_map_of_mem hf)
      rw [List.filter_cons_of_neg (by simpa using hne), ih hgs hf]

lemma lookup?_of_perm (hn : (fields.map (·.1)).Nodup)
    (hp : (named.filter fun n => n.1 ∈ fields.map (·.1)).Perm fields) {f : String × Json}
    (hf : f ∈ fields) : lookup? named f.1 = some (some f.2) := by
  -- a member of another name than the fields have is not looked at
  have hk : named.filter (·.1 = f.1) =
      (named.filter fun n => n.1 ∈ fields.map (·.1)).filter (·.1 = f.1) := by
    rw [List.filter_filter]
    refine List.filter_congr fun n _ => ?_
    by_cases h : n.1 = f.1
    · simp [h, List.mem_map_of_mem hf]
    · simp [h]
  have hs : named.filter (·.1 = f.1) = [f] := by
    rw [hk]
    exact List.perm_singleton.1 (filter_name hn hf ▸ hp.filter _)
  rw [lookup?, hs]

lemma fields?_of_gives (hn : (fields.map (·.1)).Nodup) (h : Gives fields j) :
    fields? (fields.map (·.1)) j = some (fields.map fun f => some f.2) := by
  cases h with
  | array => simp [fields?]
  | @object members named hm hp =>
    have hd : members.mapM (fun m => (Escape.text? m.1).bind fun k => some (k, m.2)) =
        some named := by
      refine mapM_of_forall₂ (hm.imp ?_)
      rintro m n ⟨hk, hj⟩
      rw [hk, hj, Option.bind_some]
    have hl : (fields.map (·.1)).mapM (lookup? named) = some (fields.map fun f => some f.2) := by
      rw [List.mapM_map]
      refine mapM_of_forall₂ (List.forall₂_map_right_iff.2 (List.forall₂_same.2 fun f hf => ?_))
      exact lookup?_of_perm hn hp hf
    exact (congrArg (Option.bind · _) hd).trans hl

lemma gives_record (fields : List (String × Json)) : Gives fields (record fields) := by
  refine .object (List.forall₂_map_left_iff.2 (List.forall₂_same.2 fun f _ => ?_)) (.of_eq ?_)
  · exact ⟨Escape.text?_ofText f.1, rfl⟩
  · exact List.filter_eq_self.2 fun f hf => by simpa using ⟨f.2, hf⟩

lemma record_injective : Function.Injective record := by
  intro fs gs h
  refine List.map_injective_iff.2 ?_ (Json.object.inj h)
  rintro ⟨n, j⟩ ⟨n', j'⟩ he
  obtain ⟨hn, rfl⟩ := Prod.mk.inj he
  have hs : some n = some n' := by rw [← Escape.text?_ofText n, hn, Escape.text?_ofText]
  rw [Option.some.inj hs]

structure IsRecord {α : Type} [Form α] (x : α) (fields : List (String × Json)) : Prop where
  toJson_eq : toJson x = record fields
  nodup : (fields.map (·.1)).Nodup
  isWritten : ∀ f ∈ fields, IsWritten f.2
  reads : ∀ j, fields? (fields.map (·.1)) j = some (fields.map fun f => some f.2) → ofJson? j = some x

variable {α : Type} [Form α] {x : α}

lemma IsRecord.reads_of_gives (h : IsRecord x fields) (hj : Gives fields j) : ofJson? j = some x :=
  h.reads j (fields?_of_gives h.nodup hj)

lemma IsRecord.of_build {names : List String} {build : List (Option Json) → Option α}
    (ho : ∀ j, (ofJson? j : Option α) = (fields? names j).bind build)
    (ht : toJson x = record fields) (hn : fields.map (·.1) = names) (hd : names.Nodup)
    (hw : ∀ f ∈ fields, IsWritten f.2) (hb : build (fields.map fun f => some f.2) = some x) :
    IsRecord x fields where
  toJson_eq := ht
  nodup := hn ▸ hd
  isWritten := hw
  reads j hj := by
    rw [ho, ← hn, hj, Option.bind_some, hb]

@[simp] lemma required_toJson [LawfulForm α] (x : α) : required (some (toJson x)) = some x :=
  LawfulForm.ofJson?_toJson x

@[simp] lemma optional_toJson [LawfulForm α] (x y : α) : optional y (some (toJson x)) = some x :=
  LawfulForm.ofJson?_toJson x

lemma LawfulForm.of_records (h : ∀ x : α, ∃ fields, IsRecord x fields) : LawfulForm α where
  isWritten x := by
    obtain ⟨fields, hx⟩ := h x
    rw [hx.toJson_eq]
    exact isWritten_record hx.isWritten
  ofJson?_toJson x := by
    obtain ⟨fields, hx⟩ := h x
    rw [hx.toJson_eq]
    exact hx.reads_of_gives (gives_record fields)

end Records

lemma LawfulForm.of_inner {α β : Type} [Form α] [Form β] [LawfulForm β] (inner : α → β)
    (ofInner? : β → Option α) (ht : ∀ x : α, toJson x = toJson (inner x))
    (ho : ∀ j, (ofJson? j : Option α) = (ofJson? j).bind ofInner?)
    (hi : ∀ x, ofInner? (inner x) = some x) : LawfulForm α where
  isWritten x := by
    rw [ht]
    exact LawfulForm.isWritten (inner x)
  ofJson?_toJson x := by
    rw [ho, ht, LawfulForm.ofJson?_toJson, Option.bind_some, hi]

lemma caseName?_toJson (s : String) : (toJson s).caseName? = some s :=
  Escape.text?_ofText s

section Texts

variable (α : Type) [Form α] [LawfulForm α]

lemma isText_compactText (x : α) : Octets.IsText (compactText x) :=
  (LawfulForm.isWritten x).isText

theorem parse?_compactText (x : α) : parse? (compactText x) = some x := by
  rw [parse?, compactText, read?_compact _ (LawfulForm.isWritten x).isPrintable, Option.bind_some,
    LawfulForm.ofJson?_toJson]

end Texts

/-- What is written for a value is a text that gives it back, also if the value was first read from
some other text. -/
structure RoundTrips (α : Type) [Form α] : Prop where
  isText (x : α) : Octets.IsText (compactText x)
  back (x : α) : parse? (compactText x) = some x
  again (cs : Octets) (x : α) : parse? cs = some x → (parse? (compactText x) : Option α) = parse? cs

structure RecordRoundTrips (α : Type) [Form α] : Prop extends RoundTrips α where
  isRecord (x : α) : ∃ fields, toJson x = record fields
  given (x : α) (fields : List (String × Json)) (cs : Octets) (j : Json) :
    toJson x = record fields → read? cs = some j → Gives fields j → parse? cs = some x

lemma roundTrips (α : Type) [Form α] [LawfulForm α] : RoundTrips α where
  isText := isText_compactText α
  back := parse?_compactText α
  again _ x h := (parse?_compactText α x).trans h.symm

lemma recordRoundTrips {α : Type} [Form α] {fields : α → List (String × Json)}
    (h : ∀ x, IsRecord x (fields x)) : RecordRoundTrips α where
  toRoundTrips :=
    have : LawfulForm α := .of_records fun x => ⟨_, h x⟩
    roundTrips α
  isRecord x := ⟨fields x, (h x).toJson_eq⟩
  given x fs cs j hx hr hj := by
    have hf : fs = fields x := record_injective (hx.symm.trans (h x).toJson_eq)
    rw [parse?, hr, Option.bind_some]
    exact (h x).reads_of_gives (hf ▸ hj)

end CallWaiting.Json
