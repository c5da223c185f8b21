import CallWaiting.Proofs.Settings.Fields
import CallWaiting.Proofs.Settings.Names

/-!
A file as it lies in the tree. Where no key leads to a setting without being its name, the settings that
the tree holds are the ones that the entries of the file hold, in whatever order the entries were laid.
-/

namespace CallWaiting.Settings

open Node (Step lookup_cons_eq lookup_eq_none lookup_perm distinct_table_iff)

variable {name : String} {es es' entries : List (String × Node)} {n : Node}

def names : List String :=
  ["preference_group", "store_path", "logging"]

/-- A key that leads to a setting without being its name. -/
def IsIndirect (key : String) : Prop :=
  ∃ name ∈ names, (KeyPath.steps key).head? = some (.key name) ∧ key ≠ name

instance : DecidablePred IsIndirect := fun key =>
  inferInstanceAs (Decidable (∃ name ∈ names,
    (KeyPath.steps key).head? = some (.key name) ∧ key ≠ name))

lemma steps_of_mem_names (h : name ∈ names) : KeyPath.steps name = [.key name] := by
  revert name
  decide +kernel

namespace Node

def settle (n : Node) : Node :=
  overlay n nothing

lemma isLeaf_settle (n : Node) : n.settle.isLeaf = n.isLeaf := by
  cases n <;> rfl

lemma settle_eq_array_iff {ns : List Node} : n.settle = array ns ↔ n = array ns := by
  cases n <;> simp [settle, overlay]

lemma text?_settle (n : Node) : n.settle.text? = n.text? := by
  cases n <;> rfl

lemma bool?_settle (n : Node) : n.settle.bool? = n.bool? := by
  cases n <;> rfl

lemma optionalText?_settle (n : Node) : n.settle.optionalText? = n.optionalText? := by
  cases n <;> rfl

lemma lookup_overlayEntries (hn : (entries.map Prod.fst).Nodup) (old : List (String × Node)) :
    (overlayEntries entries old).lookup name =
      ((entries.lookup name).map fun n => overlay n ((old.lookup name).getD nothing)).or
        (old.lookup name) := by
  induction entries generalizing old with
  | nil => rfl
  | cons e entries ih =>
    obtain ⟨k, n⟩ := e
    obtain ⟨hk, hn⟩ := List.nodup_cons.1 hn
    rw [overlayEntries, ih hn, lookup_cons_eq, lookup_alter]
    by_cases h : name = k
    · subst h
      rw [lookup_eq_none hk, if_pos rfl, if_pos rfl]
      rfl
    · rw [if_neg h, if_neg h]

lemma part?_settle_table (h : (table es).Distinct) (name : String) (i : Nat) :
    (table es).settle.part? name i = (es.lookup name).map settle := by
  have he : (table es).settle = table (overlayEntries es []) := rfl
  rw [he, part?, lookup_overlayEntries (distinct_table_iff.1 h).1]
  exact Option.or_none

lemma fields?_eq (n : Node) (a b c : String) : n.fields? [a, b, c] =
    if n.isLeaf then none else some [n.part? a 0, n.part? b 1, n.part? c 2] := by
  cases n <;> rfl

section Reading

variable {α : Type} {read? : Node → Option α} (default : α)

lemma field_map_settle {o : Option Node} (hr : ∀ n ∈ o, read? n.settle = read? n) :
    field read? default (o.map settle) = field read? default o := by
  cases o with
  | none => rfl
  | some n => exact hr n rfl

lemma field_part?_settle (hr : ∀ n : Node, read? n.settle = read? n) (h : n.Distinct)
    (name : String) (i : Nat) :
    field read? default (n.settle.part? name i) = field read? default (n.part? name i) := by
  cases n with
  | table es =>
    rw [part?_settle_table h]
    exact field_map_settle default fun n _ => hr n
  | _ => rfl

end Reading

lemma logging?_settle (h : n.Distinct) : n.settle.logging? = n.logging? := by
  rw [logging?, logging?, fields?_eq, fields?_eq, isLeaf_settle]
  cases n.isLeaf with
  | true => rfl
  | false =>
    simp only [Bool.false_eq_true, if_false, Option.bind_eq_bind, Option.bind_some,
      field_part?_settle _ text?_settle h, field_part?_settle _ bool?_settle h]

end Node

lemma foldl_lain_own (hs : KeyPath.steps name = [.key name])
    (hk : ∀ e ∈ entries, (KeyPath.steps e.1).head? = some (.key name) → e.1 = name)
    (hn : (entries.map Prod.fst).Nodup) (old : Option Node) :
    entries.foldl (lain name) old =
      ((entries.lookup name).map fun n => Node.overlay n (old.getD .nothing)).or old := by
  induction entries generalizing old with
  | nil => rfl
  | cons e entries ih =>
    obtain ⟨key, n⟩ := e
    obtain ⟨hkey, hn⟩ := List.nodup_cons.1 hn
    rw [List.foldl_cons, ih (fun e he => hk e (List.mem_cons_of_mem _ he)) hn, lookup_cons_eq]
    by_cases h : name = key
    · subst h
      rw [lain_eq hs, if_pos rfl, if_pos rfl, lookup_eq_none hkey]
      rfl
    · obtain ⟨k, rest, hsk⟩ := KeyPath.exists_steps key
      have hne : name ≠ k := by
        rintro rfl
        exact h (hk (key, n) List.mem_cons_self (by rw [hsk]; rfl)).symm
      rw [lain_eq hsk, if_neg hne, if_neg h]

variable (hd : (Node.table es).Distinct) (hk : ∀ e ∈ es, ¬ IsIndirect e.1) (hp : es'.Perm es)

include hd hk hp

lemma part?_gather_file (hname : name ∈ names) (i : Nat) :
    (gather es' []).part? name i = (es.lookup name).map Node.settle := by
  have hn := (distinct_table_iff.1 hd).1
  have hn' : (es'.map Prod.fst).Nodup := (hp.map Prod.fst).nodup_iff.2 hn
  have hk' : ∀ e ∈ es', (KeyPath.steps e.1).head? = some (.key name) → e.1 = name :=
    fun e he hh => Decidable.not_not.1 fun hne => hk e (hp.mem_iff.1 he) ⟨name, hname, hh, hne⟩
  obtain ⟨top, htop⟩ := exists_table_lay [] es'
  have hl := lookup_lay (.table []) es' name
  rw [htop, foldl_lain_own (steps_of_mem_names hname) hk' hn', lookup_perm hp hn] at hl
  rw [show gather es' [] = .table top from htop]
  exact hl.trans Option.or_none

theorem settings?_gather_file : (gather es' []).settings? = (Node.table es).settings? := by
  have hleaf : (gather es' []).isLeaf = false := by
    obtain ⟨top, htop⟩ := exists_table_lay [] es'
    rw [show gather es' [] = .table top from htop]
    rfl
  have hpart : ∀ name ∈ names, ∀ i, (gather es' []).part? name i = (es.lookup name).map Node.settle :=
    fun name hname => part?_gather_file hd hk hp hname
  rw [Node.settings?, Node.settings?, Node.fields?_eq, Node.fields?_eq, hleaf,
    hpart _ (by decide), hpart _ (by decide), hpart _ (by decide)]
  have hgroup := fun x => Node.field_map_settle x (o := es.lookup "preference_group")
    fun n _ => Node.text?_settle n
  have hpath := fun x => Node.field_map_settle x (o := es.lookup "store_path")
    fun n _ => Node.optionalText?_settle n
  have hlogging := fun x => Node.field_map_settle x (o := es.lookup "logging")
    fun n hm => Node.logging?_settle (hd.of_lookup hm)
  simp only [Bool.false_eq_true, if_false, Option.bind_eq_bind, Option.bind_some, hgroup, hpath,
    hlogging]
  rfl

end CallWaiting.Settings
