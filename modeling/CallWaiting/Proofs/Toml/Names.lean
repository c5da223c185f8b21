import Mathlib.Data.List.Nodup
import Mathlib.Tactic.Lemma
import CallWaiting.Toml.Reader

namespace CallWaiting.Toml

inductive Distinct : Toml → Prop
  | leaf {v : Toml} (ha : ∀ vs, v ≠ array vs) (ht : ∀ es, v ≠ table es) : Distinct v
  | array {vs : List Toml} (h : ∀ v ∈ vs, Distinct v) : Distinct (array vs)
  | table {es : List (String × Toml)} (hn : (es.map Prod.fst).Nodup) (he : ∀ e ∈ es, Distinct e.2) :
    Distinct (table es)

lemma Distinct.entries {es : List (String × Toml)} (h : (Toml.table es).Distinct) :
    (es.map Prod.fst).Nodup ∧ ∀ e ∈ es, e.2.Distinct := by
  cases h with
  | leaf _ ht => exact absurd rfl (ht es)
  | table hn he => exact ⟨hn, he⟩

namespace Draft

inductive Distinct : Draft → Prop
  | value {v : Toml} (h : v.Distinct) : Distinct (.value v)
  | table {o : Origin} {es : Entries} (hn : (es.map Prod.fst).Nodup) (he : ∀ e ∈ es, Distinct e.2) :
    Distinct (.table o es)
  | tables {earlier : List Entries} {last : Entries}
    (hn : ∀ es ∈ earlier ++ [last], (es.map Prod.fst).Nodup)
    (he : ∀ es ∈ earlier ++ [last], ∀ e ∈ es, Distinct e.2) : Distinct (.tables earlier last)

def AllDistinct (es : Entries) : Prop :=
  (es.map Prod.fst).Nodup ∧ ∀ e ∈ es, e.2.Distinct

variable {k : String} {ks : List String} {es es' : Entries} {v : Toml}

lemma AllDistinct.nil : AllDistinct [] :=
  ⟨List.nodup_nil, nofun⟩

lemma distinct_table_iff {o : Origin} : (table o es).Distinct ↔ AllDistinct es := by
  constructor
  · intro h
    cases h with
    | table hn he => exact ⟨hn, he⟩
  · exact fun h => .table h.1 h.2

lemma distinct_tables_iff {earlier : List Entries} {last : Entries} :
    (tables earlier last).Distinct ↔ (∀ es ∈ earlier, AllDistinct es) ∧ AllDistinct last := by
  constructor
  · intro h
    cases h with
    | tables hn he =>
      have hm : ∀ es ∈ earlier ++ [last], AllDistinct es := fun es hes => ⟨hn es hes, he es hes⟩
      exact ⟨fun es hes => hm es (List.mem_append_left _ hes),
        hm last (List.mem_append_right _ List.mem_cons_self)⟩
  · rintro ⟨hearlier, hlast⟩
    have hm : ∀ es ∈ earlier ++ [last], AllDistinct es := by
      intro es hes
      rcases List.mem_append.1 hes with hes | hes
      · exact hearlier es hes
      · rwa [List.mem_singleton.1 hes]
    exact .tables (fun es hes => (hm es hes).1) fun es hes => (hm es hes).2

def KeepsDistinct (f : Option Draft → Option Draft) : Prop :=
  ∀ o x, (∀ y, o = some y → y.Distinct) → f o = some x → x.Distinct

lemma mem_alter {α : Type} {f : Option α → Option α} {es es' : List (String × α)}
    (h : alter k f es = some es') {name : String} (hm : name ∈ es'.map Prod.fst) :
    name = k ∨ name ∈ es.map Prod.fst := by
  induction es generalizing es' with
  | nil =>
    obtain ⟨x, -, rfl⟩ := Option.map_eq_some_iff.1 h
    exact .inl (List.mem_singleton.1 hm)
  | cons e es ih =>
    obtain ⟨k', x⟩ := e
    rw [alter] at h
    split at h
    · obtain ⟨y, -, rfl⟩ := Option.map_eq_some_iff.1 h
      exact .inr hm
    · obtain ⟨es'', hes, rfl⟩ := Option.map_eq_some_iff.1 h
      rcases List.mem_cons.1 hm with rfl | hm
      · exact .inr List.mem_cons_self
      · exact (ih hes hm).imp_right (List.mem_cons_of_mem _)

lemma AllDistinct.alter {f : Option Draft → Option Draft} (hf : KeepsDistinct f) (hd : AllDistinct es)
    (h : alter k f es = some es') : AllDistinct es' := by
  induction es generalizing es' with
  | nil =>
    obtain ⟨x, hx, rfl⟩ := Option.map_eq_some_iff.1 h
    refine ⟨List.nodup_singleton k, fun e he => ?_⟩
    rw [List.mem_singleton.1 he]
    exact hf none x nofun hx
  | cons e es ih =>
    obtain ⟨k', x⟩ := e
    obtain ⟨hn, hall⟩ := hd
    obtain ⟨hk, hn'⟩ := List.nodup_cons.1 hn
    have htail : AllDistinct es := ⟨hn', fun e he => hall e (List.mem_cons_of_mem _ he)⟩
    rw [Draft.alter] at h
    split at h
    · obtain ⟨y, hy, rfl⟩ := Option.map_eq_some_iff.1 h
      refine ⟨hn, fun e he => ?_⟩
      rcases List.mem_cons.1 he with rfl | he
      · refine hf _ y (fun z hz => ?_) hy
        obtain rfl := Option.some.inj hz
        exact hall (k', x) List.mem_cons_self
      · exact htail.2 e he
    · rename_i hne
      obtain ⟨es'', hes, rfl⟩ := Option.map_eq_some_iff.1 h
      obtain ⟨hn'', hall''⟩ := ih htail hes
      refine ⟨List.nodup_cons.2 ⟨fun hm => ?_, hn''⟩, fun e he => ?_⟩
      · rcases mem_alter hes hm with he | hm
        · exact hne he
        · exact hk hm
      · rcases List.mem_cons.1 he with rfl | he
        · exact hall (k', x) List.mem_cons_self
        · exact hall'' e he

lemma AllDistinct.begin (hd : AllDistinct es) (h : begin k es = some es') : AllDistinct es' := by
  refine hd.alter (fun o x ho hx => ?_) h
  split at hx
  · obtain rfl := Option.some.inj hx
    exact distinct_table_iff.2 .nil
  · obtain rfl := Option.some.inj hx
    exact distinct_table_iff.2 (distinct_table_iff.1 (ho _ rfl))
  · cases hx

lemma AllDistinct.beginNext (hd : AllDistinct es) (h : beginNext k es = some es') :
    AllDistinct es' := by
  refine hd.alter (fun o x ho hx => ?_) h
  split at hx
  · obtain rfl := Option.some.inj hx
    exact distinct_tables_iff.2 ⟨nofun, .nil⟩
  · obtain rfl := Option.some.inj hx
    obtain ⟨hearlier, hlast⟩ := distinct_tables_iff.1 (ho _ rfl)
    refine distinct_tables_iff.2 ⟨fun es hes => ?_, .nil⟩
    rcases List.mem_append.1 hes with hes | hes
    · exact hearlier es hes
    · rwa [List.mem_singleton.1 hes]
  · cases hx

lemma AllDistinct.assign (hv : v.Distinct) (hd : AllDistinct es) (h : assign v ks es = some es') :
    AllDistinct es' := by
  induction ks generalizing es es' with
  | nil => cases h
  | cons k ks ih =>
    cases ks with
    | nil =>
      refine hd.alter (fun o x ho hx => ?_) h
      split at hx
      · obtain rfl := Option.some.inj hx
        exact .value hv
      · cases hx
    | cons k' ks =>
      refine hd.alter (fun o x ho hx => ?_) h
      split at hx
      · obtain ⟨es'', hes, rfl⟩ := Option.map_eq_some_iff.1 hx
        exact distinct_table_iff.2 (ih .nil hes)
      · obtain ⟨es'', hes, rfl⟩ := Option.map_eq_some_iff.1 hx
        exact distinct_table_iff.2 (ih (distinct_table_iff.1 (ho _ rfl)) hes)
      · split at hx
        · cases hx
        · obtain ⟨es'', hes, rfl⟩ := Option.map_eq_some_iff.1 hx
          exact distinct_table_iff.2 (ih (distinct_table_iff.1 (ho _ rfl)) hes)
      · split at hx
        · cases hx
        · obtain ⟨es'', hes, rfl⟩ := Option.map_eq_some_iff.1 hx
          obtain ⟨hearlier, hlast⟩ := distinct_tables_iff.1 (ho _ rfl)
          exact distinct_tables_iff.2 ⟨hearlier, ih hlast hes⟩
      · cases hx

lemma AllDistinct.assignAll {pairs : List (List String × Toml)} (hp : ∀ p ∈ pairs, p.2.Distinct)
    (hd : AllDistinct es) (h : pairs.foldlM (fun es p => Draft.assign p.2 p.1 es) es = some es') :
    AllDistinct es' := by
  induction pairs generalizing es with
  | nil =>
    obtain rfl := Option.some.inj h
    exact hd
  | cons p pairs ih =>
    rw [List.foldlM_cons] at h
    obtain ⟨es₁, h₁, h⟩ := Option.bind_eq_some_iff.1 h
    exact ih (fun p hm => hp p (List.mem_cons_of_mem _ hm)) (hd.assign (hp p List.mem_cons_self) h₁) h

lemma AllDistinct.within {f : Entries → Option Entries}
    (hf : ∀ es es', AllDistinct es → f es = some es' → AllDistinct es') (hd : AllDistinct es)
    (h : within f ks es = some es') : AllDistinct es' := by
  induction ks generalizing es es' with
  | nil => exact hf es es' hd h
  | cons k ks ih =>
    refine hd.alter (fun o x ho hx => ?_) h
    split at hx
    · obtain ⟨es'', hes, rfl⟩ := Option.map_eq_some_iff.1 hx
      exact distinct_table_iff.2 (ih .nil hes)
    · obtain ⟨es'', hes, rfl⟩ := Option.map_eq_some_iff.1 hx
      exact distinct_table_iff.2 (ih (distinct_table_iff.1 (ho _ rfl)) hes)
    · obtain ⟨es'', hes, rfl⟩ := Option.map_eq_some_iff.1 hx
      obtain ⟨hearlier, hlast⟩ := distinct_tables_iff.1 (ho _ rfl)
      exact distinct_tables_iff.2 ⟨hearlier, ih hlast hes⟩
    · cases hx

lemma finishEntries_eq (es : Entries) :
    finishEntries es = es.map fun e => (e.1, e.2.finish) := by
  induction es with
  | nil => rfl
  | cons e es ih =>
    obtain ⟨k, d⟩ := e
    rw [finishEntries, ih]
    rfl

lemma finishTables_eq (tables : List Entries) :
    finishTables tables = tables.map fun es => .table (finishEntries es) := by
  induction tables with
  | nil => rfl
  | cons es tables ih =>
    rw [finishTables, ih]
    rfl

lemma finishEntries_distinct (hn : (es.map Prod.fst).Nodup) (he : ∀ e ∈ es, e.2.finish.Distinct) :
    (Toml.table (finishEntries es)).Distinct := by
  rw [finishEntries_eq]
  refine .table ?_ ?_
  · rwa [List.map_map]
  · intro e hm
    obtain ⟨x, hx, rfl⟩ := List.mem_map.1 hm
    exact he x hx

lemma Distinct.finish {d : Draft} (h : d.Distinct) : d.finish.Distinct := by
  induction h with
  | value h => exact h
  | table hn _ ih => exact finishEntries_distinct hn ih
  | @tables earlier last hn _ ih =>
    have hl : (Draft.tables earlier last).finish =
        .array ((earlier ++ [last]).map fun es => .table (finishEntries es)) := by
      rw [Draft.finish, finishTables_eq, List.map_append]
      rfl
    rw [hl]
    refine .array fun v hv => ?_
    obtain ⟨es, hes, rfl⟩ := List.mem_map.1 hv
    exact finishEntries_distinct (hn es hes) (ih es hes)

lemma AllDistinct.finish (h : AllDistinct es) : (Toml.table (finishEntries es)).Distinct :=
  finishEntries_distinct h.1 fun e he => (h.2 e he).finish

end Draft

open Draft (AllDistinct)

variable {d : Dialect} {cs rest : List Char} {v : Toml}

section Brackets

variable {α : Type} {item : List Char → Option (α × List Char)} {b : Brackets} {xs : List α} {x : α}

lemma mem_items {n : Nat} (h : b.items item n cs = some (xs, rest)) (hx : x ∈ xs) :
    ∃ cs rest, item cs = some (x, rest) := by
  induction n generalizing cs xs rest with
  | zero => cases h
  | succ n ih =>
    obtain ⟨⟨y, cs'⟩, hy, h⟩ := Option.bind_eq_some_iff.1 h
    simp only at h
    have hone : x ∈ [y] → ∃ cs rest, item cs = some (x, rest) := by
      intro hm
      rw [List.mem_singleton.1 hm]
      exact ⟨cs, cs', hy⟩
    split at h
    · cases h
    · split at h
      · obtain ⟨rfl, -⟩ := Prod.mk.inj (Option.some.inj h)
        exact hone hx
      · split at h
        · split at h
          · obtain ⟨rfl, -⟩ := Prod.mk.inj (Option.some.inj h)
            exact hone hx
          · obtain ⟨⟨ys, rest'⟩, hys, h⟩ := Option.bind_eq_some_iff.1 h
            obtain ⟨rfl, -⟩ := Prod.mk.inj (Option.some.inj h)
            rcases List.mem_cons.1 hx with rfl | hx
            · exact ⟨cs, cs', hy⟩
            · exact ih hys hx
        · cases h

lemma mem_brackets (h : b.read? item cs = some (xs, rest)) (hx : x ∈ xs) :
    ∃ cs rest, item cs = some (x, rest) := by
  rw [Brackets.read?] at h
  split at h
  · obtain ⟨rfl, -⟩ := Prod.mk.inj (Option.some.inj h)
    cases hx
  · exact mem_items h hx

end Brackets

lemma ofPairs?_distinct {pairs : List (List String × Toml)} (hp : ∀ p ∈ pairs, p.2.Distinct)
    (h : ofPairs? pairs = some v) : v.Distinct := by
  obtain ⟨es, hes, h⟩ := Option.bind_eq_some_iff.1 h
  obtain rfl := Option.some.inj h
  exact (AllDistinct.nil.assignAll hp hes).finish

lemma ofWord?_distinct {word : List Char} (h : ofWord? d word = some v) : v.Distinct := by
  have hleaf : (∀ vs, v ≠ array vs) ∧ ∀ es, v ≠ table es := by
    rw [ofWord?] at h
    split at h
    · obtain rfl := Option.some.inj h
      exact ⟨nofun, nofun⟩
    · split at h
      · obtain rfl := Option.some.inj h
        exact ⟨nofun, nofun⟩
      · split at h
        · obtain rfl := Option.some.inj h
          exact ⟨nofun, nofun⟩
        · obtain rfl := Option.some.inj h
          exact ⟨nofun, nofun⟩
        · obtain ⟨m, -, rfl⟩ := Option.map_eq_some_iff.1 h
          exact ⟨nofun, nofun⟩
  exact .leaf hleaf.1 hleaf.2

lemma leaf?_distinct (h : value?.leaf? d cs = some (v, rest)) : v.Distinct := by
  unfold value?.leaf? at h
  split at h
  · obtain ⟨t, -, ht⟩ := Option.map_eq_some_iff.1 h
    obtain ⟨rfl, -⟩ := Prod.mk.inj ht
    exact .leaf nofun nofun
  · obtain ⟨t, -, ht⟩ := Option.map_eq_some_iff.1 h
    obtain ⟨rfl, -⟩ := Prod.mk.inj ht
    exact .leaf nofun nofun
  · obtain ⟨w, hw, ht⟩ := Option.map_eq_some_iff.1 h
    obtain ⟨rfl, -⟩ := Prod.mk.inj ht
    exact ofWord?_distinct hw

lemma pair?_value {read? : List Char → Option (Toml × List Char)} {p : List String × Toml}
    (h : pair? d read? cs = some (p, rest)) : ∃ cs rest, read? cs = some (p.2, rest) := by
  obtain ⟨⟨ks, cs'⟩, -, h⟩ := Option.bind_eq_some_iff.1 h
  split at h
  · obtain ⟨⟨v, rest'⟩, hv, h⟩ := Option.bind_eq_some_iff.1 h
    obtain ⟨rfl, -⟩ := Prod.mk.inj (Option.some.inj h)
    exact ⟨_, _, hv⟩
  · cases h

lemma value?_distinct {depth : Nat} (h : value? d depth cs = some (v, rest)) : v.Distinct := by
  induction depth generalizing cs v rest with
  | zero => exact leaf?_distinct h
  | succ depth ih =>
    unfold value? at h
    split at h
    · obtain ⟨⟨vs, rest'⟩, hvs, h⟩ := Option.bind_eq_some_iff.1 h
      obtain ⟨rfl, -⟩ := Prod.mk.inj (Option.some.inj h)
      refine .array fun v hv => ?_
      obtain ⟨_, _, hv⟩ := mem_brackets hvs hv
      exact ih hv
    · obtain ⟨⟨pairs, rest'⟩, hps, h⟩ := Option.bind_eq_some_iff.1 h
      obtain ⟨w, hw, h⟩ := Option.bind_eq_some_iff.1 h
      obtain ⟨rfl, -⟩ := Prod.mk.inj (Option.some.inj h)
      refine ofPairs?_distinct (fun p hp => ?_) hw
      obtain ⟨_, _, hp⟩ := mem_brackets hps hp
      obtain ⟨_, _, hv⟩ := pair?_value hp
      exact ih hv
    · exact leaf?_distinct h

lemma header?_distinct {p p' : Page} (hd : AllDistinct p.entries)
    (h : header? d p cs = some (p', rest)) : AllDistinct p'.entries := by
  unfold header? at h
  split at h
  · obtain ⟨⟨ks, cs'⟩, -, h⟩ := Option.bind_eq_some_iff.1 h
    split at h
    · obtain ⟨k, -, h⟩ := Option.bind_eq_some_iff.1 h
      obtain ⟨es, hes, h⟩ := Option.bind_eq_some_iff.1 h
      obtain ⟨rfl, -⟩ := Prod.mk.inj (Option.some.inj h)
      exact hd.within (fun _ _ => .beginNext) hes
    · cases h
  · obtain ⟨⟨ks, cs'⟩, -, h⟩ := Option.bind_eq_some_iff.1 h
    split at h
    · obtain ⟨k, -, h⟩ := Option.bind_eq_some_iff.1 h
      obtain ⟨es, hes, h⟩ := Option.bind_eq_some_iff.1 h
      obtain ⟨rfl, -⟩ := Prod.mk.inj (Option.some.inj h)
      exact hd.within (fun _ _ => .begin) hes
    · cases h

lemma statement?_distinct {p p' : Page} (hd : AllDistinct p.entries)
    (h : statement? d p cs = some (p', rest)) : AllDistinct p'.entries := by
  unfold statement? at h
  split at h
  · obtain ⟨rfl, -⟩ := Prod.mk.inj (Option.some.inj h)
    exact hd
  · obtain ⟨rfl, -⟩ := Prod.mk.inj (Option.some.inj h)
    exact hd
  · obtain ⟨rfl, -⟩ := Prod.mk.inj (Option.some.inj h)
    exact hd
  · obtain ⟨rfl, -⟩ := Prod.mk.inj (Option.some.inj h)
    exact hd
  · exact header?_distinct hd h
  · obtain ⟨⟨⟨ks, v⟩, rest'⟩, hp, h⟩ := Option.bind_eq_some_iff.1 h
    obtain ⟨es, hes, h⟩ := Option.bind_eq_some_iff.1 h
    obtain ⟨rfl, -⟩ := Prod.mk.inj (Option.some.inj h)
    obtain ⟨_, _, hv⟩ := pair?_value hp
    exact hd.within (fun _ _ => .assign (value?_distinct hv)) hes

lemma lines?_distinct {n : Nat} {p p' : Page} (hd : AllDistinct p.entries)
    (h : lines? d n p cs = some p') : AllDistinct p'.entries := by
  induction n generalizing p cs with
  | zero =>
    cases cs with
    | nil =>
      obtain rfl := Option.some.inj h
      exact hd
    | cons c cs => cases h
  | succ n ih =>
    cases cs with
    | nil =>
      obtain rfl := Option.some.inj h
      exact hd
    | cons c cs =>
      obtain ⟨⟨p₁, rest⟩, hp, h⟩ := Option.bind_eq_some_iff.1 h
      obtain ⟨rest', -, h⟩ := Option.bind_eq_some_iff.1 h
      exact ih (statement?_distinct hd hp) h

theorem document_distinct {es : List (String × Toml)} (h : read? d cs = some es) :
    (table es).Distinct := by
  obtain ⟨p, hp, rfl⟩ := Option.map_eq_some_iff.1 h
  exact (lines?_distinct .nil hp).finish

end CallWaiting.Toml
