import CallWaiting.Proofs.Settings.Layout

/-!
Variables that each name one field, laid over a file. A field that is named has the value of its variable
and the others have what the file says or else their defaults, but for a file that gives the logging
settings in an array: a variable for one of them puts a table in the place of the whole array.
-/

namespace CallWaiting.Settings

open Node (Step)
open Environment (value? layer)

variable {host host₀ : Host} {fs : FileSystem} {file : Option FileSystem.Path}
  {env : List (String × String)} {s s₀ : Settings} {f g : Field} {n tree : Node} {entries file' : List (String × Node)}
  {old : Option Node}

namespace Field

def name : Field → String
  | group => "preference_group"
  | storePath => "store_path"
  | level => "level"
  | json => "json"
  | fileInfo => "file_info"

def place : Field → Nat
  | group => 0
  | storePath => 1
  | level => 0
  | json => 1
  | fileInfo => 2

def steps (f : Field) : List Step :=
  if f ∈ logging then [.key "logging", .key f.name] else [.key f.name]

lemma steps_key (f : Field) : KeyPath.steps f.key = f.steps := by
  cases f <;> decide +kernel

lemma key_eq_iff (f g : Field) : f.key = g.key ↔ f = g := by
  cases f <;> cases g <;> decide

lemma name_eq_iff (f g : Field) (h : f ∈ logging ↔ g ∈ logging) : f.name = g.name ↔ f = g := by
  revert h
  cases f <;> cases g <;> decide

lemma name_ne_logging (f : Field) : f.name ≠ "logging" := by
  cases f <;> decide

lemma given?_logging (hf : f ∈ logging) (n : Node) :
    n.given? f = (n.part? "logging" 2).bind (Node.part? f.name f.place) := by
  cases f <;> first | rfl | simp [logging] at hf

lemma given?_top (hf : f ∉ logging) (n : Node) : n.given? f = n.part? f.name f.place := by
  cases f <;> first | rfl | simp [logging] at hf

end Field

lemma lain_top (hg : g ∉ Field.logging) (hn : n.isLeaf = true) (x : String) :
    lain x old (g.key, n) = if x = g.name then some n else old := by
  have hs : KeyPath.steps g.key = [.key g.name] := by rw [g.steps_key, Field.steps, if_neg hg]
  rw [lain_eq hs, Node.modify, Node.overlay_leaf hn]

lemma lain_logging (hg : g ∈ Field.logging) (n : Node) (x : String) :
    lain x old (g.key, n) = if x = "logging" then
      some (.table (Node.alter g.name (Node.overlay n) (old.getD .nothing).entries)) else old := by
  have hs : KeyPath.steps g.key = [.key "logging", .key g.name] := by
    rw [g.steps_key, Field.steps, if_pos hg]
  rw [lain_eq hs]
  rfl

lemma last?_field (f g : Field) (entries : List (String × Node)) (n : Node) :
    last? f.key (entries ++ [(g.key, n)]) = if f = g then some n else last? f.key entries := by
  rw [last?_concat]
  exact if_congr ((Field.key_eq_iff g f).trans eq_comm) rfl rfl

def AreFields (entries : List (String × Node)) : Prop :=
  ∀ e ∈ entries, e.2.isLeaf = true ∧ ∃ f : Field, e.1 = f.key

lemma AreFields.concat {key : String} (h : AreFields (entries ++ [(key, n)])) :
    AreFields entries ∧ n.isLeaf = true ∧ ∃ f : Field, key = f.key :=
  ⟨fun e he => h e (List.mem_append_left _ he), h _ (List.mem_append_right _ List.mem_cons_self)⟩

lemma foldl_lain_top (hf : f ∉ Field.logging) (h : AreFields entries) (old : Option Node) :
    entries.foldl (lain f.name) old = (last? f.key entries).or old := by
  induction entries using List.reverseRecOn with
  | nil => rfl
  | append_singleton entries e ih =>
    obtain ⟨key, n⟩ := e
    obtain ⟨he, hn, g, rfl⟩ := h.concat
    rw [List.foldl_append, List.foldl_cons, List.foldl_nil, ih he, last?_field]
    by_cases hg : g ∈ Field.logging
    · have hne : f ≠ g := by
        rintro rfl
        exact hf hg
      rw [lain_logging hg, if_neg f.name_ne_logging, if_neg hne]
    · rw [lain_top hg hn, if_congr (Field.name_eq_iff f g (iff_of_false hf hg)) rfl rfl]
      split <;> rfl

lemma foldl_lain_logging (h : AreFields entries) (old : Option Node) :
    ((∃ f ∈ Field.logging, last? f.key entries ≠ none) ∧
        ∃ es, entries.foldl (lain "logging") old = some (.table es) ∧
          ∀ f ∈ Field.logging, es.lookup f.name =
            (last? f.key entries).or ((old.getD .nothing).entries.lookup f.name)) ∨
      (∀ f ∈ Field.logging, last? f.key entries = none) ∧
        entries.foldl (lain "logging") old = old := by
  induction entries using List.reverseRecOn with
  | nil => exact .inr ⟨fun _ _ => rfl, rfl⟩
  | append_singleton entries e ih =>
    obtain ⟨key, n⟩ := e
    obtain ⟨he, hn, g, rfl⟩ := h.concat
    rw [List.foldl_append, List.foldl_cons, List.foldl_nil]
    by_cases hg : g ∈ Field.logging
    · have hes : ∀ f ∈ Field.logging,
          ((entries.foldl (lain "logging") old).getD .nothing).entries.lookup f.name =
            (last? f.key entries).or ((old.getD .nothing).entries.lookup f.name) := by
        rcases ih he with ⟨-, es, hes, hl⟩ | ⟨hl, ho⟩
        · intro f hf
          rw [hes]
          exact hl f hf
        · intro f hf
          rw [ho, hl f hf, Option.none_or]
      rw [lain_logging hg, if_pos rfl]
      refine .inl ⟨⟨g, hg, by simp [last?_field]⟩, _, rfl, fun f hf => ?_⟩
      rw [Node.lookup_alter, last?_field, hes f hf, Node.overlay_leaf hn,
        if_congr (Field.name_eq_iff f g (iff_of_true hf hg)) rfl rfl]
      split <;> rfl
    · have hkey : ∀ f ∈ Field.logging, last? f.key (entries ++ [(g.key, n)]) = last? f.key entries := by
        intro f hf
        rw [last?_field, if_neg]
        rintro rfl
        exact hg hf
      rw [lain_top hg hn, if_neg (Ne.symm g.name_ne_logging)]
      rcases ih he with ⟨⟨x, hx, hne⟩, es, hes, hl⟩ | ⟨hl, ho⟩
      · exact .inl ⟨⟨x, hx, by rwa [hkey x hx]⟩, es, hes, fun f hf => by rw [hkey f hf, hl f hf]⟩
      · exact .inr ⟨fun f hf => by rw [hkey f hf, hl f hf], ho⟩

def named? (env : List (String × String)) (f : Field) : Option Node :=
  (value? env f.variableName).map Environment.guess

def NamesFields (env : List (String × String)) : Prop :=
  ∀ p ∈ env, ∀ key ∈ Environment.key? p.1, ∃ f : Field, key = f.key

/-- A variable for a logging setting puts a table in the place of an array. -/
def Replaces (entries : List (String × Node)) (env : List (String × String)) : Prop :=
  (∃ ns, entries.lookup "logging" = some (.array ns)) ∧ ∃ f ∈ Field.logging, named? env f ≠ none

lemma last?_key (a : Arrangement) (env : List (String × String)) (f : Field) :
    last? f.key (a.order (layer env)) = named? env f :=
  Environment.last?_layer f.key?_variableName a env

lemma NamesFields.areFields (h : NamesFields env) (a : Arrangement) : AreFields (a.order (layer env)) := by
  intro e he
  refine ⟨Environment.isLeaf_of_mem_layer a he, ?_⟩
  obtain ⟨p, hp, hkey, -⟩ := Environment.mem_layer ((a.perm _).mem_iff.1 he)
  exact h p hp e.1 hkey

section Gathering

variable {a : Arrangement}

lemma given?_top_gather (h : NamesFields env) (hf : f ∉ Field.logging) :
    (gather file' (a.order (layer env))).given? f =
      (named? env f).or ((gather file' []).given? f) := by
  rw [f.given?_top hf, f.given?_top hf, part?_gather, foldl_lain_top hf (h.areFields a), last?_key]

lemma given?_replaced (h : NamesFields env) (hf : f ∈ Field.logging) {ns : List Node}
    (hns : (gather file' []).part? "logging" 2 = some (.array ns))
    (hr : ∃ g ∈ Field.logging, named? env g ≠ none) :
    (gather file' (a.order (layer env))).given? f = named? env f := by
  obtain ⟨g, hg, hne⟩ := hr
  rw [f.given?_logging hf, part?_gather, hns]
  rcases foldl_lain_logging (h.areFields a) (some (.array ns)) with ⟨-, es, hes, hl⟩ | ⟨hl, -⟩
  · rw [hes]
    have hlook := hl f hf
    rw [last?_key] at hlook
    exact hlook.trans Option.or_none
  · rw [← last?_key a] at hne
    exact absurd (hl g hg) hne

lemma given?_gather (h : NamesFields env) (hr : ∀ ns, (gather file' []).part? "logging" 2 =
    some (.array ns) → ∀ g ∈ Field.logging, named? env g = none) (f : Field) :
    (gather file' (a.order (layer env))).given? f =
      (named? env f).or ((gather file' []).given? f) := by
  by_cases hf : f ∈ Field.logging
  · rw [f.given?_logging hf, f.given?_logging hf, part?_gather]
    rcases foldl_lain_logging (h.areFields a) ((gather file' []).part? "logging" 2) with
      ⟨⟨g, hg, hne⟩, es, hes, hl⟩ | ⟨hl, ho⟩
    · have hlook := hl f hf
      rw [last?_key] at hlook hne
      rw [hes]
      refine hlook.trans (congrArg _ ?_)
      cases hn : (gather file' []).part? "logging" 2 with
      | none => rfl
      | some n =>
        cases n with
        | array ns => exact absurd (hr ns hn g hg) hne
        | _ => rfl
    · rw [ho, ← last?_key a, hl f hf, Option.none_or]
  · exact given?_top_gather h hf

end Gathering

lemma field_or {α : Type} {read? : Node → Option α} {default x x₀ : α} {o : Option Node}
    (h₀ : Node.field read? default o = some x₀)
    (h : Node.field read? default (Option.or old o) = some x) :
    Node.field read? x₀ old = some x := by
  cases old with
  | none =>
    rw [Option.none_or, h₀] at h
    exact h
  | some n => exact h

lemma field_eq_iff {α : Type} {read? : Node → Option α} {default x x₀ : α}
    (h : Node.field read? default old = some x) :
    Node.field read? x₀ old = some x ↔ (old = none → x₀ = default) := by
  cases old with
  | none =>
    obtain rfl := Option.some.inj h
    simp [Node.field]
  | some n => exact iff_of_true h nofun

/-- Where an array is replaced, every logging setting that no variable names was the default. -/
def LosesNothing (entries : List (String × Node)) (env : List (String × String)) (l : LogSettings) :
    Prop :=
  Replaces entries env →
    (named? env .level = none → l.level = LogSettings.default.level) ∧
      (named? env .json = none → l.json = LogSettings.default.json) ∧
      (named? env .fileInfo = none → l.fileInfo = LogSettings.default.fileInfo)

lemma layer_without (env : List (String × String)) :
    layer (env.filter fun p => (Environment.key? p.1).isNone) = [] :=
  Environment.layer_eq_nil fun p hp => by simpa using (List.mem_filter.1 hp).2

/-- With the variables a field is what its variable says, or else what it is without them, which is what
the entries of the file say or else the default; except that a variable for a logging setting gives up
whatever an array in the file says about the others. Each load may lay the entries in an order of its
own. -/
theorem overrides_iff (hn : NamesFields env) (he : fileEntries? fs file = some entries)
    (hk : ∀ e ∈ entries, ¬ IsIndirect e.1) (h : load? host fs file env = some (.ok s))
    (h₀ : load? host₀ fs file (env.filter fun p => (Environment.key? p.1).isNone) = some (.ok s₀)) :
    Reads (Node.table entries).given? .default s₀ ∧
      (Reads (named? env) s₀ s ↔ LosesNothing entries env s₀.logging) := by
  obtain ⟨entries₀, he₀, hs₀⟩ := load?_ok h₀
  obtain rfl : entries = entries₀ := Option.some.inj (he.symm.trans he₀)
  obtain ⟨entries', he', hs⟩ := load?_ok h
  obtain rfl : entries = entries' := Option.some.inj (he.symm.trans he')
  have hd := distinct_fileEntries? he
  have hempty : host₀.environment.order [] = [] := List.perm_nil.1 (host₀.environment.perm [])
  rw [layer_without, hempty, settings?_gather_file hd hk (host₀.file.perm _)] at hs₀
  refine ⟨reads_settings hs₀, ?_⟩
  -- in the order of the other load the file alone holds the same
  have r₀ := reads_settings ((settings?_gather_file hd hk (host.file.perm _)).trans hs₀)
  have hpart : (gather (host.file.order entries) []).part? "logging" 2 =
      (entries.lookup "logging").map Node.settle :=
    part?_gather_file hd hk (host.file.perm _) (by decide) 2
  have r := reads_settings hs
  have hgroup : Node.field Node.text? s₀.group (named? env .group) = some s.group := by
    have hg := r.group
    rw [given?_top_gather hn (by decide)] at hg
    exact field_or r₀.group hg
  have hpath : Node.field Node.optionalText? s₀.storePath (named? env .storePath) =
      some s.storePath := by
    have hp := r.storePath
    rw [given?_top_gather hn (by decide)] at hp
    exact field_or r₀.storePath hp
  have hlevel := r.level
  have hjson := r.json
  have hinfo := r.fileInfo
  by_cases hr : Replaces entries env
  · obtain ⟨⟨ns, hns⟩, hnamed⟩ := hr
    rw [hns] at hpart
    rw [given?_replaced hn (by decide) hpart hnamed] at hlevel hjson hinfo
    constructor
    · intro hx _
      exact ⟨(field_eq_iff hlevel).1 hx.level, (field_eq_iff hjson).1 hx.json,
        (field_eq_iff hinfo).1 hx.fileInfo⟩
    · intro hx
      obtain ⟨h₁, h₂, h₃⟩ := hx ⟨⟨ns, hns⟩, hnamed⟩
      exact ⟨hgroup, hpath, (field_eq_iff hlevel).2 h₁, (field_eq_iff hjson).2 h₂,
        (field_eq_iff hinfo).2 h₃⟩
  · have hr' : ∀ ns, (gather (host.file.order entries) []).part? "logging" 2 = some (.array ns) →
        ∀ g ∈ Field.logging, named? env g = none := by
      intro ns hns g hg
      rw [hpart] at hns
      obtain ⟨n, hl, ha⟩ := Option.map_eq_some_iff.1 hns
      exact Classical.not_not.1 fun hne =>
        hr ⟨⟨ns, (Node.settle_eq_array_iff.1 ha) ▸ hl⟩, g, hg, hne⟩
    rw [given?_gather hn hr'] at hlevel hjson hinfo
    exact iff_of_true ⟨hgroup, hpath, field_or r₀.level hlevel, field_or r₀.json hjson,
      field_or r₀.fileInfo hinfo⟩ fun hx => absurd hx hr

theorem overrides_within_table :
    let fs := FileSystem.empty.put ["a.toml"]
      (.file "preference_group = \"a\"\n[logging]\nlevel = \"warn\"\njson = true\n".toUTF8)
    let env := [("CALL_WAITING__LOGGING__LEVEL", "trace"), ("PATH", "/bin"),
      ("CALL_WAITING__STORE_PATH", "b.json")]
    let backwards : Host := ⟨⟨List.reverse, List.reverse_perm⟩, ⟨List.reverse, List.reverse_perm⟩, 0⟩
    let s₀ : Settings := ⟨"a", none, ⟨"warn", true, false⟩⟩
    let s : Settings := ⟨"a", some "b.json", ⟨"trace", true, false⟩⟩
    NamesFields env ∧ load? backwards fs (some ⟨"a.toml"⟩) env = some (.ok s) ∧
      load? .plain fs (some ⟨"a.toml"⟩) (env.filter fun p => (Environment.key? p.1).isNone) =
        some (.ok s₀) ∧
      Reads (named? env) s₀ s := by
  intro fs env backwards s₀ s
  have hn : NamesFields env := by
    intro p hp key hk
    simp only [env, List.mem_cons, List.not_mem_nil, or_false] at hp
    rcases hp with rfl | rfl | rfl
    · exact ⟨.level, Option.some.inj (hk.symm.trans (Field.key?_variableName .level))⟩
    · have hpath : Environment.key? "PATH" = none := by decide +kernel
      cases hk.symm.trans hpath
    · exact ⟨.storePath, Option.some.inj (hk.symm.trans (Field.key?_variableName .storePath))⟩
  have h : load? backwards fs (some ⟨"a.toml"⟩) env = some (.ok s) := by decide +kernel
  have h₀ : load? .plain fs (some ⟨"a.toml"⟩)
      (env.filter fun p => (Environment.key? p.1).isNone) = some (.ok s₀) := by
    decide +kernel
  obtain ⟨entries, he, -⟩ := load?_ok h
  have hall : (fileEntries? fs (some ⟨"a.toml"⟩)).all fun es => es.all (¬ IsIndirect ·.1) &&
      (es.lookup "logging").all fun n => n.items.isEmpty && !n.entries.isEmpty := by
    decide +kernel
  rw [he, Option.all_some, Bool.and_eq_true] at hall
  obtain ⟨hk, ht⟩ := hall
  have hk' : ∀ e ∈ entries, ¬ IsIndirect e.1 := by simpa using hk
  refine ⟨hn, h, h₀, (overrides_iff hn he hk' h h₀).2.2 fun hr => ?_⟩
  -- what the file has there is a table
  obtain ⟨⟨ns, hns⟩, -⟩ := hr
  rw [hns] at ht
  simp [Node.entries] at ht

theorem not_overrides_within_array :
    let fs := FileSystem.empty.put ["a.toml"] (.file "logging = [\"debug\", true]".toUTF8)
    let env := [("CALL_WAITING__LOGGING__FILE_INFO", "true")]
    let s₀ : Settings := ⟨Preference.defaultGroup, none, ⟨"debug", true, false⟩⟩
    let s : Settings := ⟨Preference.defaultGroup, none, ⟨"info", false, true⟩⟩
    NamesFields env ∧ load? .plain fs (some ⟨"a.toml"⟩) env = some (.ok s) ∧
      load? .plain fs (some ⟨"a.toml"⟩) [] = some (.ok s₀) ∧ ¬ Reads (named? env) s₀ s := by
  intro fs env s₀ s
  refine ⟨?_, by decide +kernel, by decide +kernel, fun hr => ?_⟩
  · intro p hp key hk
    obtain rfl := List.mem_singleton.1 hp
    exact ⟨.fileInfo, Option.some.inj (hk.symm.trans (Field.key?_variableName .fileInfo))⟩
  · have hl : (named? env .level).isNone = true := by decide +kernel
    have hlevel := hr.level
    rw [Option.isNone_iff_eq_none.1 hl] at hlevel
    exact absurd (Option.some.inj hlevel) (by decide)

end CallWaiting.Settings
