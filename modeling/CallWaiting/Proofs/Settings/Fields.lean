import CallWaiting.Proofs.Settings.Tree

namespace CallWaiting.Settings

inductive Field where
  | group
  | storePath
  | level
  | json
  | fileInfo
deriving DecidableEq

namespace Field

def logging : List Field := [level, json, fileInfo]

def variableName : Field → String
  | group => "CALL_WAITING__PREFERENCE_GROUP"
  | storePath => "CALL_WAITING__STORE_PATH"
  | level => "CALL_WAITING__LOGGING__LEVEL"
  | json => "CALL_WAITING__LOGGING__JSON"
  | fileInfo => "CALL_WAITING__LOGGING__FILE_INFO"

def key : Field → String
  | group => "preference_group"
  | storePath => "store_path"
  | level => "logging.level"
  | json => "logging.json"
  | fileInfo => "logging.file_info"

lemma key?_variableName (f : Field) : Environment.key? f.variableName = some f.key := by
  cases f <;> decide +kernel

end Field

def Node.part? (name : String) (place : Nat) : Node → Option Node
  | table es => es.lookup name
  | array ns => ns[place]?
  | _ => none

def Node.given? (n : Node) : Field → Option Node
  | .group => n.part? "preference_group" 0
  | .storePath => n.part? "store_path" 1
  | .level => (n.part? "logging" 2).bind (part? "level" 0)
  | .json => (n.part? "logging" 2).bind (part? "json" 1)
  | .fileInfo => (n.part? "logging" 2).bind (part? "file_info" 2)

structure Reads (given : Field → Option Node) (old s : Settings) : Prop where
  group : Node.field Node.text? old.group (given .group) = some s.group
  storePath : Node.field Node.optionalText? old.storePath (given .storePath) = some s.storePath
  level : Node.field Node.text? old.logging.level (given .level) = some s.logging.level
  json : Node.field Node.bool? old.logging.json (given .json) = some s.logging.json
  fileInfo : Node.field Node.bool? old.logging.fileInfo (given .fileInfo) = some s.logging.fileInfo

variable {host : Host} {n : Node} {s : Settings} {l : LogSettings} {fs : FileSystem} {file : Option FileSystem.Path}
  {env : List (String × String)} {entries : List (String × Node)}

lemma fields_eq {a b c : String} {fields : List (Option Node)} (h : n.fields? [a, b, c] = some fields) :
    fields = [n.part? a 0, n.part? b 1, n.part? c 2] := by
  cases n with
  | table es => exact (Option.some.inj h).symm
  | array ns => exact (Option.some.inj h).symm
  | _ => cases h

lemma reads_logging (h : n.logging? = some l) :
    Node.field Node.text? LogSettings.default.level (n.part? "level" 0) = some l.level ∧
      Node.field Node.bool? LogSettings.default.json (n.part? "json" 1) = some l.json ∧
      Node.field Node.bool? LogSettings.default.fileInfo (n.part? "file_info" 2) = some l.fileInfo := by
  rw [Node.logging?] at h
  obtain ⟨fields, hf, h⟩ := Option.bind_eq_some_iff.1 h
  obtain rfl := fields_eq hf
  obtain ⟨level, hl, h⟩ := Option.bind_eq_some_iff.1 h
  obtain ⟨json, hj, h⟩ := Option.bind_eq_some_iff.1 h
  obtain ⟨info, hi, h⟩ := Option.bind_eq_some_iff.1 h
  obtain rfl := Option.some.inj h
  exact ⟨hl, hj, hi⟩

lemma reads_field_logging {o : Option Node}
    (h : Node.field Node.logging? LogSettings.default o = some l) :
    Node.field Node.text? LogSettings.default.level (o.bind (Node.part? "level" 0)) = some l.level ∧
      Node.field Node.bool? LogSettings.default.json (o.bind (Node.part? "json" 1)) = some l.json ∧
      Node.field Node.bool? LogSettings.default.fileInfo (o.bind (Node.part? "file_info" 2)) =
        some l.fileInfo := by
  cases o with
  | none =>
    obtain rfl := Option.some.inj h
    exact ⟨rfl, rfl, rfl⟩
  | some n => exact reads_logging h

lemma reads_settings (h : n.settings? = some s) : Reads n.given? .default s := by
  rw [Node.settings?] at h
  obtain ⟨fields, hf, h⟩ := Option.bind_eq_some_iff.1 h
  obtain rfl := fields_eq hf
  obtain ⟨group, hg, h⟩ := Option.bind_eq_some_iff.1 h
  obtain ⟨path, hp, h⟩ := Option.bind_eq_some_iff.1 h
  obtain ⟨logging, hl, h⟩ := Option.bind_eq_some_iff.1 h
  obtain rfl := Option.some.inj h
  obtain ⟨hlevel, hjson, hinfo⟩ := reads_field_logging hl
  exact ⟨hg, hp, hlevel, hjson, hinfo⟩

lemma validate_ok {s' : Settings} (h : s.validate = .ok s') : s' = s := by
  rw [validate] at h
  split at h
  · cases h
  · rcases hl : s.logging.level? with x | level
    · rw [hl] at h
      cases h
    · rw [hl] at h
      exact (Except.ok.inj h).symm

lemma load?_ok (h : load? host fs file env = some (.ok s)) :
    ∃ entries, fileEntries? fs file = some entries ∧
      (gather (host.file.order entries) (host.environment.order (Environment.layer env))).settings? =
        some s := by
  rw [load?] at h
  split at h
  · rename_i entries he
    refine ⟨entries, he, ?_⟩
    rw [ofLayers?] at h
    split at h
    · rw [Option.some.injEq, ofTree] at h
      split at h
      · rename_i hs
        rw [hs, validate_ok h]
      · cases h
    · cases h
  · cases h

lemma part?_gather (file entries : List (String × Node)) (name : String) (i : Nat) :
    (gather file entries).part? name i =
      entries.foldl (lain name) ((gather file []).part? name i) := by
  obtain ⟨es, hes⟩ := exists_table_lay [] file
  obtain ⟨es', hes'⟩ := exists_table_lay es entries
  have hl := lookup_lay (.table es) entries name
  rw [hes'] at hl
  rw [gather, gather, hes, hes']
  exact hl

namespace Environment

def value? (env : List (String × String)) (variableName : String) : Option String :=
  (env.filter fun p => key? p.1 = key? variableName).getLast?.map Prod.snd

lemma layer_concat (env : List (String × String)) (x value : String) :
    layer (env ++ [(x, value)]) = match key? x with
      | some key => Node.replace key (guess value) (layer env)
      | none => layer env := by
  rw [layer, List.foldl_append]
  rfl

lemma nodup_layer (env : List (String × String)) : ((layer env).map Prod.fst).Nodup := by
  induction env using List.reverseRecOn with
  | nil => exact List.nodup_nil
  | append_singleton env p ih =>
    rw [layer_concat]
    split
    · exact Node.nodup_alter ih _ _
    · exact ih

lemma mem_layer {e : String × Node} (h : e ∈ layer env) :
    ∃ p ∈ env, key? p.1 = some e.1 ∧ e.2 = guess p.2 := by
  induction env using List.reverseRecOn with
  | nil => cases h
  | append_singleton env p ih =>
    have hold : e ∈ layer env → ∃ q ∈ env ++ [p], key? q.1 = some e.1 ∧ e.2 = guess q.2 := by
      intro he
      obtain ⟨q, hq, hkey⟩ := ih he
      exact ⟨q, List.mem_append_left _ hq, hkey⟩
    rw [layer_concat] at h
    split at h
    · rename_i key hkey
      rcases Node.mem_replace h with rfl | h
      · exact ⟨p, List.mem_append_right _ List.mem_cons_self, hkey, rfl⟩
      · exact hold h
    · exact hold h

lemma lookup_layer {variableName key : String} (h : key? variableName = some key)
    (env : List (String × String)) :
    (layer env).lookup key = (value? env variableName).map guess := by
  induction env using List.reverseRecOn with
  | nil => rfl
  | append_singleton env p ih =>
    obtain ⟨x, value⟩ := p
    have hv : value? (env ++ [(x, value)]) variableName =
        if key? x = some key then some value else value? env variableName := by
      by_cases hx : key? x = some key <;> simp [value?, List.filter_append, h, hx]
    rw [layer_concat, hv]
    cases hx : key? x with
    | none => exact ih
    | some k =>
      simp only [Option.some.injEq]
      rw [Node.replace, Node.lookup_alter, ih, if_congr eq_comm rfl rfl]
      split <;> rfl

lemma last?_layer {variableName key : String} (h : key? variableName = some key)
    (a : Arrangement) (env : List (String × String)) :
    last? key (a.order (layer env)) = (value? env variableName).map guess := by
  have hn := nodup_layer env
  have hp := a.perm (layer env)
  rw [last?_eq_lookup ((hp.map Prod.fst).nodup_iff.2 hn), Node.lookup_perm hp hn, lookup_layer h]

lemma layer_eq_nil (h : ∀ p ∈ env, key? p.1 = none) : layer env = [] := by
  refine List.eq_nil_iff_forall_not_mem.2 fun e he => ?_
  obtain ⟨p, hp, hkey, -⟩ := mem_layer he
  cases (h p hp).symm.trans hkey

lemma isLeaf_guess (value : String) : (guess value).isLeaf = true := by
  rw [guess]
  split <;> rfl

lemma isLeaf_of_mem_layer (a : Arrangement) {e : String × Node} (h : e ∈ a.order (layer env)) :
    e.2.isLeaf = true := by
  obtain ⟨p, -, -, he⟩ := mem_layer ((a.perm _).mem_iff.1 h)
  rw [he]
  exact isLeaf_guess p.2

end Environment

lemma isLeaf_of_text? {t : String} (h : n.text? = some t) : n.isLeaf = true := by
  cases n <;> first | rfl | cases h

lemma isLeaf_of_optionalText? {t : Option String} (h : n.optionalText? = some t) :
    n.isLeaf = true := by
  cases n <;> first | rfl | cases h

lemma read_of_value? {α : Type} {read? : Node → Option α} {default x : α} {f : Field}
    {value : String} {i : Nat} {a : Arrangement} (hs : KeyPath.steps f.key = [.key f.key])
    (hleaf : ∀ n x, read? n = some x → n.isLeaf = true)
    (hv : Environment.value? env f.variableName = some value)
    (h : Node.field read? default
      ((gather entries (a.order (Environment.layer env))).part? f.key i) = some x) :
    read? (Environment.guess value) = some x := by
  have hm : last? f.key (a.order (Environment.layer env)) = some (Environment.guess value) := by
    rw [Environment.last?_layer f.key?_variableName, hv]
    rfl
  rw [part?_gather] at h
  cases hn : (a.order (Environment.layer env)).foldl (lain f.key)
      ((gather entries []).part? f.key i) with
  | none =>
    have hsome := foldl_lain_isSome ((gather entries []).part? f.key i) hs hm
    rw [hn] at hsome
    cases hsome
  | some n =>
    rw [hn] at h
    have hle : ∀ e ∈ a.order (Environment.layer env), e.2.isLeaf = true := fun _ he =>
      Environment.isLeaf_of_mem_layer a he
    rw [← foldl_lain_leaf hs hle hm hn (hleaf n x h)]
    exact h

end CallWaiting.Settings
