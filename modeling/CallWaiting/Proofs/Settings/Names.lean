import CallWaiting.Proofs.Settings.Tree
import CallWaiting.Proofs.Toml.Names

namespace CallWaiting.Settings

namespace Node

inductive Distinct : Node → Prop
  | leaf {n : Node} (h : n.isLeaf = true) : Distinct n
  | array {ns : List Node} (h : ∀ n ∈ ns, Distinct n) : Distinct (array ns)
  | table {es : List (String × Node)} (hn : (es.map Prod.fst).Nodup) (he : ∀ e ∈ es, Distinct e.2) :
    Distinct (table es)

variable {es done : List (String × Node)} {ns : List Node} {n : Node} {k : String}

lemma distinct_table_iff :
    (table es).Distinct ↔ (es.map Prod.fst).Nodup ∧ ∀ e ∈ es, e.2.Distinct := by
  constructor
  · intro h
    cases h with
    | leaf h => cases h
    | table hn he => exact ⟨hn, he⟩
  · exact fun h => .table h.1 h.2

lemma Distinct.of_lookup (h : (Node.table es).Distinct) (hn : es.lookup k = some n) : n.Distinct := by
  obtain ⟨hk, he⟩ := distinct_table_iff.1 h
  exact he _ ((lookup_eq_some_iff_mem hk).1 hn)

lemma Distinct.replace (hd : (Node.table done).Distinct) (h : n.Distinct) (k : String) :
    (Node.table (Node.replace k n done)).Distinct := by
  obtain ⟨hn, he⟩ := distinct_table_iff.1 hd
  refine .table (nodup_alter hn k _) fun e hm => ?_
  rcases mem_replace hm with rfl | hm
  · exact h
  · exact he e hm

lemma ofTomls_eq (vs : List Toml) : ofTomls vs = vs.map ofToml := by
  induction vs with
  | nil => rfl
  | cons v vs ih => rw [ofTomls, ih, List.map_cons]

lemma ofTomlEntries_eq (es : List (String × Toml)) :
    ofTomlEntries es = es.map fun e => (e.1, ofToml e.2) := by
  induction es with
  | nil => rfl
  | cons e es ih =>
    obtain ⟨k, v⟩ := e
    rw [ofTomlEntries, ih, List.map_cons]

lemma distinct_ofToml {v : Toml} (h : v.Distinct) : (ofToml v).Distinct := by
  induction h with
  | @leaf v ha ht =>
    cases v with
    | array vs => exact absurd rfl (ha vs)
    | table es => exact absurd rfl (ht es)
    | _ => exact .leaf rfl
  | array h ih =>
    rw [ofToml, ofTomls_eq]
    refine .array fun n hn => ?_
    obtain ⟨v, hv, rfl⟩ := List.mem_map.1 hn
    exact ih v hv
  | table hn he ih =>
    rw [ofToml, ofTomlEntries_eq]
    refine .table ?_ fun e hm => ?_
    · rwa [List.map_map]
    · obtain ⟨x, hx, rfl⟩ := List.mem_map.1 hm
      exact ih x hx

mutual

theorem distinct_ofJson? (j : Json) (n : Node) (h : ofJson? j = some n) : n.Distinct := by
  match j, h with
  | .null, h | .bool _, h =>
    obtain rfl := Option.some.inj h
    exact .leaf rfl
  | .number d, h =>
    obtain ⟨v, -, rfl⟩ := Option.map_eq_some_iff.1 h
    cases v <;> exact .leaf rfl
  | .text t, h =>
    obtain ⟨s, -, rfl⟩ := Option.map_eq_some_iff.1 h
    exact .leaf rfl
  | .array js, h =>
    obtain ⟨ns, hns, rfl⟩ := Option.map_eq_some_iff.1 h
    exact .array (distinct_ofJsons? js ns hns)
  | .object ms, h =>
    obtain ⟨es, hes, rfl⟩ := Option.map_eq_some_iff.1 h
    exact distinct_ofMembers? ms [] es (.table .nil nofun) hes

theorem distinct_ofJsons? (js : List Json) (ns : List Node) (h : ofJsons? js = some ns) :
    ∀ n ∈ ns, n.Distinct := by
  match js, h with
  | [], h =>
    obtain rfl := Option.some.inj h
    exact nofun
  | j :: js, h =>
    obtain ⟨n, hn, h⟩ := Option.bind_eq_some_iff.1 h
    obtain ⟨ns, hns, h⟩ := Option.bind_eq_some_iff.1 h
    obtain rfl := Option.some.inj h
    exact List.forall_mem_cons.2 ⟨distinct_ofJson? j n hn, distinct_ofJsons? js ns hns⟩

theorem distinct_ofMembers? (ms : List (Octets × Json)) (done es : List (String × Node))
    (hd : (table done).Distinct) (h : ofMembers? done ms = some es) : (table es).Distinct := by
  match ms, h with
  | [], h =>
    obtain rfl := Option.some.inj h
    exact hd
  | (k, j) :: ms, h =>
    obtain ⟨k', -, h⟩ := Option.bind_eq_some_iff.1 h
    obtain ⟨n, hn, h⟩ := Option.bind_eq_some_iff.1 h
    exact distinct_ofMembers? ms _ es (hd.replace (distinct_ofJson? j n hn) k') h

end

lemma isLeaf_ofScalar? {s : Yaml.Scalar} (h : ofScalar? s = some n) : n.isLeaf = true := by
  cases s with
  | real written =>
    obtain ⟨x, -, rfl⟩ := Option.map_eq_some_iff.1 h
    rfl
  | _ =>
    obtain rfl := Option.some.inj h
    rfl

mutual

theorem distinct_ofYaml? (y : Yaml) (n : Node) (h : ofYaml? y = some n) : n.Distinct := by
  match y, h with
  | .scalar s, h => exact .leaf (isLeaf_ofScalar? h)
  | .sequence ys, h =>
    obtain ⟨ns, hns, rfl⟩ := Option.map_eq_some_iff.1 h
    exact .array (distinct_ofYamls? ys ns hns)
  | .mapping es, h =>
    obtain ⟨es', hes, rfl⟩ := Option.map_eq_some_iff.1 h
    exact distinct_ofYamlEntries? es [] es' (.table .nil nofun) hes

theorem distinct_ofYamls? (ys : List Yaml) (ns : List Node) (h : ofYamls? ys = some ns) :
    ∀ n ∈ ns, n.Distinct := by
  match ys, h with
  | [], h =>
    obtain rfl := Option.some.inj h
    exact nofun
  | y :: ys, h =>
    obtain ⟨n, hn, h⟩ := Option.bind_eq_some_iff.1 h
    obtain ⟨ns, hns, h⟩ := Option.bind_eq_some_iff.1 h
    obtain rfl := Option.some.inj h
    exact List.forall_mem_cons.2 ⟨distinct_ofYaml? y n hn, distinct_ofYamls? ys ns hns⟩

theorem distinct_ofYamlEntries? (ys : List (Yaml.Scalar × Yaml)) (done es : List (String × Node))
    (hd : (table done).Distinct) (h : ofYamlEntries? done ys = some es) : (table es).Distinct := by
  match ys, h with
  | [], h =>
    obtain rfl := Option.some.inj h
    exact hd
  | (k, y) :: ys, h =>
    obtain ⟨k', -, h⟩ := Option.bind_eq_some_iff.1 h
    obtain ⟨n, hn, h⟩ := Option.bind_eq_some_iff.1 h
    exact distinct_ofYamlEntries? ys _ es (hd.replace (distinct_ofYaml? y n hn) k') h

end

end Node

open Node (distinct_table_iff)

variable {es : List (String × Node)}

lemma Format.root?_some {n : Node} (h : Format.root? n = some es) : n = .table es := by
  cases n with
  | table es' => rw [Option.some.inj h]
  | _ => cases h

theorem Format.distinct_read? {text : String} {format : Format} (h : format.read? text = some es) :
    (Node.table es).Distinct := by
  cases format with
  | toml =>
    obtain ⟨vs, hvs, rfl⟩ := Option.map_eq_some_iff.1 h
    exact Node.distinct_ofToml (Toml.document_distinct hvs)
  | json =>
    obtain ⟨j, -, h⟩ := Option.bind_eq_some_iff.1 h
    split at h
    · obtain ⟨n, hn, h⟩ := Option.bind_eq_some_iff.1 h
      rw [← Format.root?_some h]
      exact Node.distinct_ofJson? j n hn
    · cases h
  | yaml =>
    obtain ⟨ys, -, h⟩ := Option.bind_eq_some_iff.1 h
    split at h
    · obtain rfl := Option.some.inj h
      exact .table .nil nofun
    · obtain ⟨n, hn, h⟩ := Option.bind_eq_some_iff.1 h
      rw [← Format.root?_some h]
      exact Node.distinct_ofYaml? _ n hn
    · cases h

lemma distinct_fileLayer? {fs : FileSystem} {p : FileSystem.Path} (h : fileLayer? fs p = some es) :
    (Node.table es).Distinct := by
  obtain ⟨⟨p, format⟩, -, h⟩ := Option.bind_eq_some_iff.1 h
  obtain ⟨content, -, h⟩ := Option.bind_eq_some_iff.1 h
  obtain ⟨text, -, h⟩ := Option.bind_eq_some_iff.1 h
  exact Format.distinct_read? h

lemma distinct_fileEntries? {fs : FileSystem} {file : Option FileSystem.Path}
    (h : fileEntries? fs file = some es) : (Node.table es).Distinct := by
  cases file with
  | none =>
    obtain rfl := Option.some.inj h
    exact .table .nil nofun
  | some p => exact distinct_fileLayer? h

end CallWaiting.Settings
