import Mathlib.Data.List.Induction
import Mathlib.Data.List.Nodup
import Mathlib.Tactic.Lemma
import CallWaiting.Settings.Load

namespace CallWaiting.Settings

open Node (Step)

namespace Node

variable {k name : String} {f : Node → Node} {es : List (String × Node)} {n : Node}

def isLeaf : Node → Bool
  | table _ => false
  | array _ => false
  | _ => true

lemma lookup_cons_eq {α : Type} (k name : String) (x : α) (es : List (String × α)) :
    ((k, x) :: es).lookup name = if name = k then some x else es.lookup name := by
  by_cases h : name = k
  · simp [h]
  · have hb : (name == k) = false := beq_false_of_ne h
    simp [List.lookup_cons, hb, h]

lemma lookup_alter (k name : String) (f : Node → Node) (es : List (String × Node)) :
    (alter k f es).lookup name =
      if name = k then some (f ((es.lookup k).getD nothing)) else es.lookup name := by
  induction es with
  | nil => rw [alter, lookup_cons_eq]; rfl
  | cons e es ih =>
    obtain ⟨k', n⟩ := e
    rw [alter]
    split
    · rename_i hk
      subst hk
      simp only [lookup_cons_eq, if_true, Option.getD_some]
      split <;> rfl
    · rename_i hk
      simp only [lookup_cons_eq, ih, if_neg (Ne.symm hk)]
      split
      · rename_i h
        rw [if_neg (h ▸ hk)]
      · rfl

lemma keys_alter (k : String) (f : Node → Node) (es : List (String × Node)) :
    (alter k f es).map Prod.fst =
      if k ∈ es.map Prod.fst then es.map Prod.fst else es.map Prod.fst ++ [k] := by
  induction es with
  | nil => rfl
  | cons e es ih =>
    obtain ⟨k', n⟩ := e
    rw [alter]
    by_cases hk : k' = k
    · simp [hk]
    · simp only [if_neg hk, List.map_cons, ih, List.mem_cons, Ne.symm hk, false_or]
      split <;> rfl

lemma nodup_alter (h : (es.map Prod.fst).Nodup) (k : String) (f : Node → Node) :
    ((alter k f es).map Prod.fst).Nodup := by
  rw [keys_alter]
  split
  · exact h
  · rename_i hk
    rw [← List.concat_eq_append]
    exact (List.nodup_concat _ _).2 ⟨hk, h⟩

lemma mem_replace {e : String × Node} (he : e ∈ replace k n es) : e = (k, n) ∨ e ∈ es := by
  induction es with
  | nil => exact .inl (List.mem_singleton.1 he)
  | cons e' es ih =>
    obtain ⟨k', n'⟩ := e'
    rw [replace, alter] at he
    split at he
    · rename_i hk
      subst hk
      rcases List.mem_cons.1 he with rfl | he
      · exact .inl rfl
      · exact .inr (List.mem_cons_of_mem _ he)
    · rcases List.mem_cons.1 he with rfl | he
      · exact .inr List.mem_cons_self
      · exact (ih he).imp_right (List.mem_cons_of_mem _)

lemma lookup_eq_some_iff_mem {α : Type} {x : α} {es : List (String × α)}
    (h : (es.map Prod.fst).Nodup) : es.lookup name = some x ↔ (name, x) ∈ es := by
  induction es with
  | nil => simp
  | cons e es ih =>
    obtain ⟨k, y⟩ := e
    obtain ⟨hk, hn⟩ := List.nodup_cons.1 h
    rw [lookup_cons_eq, List.mem_cons]
    by_cases hname : name = k
    · subst hname
      have hx : (name, x) ∉ es := fun hm => hk (List.mem_map.2 ⟨_, hm, rfl⟩)
      simp [hx, eq_comm]
    · simp [hname, ih hn]

lemma lookup_eq_none {α : Type} {es : List (String × α)} (h : name ∉ es.map Prod.fst) :
    es.lookup name = none := by
  refine List.lookup_eq_none_iff.2 fun e he => ?_
  rw [bne_iff_ne]
  rintro rfl
  exact h (List.mem_map_of_mem he)

lemma lookup_perm {α : Type} {es es' : List (String × α)} (hp : es'.Perm es)
    (h : (es.map Prod.fst).Nodup) (name : String) : es'.lookup name = es.lookup name := by
  have h' : (es'.map Prod.fst).Nodup := (hp.map Prod.fst).nodup_iff.2 h
  refine Option.ext fun x => ?_
  rw [lookup_eq_some_iff_mem h', lookup_eq_some_iff_mem h, hp.mem_iff]

lemma overlay_leaf (h : n.isLeaf = true) (old : Node) : overlay n old = n := by
  cases n <;> first | rfl | cases h

lemma isLeaf_modify (s : Step) (steps : List Step) (f : Node → Node) (n : Node) :
    (modify f (s :: steps) n).isLeaf = false := by
  cases s <;> rfl

end Node

namespace KeyPath

lemma name?_some {cs rest : List Char} {s : Step} (h : name? cs = some (s, rest)) :
    ∃ cs', s = .key (String.ofList cs') ∧ cs = cs' ++ rest := by
  rw [name?] at h
  split at h
  · cases h
  · obtain ⟨rfl, rfl⟩ := Prod.mk.inj (Option.some.inj h)
    exact ⟨_, rfl, List.takeWhile_append_dropWhile.symm⟩

lemma more?_nil {n : Nat} {rest : List Char} (h : more? n rest = some []) : rest = [] := by
  cases rest with
  | nil => rfl
  | cons c cs =>
    cases n with
    | zero => cases h
    | succ n =>
      have hn (o : Option (Step × List Char)) :
          (o.bind fun p => (more? n p.2).bind fun ss => some (p.1 :: ss)) ≠ some [] := by
        intro ho
        obtain ⟨_, -, ho⟩ := Option.bind_eq_some_iff.1 ho
        obtain ⟨_, -, ho⟩ := Option.bind_eq_some_iff.1 ho
        cases ho
      rw [more?] at h
      split at h
      · exact absurd h (hn _)
      · split at h
        · exact absurd h (hn _)
        · exact absurd h (hn none)

lemma steps_cases (key : String) : steps key = [.key key] ∨ ∃ cs rest n more,
    key.toList = cs ++ rest ∧ more? n rest = some more ∧
      steps key = .key (String.ofList cs) :: more := by
  rw [steps]
  cases h : steps? key.toList with
  | none => exact .inl rfl
  | some ss =>
    rw [steps?] at h
    obtain ⟨⟨s, rest⟩, hn, h⟩ := Option.bind_eq_some_iff.1 h
    obtain ⟨more, hm, h⟩ := Option.bind_eq_some_iff.1 h
    obtain ⟨cs, rfl, hcs⟩ := name?_some hn
    exact .inr ⟨cs, rest, rest.length, more, hcs, hm, (Option.some.inj h).symm⟩

lemma exists_steps (key : String) : ∃ name rest, steps key = .key name :: rest := by
  rcases steps_cases key with h | ⟨cs, -, -, more, -, -, h⟩
  · exact ⟨key, [], h⟩
  · exact ⟨_, more, h⟩

lemma eq_of_steps {key name : String} (h : steps key = [.key name]) : key = name := by
  rcases steps_cases key with hk | ⟨cs, rest, n, more, hcs, hm, hk⟩
  · rw [hk] at h
    simpa using h
  · rw [hk] at h
    obtain ⟨hname, rfl⟩ := List.cons.inj h
    rw [more?_nil hm, List.append_nil] at hcs
    rw [← Step.key.inj hname, ← hcs, String.ofList_toList]

end KeyPath

open Node

variable {name key : String} {tree : Node} {es entries : List (String × Node)} {n m : Node}
  {old : Option Node}

def lain (name : String) (old : Option Node) (entry : String × Node) : Option Node :=
  match KeyPath.steps entry.1 with
  | .key k :: rest =>
    if name = k then some (modify (overlay entry.2) rest (old.getD nothing)) else old
  | _ => old

lemma lain_eq {rest : List Step} (h : KeyPath.steps key = .key name :: rest) (n : Node) (x : String) :
    lain x old (key, n) =
      if x = name then some (modify (overlay n) rest (old.getD nothing)) else old := by
  simp only [lain, h]

lemma lookup_put (tree : Node) (key : String) (n : Node) (name : String) :
    (tree.put (KeyPath.steps key) n).entries.lookup name =
      lain name (tree.entries.lookup name) (key, n) := by
  obtain ⟨k, rest, hk⟩ := KeyPath.exists_steps key
  rw [lain_eq hk, hk, Node.put, Node.modify, Node.entries, lookup_alter]
  split
  · rename_i h
    rw [h]
  · rfl

lemma lookup_lay (tree : Node) (entries : List (String × Node)) (name : String) :
    (lay tree entries).entries.lookup name =
      entries.foldl (lain name) (tree.entries.lookup name) := by
  induction entries generalizing tree with
  | nil => rfl
  | cons e entries ih =>
    obtain ⟨key, n⟩ := e
    rw [lay, List.foldl_cons, List.foldl_cons, ← lookup_put]
    exact ih _

lemma exists_table_put (tree : Node) (key : String) (n : Node) :
    ∃ es, tree.put (KeyPath.steps key) n = .table es := by
  obtain ⟨k, rest, hk⟩ := KeyPath.exists_steps key
  rw [hk]
  exact ⟨_, rfl⟩

lemma exists_table_lay (es entries : List (String × Node)) :
    ∃ es', lay (.table es) entries = .table es' := by
  induction entries generalizing es with
  | nil => exact ⟨es, rfl⟩
  | cons e entries ih =>
    obtain ⟨key, n⟩ := e
    obtain ⟨es', h⟩ := exists_table_put (.table es) key n
    simp only [lay, List.foldl_cons, h]
    exact ih es'

def last? (key : String) (entries : List (String × Node)) : Option Node :=
  (entries.filter (·.1 = key)).getLast?.map Prod.snd

lemma last?_concat (key : String) (entries : List (String × Node)) (k : String) (n : Node) :
    last? key (entries ++ [(k, n)]) = if k = key then some n else last? key entries := by
  by_cases h : k = key <;> simp [last?, List.filter_append, h]

lemma last?_eq_lookup (h : (entries.map Prod.fst).Nodup) (key : String) :
    last? key entries = entries.lookup key := by
  induction entries using List.reverseRecOn with
  | nil => rfl
  | append_singleton entries e ih =>
    obtain ⟨k, n⟩ := e
    rw [List.map_append, List.map_singleton] at h
    obtain ⟨hn, -, hk⟩ := List.nodup_append.1 h
    rw [last?_concat, ih hn, List.lookup_append]
    split
    · rename_i hkey
      subst hkey
      have hnone : entries.lookup k = none :=
        lookup_eq_none fun hm => hk k hm k List.mem_cons_self rfl
      rw [hnone, lookup_cons_eq, if_pos rfl]
      rfl
    · rename_i hkey
      rw [lookup_cons_eq, if_neg (Ne.symm hkey), List.lookup_nil, Option.or_none]

lemma foldl_lain_isSome (old : Option Node) (hs : KeyPath.steps name = [.key name])
    (hm : last? name entries = some m) : (entries.foldl (lain name) old).isSome = true := by
  induction entries using List.reverseRecOn with
  | nil => cases hm
  | append_singleton entries e ih =>
    obtain ⟨key, x⟩ := e
    rw [List.foldl_append, List.foldl_cons, List.foldl_nil]
    rw [last?_concat] at hm
    obtain ⟨k, rest, hk⟩ := KeyPath.exists_steps key
    rw [lain_eq hk]
    split at hm
    · rename_i hkey
      rw [hkey, hs] at hk
      rw [if_pos (Step.key.inj (List.cons.inj hk).1)]
      rfl
    · split
      · rfl
      · exact ih hm

lemma foldl_lain_leaf (hs : KeyPath.steps name = [.key name])
    (hl : ∀ e ∈ entries, e.2.isLeaf = true) (hm : last? name entries = some m)
    (h : entries.foldl (lain name) old = some n) (hn : n.isLeaf = true) : n = m := by
  induction entries using List.reverseRecOn generalizing n with
  | nil => cases hm
  | append_singleton entries e ih =>
    obtain ⟨key, x⟩ := e
    rw [List.foldl_append, List.foldl_cons, List.foldl_nil] at h
    rw [last?_concat] at hm
    obtain ⟨k, rest, hk⟩ := KeyPath.exists_steps key
    rw [lain_eq hk] at h
    split at h
    · rename_i hname
      subst hname
      cases rest with
      | nil =>
        rw [if_pos (KeyPath.eq_of_steps hk)] at hm
        obtain rfl := Option.some.inj h
        obtain rfl := Option.some.inj hm
        exact overlay_leaf (hl _ (List.mem_append_right _ List.mem_cons_self)) _
      | cons s rest =>
        obtain rfl := Option.some.inj h
        rw [isLeaf_modify] at hn
        cases hn
    · rename_i hname
      have hne : key ≠ name := by
        rintro rfl
        rw [hs] at hk
        exact hname (Step.key.inj (List.cons.inj hk).1)
      rw [if_neg hne] at hm
      exact ih (fun e he => hl e (List.mem_append_left _ he)) hm h hn

end CallWaiting.Settings
