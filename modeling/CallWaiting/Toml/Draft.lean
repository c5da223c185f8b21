import CallWaiting.Toml.Basic

/-!
A document while it is being read. Each table remembers how it came about, because that decides
whether it may be opened again: a table may be given its header once, a table made by dotted
names grows by dotted names only, and what was written as one value does not grow at all.
-/

namespace CallWaiting.Toml

inductive Origin where
  | header
  | dotted
  | implied
deriving DecidableEq

inductive Draft where
  | value (v : Toml)
  | table (origin : Origin) (entries : List (String × Draft))
  | tables (earlier : List (List (String × Draft))) (last : List (String × Draft))

namespace Draft

abbrev Entries := List (String × Draft)

def alter {α : Type} (k : String) (f : Option α → Option α) :
    List (String × α) → Option (List (String × α))
  | [] => (f none).map fun x => [(k, x)]
  | (k', x) :: es =>
    if k' = k then (f (some x)).map fun y => (k', y) :: es else (alter k f es).map ((k', x) :: ·)

def within (f : Entries → Option Entries) : List String → Entries → Option Entries
  | [], es => f es
  | k :: ks, es => alter k (fun
    | none => (within f ks []).map (table .implied)
    | some (table o es) => (within f ks es).map (table o)
    | some (tables earlier last) => (within f ks last).map (tables earlier)
    | some (value _) => none) es

def begin (k : String) (es : Entries) : Option Entries :=
  alter k (fun
    | none => some (table .header [])
    | some (table .implied es) => some (table .header es)
    | some _ => none) es

def beginNext (k : String) (es : Entries) : Option Entries :=
  alter k (fun
    | none => some (tables [] [])
    | some (tables earlier last) => some (tables (earlier ++ [last]) [])
    | some _ => none) es

def assign (v : Toml) : List String → Entries → Option Entries
  | [], _ => none
  | [k], es => alter k (fun
    | none => some (value v)
    | some _ => none) es
  | k :: ks, es => alter k (fun
    | none => (assign v ks []).map (table .dotted)
    | some (table .dotted es) => (assign v ks es).map (table .dotted)
    | some (table .implied es) =>
      if ks.length = 1 then none else (assign v ks es).map (table .implied)
    | some (tables earlier last) =>
      if ks.length = 1 then none else (assign v ks last).map (tables earlier)
    | some _ => none) es

mutual

def finish : Draft → Toml
  | value v => v
  | table _ es => .table (finishEntries es)
  | tables earlier last => .array (finishTables earlier ++ [.table (finishEntries last)])

def finishEntries : List (String × Draft) → List (String × Toml)
  | [] => []
  | (k, e) :: es => (k, finish e) :: finishEntries es

def finishTables : List (List (String × Draft)) → List Toml
  | [] => []
  | es :: rest => .table (finishEntries es) :: finishTables rest

end

end Draft

end CallWaiting.Toml
