import CallWaiting.Decimal.Shortest

/-!
Trees of settings before anybody knows which fields they hold. Layers are put over one another:
a table is merged into a table name by name, and anything else takes the place of what was there.
-/

namespace CallWaiting.Settings

inductive Node where
  | nothing
  | bool (value : Bool)
  | integer (value : Int)
  | float (value : Double)
  | text (value : String)
  | array (items : List Node)
  | table (entries : List (String × Node))

namespace Node

inductive Step where
  | key (name : String)
  | index (i : Int)
deriving DecidableEq

def Step.reach : Step → Nat
  | key _ => 0
  | index i => if 0 ≤ i then i.toNat + 1 else i.natAbs

def entries : Node → List (String × Node)
  | table es => es
  | _ => []

def items : Node → List Node
  | array ns => ns
  | _ => []

def alter (k : String) (f : Node → Node) : List (String × Node) → List (String × Node)
  | [] => [(k, f nothing)]
  | (k', n) :: es => if k' = k then (k', f n) :: es else (k', n) :: alter k f es

def replace (k : String) (n : Node) (es : List (String × Node)) : List (String × Node) :=
  alter k (fun _ => n) es

/-- Changes the item at a place. An array is made longer, at the end or in front, until it has
that place. -/
def alterAt (i : Int) (f : Node → Node) (ns : List Node) : List Node :=
  if 0 ≤ i then (ns ++ List.replicate (i.toNat + 1 - ns.length) nothing).modify i.toNat f
  else
    let ns := List.replicate (i.natAbs - ns.length) nothing ++ ns
    ns.modify (ns.length - i.natAbs) f

def modify (f : Node → Node) : List Step → Node → Node
  | [], n => f n
  | .key k :: steps, n => table (alter k (modify f steps) n.entries)
  | .index i :: steps, n => array (alterAt i (modify f steps) n.items)

mutual

def overlay : Node → Node → Node
  | table es, old => table (overlayEntries es old.entries)
  | new, _ => new

def overlayEntries : List (String × Node) → List (String × Node) → List (String × Node)
  | [], old => old
  | (k, n) :: es, old => overlayEntries es (alter k (overlay n) old)

end

def put (tree : Node) (steps : List Step) (n : Node) : Node :=
  modify (overlay n) steps tree

end Node

end CallWaiting.Settings
