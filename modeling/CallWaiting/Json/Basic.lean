import CallWaiting.Text.Octets

/-!
JSON trees over octets. A number keeps its digits and a text keeps its escapes, so that a tree
can hold what its reader skips without looking inside.
-/

namespace CallWaiting

inductive Json where
  | null
  | bool (value : Bool)
  | number (digits : Octets)
  | text (body : Octets)
  | array (items : List Json)
  | object (members : List (Octets × Json))

namespace Json

mutual

def depth : Json → Nat
  | array items => depthItems items + 1
  | object members => depthMembers members + 1
  | _ => 0

def depthItems : List Json → Nat
  | [] => 0
  | j :: js => max (depth j) (depthItems js)

def depthMembers : List (Octets × Json) → Nat
  | [] => 0
  | (_, j) :: ms => max (depth j) (depthMembers ms)

end

end Json

end CallWaiting
