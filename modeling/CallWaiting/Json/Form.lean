import CallWaiting.Json.Reader
import CallWaiting.Json.Escape
import CallWaiting.Json.Printer
import CallWaiting.Text.Numeral

/-!
Types with a JSON form. A record is written as an object with its fields in order; it is read
from an object, in which unknown names are passed over, or from an array of its fields in order.
-/

namespace CallWaiting

class Json.Form (α : Type) where
  toJson : α → Json
  ofJson? : Json → Option α

namespace Json

export Form (toJson ofJson?)

def ofInt (i : Int) : Json :=
  number (Numeral.ofInt i)

def int? : Octets → Option Int
  | '-' :: ds => (Numeral.toNat? ds).bind fun n => if n = 0 then Option.none else some (-(n : Int))
  | ds => (Numeral.toNat? ds).map Int.ofNat

def ofText (s : String) : Json :=
  text (Escape.ofText s)

instance : Form Int32 where
  toJson i := ofInt i.toInt
  ofJson?
    | number d => (int? d).bind Numeral.int32?
    | _ => none

instance : Form UInt32 where
  toJson i := ofInt i.toNat
  ofJson?
    | number d => (int? d).bind Numeral.uint32?
    | _ => none

instance : Form Bool where
  toJson := bool
  ofJson?
    | bool b => some b
    | _ => none

instance : Form String where
  toJson := ofText
  ofJson?
    | text t => Escape.text? t
    | _ => none

instance {α : Type} [Form α] : Form (List α) where
  toJson xs := array (xs.map toJson)
  ofJson?
    | array js => js.mapM ofJson?
    | _ => none

instance {α : Type} [Form α] : Form (Option α) where
  toJson
    | some x => toJson x
    | none => null
  ofJson?
    | null => some none
    | j => (ofJson? j).map some

def record (fields : List (String × Json)) : Json :=
  object (fields.map fun (n, j) => (Escape.ofText n, j))

def lookup? (members : List (String × Json)) (name : String) : Option (Option Json) :=
  match members.filter (·.1 = name) with
  | [] => some none
  | [(_, j)] => some (some j)
  | _ => none

def fields? (names : List String) : Json → Option (List (Option Json))
  | object members => do
    let named ← members.mapM fun (k, j) => do return (← Escape.text? k, j)
    names.mapM (lookup? named)
  | array items =>
    if items.length ≤ names.length then
      some (items.map some ++ List.replicate (names.length - items.length) none)
    else none
  | _ => none

def required {α : Type} [Form α] (given : Option Json) : Option α :=
  given.bind ofJson?

def optional {α : Type} [Form α] (default : α) : Option Json → Option α
  | none => some default
  | some j => ofJson? j

def caseName? : Json → Option String
  | text t => Escape.text? t
  | object [(k, null)] => Escape.text? k
  | _ => none

def parse? {α : Type} [Form α] (cs : Octets) : Option α :=
  (read? cs).bind ofJson?

def compactText {α : Type} [Form α] (x : α) : Octets :=
  compact (toJson x)

end Json

end CallWaiting
