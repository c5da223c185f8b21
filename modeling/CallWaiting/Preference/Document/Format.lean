import CallWaiting.Json.Form
import CallWaiting.Preference.Document.Basic

/-!
The preference document as a file: indented JSON with groups, fields and scopes in order. What
is read need not be in order, and of a name given twice the last counts.
-/

namespace CallWaiting.Preference.Document

open Json (toJson ofJson? fields? required)

def tree {α β : Type} [Ord α] [Std.TransOrd α] (key : α → Octets) (value : β → Json)
    (m : Std.ExtTreeMap α β) : Json :=
  .object (m.toList.map fun (k, v) => (key k, value v))

def map? {α β : Type} [Ord α] [Std.TransOrd α] (key : Octets → Option α) (value : Json → Option β) :
    Json → Option (Std.ExtTreeMap α β)
  | .object members => do
    return .ofList (← members.mapM fun (k, j) => do return (← key k, ← value j))
  | _ => none

def scopesTree (s : Scopes) : Json :=
  tree (fun k => Numeral.ofInt k.toInt) toJson s

def fieldsTree (f : Fields) : Json :=
  tree (fun k => Json.Escape.ofText k.name) scopesTree f

def toTree (d : Document) : Json :=
  Json.record [("groups", tree Json.Escape.ofText fieldsTree d.groups)]

def scope? (k : Octets) : Option Int32 :=
  if Json.Token.isNumber k then (Json.int? k).bind Numeral.int32? else none

def field? (k : Octets) : Option Field :=
  (Json.Escape.text? k).bind Field.ofName?

def scopes? (j : Json) : Option Scopes :=
  map? scope? ofJson? j

def groupFields? (j : Json) : Option Fields :=
  map? field? scopes? j

def ofTree? (j : Json) : Option Document := do
  match ← fields? ["groups"] j with
  | [some groups] => return ⟨← map? Json.Escape.text? groupFields? groups⟩
  | _ => none

def encode (d : Document) : ByteArray :=
  (Json.pretty d.toTree).toBytes

def decode? (b : ByteArray) : Option Document := do
  ofTree? (← Json.read? (.ofBytes b))

end CallWaiting.Preference.Document
