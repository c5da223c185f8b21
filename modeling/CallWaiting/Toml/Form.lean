import CallWaiting.Toml.Reader

namespace CallWaiting

class Toml.Form (α : Type) where
  ofToml? : Toml → Option α

namespace Toml

export Form (ofToml?)

instance : Form String where
  ofToml?
    | text s => some s
    | _ => none

instance : Form Bool where
  ofToml?
    | bool b => some b
    | _ => none

instance : Form Int32 where
  ofToml?
    | integer i => Numeral.int32? i
    | _ => none

instance {α : Type} [Form α] : Form (List α) where
  ofToml?
    | array vs => vs.mapM ofToml?
    | _ => none

instance {α : Type} [Form α] : Form (Option α) where
  ofToml? v := (ofToml? v).map some

def fields? (names : List String) : Toml → Option (List (Option Toml))
  | table es => some (names.map fun n => es.lookup n)
  | array vs => some ((List.range names.length).map (vs[·]?))
  | _ => none

def optional {α : Type} [Form α] (default : α) : Option Toml → Option α
  | none => some default
  | some v => ofToml? v

def parse? {α : Type} [Form α] (d : Dialect) (s : String) : Option α :=
  (read? d s.toList).bind fun es => ofToml? (table es)

end Toml

end CallWaiting
