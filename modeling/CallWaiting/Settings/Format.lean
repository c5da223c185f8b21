import CallWaiting.Json.Escape
import CallWaiting.Json.Number
import CallWaiting.Json.Reader
import CallWaiting.Settings.Node
import CallWaiting.Toml.Reader
import CallWaiting.Yaml.Stream

namespace CallWaiting.Settings

namespace Node

mutual

def ofToml : Toml → Node
  | .text s => text s
  | .integer i => integer i
  | .float x => float x
  | .bool b => bool b
  | .moment s => text s
  | .array vs => array (ofTomls vs)
  | .table es => table (ofTomlEntries es)

def ofTomls : List Toml → List Node
  | [] => []
  | v :: vs => ofToml v :: ofTomls vs

def ofTomlEntries : List (String × Toml) → List (String × Node)
  | [] => []
  | (k, v) :: es => (k, ofToml v) :: ofTomlEntries es

end

mutual

def ofJson? : Json → Option Node
  | .null => some nothing
  | .bool b => some (bool b)
  | .number d => (Json.Number.value? d).map fun
    | .integer i => integer i
    | .float x => float x
  | .text t => (Json.Escape.text? t).map text
  | .array js => (ofJsons? js).map array
  | .object ms => (ofMembers? [] ms).map table

def ofJsons? : List Json → Option (List Node)
  | [] => some []
  | j :: js => do
    let n ← ofJson? j
    some (n :: (← ofJsons? js))

def ofMembers? (done : List (String × Node)) :
    List (Octets × Json) → Option (List (String × Node))
  | [] => some done
  | (k, j) :: ms => do
    let k ← Json.Escape.text? k
    let n ← ofJson? j
    ofMembers? (replace k n done) ms

end

def name? : Yaml.Scalar → Option String
  | .nothing => none
  | .bool b => some (if b then "true" else "false")
  | .integer i => some (Numeral.text i)
  | .real s => some s
  | .text s => some s

def ofScalar? : Yaml.Scalar → Option Node
  | .nothing => some nothing
  | .bool b => some (bool b)
  | .integer i => some (integer i)
  | .real s => (Double.ofText? s.toList).map float
  | .text s => some (text s)

mutual

def ofYaml? : Yaml → Option Node
  | .scalar s => ofScalar? s
  | .sequence ys => (ofYamls? ys).map array
  | .mapping es => (ofYamlEntries? [] es).map table

def ofYamls? : List Yaml → Option (List Node)
  | [] => some []
  | y :: ys => do
    let n ← ofYaml? y
    some (n :: (← ofYamls? ys))

def ofYamlEntries? (done : List (String × Node)) :
    List (Yaml.Scalar × Yaml) → Option (List (String × Node))
  | [] => some done
  | (k, y) :: es => do
    let k ← name? k
    let n ← ofYaml? y
    ofYamlEntries? (replace k n done) es

end

end Node

inductive Format where
  | toml
  | json
  | yaml
deriving DecidableEq

namespace Format

def all : List (String × Format) :=
  [("toml", toml), ("json", json), ("yaml", yaml), ("yml", yaml)]

def ofExtension? (extension : List Char) : Option Format :=
  all.lookup (String.ofList extension)

def root? : Node → Option (List (String × Node))
  | .table es => some es
  | _ => none

def maxJsonDepth : Nat := 127

def read? (text : String) : Format → Option (List (String × Node))
  | toml => (Toml.read? .second text.toList).map Node.ofTomlEntries
  | json => do
    let j ← Json.read? (Octets.ofText text)
    if j.depth ≤ maxJsonDepth then root? (← Node.ofJson? j) else none
  | yaml => do
    match ← Yaml.read? text.toList with
    | [] => some []
    | [y] => root? (← Node.ofYaml? y)
    | _ => none

end Format

end CallWaiting.Settings
