import CallWaiting.Settings.KeyPath

namespace CallWaiting.Settings.Environment

def front : List Char := "call_waiting__".toList

/-- The small letter, where it is an ASCII one. The Kelvin sign has such a letter, too. -/
def small (c : Char) : Char :=
  if c = '\u212a' then 'k' else c.toLower

def dotted : List Char → List Char
  | '_' :: '_' :: cs => '.' :: dotted cs
  | c :: cs => c :: dotted cs
  | [] => []

def key? (name : String) : Option String :=
  let cs := name.toList.map small
  if front.isPrefixOf cs then some (String.ofList (dotted (cs.drop front.length))) else none

def bool? (value : String) : Option Bool :=
  let cs := value.toList.map small
  if cs = "true".toList then some true
  else if cs = "false".toList then some false
  else none

def guess (value : String) : Node :=
  match bool? value, (Numeral.toInt? value.toList).filter Numeral.fits64,
    Double.ofText? value.toList with
  | some b, _, _ => .bool b
  | none, some i, _ => .integer i
  | none, none, some x => .float x
  | none, none, none => .text value

def layer (environment : List (String × String)) : List (String × Node) :=
  environment.foldl (fun es (name, value) =>
    match key? name with
    | some key => Node.replace key (guess value) es
    | none => es) []

end CallWaiting.Settings.Environment
