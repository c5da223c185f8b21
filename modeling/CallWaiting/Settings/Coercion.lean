import CallWaiting.Settings.Basic
import CallWaiting.Settings.Node

namespace CallWaiting.Settings.Node

def text? : Node → Option String
  | text s => some s
  | bool b => some (if b then "true" else "false")
  | integer i => some (Numeral.text i)
  | float x => some x.text
  | _ => none

def word? (word : String) : Option Bool :=
  if word ∈ ["1", "true", "on", "yes"] then some true
  else if word ∈ ["0", "false", "off", "no"] then some false
  else none

def bool? : Node → Option Bool
  | bool b => some b
  | integer i => some (i ≠ 0)
  | float x => some !x.isZero
  | text s => word? (String.ofList (s.toList.map Char.toLower))
  | _ => none

def optionalText? : Node → Option (Option String)
  | nothing => some none
  | n => n.text?.map some

def fields? (names : List String) : Node → Option (List (Option Node))
  | table es => some (names.map fun n => es.lookup n)
  | array ns => some ((List.range names.length).map (ns[·]?))
  | _ => none

def field {α : Type} (read? : Node → Option α) (default : α) : Option Node → Option α
  | none => some default
  | some n => read? n

def logging? (n : Node) : Option LogSettings := do
  match ← fields? ["level", "json", "file_info"] n with
  | [level, json, info] =>
    return ⟨← field text? LogSettings.default.level level,
      ← field bool? LogSettings.default.json json,
      ← field bool? LogSettings.default.fileInfo info⟩
  | _ => none

def settings? (n : Node) : Option Settings := do
  match ← fields? ["preference_group", "store_path", "logging"] n with
  | [group, path, logging] =>
    return ⟨← field text? Settings.default.group group, ← field optionalText? none path,
      ← field logging? LogSettings.default logging⟩
  | _ => none

end CallWaiting.Settings.Node
