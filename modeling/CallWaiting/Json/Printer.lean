import CallWaiting.Json.Basic

namespace CallWaiting.Json

def quoted (body : Octets) : Octets :=
  '"' :: body ++ ['"']

def word (b : Bool) : Octets :=
  if b then ['t', 'r', 'u', 'e'] else ['f', 'a', 'l', 's', 'e']

mutual

def compact : Json → Octets
  | null => ['n', 'u', 'l', 'l']
  | bool b => word b
  | number digits => digits
  | text body => quoted body
  | array items => '[' :: compactItems items ++ [']']
  | object members => '{' :: compactMembers members ++ ['}']

def compactItems : List Json → Octets
  | [] => []
  | [j] => compact j
  | j :: js => compact j ++ ',' :: compactItems js

def compactMembers : List (Octets × Json) → Octets
  | [] => []
  | [(k, j)] => quoted k ++ ':' :: compact j
  | (k, j) :: ms => quoted k ++ ':' :: compact j ++ ',' :: compactMembers ms

end

def newline (level : Nat) : Octets :=
  '\n' :: List.replicate (2 * level) ' '

mutual

def indented (level : Nat) : Json → Octets
  | null => ['n', 'u', 'l', 'l']
  | bool b => word b
  | number digits => digits
  | text body => quoted body
  | array [] => ['[', ']']
  | array (j :: js) =>
    '[' :: newline (level + 1) ++ indented (level + 1) j ++ indentedItems (level + 1) js ++
      newline level ++ [']']
  | object [] => ['{', '}']
  | object ((k, j) :: ms) =>
    '{' :: newline (level + 1) ++ quoted k ++ ':' :: ' ' :: indented (level + 1) j ++
      indentedMembers (level + 1) ms ++ newline level ++ ['}']

def indentedItems (level : Nat) : List Json → Octets
  | [] => []
  | j :: js => ',' :: newline level ++ indented level j ++ indentedItems level js

def indentedMembers (level : Nat) : List (Octets × Json) → Octets
  | [] => []
  | (k, j) :: ms =>
    ',' :: newline level ++ quoted k ++ ':' :: ' ' :: indented level j ++ indentedMembers level ms

end

def pretty (j : Json) : Octets :=
  indented 0 j

end CallWaiting.Json
