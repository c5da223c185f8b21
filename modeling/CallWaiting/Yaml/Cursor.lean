import CallWaiting.Yaml.Basic

/-!
Where the reader of a YAML document stands. Columns matter, and so does whether anything but
indentation came before on the line.
-/

namespace CallWaiting.Yaml

structure Cursor where
  rest : List Char
  column : Nat
  fresh : Bool
  tab : Option Nat
  anchors : List (String × Yaml)

def isBlank (c : Char) : Bool :=
  c == ' ' || c == '\t'

def isBlankOrBreak (c : Char) : Bool :=
  isBlank c || c == '\n'

def endsWord : List Char → Bool
  | [] => true
  | c :: _ => isBlankOrBreak c

def isFlowSign (c : Char) : Bool :=
  c == ',' || c == '[' || c == ']' || c == '\x7b' || c == '\x7d'

namespace Cursor

def advance (c : Cursor) (n : Nat) : Cursor :=
  { c with rest := c.rest.drop n, column := c.column + n, fresh := false }

def nextLine (c : Cursor) (rest : List Char) : Cursor :=
  { c with rest := rest, column := 0, fresh := true, tab := none }

/-- Passes over blanks, line breaks and comments. A comment stands behind a blank or at the start
of a line. -/
def skipFrom (c : Cursor) (spaced : Bool) : List Char → Cursor
  | [] => { c with rest := [] }
  | '\n' :: cs => skipFrom (c.nextLine cs) true cs
  | ' ' :: cs => skipFrom { c with column := c.column + 1 } true cs
  | '\t' :: cs =>
    let tab := if c.fresh then c.tab.or (some c.column) else c.tab
    skipFrom { c with column := c.column + 1, tab := tab } true cs
  | '#' :: cs => if spaced then skipComment c cs else { c with rest := '#' :: cs }
  | cs => { c with rest := cs }
where
  skipComment (c : Cursor) : List Char → Cursor
    | [] => { c with rest := [] }
    | '\n' :: cs => skipFrom (c.nextLine cs) true cs
    | _ :: cs => skipComment c cs

def skip (c : Cursor) : Cursor :=
  c.skipFrom c.fresh c.rest

def skipBlanks (c : Cursor) : Cursor :=
  let n := (c.rest.takeWhile isBlank).length
  { c with rest := c.rest.drop n, column := c.column + n }

def isTabbed (c : Cursor) (indent : Int) : Bool :=
  match c.tab with
  | some column => c.fresh && (column : Int) ≤ indent
  | none => false

def isInside (c : Cursor) (indent : Int) : Bool :=
  c.rest ≠ [] && indent < c.column

def atMark (c : Cursor) (mark : Char) : Bool :=
  match c.rest with
  | m :: cs => m == mark && endsWord cs
  | [] => false

end Cursor

end CallWaiting.Yaml
