import CallWaiting.Toml.Draft
import CallWaiting.Toml.Moment
import CallWaiting.Toml.Number
import CallWaiting.Toml.Quoted

namespace CallWaiting.Toml

def isBare (c : Char) : Bool :=
  c.isAlphanum || c == '_' || c == '-'

def name? (d : Dialect) (cs : List Char) : Option (String × List Char) :=
  match Quoted.single? d cs with
  | some (name, rest) => some (String.ofList name, rest)
  | none =>
    if cs.takeWhile isBare = [] then none
    else some (String.ofList (cs.takeWhile isBare), cs.dropWhile isBare)

def names? (d : Dialect) : Nat → List Char → Option (List String × List Char)
  | 0, _ => none
  | n + 1, cs => do
    let (k, rest) ← name? d (dropBlanks cs)
    match dropBlanks rest with
    | '.' :: rest =>
      let (ks, rest) ← names? d n rest
      some (k :: ks, rest)
    | rest => some ([k], rest)

def dottedName? (d : Dialect) (cs : List Char) : Option (List String × List Char) :=
  names? d (maxDepth - 1) cs

def isWordSign (c : Char) : Bool :=
  c.isAlphanum || c == '+' || c == '-' || c == '_' || c == '.' || c == ':'

def cutWord (cs : List Char) : List Char × List Char :=
  let word := cs.takeWhile isWordSign
  match Moment.date? word, cs.dropWhile isWordSign with
  | some (_, []), ' ' :: c :: rest =>
    if c.isDigit then
      (word ++ 'T' :: (c :: rest).takeWhile isWordSign, (c :: rest).dropWhile isWordSign)
    else (word, ' ' :: c :: rest)
  | _, rest => (word, rest)

def ofWord? (d : Dialect) (word : List Char) : Option Toml :=
  if word = ['t', 'r', 'u', 'e'] then some (bool true)
  else if word = ['f', 'a', 'l', 's', 'e'] then some (bool false)
  else
    match Number.integer? word, Number.float? d word with
    | some i, _ => some (integer i)
    | none, some x => some (float x)
    | none, none => (Moment.ofText? d word).map fun m => moment (String.ofList m)

def arrayBrackets : Brackets :=
  ⟨']', dropLines false, true⟩

def tableBrackets (d : Dialect) : Brackets :=
  if d.openTables then ⟨'}', dropLines false, true⟩ else ⟨'}', dropBlanks, false⟩

def pair? (d : Dialect) (value? : List Char → Option (Toml × List Char)) (cs : List Char) :
    Option ((List String × Toml) × List Char) := do
  match ← dottedName? d cs with
  | (ks, '=' :: rest) =>
    let (v, rest) ← value? (dropBlanks rest)
    some ((ks, v), rest)
  | _ => none

def ofPairs? (pairs : List (List String × Toml)) : Option Toml := do
  let es ← pairs.foldlM (fun es (ks, v) => Draft.assign v ks es) []
  some (table (Draft.finishEntries es))

def value? (d : Dialect) : Nat → List Char → Option (Toml × List Char)
  | 0, cs => leaf? cs
  | depth + 1, cs =>
    match cs with
    | '[' :: cs => do
      let (vs, rest) ← arrayBrackets.read? (value? d depth) cs
      some (array vs, rest)
    | '\x7b' :: cs => do
      let (pairs, rest) ← (tableBrackets d).read? (pair? d (value? d depth)) cs
      some (← ofPairs? pairs, rest)
    | cs => leaf? cs
where
  leaf? (cs : List Char) : Option (Toml × List Char) :=
    match cs with
    | '"' :: _ => (Quoted.text? d cs).map fun (t, rest) => (text (String.ofList t), rest)
    | '\'' :: _ => (Quoted.text? d cs).map fun (t, rest) => (text (String.ofList t), rest)
    | cs => (ofWord? d (cutWord cs).1).map (·, (cutWord cs).2)

structure Page where
  entries : Draft.Entries
  header : List String

def header? (d : Dialect) (p : Page) (cs : List Char) : Option (Page × List Char) := do
  match cs with
  | '[' :: cs =>
    match ← dottedName? d cs with
    | (ks, ']' :: ']' :: rest) =>
      let es ← Draft.within (Draft.beginNext (← ks.getLast?)) ks.dropLast p.entries
      some (⟨es, ks⟩, rest)
    | _ => none
  | cs =>
    match ← dottedName? d cs with
    | (ks, ']' :: rest) =>
      let es ← Draft.within (Draft.begin (← ks.getLast?)) ks.dropLast p.entries
      some (⟨es, ks⟩, rest)
    | _ => none

def statement? (d : Dialect) (p : Page) (cs : List Char) : Option (Page × List Char) := do
  match dropBlanks cs with
  | [] => some (p, [])
  | '#' :: cs => some (p, '#' :: cs)
  | '\n' :: cs => some (p, '\n' :: cs)
  | '\r' :: cs => some (p, '\r' :: cs)
  | '[' :: cs => header? d p cs
  | cs =>
    let ((ks, v), rest) ← pair? d (value? d (maxDepth - 1)) cs
    some ({ p with entries := ← Draft.within (Draft.assign v ks) p.header p.entries }, rest)

def lines? (d : Dialect) : Nat → Page → List Char → Option Page
  | _, p, [] => some p
  | 0, _, _ => none
  | n + 1, p, cs => do
    let (p, rest) ← statement? d p cs
    lines? d n p (← lineEnd? rest)

def dropMark : List Char → List Char
  | '\ufeff' :: cs => cs
  | cs => cs

def read? (d : Dialect) (cs : List Char) : Option (List (String × Toml)) :=
  let cs := dropMark cs
  (lines? d (cs.length + 1) ⟨[], []⟩ cs).map fun p => Draft.finishEntries p.entries

end CallWaiting.Toml
