import CallWaiting.Yaml.Plain

namespace CallWaiting.Yaml.Quoted

def code? (count : Nat) (cs : List Char) : Option (Char × Nat) := do
  let values ← (cs.take count).mapM Numeral.hexDigit?
  let n := values.foldl (16 * · + ·) 0
  if values.length = count ∧ n.isValidChar then some (Char.ofNat n, count + 1) else none

def escape? : List Char → Option (Char × Nat)
  | '0' :: _ => some ('\x00', 1)
  | 'a' :: _ => some ('\x07', 1)
  | 'b' :: _ => some ('\x08', 1)
  | 't' :: _ => some ('\t', 1)
  | '\t' :: _ => some ('\t', 1)
  | 'n' :: _ => some ('\n', 1)
  | 'v' :: _ => some ('\x0b', 1)
  | 'f' :: _ => some ('\x0c', 1)
  | 'r' :: _ => some ('\r', 1)
  | 'e' :: _ => some ('\x1b', 1)
  | ' ' :: _ => some (' ', 1)
  | '"' :: _ => some ('"', 1)
  | '/' :: _ => some ('/', 1)
  | '\\' :: _ => some ('\\', 1)
  | 'N' :: _ => some ('\u0085', 1)
  | '_' :: _ => some ('\u00a0', 1)
  | 'L' :: _ => some ('\u2028', 1)
  | 'P' :: _ => some ('\u2029', 1)
  | 'x' :: cs => code? 2 cs
  | 'u' :: cs => code? 4 cs
  | 'U' :: cs => code? 8 cs
  | _ => none

def nextText? (indent : Int) (c : Cursor) : Option Cursor :=
  let rec go (c : Cursor) : List Char → Cursor
    | '\n' :: cs => go (c.nextLine cs) cs
    | ' ' :: cs => go { c with rest := cs, column := c.column + 1 } cs
    | '\t' :: cs =>
      let tab := if c.fresh then c.tab.or (some c.column) else c.tab
      go { c with rest := cs, column := c.column + 1, tab := tab } cs
    | _ => c
  let next := go c c.rest
  if next.isInside indent && !next.isTabbed indent then some next else none

def body? (double : Bool) (indent : Int) : Nat → List Char → Cursor → Option (List Char × Cursor)
  | 0, _, _ => none
  | n + 1, read, c =>
    match c.rest with
    | [] => none
    | '\n' :: _ => do
      let next ← nextText? indent c
      body? double indent n ((Plain.joint (Plain.breaks c.rest)).reverse ++ read) next
    | '"' :: _ =>
      if double then some (read.reverse, c.advance 1)
      else body? double indent n ('"' :: read) (c.advance 1)
    | '\'' :: cs =>
      if double then body? double indent n ('\'' :: read) (c.advance 1)
      else if cs.head? = some '\'' then body? double indent n ('\'' :: read) (c.advance 2)
      else some (read.reverse, c.advance 1)
    | '\\' :: cs =>
      if double then
        if cs.head? = some '\n' then do
          let lines := Plain.breaks cs
          let next ← nextText? indent (c.advance 1)
          body? double indent n (List.replicate (lines - 1) '\n' ++ read) next
        else do
          let (d, width) ← escape? cs
          body? double indent n (d :: read) (c.advance (width + 1))
      else body? double indent n ('\\' :: read) (c.advance 1)
    | d :: cs =>
      if isBlank d then
        let width := (c.rest.takeWhile isBlank).length
        if (c.rest.drop width).head? = some '\n' then body? double indent n read (c.advance width)
        else body? double indent n ((c.rest.take width).reverse ++ read) (c.advance width)
      else body? double indent n (d :: read) { c.advance 1 with rest := cs }

def read? (indent : Int) (c : Cursor) : Option (List Char × Cursor) :=
  match c.rest with
  | '"' :: _ => body? true indent (c.rest.length + 1) [] (c.advance 1)
  | '\'' :: _ => body? false indent (c.rest.length + 1) [] (c.advance 1)
  | _ => none

end CallWaiting.Yaml.Quoted
