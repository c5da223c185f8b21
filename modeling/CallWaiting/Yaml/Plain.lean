import CallWaiting.Yaml.Cursor

namespace CallWaiting.Yaml.Plain

def indicators : List Char :=
  [',', '[', ']', '\x7b', '\x7d', '#', '&', '*', '!', '|', '>', '\'', '"', '%', '@', '\x60']

def starts (flow : Bool) : List Char → Bool
  | [] => false
  | c :: cs =>
    if c == '-' || c == '?' || c == ':' then
      !endsWord cs && !(flow && (cs.head?.any isFlowSign))
    else !indicators.contains c && !isBlankOrBreak c

def segment (flow : Bool) (spaced : Bool) : List Char → List Char
  | [] => []
  | '\n' :: _ => []
  | ':' :: cs =>
    if endsWord cs || (flow && cs.head?.any isFlowSign) then [] else ':' :: segment flow false cs
  | '#' :: cs => if spaced then [] else '#' :: segment flow false cs
  | c :: cs => if flow && isFlowSign c then [] else c :: segment flow (isBlank c) cs

def trimEnd (cs : List Char) : List Char :=
  (cs.reverse.dropWhile isBlank).reverse

def line (flow : Bool) (c : Cursor) : List Char × Cursor :=
  let s := trimEnd (segment flow false c.rest)
  (s, c.advance s.length)

def joint (breaks : Nat) : List Char :=
  if breaks ≤ 1 then [' '] else List.replicate (breaks - 1) '\n'

def breaks : List Char → Nat
  | '\n' :: cs => breaks cs + 1
  | ' ' :: cs => breaks cs
  | '\t' :: cs => breaks cs
  | _ => 0

def continues? (flow : Bool) (indent : Int) (c : Cursor) : Option Cursor :=
  let next := c.skip
  match c.rest.dropWhile isBlank, next.rest.head? with
  | '\n' :: _, some d =>
    if next.isInside indent && (c.rest.dropWhile isBlankOrBreak).head? = some d && d ≠ '#'
        && (!flow || !isFlowSign d) && !(segment flow false next.rest).isEmpty then some next
    else none
  | _, _ => none

def more (flow : Bool) (indent : Int) : Nat → Cursor → Option (List Char × Cursor)
  | 0, _ => none
  | n + 1, c =>
    match continues? flow indent c with
    | none => some ([], c)
    | some next =>
      if next.isTabbed indent then none
      else
        let (s, after) := line flow next
        (more flow indent n after).map fun (tail, last) => (joint (breaks c.rest) ++ s ++ tail, last)

def read? (flow : Bool) (indent : Int) (c : Cursor) : Option (List Char × Cursor) :=
  if starts flow c.rest then
    let (s, after) := line flow c
    (more flow indent (c.rest.length + 1) after).map fun (tail, last) => (s ++ tail, last)
  else none

end CallWaiting.Yaml.Plain
