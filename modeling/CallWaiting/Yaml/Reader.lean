import CallWaiting.Yaml.Block
import CallWaiting.Yaml.Quoted

namespace CallWaiting.Yaml

structure Properties where
  anchor : Option String
  tag : Option (List Char)

def Properties.bare : Properties := ⟨none, none⟩

namespace Properties

def isEmpty (p : Properties) : Bool :=
  p.anchor.isNone && p.tag.isNone

def word (c : Cursor) : List Char :=
  c.rest.takeWhile fun d => !isBlankOrBreak d && !isFlowSign d

def next? (p : Properties) (c : Cursor) : Option (Option (Properties × Cursor)) :=
  let w := word c
  match c.rest with
  | '&' :: _ =>
    if p.anchor.isSome ∨ w.length = 1 then none
    else some (some (⟨some (String.ofList w.tail), p.tag⟩, c.advance w.length))
  | '!' :: _ =>
    if p.tag.isSome then none else some (some (⟨p.anchor, some w⟩, c.advance w.length))
  | _ => some none

def onLine? (p : Properties) : Nat → Cursor → Option (Properties × Cursor)
  | 0, c => some (p, c)
  | n + 1, c => do
    match ← next? p c with
    | some (p, after) =>
      if endsWord after.rest || after.rest.head?.any isFlowSign then onLine? p n after.skipBlanks
      else none
    | none => some (p, c)

def read? (c : Cursor) : Option (Properties × Cursor) := do
  let (p, c) ← onLine? Properties.bare 2 c
  if p.isEmpty then some (p, c)
  else
    match c.rest with
    | '\n' :: _ => onLine? p 2 c.skip
    | '#' :: _ => onLine? p 2 c.skip
    | _ => some (p, c)

def plain (p : Properties) (cs : List Char) : Scalar :=
  match p.tag with
  | some tag => .tagged tag cs
  | none => .ofPlain cs

def remember (p : Properties) (y : Yaml) (c : Cursor) : Yaml × Cursor :=
  match p.anchor with
  | some a => (y, { c with anchors := (a, y) :: c.anchors })
  | none => (y, c)

end Properties

def alias? (c : Cursor) : Option (Yaml × Cursor) := do
  let w := Properties.word c
  let y ← c.anchors.lookup (String.ofList w.tail)
  some (y, c.advance w.length)

def key? : Yaml → Option Scalar
  | .scalar s => some s
  | _ => none

def addEntry? (entries : List (Scalar × Yaml)) (k : Scalar) (v : Yaml) :
    Option (List (Scalar × Yaml)) :=
  if entries.any (·.1 = k) then none else some (entries ++ [(k, v)])

def atColon (flow adjacent : Bool) : List Char → Bool
  | ':' :: cs => adjacent || endsWord cs || (flow && cs.head?.any isFlowSign)
  | _ => false

def isClosed (cs : List Char) : Bool :=
  cs.head?.any (['"', '\'', '[', '\x7b'].contains ·)

def colonAfter? (c : Cursor) : Option Cursor :=
  let c := c.skipBlanks
  if atColon false false c.rest then some (c.advance 1) else none

def blockKey? (indent : Int) (c : Cursor) : Option (Scalar × Cursor) := do
  let (p, at') ← Properties.onLine? Properties.bare 2 c
  match at'.rest with
  | '*' :: _ =>
    let (y, after) ← alias? at'
    some (← key? y, ← colonAfter? after)
  | '"' :: _ => quoted p at'
  | '\'' :: _ => quoted p at'
  | _ =>
    if Plain.starts false at'.rest then
      let (s, after) := Plain.line false at'
      let k := p.plain s
      some (k, ← colonAfter? (p.remember (.scalar k) after).2)
    else none
where
  quoted (p : Properties) (c : Cursor) : Option (Scalar × Cursor) := do
    let (s, after) ← Quoted.read? indent c
    if (c.rest.take (c.rest.length - after.rest.length)).contains '\n' then none
    else
      let k := Scalar.text (String.ofList s)
      some (k, ← colonAfter? (p.remember (.scalar k) after).2)

mutual

def flowNode? (indent : Int) : Nat → Cursor → Option (Yaml × Cursor)
  | 0, _ => none
  | n + 1, c => do
    let (p, c) ← Properties.read? c.skip
    let c := c.skip
    if c.isTabbed indent || (c.fresh && c.rest ≠ [] && !c.isInside indent) then none
    else
      let (y, c) ← match c.rest with
        | '[' :: _ => do
          let (ys, c) ← flowItems? indent n (c.advance 1)
          some (Yaml.sequence ys, c)
        | '\x7b' :: _ => do
          let (es, c) ← flowEntries? indent n [] (c.advance 1)
          some (Yaml.mapping es, c)
        | '*' :: _ => if p.isEmpty then alias? c else none
        | '"' :: _ => do
          let (s, c) ← Quoted.read? indent c
          some (.scalar (.text (String.ofList s)), c)
        | '\'' :: _ => do
          let (s, c) ← Quoted.read? indent c
          some (.scalar (.text (String.ofList s)), c)
        | _ =>
          if Plain.starts true c.rest then do
            let (s, c) ← Plain.read? true indent c
            some (.scalar (p.plain s), c)
          else some (.scalar (p.plain []), c)
      some (p.remember y c)

def flowValue? (indent : Int) (adjacent : Bool) : Nat → Cursor → Option (Option Yaml × Cursor)
  | 0, _ => none
  | n + 1, c => do
    let c := c.skip
    if atColon true adjacent c.rest then
      let (v, c) ← flowNode? indent n (c.advance 1)
      some (some v, c)
    else some (none, c)

def flowItems? (indent : Int) : Nat → Cursor → Option (List Yaml × Cursor)
  | 0, _ => none
  | n + 1, c => do
    let c := c.skip
    if c.rest.head? = some ']' then some ([], c.advance 1)
    else
      let (marked, c) := if c.atMark '?' then (true, (c.advance 1).skip) else (false, c)
      let (y, after) ← flowNode? indent n c
      let (v, rest) ← flowValue? indent (isClosed c.rest) n after
      let item ← match v with
        | some v => do some (Yaml.mapping [(← key? y, v)])
        | none => do
          if marked then some (Yaml.mapping [(← key? y, .scalar .nothing)])
          else if after.rest.length = c.rest.length then none
          else some y
      match rest.skip.rest with
      | ',' :: _ =>
        let (ys, c) ← flowItems? indent n (rest.skip.advance 1)
        some (item :: ys, c)
      | ']' :: _ => some ([item], rest.skip.advance 1)
      | _ => none

def flowEntries? (indent : Int) : Nat → List (Scalar × Yaml) → Cursor →
    Option (List (Scalar × Yaml) × Cursor)
  | 0, _, _ => none
  | n + 1, es, c => do
    let c := c.skip
    if c.rest.head? = some '\x7d' then some (es, c.advance 1)
    else
      let (marked, c) := if c.atMark '?' then (true, (c.advance 1).skip) else (false, c)
      let (y, after) ← flowNode? indent n c
      let (v, rest) ← flowValue? indent (isClosed c.rest) n after
      if v.isNone && !marked && after.rest.length = c.rest.length then none
      else
        let es ← addEntry? es (← key? y) (v.getD (.scalar .nothing))
        match rest.skip.rest with
        | ',' :: _ => flowEntries? indent n es (rest.skip.advance 1)
        | '\x7d' :: _ => some (es, rest.skip.advance 1)
        | _ => none

end

def continuesAt (column : Nat) (c : Cursor) : Bool :=
  c.rest ≠ [] && c.fresh && c.column == column

mutual

/-- A node inside a block at a column. A block collection starts on a line of its own, or right
here if the node is compact. -/
def blockNode? (indent : Int) (compact : Bool) : Nat → Cursor → Option (Yaml × Cursor)
  | 0, _ => none
  | n + 1, c => do
    let c := c.skip
    if !c.isInside indent then some (.scalar .nothing, c)
    else if c.isTabbed indent then none
    else if (compact || c.fresh) && c.atMark '-' then
      let (ys, c) ← blockItems? c.column n c
      some (.sequence ys, c)
    else if (compact || c.fresh) && (c.atMark '?' || (blockKey? indent c).isSome) then
      let (es, c) ← blockEntries? c.column n [] c
      some (.mapping es, c)
    else
      let (p, c) ← Properties.read? c
      let (y, c) ←
        if !p.isEmpty && (c.fresh || c.rest = []) then do
          let (y, c) ← blockNode? indent false n c
          match y with
          | .scalar .nothing => some (.scalar (p.plain []), c)
          | y => some (y, c)
        else match c.rest with
          | '|' :: _ => do
            let (s, c) ← Block.read? indent c
            some (.scalar (.text (String.ofList s)), c)
          | '>' :: _ => do
            let (s, c) ← Block.read? indent c
            some (.scalar (.text (String.ofList s)), c)
          | _ =>
            if Plain.starts false c.rest then do
              let (s, c) ← Plain.read? false indent c
              some (.scalar (p.plain s), c)
            else if c.rest.head?.any ("[\x7b\"'*".toList.contains ·) then flowNode? indent n c
            else none
      some (p.remember y c)

def blockValue? (column : Nat) (compact : Bool) : Nat → Cursor → Option (Yaml × Cursor)
  | 0, _ => none
  | n + 1, c => do
    let inLine := c.skipBlanks
    let (p, after) ← Properties.read? inLine
    let next := if p.isEmpty then c.skip else after
    if continuesAt column next && next.atMark '-' then
      let (ys, c) ← blockItems? column n next
      some (p.remember (.sequence ys) c)
    else blockNode? column compact n c

def blockItems? (column : Nat) : Nat → Cursor → Option (List Yaml × Cursor)
  | 0, _ => none
  | n + 1, c => do
    let (y, c) ← blockNode? column true n (c.advance 1)
    let c := c.skip
    if continuesAt column c && c.atMark '-' then
      if c.isTabbed column then none
      else
        let (ys, c) ← blockItems? column n c
        some (y :: ys, c)
    else some ([y], c)

def blockEntries? (column : Nat) : Nat → List (Scalar × Yaml) → Cursor →
    Option (List (Scalar × Yaml) × Cursor)
  | 0, _, _ => none
  | n + 1, es, c => do
    let (k, v, c) ←
      if c.atMark '?' then do
        let (k, c) ← blockNode? column true n (c.advance 1)
        let c := c.skip
        if continuesAt column c && c.atMark ':' then do
          let (v, c) ← blockValue? column true n (c.advance 1)
          some (← key? k, v, c)
        else some (← key? k, .scalar .nothing, c)
      else do
        let (k, c) ← blockKey? column c
        let (v, c) ← blockValue? column false n c
        some (k, v, c)
    let es ← addEntry? es k v
    let c := c.skip
    if continuesAt column c then
      if c.isTabbed column then none else blockEntries? column n es c
    else some (es, c)

end

end CallWaiting.Yaml
