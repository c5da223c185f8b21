import CallWaiting.Json.Token

namespace CallWaiting.Json

inductive Frame where
  | array (items : List Json)
  | object (members : List (Octets × Json)) (key : Octets)

inductive Expectation where
  | value
  | valueOrEnd
  | key (members : List (Octets × Json))
  | keyOrEnd
  | colon (members : List (Octets × Json)) (key : Octets)
  | more
  | nothing (root : Json)

structure Reader where
  stack : List Frame
  expected : Expectation

namespace Reader

def initial : Reader :=
  ⟨[], .value⟩

def accept (j : Json) : List Frame → Reader
  | [] => ⟨[], .nothing j⟩
  | .array items :: fs => ⟨.array (j :: items) :: fs, .more⟩
  | .object members key :: fs => ⟨.object ((key, j) :: members) key :: fs, .more⟩

def value (stack : List Frame) : Token → Option Reader
  | .null => some (accept .null stack)
  | .bool b => some (accept (.bool b) stack)
  | .number d => some (accept (.number d) stack)
  | .text t => some (accept (.text t) stack)
  | .openBracket => some ⟨.array [] :: stack, .valueOrEnd⟩
  | .openBrace => some ⟨stack, .keyOrEnd⟩
  | _ => none

def step (r : Reader) (t : Token) : Option Reader :=
  match r.expected, t with
  | .value, t => value r.stack t
  | .valueOrEnd, .closeBracket =>
    match r.stack with
    | .array items :: fs => some (accept (.array items.reverse) fs)
    | _ => none
  | .valueOrEnd, t => value r.stack t
  | .keyOrEnd, .closeBrace => some (accept (.object []) r.stack)
  | .keyOrEnd, .text k => some ⟨r.stack, .colon [] k⟩
  | .key members, .text k => some ⟨r.stack, .colon members k⟩
  | .colon members k, .colon => some ⟨.object members k :: r.stack, .value⟩
  | .more, .comma =>
    match r.stack with
    | .array items :: fs => some ⟨.array items :: fs, .value⟩
    | .object members _ :: fs => some ⟨fs, .key members⟩
    | [] => none
  | .more, .closeBracket =>
    match r.stack with
    | .array items :: fs => some (accept (.array items.reverse) fs)
    | _ => none
  | .more, .closeBrace =>
    match r.stack with
    | .object members _ :: fs => some (accept (.object members.reverse) fs)
    | _ => none
  | _, _ => none

def run : Reader → List Token → Option Reader
  | r, [] => some r
  | r, t :: ts => (r.step t).bind (run · ts)

theorem run_append (r : Reader) (ts us : List Token) :
    run r (ts ++ us) = (run r ts).bind (run · us) := by
  induction ts generalizing r with
  | nil => rfl
  | cons t ts ih =>
    simp only [List.cons_append, run]
    cases r.step t <;> simp [ih]

end Reader

def ofTokens? (ts : List Token) : Option Json := do
  match (← Reader.initial.run ts).expected with
  | .nothing j => some j
  | _ => none

def read? (cs : Octets) : Option Json := do
  ofTokens? (← Token.scan cs)

end CallWaiting.Json
