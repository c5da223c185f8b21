import CallWaiting.Text.Numeral

namespace CallWaiting

structure ListenerId where
  bits : BitVec 128
deriving DecidableEq

namespace ListenerId

def hexDigits : Nat → Nat → List Char
  | 0, _ => []
  | k + 1, n => hexDigits k (n / 16) ++ [Nat.digitChar (n % 16)]

def hyphenate (ds : List Char) : List Char :=
  ds.take 8 ++ '-' :: (ds.drop 8).take 4 ++ '-' :: (ds.drop 12).take 4 ++
    '-' :: (ds.drop 16).take 4 ++ '-' :: ds.drop 20

def unhyphenate? (cs : List Char) : Option (List Char) :=
  if [8, 13, 18, 23].all (fun i => cs[i]? = some '-') then
    some (cs.take 8 ++ (cs.drop 9).take 4 ++ (cs.drop 14).take 4 ++ (cs.drop 19).take 4 ++ cs.drop 24)
  else none

def text (l : ListenerId) : String :=
  String.ofList (hyphenate (hexDigits 32 l.bits.toNat))

def ofDigits? (cs : List Char) : Option ListenerId := do
  let ds ← cs.mapM Numeral.hexDigit?
  if ds.length = 32 then some ⟨BitVec.ofNat 128 (ds.foldl (fun n d => n * 16 + d) 0)⟩ else none

def dropLead? (lead cs : List Char) : Option (List Char) :=
  if (cs.take lead.length).map Char.toLower = lead then some (cs.drop lead.length) else none

def ofText? (s : String) : Option ListenerId :=
  let cs := s.toList
  match cs.length with
  | 32 => ofDigits? cs
  | 36 => (unhyphenate? cs).bind ofDigits?
  | 38 =>
    if cs.head? = some '{' ∧ cs.getLast? = some '}' then
      (unhyphenate? (cs.tail.dropLast)).bind ofDigits?
    else none
  | 45 => do
    ofDigits? (← unhyphenate? (← dropLead? "urn:uuid:".toList cs))
  | _ => none

end ListenerId

end CallWaiting
