import CallWaiting.Json.Basic
import CallWaiting.Text.Numeral

namespace CallWaiting.Json.Escape

def hexDigit (n : Nat) : Char :=
  Nat.digitChar n

def octet (c : Char) : Octets :=
  match c with
  | '"' => ['\\', '"']
  | '\\' => ['\\', '\\']
  | '\x08' => ['\\', 'b']
  | '\x0c' => ['\\', 'f']
  | '\n' => ['\\', 'n']
  | '\r' => ['\\', 'r']
  | '\t' => ['\\', 't']
  | c =>
    if c.toNat < 0x20 then ['\\', 'u', '0', '0', hexDigit (c.toNat / 16), hexDigit (c.toNat % 16)]
    else [c]

def encode (cs : Octets) : Octets :=
  cs.flatMap octet

def hex4 (a b c d : Char) : Option Nat := do
  return (((← Numeral.hexDigit? a) * 16 + (← Numeral.hexDigit? b)) * 16 + (← Numeral.hexDigit? c)) * 16 + (← Numeral.hexDigit? d)

def isLead (n : Nat) : Bool :=
  0xD800 ≤ n && n < 0xDC00

def isTrail (n : Nat) : Bool :=
  0xDC00 ≤ n && n < 0xE000

def scalar? (n : Nat) : Option Octets :=
  if isLead n || isTrail n then none else some (Octets.ofChar (Char.ofNat n))

def pair? (lead trail : Nat) : Option Octets :=
  if isLead lead && isTrail trail then
    some (Octets.ofChar (Char.ofNat (0x10000 + (lead - 0xD800) * 0x400 + (trail - 0xDC00))))
  else none

def letter? : Char → Option Char
  | '"' => some '"'
  | '\\' => some '\\'
  | '/' => some '/'
  | 'b' => some '\x08'
  | 'f' => some '\x0c'
  | 'n' => some '\n'
  | 'r' => some '\r'
  | 't' => some '\t'
  | _ => none

def decode : Octets → Option Octets
  | [] => some []
  | '\\' :: 'u' :: a :: b :: c :: d :: '\\' :: 'u' :: e :: f :: g :: h :: cs => do
    let n ← hex4 a b c d
    if isLead n then
      return (← pair? n (← hex4 e f g h)) ++ (← decode cs)
    else
      return (← scalar? n) ++ (← decode ('\\' :: 'u' :: e :: f :: g :: h :: cs))
  | '\\' :: 'u' :: a :: b :: c :: d :: cs => do
    return (← scalar? (← hex4 a b c d)) ++ (← decode cs)
  | '\\' :: c :: cs => do
    return (← letter? c) :: (← decode cs)
  | c :: cs => if c == '\\' then none else (decode cs).map (c :: ·)

def ofText (s : String) : Octets :=
  encode (Octets.ofText s)

def text? (body : Octets) : Option String := do
  Octets.text? (← decode body)

end CallWaiting.Json.Escape
