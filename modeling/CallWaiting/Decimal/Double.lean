import CallWaiting.Decimal.Basic

/-!
Numbers of 64-bit binary floating point: the finite ones are `significand * 2 ^ exponent` with a
significand below `2 ^ 53`. All arithmetic is exact in whole numbers and rounds once, to the
nearest number and in the middle to the even significand.
-/

namespace CallWaiting

inductive Double where
  | nan
  | infinite (negative : Bool)
  | finite (negative : Bool) (significand : Nat) (exponent : Int)
deriving DecidableEq

namespace Double

def minExponent : Int := -1074

def maxExponent : Int := 971

def leastFull : Nat := 1 <<< 52

def beyondFull : Nat := 1 <<< 53

def zero (negative : Bool) : Double :=
  finite negative 0 minExponent

def isZero : Double → Bool
  | finite _ s _ => s == 0
  | _ => false

def roundedQuotient (n d : Nat) : Nat :=
  if d < 2 * (n % d) ∨ (2 * (n % d) = d ∧ n / d % 2 = 1) then n / d + 1 else n / d

def scaled (n d : Nat) (e : Int) : Nat × Nat :=
  (n <<< (-e).toNat, d <<< e.toNat)

def exponentOf (n d : Nat) : Int :=
  let e : Int := n.log2 - d.log2 - 53
  let (n', d') := scaled n d e
  max minExponent (if n' / d' < beyondFull then e else e + 1)

def ofRounded (negative : Bool) (significand : Nat) (e : Int) : Double :=
  let (s, e) := if significand = beyondFull then (leastFull, e + 1) else (significand, e)
  if maxExponent < e then infinite negative else finite negative s e

def ofRatio (negative : Bool) (n d : Nat) : Double :=
  if n = 0 then zero negative
  else
    let e := exponentOf n d
    let (n', d') := scaled n d e
    ofRounded negative (roundedQuotient n' d') e

def ofDecimal (d : Decimal) : Double :=
  let magnitude : Int := (Nat.toDigits 10 d.coefficient).length + d.exponent
  if d.coefficient = 0 ∨ magnitude < -330 then zero d.negative
  else if 310 < magnitude then infinite d.negative
  else ofRatio d.negative (d.coefficient * Nat.pow 10 d.exponent.toNat) (Nat.pow 10 (-d.exponent).toNat)

def times : Double → Double → Double
  | finite a s e, finite b t f => ofRatio (a != b) ((s * t) <<< (e + f).toNat) (1 <<< (-(e + f)).toNat)
  | _, _ => nan

def divided : Double → Double → Double
  | finite a s e, finite b t f =>
    if t = 0 then nan
    else ofRatio (a != b) (s <<< (e - f).toNat) (t <<< (-(e - f)).toNat)
  | _, _ => nan

def opposite : Double → Double
  | nan => nan
  | infinite a => infinite !a
  | finite a s e => finite (!a) s e

def word? : List Char → Option Double
  | ['i', 'n', 'f'] => some (infinite false)
  | ['i', 'n', 'f', 'i', 'n', 'i', 't', 'y'] => some (infinite false)
  | ['n', 'a', 'n'] => some nan
  | _ => none

def signedWord? : List Char → Option Double
  | '+' :: cs => word? (cs.map Char.toLower)
  | '-' :: cs => (word? (cs.map Char.toLower)).map opposite
  | cs => word? (cs.map Char.toLower)

def ofText? (cs : List Char) : Option Double :=
  match signedWord? cs with
  | some x => some x
  | none => (Decimal.ofText? cs).map ofDecimal

end Double

end CallWaiting
