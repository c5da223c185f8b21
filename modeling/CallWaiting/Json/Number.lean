import CallWaiting.Decimal.Double
import CallWaiting.Json.Basic

/-!
The value of a JSON number: an integer of 64 bits, or a float. A float is worked out from the
digits that fit 64 bits, in one multiplication or division by a power of ten for each 308 places.
-/

namespace CallWaiting.Json.Number

inductive Value where
  | integer (i : Int)
  | float (x : Double)
deriving DecidableEq

def gather (n : Nat) : Octets → Nat × Nat
  | [] => (n, 0)
  | c :: cs =>
    let m := 10 * n + (c.toNat - '0'.toNat)
    if m < UInt64.size then gather m cs else (n, cs.length + 1)

def powerOfTen (n : Nat) : Double :=
  .ofDecimal ⟨false, 1, n⟩

def scaled? (n : Nat) (e : Int) : Option Double :=
  let x := Double.ofDecimal ⟨false, n, 0⟩
  if 0 ≤ e then
    if n = 0 then some x
    else if 308 < e then none
    else match x.times (powerOfTen e.toNat) with
      | .finite a s p => some (.finite a s p)
      | _ => none
  else if -308 ≤ e then some (x.divided (powerOfTen e.natAbs))
  else if -616 ≤ e then
    some ((x.divided (powerOfTen 308)).divided (powerOfTen (e + 308).natAbs))
  else some (.zero false)

def parts (cs : Octets) : Octets × Option Octets × Option Int :=
  let whole := cs.takeWhile Char.isDigit
  let exponent : Octets → Option Int
    | [] => none
    | _ :: cs => Numeral.toInt? cs
  match cs.dropWhile Char.isDigit with
  | '.' :: rest => (whole, some (rest.takeWhile Char.isDigit), exponent (rest.dropWhile Char.isDigit))
  | rest => (whole, none, exponent rest)

def signed (negative : Bool) (x : Double) : Double :=
  if negative then x.opposite else x

/-- Below zero, only what fits 64 bits with a sign is an integer; minus zero is a float. -/
def ofWhole (negative : Bool) (n : Nat) : Value :=
  if !negative then .integer n
  else if n = 0 ∨ Int64.minValue.toInt.natAbs < n then .float (signed true (.ofDecimal ⟨false, n, 0⟩))
  else .integer (-(n : Int))

def unsigned? (negative : Bool) (cs : Octets) : Option Value :=
  let (whole, fraction, exponent) := parts cs
  let (n, left) := gather 0 whole
  match fraction, exponent, left with
  | none, none, 0 => some (ofWhole negative n)
  | _, _, _ =>
    let digits := fraction.getD []
    let (m, ignored) := gather n digits
    let e : Int := left - (digits.length - ignored : Nat) + exponent.getD 0
    (scaled? m e).map fun x => .float (signed negative x)

def value? : Octets → Option Value
  | '-' :: cs => unsigned? true cs
  | cs => unsigned? false cs

end CallWaiting.Json.Number
