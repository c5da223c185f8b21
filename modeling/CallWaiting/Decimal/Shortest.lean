import CallWaiting.Decimal.Double

namespace CallWaiting.Double

def compareTo (c : Nat) (p : Int) (b : Nat) (q : Int) : Ordering :=
  compare ((c * Nat.pow 10 p.toNat) <<< (-q).toNat) ((b * Nat.pow 10 (-p).toNat) <<< q.toNat)

/-- Whether `c * 10 ^ p` rounds to the significand `s` at the exponent `e`. Below a power of two
the numbers lie twice as close; the ends belong to the even significand. -/
def readsBack (s : Nat) (e : Int) (c : Nat) (p : Int) : Bool :=
  let below := if s = leastFull ∧ minExponent < e then 1 else 2
  let low := compareTo c p (4 * s - below) (e - 2)
  let high := compareTo c p (4 * s + 2) (e - 2)
  if s % 2 = 0 then low != .lt && high != .gt else low == .gt && high == .lt

def magnitude (s : Nat) (e : Int) : Int :=
  let n := s <<< e.toNat
  let d := 1 <<< (-e).toNat
  if d ≤ n then (Nat.toDigits 10 (n / d)).length
  else 1 - (Nat.toDigits 10 ((d - 1) / n)).length

def ofDigits? (s : Nat) (e : Int) (count : Nat) : Option (Nat × Int) :=
  let p := magnitude s e - count
  let c := (s * Nat.pow 10 (-p).toNat) <<< e.toNat / (Nat.pow 10 p.toNat <<< (-e).toNat)
  match readsBack s e c p, readsBack s e (c + 1) p with
  | true, true => some (if compareTo (2 * c + 1) p (2 * s) e = .gt then c else c + 1, p)
  | true, false => some (c, p)
  | false, true => some (c + 1, p)
  | false, false => none

def shortest (s : Nat) (e : Int) : Nat × Int :=
  let exact : Nat × Int := ((s * Nat.pow 5 (-e).toNat) <<< e.toNat, min e 0)
  ((List.range 17).findSome? fun k => ofDigits? s e (k + 1)).getD exact

def chars : Double → List Char
  | nan => ['N', 'a', 'N']
  | infinite negative => (if negative then ['-'] else []) ++ ['i', 'n', 'f']
  | finite negative s e =>
    if s = 0 then Decimal.positional ⟨negative, 0, 0⟩
    else
      let (c, p) := shortest s e
      Decimal.positional ⟨negative, c, p⟩

def text (x : Double) : String :=
  String.ofList x.chars

end CallWaiting.Double
