namespace CallWaiting.Numeral

def ofInt (i : Int) : List Char :=
  if i < 0 then '-' :: Nat.toDigits 10 i.natAbs else Nat.toDigits 10 i.natAbs

def hexDigit? (c : Char) : Option Nat :=
  if c.isDigit then some (c.toNat - '0'.toNat)
  else if 'a' ≤ c ∧ c ≤ 'f' then some (c.toNat - 'a'.toNat + 10)
  else if 'A' ≤ c ∧ c ≤ 'F' then some (c.toNat - 'A'.toNat + 10)
  else none

def toNat? (cs : List Char) : Option Nat :=
  if cs ≠ [] ∧ cs.all Char.isDigit then some (Nat.ofDigitChars 10 cs 0) else none

def toInt? : List Char → Option Int
  | '+' :: cs => (toNat? cs).map Int.ofNat
  | '-' :: cs => (toNat? cs).map fun n => -(n : Int)
  | cs => (toNat? cs).map Int.ofNat

def text (i : Int) : String :=
  String.ofList (ofInt i)

def int32? (i : Int) : Option Int32 :=
  if Int32.minValue.toInt ≤ i ∧ i ≤ Int32.maxValue.toInt then some (Int32.ofInt i) else none

def uint32? (i : Int) : Option UInt32 :=
  if 0 ≤ i ∧ i < UInt32.size then some (UInt32.ofNat i.toNat) else none

def fits64 (i : Int) : Bool :=
  decide (Int64.minValue.toInt ≤ i ∧ i ≤ Int64.maxValue.toInt)

theorem toNat?_toDigits (n : Nat) : toNat? (Nat.toDigits 10 n) = some n := by
  have h : (Nat.toDigits 10 n).all Char.isDigit = true :=
    List.all_eq_true.2 fun _ hc => Nat.isDigit_of_mem_toDigits (by decide) (by decide) hc
  simp [toNat?, Nat.toDigits_ne_nil, h, Nat.ofDigitChars_ten_toDigits]

theorem toNat?_some {cs : List Char} {n : Nat} (h : toNat? cs = some n) :
    (∀ c ∈ cs, c.isDigit = true) ∧ n = Nat.ofDigitChars 10 cs 0 := by
  rw [toNat?] at h
  split at h
  · rename_i hc
    exact ⟨List.all_eq_true.1 hc.2, (Option.some.inj h).symm⟩
  · cases h

theorem int32?_toInt (i : Int32) : int32? i.toInt = some i := by
  rw [int32?, if_pos ⟨Int32.minValue_le_toInt i, Int32.toInt_le i⟩, Int32.ofInt_toInt]

theorem uint32?_toNat (i : UInt32) : uint32? i.toNat = some i := by
  have hi : (i.toNat : Int) < UInt32.size := Int.ofNat_lt.2 i.toNat_lt_size
  rw [uint32?, if_pos ⟨Int.natCast_nonneg _, hi⟩, Int.toNat_natCast, UInt32.ofNat_toNat]

end CallWaiting.Numeral
