import CallWaiting.Text.Numeral

namespace CallWaiting

structure Decimal where
  negative : Bool
  coefficient : Nat
  exponent : Int
deriving DecidableEq

namespace Decimal

def exponent? : List Char → Option Int
  | [] => some 0
  | c :: cs => if c = 'e' ∨ c = 'E' then Numeral.toInt? cs else none

def unsigned? (negative : Bool) (cs : List Char) : Option Decimal :=
  let whole := cs.takeWhile Char.isDigit
  let rest := cs.dropWhile Char.isDigit
  let (fraction, rest) := match rest with
    | '.' :: rest => (rest.takeWhile Char.isDigit, rest.dropWhile Char.isDigit)
    | rest => ([], rest)
  if whole = [] ∧ fraction = [] then none
  else (exponent? rest).map fun e =>
    ⟨negative, Nat.ofDigitChars 10 (whole ++ fraction) 0, e - fraction.length⟩

def ofText? : List Char → Option Decimal
  | '+' :: cs => unsigned? false cs
  | '-' :: cs => unsigned? true cs
  | cs => unsigned? false cs

def positional (d : Decimal) : List Char :=
  let digits := Nat.toDigits 10 d.coefficient
  let sign := if d.negative then ['-'] else []
  let whole := if 0 ≤ d.exponent then digits ++ List.replicate d.exponent.toNat '0'
    else digits.take (digits.length - d.exponent.natAbs)
  let fraction := if 0 ≤ d.exponent then []
    else List.replicate (d.exponent.natAbs - digits.length) '0' ++
      digits.drop (digits.length - d.exponent.natAbs)
  let kept := (fraction.reverse.dropWhile (· = '0')).reverse
  sign ++ (if whole = [] then ['0'] else whole) ++ (if kept = [] then [] else '.' :: kept)

end Decimal

end CallWaiting
