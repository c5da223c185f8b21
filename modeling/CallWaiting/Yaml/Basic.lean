import CallWaiting.Decimal.Double

namespace CallWaiting

namespace Yaml

inductive Scalar where
  | nothing
  | bool (value : Bool)
  | integer (value : Int)
  | real (written : String)
  | text (value : String)
deriving DecidableEq

end Yaml

inductive Yaml where
  | scalar (value : Yaml.Scalar)
  | sequence (items : List Yaml)
  | mapping (entries : List (Yaml.Scalar × Yaml))

namespace Yaml

namespace Scalar

def decimal? (cs : List Char) : Option Int :=
  (Numeral.toInt? cs).filter Numeral.fits64

def inBase? (base : Nat) (cs : List Char) : Option Nat := do
  let values ← cs.mapM Numeral.hexDigit?
  if values ≠ [] ∧ values.all (· < base) then some (values.foldl (base * · + ·) 0) else none

def signed? (base : Nat) (cs : List Char) : Option Int :=
  let i : Option Int := match cs with
    | '+' :: cs => (inBase? base cs).map Int.ofNat
    | '-' :: cs => (inBase? base cs).map fun n => -(n : Int)
    | cs => (inBase? base cs).map Int.ofNat
  i.filter Numeral.fits64

def integer? : List Char → Option Int
  | '0' :: 'x' :: cs => signed? 16 cs
  | '0' :: 'o' :: cs => signed? 8 cs
  | '+' :: cs => decimal? cs
  | cs => decimal? cs

def specialReals : List String :=
  [".inf", ".Inf", ".INF", "+.inf", "+.Inf", "+.INF", "-.inf", "-.Inf", "-.INF",
    ".nan", ".NaN", ".NAN"]

def isReal (cs : List Char) : Bool :=
  specialReals.contains (String.ofList cs) ||
    (cs.any Char.isDigit && (Double.ofText? cs).isSome)

def ofPlain (cs : List Char) : Scalar :=
  let s := String.ofList cs
  if s ∈ ["", "~", "null"] then nothing
  else if s = "true" then bool true
  else if s = "false" then bool false
  else match integer? cs with
    | some i => integer i
    | none => if isReal cs then real s else text s

def tagged (tag : List Char) (cs : List Char) : Scalar :=
  let s := String.ofList cs
  if tag = "!!bool".toList then
    if s = "true" then bool true else if s = "false" then bool false else nothing
  else if tag = "!!int".toList then
    match decimal? cs with
    | some i => integer i
    | none => nothing
  else if tag = "!!float".toList then if isReal cs then real s else nothing
  else if tag = "!!null".toList then nothing
  else text s

end Scalar

end Yaml

end CallWaiting
