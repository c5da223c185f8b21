import CallWaiting.Decimal.Double

namespace CallWaiting

inductive Toml where
  | text (value : String)
  | integer (value : Int)
  | float (value : Double)
  | bool (value : Bool)
  | moment (value : String)
  | array (items : List Toml)
  | table (entries : List (String × Toml))

namespace Toml

structure Dialect where
  shortEscapes : Bool
  openTables : Bool
  shortTimes : Bool
  /-- A float below the range is minus infinity; otherwise it is refused, like one above it. -/
  lowOverflow : Bool

def Dialect.first : Dialect := ⟨false, false, false, true⟩

def Dialect.second : Dialect := ⟨true, true, true, false⟩

def maxDepth : Nat := 80

end Toml

end CallWaiting
