import CallWaiting.Text.Numeral

namespace CallWaiting

inductive Level where
  | error
  | warn
  | info
  | debug
  | trace
deriving DecidableEq

namespace Level

def all : List Level := [error, warn, info, debug, trace]

def verbosity : Level → Nat
  | error => 1
  | warn => 2
  | info => 3
  | debug => 4
  | trace => 5

def name : Level → String
  | error => "ERROR"
  | warn => "WARN"
  | info => "INFO"
  | debug => "DEBUG"
  | trace => "TRACE"

def capitals (s : String) : List Char :=
  s.toList.map Char.toUpper

def unsigned64? (cs : List Char) : Option Nat :=
  let ds := match cs with
    | '+' :: ds => ds
    | ds => ds
  (Numeral.toNat? ds).bind fun n => if n < UInt64.size then some n else none

def ofText? (s : String) : Option Level :=
  match unsigned64? s.toList with
  | some n => all.find? (·.verbosity = n)
  | none => all.find? (·.name.toList = capitals s)

end Level

end CallWaiting
