import CallWaiting.Text.Numeral

namespace CallWaiting.FileSystem

inductive Fault where
  | notFound
  | busy
  | alreadyThere
  | notDirectory
  | isDirectory
deriving DecidableEq

namespace Fault

def number : Fault → Nat
  | notFound => 2
  | busy => 16
  | alreadyThere => 17
  | notDirectory => 20
  | isDirectory => 21

def reason : Fault → String
  | notFound => "No such file or directory"
  | busy => "Device or resource busy"
  | alreadyThere => "File exists"
  | notDirectory => "Not a directory"
  | isDirectory => "Is a directory"

def text (f : Fault) : String :=
  f.reason ++ " (os error " ++ Numeral.text f.number ++ ")"

end Fault

end CallWaiting.FileSystem
