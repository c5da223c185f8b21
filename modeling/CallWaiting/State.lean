namespace CallWaiting

inductive State where
  | notSupported
  | notActivated
  | activated
deriving DecidableEq

namespace State

def code : State → Int32
  | notSupported => -1
  | notActivated => 0
  | activated => 1

def ofCode (c : Int32) : State :=
  if c = 0 then notActivated else if c = 1 then activated else notSupported

def ofEnabled (enabled : Bool) : State :=
  if enabled then activated else notActivated

def isSupported (s : State) : Bool :=
  decide (s ≠ notSupported)

def text : State → String
  | notSupported => "not-supported"
  | notActivated => "not-activated"
  | activated => "activated"

/-- What a line goes to: the default if it is enforced, nothing saved counts as the default, and
a carrier that does not offer the service overrules whatever was saved. -/
def merge (default saved : State) (enforced : Bool) : State :=
  if enforced then default
  else if default = notSupported then notSupported
  else if saved = notSupported then default
  else saved

@[simp] theorem ofCode_code (s : State) : ofCode s.code = s := by
  cases s <;> decide

end State

end CallWaiting
