import CallWaiting.Text.Numeral

namespace CallWaiting.Broadcast

/-- The number of a registration, counted from the first ever made. It stands for the id that
a listener is given, which never comes a second time. -/
abbrev Ticket := Nat

structure Registry (κ : Type) where
  next : Ticket
  entries : List (Ticket × κ)

namespace Registry

variable {κ : Type}

def empty : Registry κ := ⟨0, []⟩

def register (r : Registry κ) (listener : κ) : Registry κ :=
  ⟨r.next + 1, r.entries ++ [(r.next, listener)]⟩

def holds (r : Registry κ) (t : Ticket) : Bool :=
  r.entries.any (·.1 = t)

def withdraw (r : Registry κ) (t : Ticket) : Registry κ :=
  { r with entries := r.entries.filter (·.1 ≠ t) }

def withdrawAll (r : Registry κ) : Registry κ :=
  { r with entries := [] }

def count (r : Registry κ) : Nat :=
  r.entries.length

def listeners (r : Registry κ) : List κ :=
  r.entries.map (·.2)

def text (r : Registry κ) : String :=
  "CarrierConfigBroadcaster \x7b listeners: " ++ Numeral.text r.count ++ " \x7d"

end Registry

end CallWaiting.Broadcast
