import CallWaiting.Text.Numeral

namespace CallWaiting

structure PhoneId where
  number : Int32
deriving DecidableEq

namespace PhoneId

def absent : PhoneId := ⟨-1⟩

def isValid (p : PhoneId) : Bool :=
  decide (absent.number < p.number)

def text (p : PhoneId) : String :=
  Numeral.text p.number.toInt

end PhoneId

structure SubscriptionId where
  number : Int32
deriving DecidableEq

namespace SubscriptionId

def absent : SubscriptionId := ⟨-1⟩

def isValid (s : SubscriptionId) : Bool :=
  decide (absent.number < s.number)

def text (s : SubscriptionId) : String :=
  Numeral.text s.number.toInt

end SubscriptionId

end CallWaiting
