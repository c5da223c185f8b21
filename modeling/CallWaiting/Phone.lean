import CallWaiting.Line
import CallWaiting.State

namespace CallWaiting

structure Phone where
  id : PhoneId
  subscription : SubscriptionId
  told : List State
deriving DecidableEq

namespace Phone

def fresh (id : PhoneId) (subscription : SubscriptionId) : Phone :=
  ⟨id, subscription, []⟩

def swap (p : Phone) (s : SubscriptionId) : Phone :=
  { p with subscription := s }

def push (p : Phone) (s : State) : Phone :=
  { p with told := p.told ++ [s] }

def shown (p : Phone) : Option State :=
  p.told.getLast?

end Phone

end CallWaiting
