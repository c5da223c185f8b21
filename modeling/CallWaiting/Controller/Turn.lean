import CallWaiting.Broadcast.Registry
import CallWaiting.Bundle
import CallWaiting.Notice
import CallWaiting.Preference.Fate
import CallWaiting.Preference.Key

namespace CallWaiting

open Preference (Batch Fate Key)
open Broadcast (Ticket)

structure Controller where
  group : String
  listener : Option Ticket
  supported : Bool
  validSubscription : Bool
  state : State
  sync : Sync
  lastSubscription : SubscriptionId
deriving DecidableEq

namespace Controller

def fresh (group : String) : Controller :=
  ⟨group, none, false, false, .notSupported, .none, .absent⟩

def shownState (c : Controller) : State :=
  if c.validSubscription then c.state else .notSupported

def isListening (c : Controller) : Bool :=
  c.listener.isSome

/-- What a controller sees of the outside during one operation. -/
structure Surroundings where
  phone : PhoneId
  subscription : SubscriptionId
  bundle : SubscriptionId → Option Bundle
  saved : String → Key → Option Int32
  fate : Batch → Fate
  nextTicket : Ticket
  holds : Ticket → Bool

inductive Effect where
  | register
  | withdraw (t : Ticket)
  | offer (b : Batch) (fate : Fate)
  | push (state : State)
  | note (n : Notice)
deriving DecidableEq

inductive Answer where
  | done
  | handled (yes : Bool)
  | status (s : Option Status)
  | state (s : State)
deriving DecidableEq

inductive Receipt where
  | completed
  | status (s : Status)
deriving DecidableEq

structure Turn where
  controller : Controller
  effects : List Effect
  answer : Option Answer
  sent : Option Receipt
deriving DecidableEq

namespace Turn

def rest (c : Controller) (a : Answer) : Turn :=
  ⟨c, [], some a, none⟩

def after (t : Turn) (es : List Effect) : Turn :=
  { t with effects := es ++ t.effects }

def answering (t : Turn) (a : Answer) : Turn :=
  { t with answer := t.answer.map fun _ => a }

def sending (t : Turn) (r : Option Receipt) : Turn :=
  { t with sent := t.answer.bind fun _ => r }

def crashed (t : Turn) : Bool :=
  t.answer.isNone

end Turn

end Controller

end CallWaiting
