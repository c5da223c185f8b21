import CallWaiting.Error
import CallWaiting.Level
import CallWaiting.Line
import CallWaiting.Status
import CallWaiting.Sync

namespace CallWaiting

inductive Notice where
  | answering (state : State)
  | requested (enable : Bool) (serviceClass : ServiceClass)
  | invalidSlot (slot : PhoneId)
  | invalidSubscription (s : SubscriptionId)
  | savedState (s : SubscriptionId) (state : State)
  | evaluated (p : PhoneId) (s : SubscriptionId) (offers : Bool) (sync : Sync) (default saved : State)
  | supportChanged (supported : Bool)
  | loaded (p : PhoneId) (last s : SubscriptionId) (state : State) (sync : Sync)
  | listenerGone
  | changing (p : PhoneId) (s : SubscriptionId) (state : State) (sync : Sync) (enforced : Bool)
  | notPersisted (e : Error)
  | announced (slot : PhoneId) (listeners : Nat)
  | undelivered
  | serviceStarted (p : PhoneId)
  | serviceStopped (p : PhoneId)
  | storeOpened (path : String)
deriving DecidableEq

namespace Notice

def boolText (b : Bool) : String :=
  if b then "true" else "false"

def level : Notice → Level
  | answering _ => .info
  | requested _ _ => .info
  | invalidSlot _ => .error
  | invalidSubscription _ => .info
  | savedState _ _ => .info
  | evaluated .. => .debug
  | supportChanged _ => .info
  | loaded .. => .info
  | listenerGone => .warn
  | changing .. => .info
  | notPersisted _ => .warn
  | announced _ _ => .debug
  | undelivered => .debug
  | serviceStarted _ => .info
  | serviceStopped _ => .debug
  | storeOpened _ => .debug

def text : Notice → String
  | answering state =>
    "Answering call waiting interrogation locally, state=" ++ state.text
  | requested enable serviceClass =>
    "Set call waiting enable=" ++ boolText enable ++ ", service_class=" ++
      Numeral.text serviceClass.bits.toNat
  | invalidSlot slot => "Carrier config changed with invalid slot index " ++ slot.text
  | invalidSubscription s =>
    "Carrier config changed but subscription " ++ s.text ++ " is invalid"
  | savedState s state =>
    "Saved call waiting state sub_id=" ++ s.text ++ ", state=" ++ state.text
  | evaluated p s offers sync default saved =>
    "Carrier config phone_id=" ++ p.text ++ ", sub_id=" ++ s.text ++ ", supported=" ++
      boolText offers ++ ", sync=" ++ sync.text ++ ", default=" ++ default.text ++ ", saved=" ++
      saved.text
  | supportChanged supported => "Terminal-based call waiting supported=" ++ boolText supported
  | loaded p last s state sync =>
    "Loaded call waiting record phone_id=" ++ p.text ++ ", last_sub_id=" ++ last.text ++
      ", sub_id=" ++ s.text ++ ", state=" ++ state.text ++ ", sync=" ++ sync.text
  | listenerGone => "Listener <id> was already unregistered"
  | changing p s state sync enforced =>
    "Call waiting state change phone_id=" ++ p.text ++ ", sub_id=" ++ s.text ++ ", state=" ++
      state.text ++ ", sync=" ++ sync.text ++ ", enforced=" ++ boolText enforced
  | notPersisted e => "Failed to persist call waiting state: " ++ e.text?.getD ""
  | announced slot listeners =>
    "Carrier config changed for slot " ++ slot.text ++ ", notifying " ++ Numeral.text listeners ++
      " listeners"
  | undelivered => "Dropping carrier config event for closed queue"
  | serviceStarted p => "Started call waiting service for phone " ++ p.text
  | serviceStopped p => "Call waiting service for phone " ++ p.text ++ " stopped"
  | storeOpened path => "Opened preference store at " ++ path

end Notice

end CallWaiting
