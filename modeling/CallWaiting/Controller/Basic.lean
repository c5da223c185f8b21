import CallWaiting.Controller.Turn

/-!
The controller of one phone. It decides from the carrier's bundle and the user's last choice
whether call waiting is handled on the handset and whether it is on. Every change is offered to
the store and pushed to the phone before the operation ends; a change to what is already there is
dropped unless it is enforced.
-/

namespace CallWaiting.Controller

open Preference (Batch Fate Key)

variable (env : Surroundings)

def recordBatch (group : String) (p : PhoneId) (s : SubscriptionId) (state : State) (sync : Sync) :
    Batch :=
  ⟨group, [(Key.lastSubscription p, s.number), (Key.state s, state.code), (Key.sync p, sync.code)]⟩

def recorded (c : Controller) (s : SubscriptionId) (state : State) (sync : Sync) : Controller :=
  { c with state := state, sync := sync, lastSubscription := s }

def isSettled (c : Controller) (state : State) (sync : Sync) : Bool :=
  decide (c.lastSubscription = env.subscription ∧ c.state = state ∧ c.sync = sync)

/-- Moves to a state under the phone's subscription. A refused batch is noted and no more. -/
def moveTo (c : Controller) (state : State) (sync : Sync) (enforced : Bool) : Turn :=
  if c.isSettled env state sync ∧ !enforced then .rest c .done
  else
    let batch := recordBatch c.group env.phone env.subscription state sync
    let changing : Effect :=
      .note (.changing env.phone env.subscription state sync enforced)
    match env.fate batch with
    | .stored =>
      ⟨c.recorded env.subscription state sync, [changing, .offer batch .stored, .push state],
        some .done, none⟩
    | .refused e =>
      ⟨c.recorded env.subscription state sync,
        [changing, .offer batch (.refused e), .note (.notPersisted e), .push state],
        some .done, none⟩
    | .crashed => ⟨c, [changing, .offer batch .crashed], none, none⟩

def savedNumber (c : Controller) (k : Key) (default : Int32) : Int32 :=
  (env.saved c.group k).getD default

def savedState (c : Controller) (s : SubscriptionId) : State :=
  .ofCode (c.savedNumber env (.state s) State.notSupported.code)

def update (c : Controller) (s : SubscriptionId) (bundle : Option Bundle) (enforced : Bool) : Turn :=
  let c := { c with validSubscription := true }
  match bundle with
  | none => .rest c .done
  | some b =>
    let saved := c.savedState env s
    (c.moveTo env (State.merge b.defaultState saved enforced) b.sync enforced).after
      [.note (.savedState s saved),
        .note (.evaluated env.phone s b.offers b.sync b.defaultState saved)]

def reevaluate (c : Controller) : Turn :=
  if env.subscription.isValid then
    c.update env env.subscription (env.bundle env.subscription) false
  else
    (Turn.rest { c with validSubscription := false } .done).after
      [.note (.invalidSubscription env.subscription)]

def hear (c : Controller) (slot : PhoneId) : Turn :=
  if !slot.isValid then (Turn.rest c .done).after [.note (.invalidSlot slot)]
  else if slot ≠ env.phone then .rest c .done
  else c.reevaluate env

def load (c : Controller) : Controller :=
  { c with
    listener := c.listener.or (some env.nextTicket)
    lastSubscription := ⟨c.savedNumber env (.lastSubscription env.phone) SubscriptionId.absent.number⟩
    state := c.savedState env env.subscription
    sync := .ofCode (c.savedNumber env (.sync env.phone) Sync.none.code) }

def registering (c : Controller) : List Effect :=
  if c.listener.isNone then [.register] else []

def loadedNotice (c : Controller) : Notice :=
  .loaded env.phone c.lastSubscription env.subscription c.state c.sync

def withdrawing (c : Controller) : List Effect :=
  match c.listener with
  | none => []
  | some t => .withdraw t :: if env.holds t then [] else [.note .listenerGone]

def setSupported (c : Controller) (supported : Bool) : Turn :=
  if c.supported = supported then .rest c .done
  else
    let c := { c with supported := supported }
    if supported then
      let l := c.load env
      (l.reevaluate env).after
        (.note (.supportChanged true) :: c.registering ++ [.note (l.loadedNotice env)])
    else
      ({ c with listener := none }.moveTo env .notSupported c.sync false).after
        (.note (.supportChanged false) :: c.withdrawing env)

def interrogate (c : Controller) : Turn :=
  if c.state = .notSupported then .rest c (.status none)
  else
    let answering : Effect := .note (.answering c.state)
    if c.sync.isLocal then
      let status : Status := .ofState c.state
      ((Turn.rest c (.status (some status))).sending (some (.status status))).after [answering]
    else (Turn.rest c (.status none)).after [answering]

def request (c : Controller) (enable : Bool) (serviceClass : ServiceClass) : Turn :=
  if c.state = .notSupported ∨ !serviceClass.contains .voice then .rest c (.handled false)
  else
    let requested : Effect := .note (.requested enable serviceClass)
    if c.sync.isLocal then
      (((c.moveTo env (.ofEnabled enable) c.sync false).sending (some .completed)).answering
        (.handled true)).after [requested]
    else (Turn.rest c (.handled false)).after [requested]

inductive Operation where
  | hear (slot : PhoneId)
  | update (s : SubscriptionId) (bundle : Option Bundle) (enforced : Bool)
  | setSupported (supported : Bool)
  | interrogate
  | request (enable : Bool) (serviceClass : ServiceClass)
  | readState
deriving DecidableEq

def perform (c : Controller) : Operation → Turn
  | .hear slot => c.hear env slot
  | .update s bundle enforced => c.update env s bundle enforced
  | .setSupported supported => c.setSupported env supported
  | .interrogate => c.interrogate
  | .request enable serviceClass => c.request env enable serviceClass
  | .readState => .rest c (.state c.shownState)

inductive Sink where
  | absent
  | live
  | abandoned
deriving DecidableEq

def Sink.receive {α : Type} : Sink → Option α → Option α
  | live, x => x
  | _, _ => none

end CallWaiting.Controller
