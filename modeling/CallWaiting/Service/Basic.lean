import CallWaiting.Controller.Basic

/-!
The service of one phone: a task that takes commands from a queue and runs them on its
controller one at a time. The queue is open for as long as the task runs.
-/

namespace CallWaiting

open Controller (Operation Answer)

inductive Command where
  | perform (op : Operation)
  | shutdown
deriving DecidableEq

structure Entry where
  command : Command
  waiting : Option Nat
deriving DecidableEq

inductive Phase where
  | running
  | stopped
  | crashed
deriving DecidableEq

structure Service where
  controller : Option Controller
  queue : List Entry
  phase : Phase
  handles : List Bool
  keptSender : Bool
  joined : Bool
  nextRequest : Nat
  replies : List (Nat × Answer)

namespace Service

def fresh (group : String) : Service :=
  ⟨some (.fresh group), [], .running, [true], false, false, 0, []⟩

def isRunning (s : Service) : Bool :=
  decide (s.phase = .running)

def hasSender (s : Service) : Bool :=
  s.keptSender || s.handles.any id

def handle? (s : Service) (k : Nat) : Bool :=
  s.handles.getD k false

def enqueue (s : Service) (c : Command) (waiting : Option Nat) : Service :=
  if s.isRunning then { s with queue := s.queue ++ [⟨c, waiting⟩] } else s

def ask (s : Service) (op : Operation) : Service :=
  { s.enqueue (.perform op) (some s.nextRequest) with nextRequest := s.nextRequest + 1 }

/-- A slot change that arrives through the forwarder, which is no sender itself. -/
def isReachable (s : Service) : Bool :=
  s.isRunning && s.hasSender

def reply? (s : Service) (request : Nat) : Option Answer :=
  s.replies.lookup request

def cloneHandle (s : Service) : Service :=
  { s with handles := s.handles ++ [true] }

def dropHandle (s : Service) (k : Nat) : Service :=
  { s with handles := s.handles.set k false }

def answered (s : Service) (c : Controller) (waiting : Option Nat) (a : Answer) : Service :=
  { s with
    controller := some c
    replies := match waiting with
      | some n => s.replies ++ [(n, a)]
      | none => s.replies }

def ended (s : Service) (phase : Phase) : Service :=
  { s with controller := none, queue := [], phase := phase }

def beginShutdown (s : Service) : Service :=
  { s.enqueue .shutdown none with joined := true }

/-- What a shutdown that was begun comes to. Only one that waits hears of a crash. -/
def shutdownResult (s : Service) (waited : Bool) : Except Error Unit :=
  if waited ∧ s.phase = .crashed then .error (.internal "call waiting task failed") else .ok ()

def handleText (s : Service) (p : PhoneId) : String :=
  "CallWaitingHandle \x7b phone_id: PhoneId(" ++ p.text ++ "), closed: " ++
    Notice.boolText (!s.isRunning) ++ " \x7d"

end Service

end CallWaiting
