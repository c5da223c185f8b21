import CallWaiting.Handset.Basic
import CallWaiting.Service.Basic

/-!
The services of a handset's phones. Tasks run one command at a time; a task that has something
to do waits in line until its turn comes.
-/

namespace CallWaiting

open Controller (Operation Answer)
open Handset (Happening Change)

structure Exchange where
  handset : Handset
  services : List Service
  line : List Nat

namespace Exchange

def spawn (h : Handset) (groups : List String) : Exchange :=
  ⟨h, groups.map .fresh, List.range groups.length⟩

def spawnHappenings (h : Handset) : List Happening :=
  h.phones.map fun p => Handset.noted (.serviceStarted p.id)

def wake (x : Exchange) (i : Nat) : Exchange :=
  match x.services[i]? with
  | some s => if s.isRunning ∧ !x.line.contains i then { x with line := x.line ++ [i] } else x
  | none => x

def modify (x : Exchange) (i : Nat) (f : Service → Service) : Exchange :=
  { x with services := x.services.modify i f }

def set (x : Exchange) (i : Nat) (s : Service) : Exchange :=
  { x with services := x.services.set i s }

def finish (x : Exchange) (i : Nat) (s : Service) (c : Controller) (phase : Phase) :
    Exchange × List Happening :=
  let (h, es) := x.handset.dismiss i c
  ({ x with handset := h, services := x.services.set i (s.ended phase) }, Handset.happenings i es)

def stoppedNotice (x : Exchange) (i : Nat) : List Happening :=
  match x.handset.phones[i]? with
  | some p => [Handset.noted (.serviceStopped p.id)]
  | none => []

def stop (x : Exchange) (i : Nat) (s : Service) (c : Controller) : Exchange × List Happening :=
  let (y, hs) := x.finish i s c .stopped
  (y, x.stoppedNotice i ++ hs)

def perform (x : Exchange) (i : Nat) (s : Service) (c : Controller) (op : Operation)
    (waiting : Option Nat) : Exchange × List Happening :=
  let (h, t) := x.handset.operate i c op
  let hs := Handset.happenings i t.effects
  match t.answer with
  | some a => ({ x with handset := h, services := x.services.set i (s.answered t.controller waiting a) }, hs)
  | none =>
    let (y, hs') := { x with handset := h }.finish i s t.controller .crashed
    (y, hs ++ hs')

def runOne (x : Exchange) (i : Nat) : Exchange × List Happening :=
  match x.services[i]? with
  | none => (x, [])
  | some s =>
    match s.controller, s.queue with
    | none, _ => (x, [])
    | some c, [] => if s.hasSender then (x, []) else x.stop i s c
    | some c, ⟨.shutdown, _⟩ :: _ => x.stop i s c
    | some c, ⟨.perform op, waiting⟩ :: rest => x.perform i { s with queue := rest } c op waiting

def runMany (i : Nat) : Nat → Exchange → Exchange × List Happening
  | 0, x => (x, [])
  | n + 1, x =>
    let (y, hs) := x.runOne i
    let (z, hs') := runMany i n y
    (z, hs ++ hs')

def runAll (x : Exchange) (i : Nat) : Exchange × List Happening :=
  match x.services[i]? with
  | some s => runMany i (s.queue.length + 1) x
  | none => (x, [])

def runLine (x : Exchange) : List Nat → Exchange × List Happening
  | [] => (x, [])
  | i :: is =>
    let (y, hs) := x.runAll i
    let (z, hs') := y.runLine is
    (z, hs ++ hs')

/-- Runs all tasks as far as they go. Commands put nothing into queues, so one round is enough. -/
def settle (x : Exchange) : Exchange × List Happening :=
  { x with line := [] }.runLine x.line

def enqueue (x : Exchange) (i : Nat) (c : Command) : Exchange :=
  (x.modify i (·.enqueue c none)).wake i

def forward (slot : PhoneId) (x : Exchange) (i : Nat) : Exchange × List Happening :=
  match x.services[i]? with
  | some s =>
    if s.isReachable then (x.enqueue i (.perform (.hear slot)), [])
    else (x, [Handset.noted .undelivered])
  | none => (x, [])

def forwardAll (slot : PhoneId) (x : Exchange) : List Nat → Exchange × List Happening
  | [] => (x, [])
  | i :: is =>
    let (y, hs) := x.forward slot i
    let (z, hs') := forwardAll slot y is
    (z, hs ++ hs')

def notify (x : Exchange) (slot : PhoneId) : Exchange × List Happening :=
  let order := x.handset.registry.listeners
  let (y, hs) := x.forwardAll slot order
  (y, Handset.noted (.announced slot order.length) :: hs)

inductive Request where
  | change (c : Change)
  | notify (slot : PhoneId)
  | settle
  | ask (i handle : Nat) (op : Operation)
  | shutdown (i handle : Nat)
  | send (i handle : Nat) (c : Command)
  | cloneHandle (i handle : Nat)
  | dropHandle (i handle : Nat)
  | keepSender (i handle : Nat)
  | dropSender (i : Nat)
  | info (i handle : Nat)

inductive Reply where
  | nothing
  | answered (r : Except Error Answer)
  | sent (yes : Bool)
  | info (p : PhoneId) (text : String)

def ask (x : Exchange) (i : Nat) (s : Service) (op : Operation) : Exchange × Reply × List Happening :=
  let (y, hs) := ((x.modify i (·.ask op)).wake i).settle
  let r := (y.services[i]?).bind (·.reply? s.nextRequest)
  (y, .answered (match r with | some a => .ok a | none => .error .closed), hs)

def shutdown (x : Exchange) (i : Nat) (s : Service) : Exchange × Reply × List Happening :=
  let (y, hs) := ((x.modify i .beginShutdown).wake i).settle
  let r := ((y.services[i]?).map (·.shutdownResult (!s.joined))).getD (.ok ())
  (y, .answered (r.map fun _ => .done), hs)

def canSend (s : Service) (handle : Nat) : Bool :=
  s.keptSender || s.handle? handle

def wakeIfAlone (x : Exchange) (i : Nat) : Exchange :=
  match x.services[i]? with
  | some s => if s.hasSender then x else x.wake i
  | none => x

def step (x : Exchange) : Request → Exchange × Reply × List Happening
  | .change c =>
    let (h, hs) := x.handset.change c
    ({ x with handset := h }, .nothing, hs)
  | .notify slot =>
    let (y, hs) := x.notify slot
    (y, .nothing, hs)
  | .settle =>
    let (y, hs) := x.settle
    (y, .nothing, hs)
  | .ask i k op =>
    match x.services[i]? with
    | some s => if s.handle? k then x.ask i s op else (x, .nothing, [])
    | none => (x, .nothing, [])
  | .shutdown i k =>
    match x.services[i]? with
    | some s => if s.handle? k then x.shutdown i s else (x, .nothing, [])
    | none => (x, .nothing, [])
  | .send i k c =>
    match x.services[i]? with
    | some s => if canSend s k then (x.enqueue i c, .sent s.isRunning, []) else (x, .nothing, [])
    | none => (x, .nothing, [])
  | .cloneHandle i k =>
    (x.modify i fun s => if s.handle? k then s.cloneHandle else s, .nothing, [])
  | .dropHandle i k => ((x.modify i (·.dropHandle k)).wakeIfAlone i, .nothing, [])
  | .keepSender i k =>
    (x.modify i fun s => if s.handle? k then { s with keptSender := true } else s, .nothing, [])
  | .dropSender i =>
    ((x.modify i fun s => { s with keptSender := false }).wakeIfAlone i, .nothing, [])
  | .info i k =>
    match x.services[i]?, x.handset.phones[i]? with
    | some s, some p =>
      (x, if s.handle? k then .info p.id (s.handleText p.id) else .nothing, [])
    | _, _ => (x, .nothing, [])

end Exchange

end CallWaiting
