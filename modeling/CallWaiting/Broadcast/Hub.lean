import CallWaiting.Broadcast.Registry
import CallWaiting.Broadcast.Channel
import CallWaiting.Json.Form
import CallWaiting.Line

/-!
One broadcaster with listeners of two kinds: recorders, which may register and withdraw others
when they are called, and forwarders into channels. A change is delivered to the registrations
that are there when it is announced, whatever the listeners do meanwhile.
-/

namespace CallWaiting.Broadcast

structure SlotChange where
  slot : PhoneId
deriving DecidableEq

instance : Json.Form SlotChange where
  toJson c := Json.record [("slot_index", Json.toJson c.slot.number)]
  ofJson? j := do
    match ← Json.fields? ["slot_index"] j with
    | [slot] => return ⟨⟨← Json.required slot⟩⟩
    | _ => none

inductive Reaction where
  | withdraw (member : Nat)
  | register (member : Nat)
deriving DecidableEq

inductive Listener where
  | recorder (seen : List SlotChange) (reactions : List Reaction)
  | forwarder (channel : Channel SlotChange)

structure Member where
  listener : Nat
  ticket : Option Ticket

structure Hub where
  registry : Registry Nat
  listeners : List Listener
  members : List Member

namespace Hub

def empty : Hub := ⟨.empty, [], []⟩

def addListener (h : Hub) (l : Listener) : Hub :=
  { h with listeners := h.listeners ++ [l], members := h.members ++ [⟨h.listeners.length, none⟩] }

def registerMember (h : Hub) (m : Nat) : Hub :=
  match h.members[m]? with
  | some member =>
    { h with
      registry := h.registry.register member.listener
      members := h.members.set m { member with ticket := some h.registry.next } }
  | none => h

def ticket? (h : Hub) (m : Nat) : Option Ticket :=
  (h.members[m]?).bind (·.ticket)

def holds (h : Hub) (m : Nat) : Bool :=
  match h.ticket? m with
  | some t => h.registry.holds t
  | none => false

def withdraw (h : Hub) (m : Nat) : Hub :=
  match h.ticket? m with
  | some t => { h with registry := h.registry.withdraw t }
  | none => h

def react (h : Hub) : Reaction → Hub
  | .withdraw m => h.withdraw m
  | .register m => h.registerMember m

def isLasting : Reaction → Bool
  | .withdraw _ => true
  | .register _ => false

def call (change : SlotChange) (h : Hub) (i : Nat) : Hub :=
  match h.listeners[i]? with
  | some (.recorder seen reactions) =>
    reactions.foldl react
      { h with listeners := h.listeners.set i (.recorder (seen ++ [change]) (reactions.filter isLasting)) }
  | some (.forwarder channel) =>
    { h with listeners := h.listeners.set i (.forwarder (channel.forward change)) }
  | none => h

def deliver (h : Hub) (change : SlotChange) (order : List Nat) : Hub :=
  order.foldl (call change) h

def notify (h : Hub) (change : SlotChange) : Hub :=
  h.deliver change h.registry.listeners

def modify (h : Hub) (m : Nat) (f : Listener → Listener) : Hub :=
  match h.members[m]? with
  | some member => { h with listeners := h.listeners.modify member.listener f }
  | none => h

def listener? (h : Hub) (m : Nat) : Option Listener :=
  (h.members[m]?).bind fun member => h.listeners[member.listener]?

inductive Request where
  | record
  | channel
  | again (member : Nat)
  | withdraw (member : Nat)
  | notify (change : SlotChange)
  | onCallWithdraw (member target : Nat)
  | onCallRegister (member : Nat)
  | dropSender (member : Nat)
  | dropReceiver (member : Nat)
  | receive (member : Nat)

inductive Answer where
  | nothing
  | withdrawn (was : Bool)
  | received (changes : List SlotChange) (end_ : Channel.End)
deriving DecidableEq

def addReaction (r : Reaction) : Listener → Listener
  | .recorder seen reactions => .recorder seen (reactions ++ [r])
  | l => l

def onChannel (f : Channel SlotChange → Channel SlotChange) : Listener → Listener
  | .forwarder c => .forwarder (f c)
  | l => l

def addMember (h : Hub) (m : Member) : Hub :=
  { h with members := h.members ++ [⟨m.listener, none⟩] }

def join (h : Hub) (l : Listener) : Hub :=
  (h.addListener l).registerMember h.members.length

def receiveFrom (h : Hub) (m : Nat) : Option (List SlotChange × Channel.End) :=
  match h.listener? m with
  | some (.forwarder c) => c.receiveAll
  | _ => none

def step (h : Hub) : Request → Hub × Answer
  | .record => (h.join (.recorder [] []), .nothing)
  | .channel => (h.join (.forwarder .fresh), .nothing)
  | .again m =>
    match h.members[m]? with
    | some member => ((h.addMember member).registerMember h.members.length, .nothing)
    | none => (h, .nothing)
  | .withdraw m => (h.withdraw m, .withdrawn (h.holds m))
  | .notify change => (h.notify change, .nothing)
  | .onCallWithdraw m target => (h.modify m (addReaction (.withdraw target)), .nothing)
  | .onCallRegister m =>
    ((h.addListener (.recorder [] [])).modify m (addReaction (.register h.members.length)), .nothing)
  | .dropSender m => (h.modify m (onChannel .dropSender), .nothing)
  | .dropReceiver m => (h.modify m (onChannel .dropReceiver), .nothing)
  | .receive m =>
    match h.receiveFrom m with
    | some (changes, e) => (h.modify m (onChannel .drained), .received changes e)
    | none => (h, .nothing)

def seen (h : Hub) : List (Option (List SlotChange)) :=
  (List.range h.members.length).map fun m =>
    match h.listener? m with
    | some (.recorder seen _) => some seen
    | _ => none

end Hub

end CallWaiting.Broadcast
