namespace CallWaiting.Broadcast

structure Channel (α : Type) where
  queue : List α
  hasSender : Bool
  hasReceiver : Bool

namespace Channel

variable {α : Type}

def fresh : Channel α := ⟨[], true, true⟩

/-- Whether something sent through the forwarder would arrive. The forwarder does not count as
a sender itself. -/
def isOpen (c : Channel α) : Bool :=
  c.hasSender && c.hasReceiver

def forward (c : Channel α) (x : α) : Channel α :=
  if c.isOpen then { c with queue := c.queue ++ [x] } else c

def dropSender (c : Channel α) : Channel α :=
  { c with hasSender := false }

def dropReceiver (c : Channel α) : Channel α :=
  { c with queue := [], hasReceiver := false }

inductive End where
  | empty
  | disconnected
deriving DecidableEq

def atEnd (c : Channel α) : End :=
  if c.hasSender then .empty else .disconnected

def receiveAll (c : Channel α) : Option (List α × End) :=
  if c.hasReceiver then some (c.queue, c.atEnd) else none

def drained (c : Channel α) : Channel α :=
  { c with queue := [] }

end Channel

def forwarderText : String := "ChannelForwarder \x7b .. \x7d"

end CallWaiting.Broadcast
