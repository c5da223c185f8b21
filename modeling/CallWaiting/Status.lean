import CallWaiting.State

namespace CallWaiting

structure ServiceClass where
  bits : UInt32
deriving DecidableEq

namespace ServiceClass

def none : ServiceClass := ⟨0⟩
def voice : ServiceClass := ⟨1⟩
def data : ServiceClass := ⟨2⟩
def fax : ServiceClass := ⟨4⟩
def sms : ServiceClass := ⟨8⟩
def dataSync : ServiceClass := ⟨16⟩
def dataAsync : ServiceClass := ⟨32⟩
def packet : ServiceClass := ⟨64⟩
def pad : ServiceClass := ⟨128⟩

def union (a b : ServiceClass) : ServiceClass :=
  ⟨a.bits ||| b.bits⟩

def contains (a b : ServiceClass) : Bool :=
  decide (a.bits &&& b.bits = b.bits)

def isEmpty (a : ServiceClass) : Bool :=
  decide (a.bits = 0)

end ServiceClass

structure Status where
  state : State
  serviceClass : ServiceClass
deriving DecidableEq

def Status.ofState (s : State) : Status :=
  ⟨s, if s = .activated then .voice else .none⟩

end CallWaiting
