import CallWaiting.Handset.Basic

/-!
Controllers that are called directly, one for each phone of a handset. Slot changes wait in a
queue of the phone until they are handed to its controller.
-/

namespace CallWaiting.Handset

open Controller (Answer Operation)

structure Direct where
  handset : Handset
  controllers : List (Option Controller)
  queues : List (List PhoneId)

namespace Direct

def fresh (h : Handset) (groups : List String) : Direct :=
  ⟨h, groups.map fun g => some (.fresh g), groups.map fun _ => []⟩

def controller? (d : Direct) (i : Nat) : Option Controller :=
  (d.controllers[i]?).join

inductive Request where
  | change (c : Change)
  | notify (slot : PhoneId)
  | operate (i : Nat) (op : Operation)
  | pump (i : Nat)
  | drop (i : Nat)
  | rebuild (i : Nat) (group : String)

inductive Reply where
  | nothing
  | answered (a : Answer)
  | delivered (slots : List PhoneId)
deriving DecidableEq

def notify (d : Direct) (slot : PhoneId) : Direct × List Happening :=
  let order := d.handset.registry.listeners
  ({ d with queues := order.foldl (fun qs i => qs.modify i (· ++ [slot])) d.queues },
    [noted (.announced slot order.length)])

def operate (d : Direct) (i : Nat) (op : Operation) : Direct × Option Answer × List Happening :=
  match d.controller? i with
  | none => (d, none, [])
  | some c =>
    let (h, t) := d.handset.operate i c op
    ({ d with handset := h, controllers := d.controllers.set i (some t.controller) }, t.answer,
      happenings i t.effects)

def deliver (d : Direct) (i : Nat) : List PhoneId → Direct × List Happening
  | [] => (d, [])
  | slot :: slots =>
    let (d, _, hs) := d.operate i (.hear slot)
    let (d, hs') := d.deliver i slots
    (d, hs ++ hs')

def drop (d : Direct) (i : Nat) : Direct × List Happening :=
  match d.controller? i with
  | none => (d, [])
  | some c =>
    let (h, es) := d.handset.dismiss i c
    ({ d with handset := h, controllers := d.controllers.set i none }, happenings i es)

def step (d : Direct) : Request → Direct × Reply × List Happening
  | .change c =>
    let (h, hs) := d.handset.change c
    ({ d with handset := h }, .nothing, hs)
  | .notify slot =>
    let (d, hs) := d.notify slot
    (d, .nothing, hs)
  | .operate i op =>
    let (d, a, hs) := d.operate i op
    (d, (a.map .answered).getD .nothing, hs)
  | .pump i =>
    match d.controller? i, d.queues[i]? with
    | some _, some slots =>
      let (d, hs) := { d with queues := d.queues.set i [] }.deliver i slots
      (d, .delivered slots, hs)
    | _, _ => (d, .nothing, [])
  | .drop i =>
    let (d, hs) := d.drop i
    (d, .nothing, hs)
  | .rebuild i group =>
    let (d, hs) := d.drop i
    ({ d with controllers := d.controllers.set i (some (.fresh group)) }, .nothing, hs)

end Direct

end CallWaiting.Handset
