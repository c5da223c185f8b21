import CallWaiting.Controller.Basic
import CallWaiting.Phone
import CallWaiting.Preference.Store

/-!
A handset: several phones that share one preference store, the carrier bundles and one
broadcaster. Controllers act on it only through the effects of their operations.
-/

namespace CallWaiting

open Preference (Batch Fate Key)
open Broadcast (Registry)
open Controller (Effect Surroundings Turn Operation)

structure Handset where
  phones : List Phone
  store : Preference.Store
  disk : FileSystem
  bundles : Bundles
  registry : Registry Nat
  refusing : Bool
  poisoned : Bool

namespace Handset

structure Happening where
  phone : Option Nat
  effect : Effect

def fresh (phones : List Phone) (store : Preference.Store) (disk : FileSystem) : Handset :=
  ⟨phones, store, disk, .empty, .empty, false, false⟩

def fate (h : Handset) (b : Batch) : Fate :=
  if h.poisoned then .crashed
  else if h.refusing then .refused (.storage "disk full")
  else match (h.store.put h.disk b).2.2 with
    | .ok () => .stored
    | .error e => .refused e

def putBatch (h : Handset) (b : Batch) : Handset :=
  let (disk, store, _) := h.store.put h.disk b
  { h with disk := disk, store := store }

def offer (h : Handset) (b : Batch) : Handset :=
  if h.poisoned then { h with poisoned := false }
  else if h.refusing then h
  else h.putBatch b

def surroundings (h : Handset) (p : Phone) : Surroundings where
  phone := p.id
  subscription := p.subscription
  bundle := h.bundles.get?
  saved := h.store.get?
  fate := h.fate
  nextTicket := h.registry.next
  holds := h.registry.holds

def apply (i : Nat) (h : Handset) : Effect → Handset
  | .register => { h with registry := h.registry.register i }
  | .withdraw t => { h with registry := h.registry.withdraw t }
  | .offer b _ => h.offer b
  | .push state => { h with phones := h.phones.modify i (·.push state) }
  | .note _ => h

def applyAll (h : Handset) (i : Nat) (es : List Effect) : Handset :=
  es.foldl (apply i) h

def operate (h : Handset) (i : Nat) (c : Controller) (op : Operation) : Handset × Turn :=
  match h.phones[i]? with
  | some p =>
    let t := c.perform (h.surroundings p) op
    (h.applyAll i t.effects, t)
  | none => (h, .rest c .done)

def dismiss (h : Handset) (i : Nat) (c : Controller) : Handset × List Effect :=
  match h.phones[i]? with
  | some p =>
    let es := c.withdrawing (h.surroundings p)
    (h.applyAll i es, es)
  | none => (h, [])

def happenings (i : Nat) (es : List Effect) : List Happening :=
  es.map (⟨some i, ·⟩)

def noted (n : Notice) : Happening :=
  ⟨none, .note n⟩

inductive Change where
  | swap (i : Nat) (s : SubscriptionId)
  | install (s : SubscriptionId) (b : Bundle)
  | remove (s : SubscriptionId)
  | refuse (on : Bool)
  | poison
  | withdrawAll
  | put (b : Batch)
  | reopen
deriving DecidableEq

def reopened (h : Handset) : Preference.Store × List Happening :=
  match h.store with
  | .memory m => (.memory m, [])
  | .file f =>
    match Preference.File.load h.disk f.path with
    | .ok f' => (.file f', [noted (.storeOpened f'.path.text)])
    | .error _ => (.file f, [])

def change (h : Handset) : Change → Handset × List Happening
  | .swap i s => ({ h with phones := h.phones.modify i (·.swap s) }, [])
  | .install s b => ({ h with bundles := h.bundles.install s b }, [])
  | .remove s => ({ h with bundles := h.bundles.remove s }, [])
  | .refuse on => ({ h with refusing := on }, [])
  | .poison => ({ h with poisoned := true }, [])
  | .withdrawAll => ({ h with registry := h.registry.withdrawAll }, [])
  | .put b => (h.putBatch b, [])
  | .reopen =>
    let (store, hs) := h.reopened
    ({ h with store := store }, hs)

end Handset

end CallWaiting
