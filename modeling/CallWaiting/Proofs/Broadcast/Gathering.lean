import Mathlib.Data.List.Basic
import Mathlib.Logic.Function.Basic
import Mathlib.Tactic.Lemma
import CallWaiting.Broadcast.Channel
import CallWaiting.Broadcast.Registry

/-!
A broadcaster among listeners of any kind. While it is called, a listener may register any listener and
withdraw any ticket, and the registrations are visited in any order. Everything that happens is put
down, so that what is heard and what arrives can be compared with who was registered when.
-/

namespace CallWaiting.Broadcast

namespace Channel

variable {α : Type}

inductive Received (α : Type) where
  | event (x : α)
  | ended (e : End)
deriving DecidableEq

def receive (c : Channel α) : Channel α × Option (Received α) :=
  if c.hasReceiver then
    match c.queue with
    | [] => (c, some (.ended c.atEnd))
    | x :: xs => ({ c with queue := xs }, some (.event x))
  else (c, none)

def forwardAll (c : Channel α) (xs : List α) : Channel α :=
  if c.isOpen then { c with queue := c.queue ++ xs } else c

lemma forwardAll_nil (c : Channel α) : c.forwardAll [] = c := by
  rw [forwardAll, List.append_nil]
  split <;> rfl

lemma forwardAll_forward (c : Channel α) (x : α) (xs : List α) :
    (c.forward x).forwardAll xs = c.forwardAll (x :: xs) := by
  by_cases ho : c.isOpen = true
  · have ho' : (c.forward x).isOpen = true := by rwa [forward, if_pos ho]
    rw [forwardAll, if_pos ho', forward, if_pos ho, forwardAll, if_pos ho, List.append_assoc]
    rfl
  · rw [forward, if_neg ho, forwardAll, if_neg ho, forwardAll, if_neg ho]

end Channel

structure Order (κ : Type) where
  of : List κ → List κ
  perm : ∀ ks, (of ks).Perm ks

def Order.asIs (κ : Type) : Order κ := ⟨id, List.Perm.refl⟩

inductive Fact (κ ε : Type) where
  | issued (t : Ticket) (k : κ)
  | withdrawn (t : Ticket) (was : Bool)
  | announced (e : ε)
  | called (k : κ) (e : ε)
  | received (k : κ) (x : Channel.Received ε)
  | senderLost (k : κ)
  | receiverLost (k : κ)
deriving DecidableEq

namespace Fact

variable {κ ε : Type}

def issued? : Fact κ ε → Option (Ticket × κ)
  | issued t k => some (t, k)
  | _ => none

def removed? : Fact κ ε → Option Ticket
  | withdrawn t true => some t
  | _ => none

def announced? : Fact κ ε → Option ε
  | announced e => some e
  | _ => none

def called? : Fact κ ε → Option (κ × ε)
  | called k e => some (k, e)
  | _ => none

def taken? [DecidableEq κ] (k : κ) : Fact κ ε → Option ε
  | received j (.event x) => if j = k then some x else none
  | _ => none

def IsInner : Fact κ ε → Prop
  | issued _ _ | withdrawn _ _ | called _ _ => True
  | announced _ | received _ _ | senderLost _ | receiverLost _ => False

lemma IsInner.announced {f : Fact κ ε} (h : f.IsInner) : f.announced? = none := by
  cases f with
  | announced e => cases h
  | issued t k | withdrawn t was | called k e | received k x | senderLost k | receiverLost k => rfl

lemma IsInner.taken [DecidableEq κ] {f : Fact κ ε} (h : f.IsInner) (k : κ) : f.taken? k = none := by
  cases f with
  | received j x => cases h
  | issued t k | withdrawn t was | called k e | announced e | senderLost k | receiverLost k => rfl

end Fact

inductive Deed (κ : Type) where
  | register (k : κ)
  | withdraw (t : Ticket)
deriving DecidableEq

inductive Move (κ ε : Type) where
  | act (d : Deed κ)
  | notify (e : ε) (v : Order κ) (deeds : List (List (Deed κ)))
  | receive (k : κ)
  | dropSender (k : κ)
  | dropReceiver (k : κ)

structure Gathering (κ ε : Type) where
  registry : Registry κ
  channels : κ → Channel ε
  facts : List (Fact κ ε)

namespace Gathering

variable {κ ε : Type}

section Reading

variable (k : κ) (fs gs : List (Fact κ ε))

def issued : List (Ticket × κ) := fs.filterMap Fact.issued?

def removed : List Ticket := fs.filterMap Fact.removed?

def calls : List (κ × ε) := fs.filterMap Fact.called?

def standing : List (Ticket × κ) := (issued fs).filter (·.1 ∉ removed fs)

def Throughout (P : List (Fact κ ε) → Fact κ ε → Prop) (past : List (Fact κ ε)) :
    List (Fact κ ε) → Prop
  | [] => True
  | f :: fs => P past f ∧ Throughout P (past ++ [f]) fs

def told (w : List (Fact κ ε) → Nat) (past : List (Fact κ ε)) : List (Fact κ ε) → List ε
  | [] => []
  | f :: fs => f.announced?.toList.flatMap (List.replicate (w past)) ++ told w (past ++ [f]) fs

lemma issued_append : issued (fs ++ gs) = issued fs ++ issued gs := List.filterMap_append

lemma removed_append : removed (fs ++ gs) = removed fs ++ removed gs := List.filterMap_append

lemma calls_append : calls (fs ++ gs) = calls fs ++ calls gs := List.filterMap_append

variable {fs gs}

lemma throughout_append {P : List (Fact κ ε) → Fact κ ε → Prop} {past : List (Fact κ ε)} :
    Throughout P past (fs ++ gs) ↔ Throughout P past fs ∧ Throughout P (past ++ fs) gs := by
  induction fs generalizing past with
  | nil => simp [Throughout]
  | cons f fs ih => simp [Throughout, ih, and_assoc]

lemma told_append (w : List (Fact κ ε) → Nat) (past : List (Fact κ ε)) :
    told w past (fs ++ gs) = told w past fs ++ told w (past ++ fs) gs := by
  induction fs generalizing past with
  | nil => simp [told]
  | cons f fs ih => simp [told, ih]

lemma told_congr {w w' : List (Fact κ ε) → Nat} {past : List (Fact κ ε)}
    (h : ∀ p, p <+: fs → w (past ++ p) = w' (past ++ p)) : told w past fs = told w' past fs := by
  induction fs generalizing past with
  | nil => rfl
  | cons f fs ih =>
    have hw : w past = w' past := by simpa using h [] List.nil_prefix
    have hs : told w (past ++ [f]) fs = told w' (past ++ [f]) fs := by
      refine ih fun p hp => ?_
      simpa using h (f :: p) (List.cons_prefix_cons.2 ⟨rfl, hp⟩)
    rw [told, told, hw, hs]

lemma told_unannounced (w : List (Fact κ ε) → Nat) (past : List (Fact κ ε))
    (hi : ∀ f ∈ gs, f.announced? = none) : told w past gs = [] := by
  induction gs generalizing past with
  | nil => rfl
  | cons f gs ih =>
    rw [List.forall_mem_cons] at hi
    rw [told, hi.1, ih _ hi.2]
    rfl

lemma told_notice (w : List (Fact κ ε) → Nat) (e : ε) (hi : ∀ f ∈ gs, f.IsInner) :
    told w [] (fs ++ .announced e :: gs) = told w [] fs ++ List.replicate (w fs) e := by
  have hn : ∀ f ∈ gs, f.announced? = none := fun f hf => (hi f hf).announced
  rw [told_append, told, told_unannounced _ _ hn]
  simp [Fact.announced?]

variable [DecidableEq κ]

def registrations (fs : List (Fact κ ε)) : Nat := ((standing fs).map (·.2)).count k

def heard (fs : List (Fact κ ε)) : List ε := ((calls fs).filter (·.1 = k)).map (·.2)

def taken (fs : List (Fact κ ε)) : List ε := fs.filterMap (Fact.taken? k)

lemma heard_append : heard k (fs ++ gs) = heard k fs ++ heard k gs := by
  rw [heard, calls_append, List.filter_append, List.map_append, ← heard, ← heard]

lemma taken_append : taken k (fs ++ gs) = taken k fs ++ taken k gs := List.filterMap_append

lemma taken_inner (hi : ∀ f ∈ gs, f.IsInner) : taken k gs = [] := by
  rw [taken, List.filterMap_eq_nil_iff]
  exact fun f hf => (hi f hf).taken k

end Reading

def empty : Gathering κ ε := ⟨.empty, fun _ => .fresh, []⟩

def put (g : Gathering κ ε) (f : Fact κ ε) : Gathering κ ε :=
  { g with facts := g.facts ++ [f] }

def act (g : Gathering κ ε) : Deed κ → Gathering κ ε
  | .register k =>
    { g with registry := g.registry.register k }.put (.issued g.registry.next k)
  | .withdraw t =>
    { g with registry := g.registry.withdraw t }.put (.withdrawn t (g.registry.holds t))

def actAll (g : Gathering κ ε) (ds : List (Deed κ)) : Gathering κ ε :=
  ds.foldl act g

lemma actAll_facts (g : Gathering κ ε) (ds : List (Deed κ)) : ∃ fs,
    (g.actAll ds).facts = g.facts ++ fs ∧ calls fs = [] ∧ ∀ f ∈ fs, f.IsInner := by
  induction ds generalizing g with
  | nil => exact ⟨[], (List.append_nil _).symm, rfl, nofun⟩
  | cons d ds ih =>
    obtain ⟨fs, hf, hc, hi⟩ := ih (g.act d)
    cases d with
    | register k =>
      refine ⟨.issued g.registry.next k :: fs, ?_, hc, List.forall_mem_cons.2 ⟨trivial, hi⟩⟩
      exact hf.trans (List.append_assoc _ _ _)
    | withdraw t =>
      refine ⟨.withdrawn t (g.registry.holds t) :: fs, ?_, hc, List.forall_mem_cons.2 ⟨trivial, hi⟩⟩
      exact hf.trans (List.append_assoc _ _ _)

lemma channels_actAll (g : Gathering κ ε) (ds : List (Deed κ)) :
    (g.actAll ds).channels = g.channels := by
  induction ds generalizing g with
  | nil => rfl
  | cons d ds ih => cases d <;> exact ih _

variable [DecidableEq κ]

def onChannel (g : Gathering κ ε) (k : κ) (f : Channel ε → Channel ε) : Gathering κ ε :=
  { g with channels := Function.update g.channels k (f (g.channels k)) }

def call (e : ε) (g : Gathering κ ε) (k : κ) : Gathering κ ε :=
  (g.onChannel k (·.forward e)).put (.called k e)

def deliver (e : ε) (g : Gathering κ ε) : List κ → List (List (Deed κ)) → Gathering κ ε
  | [], _ => g
  | k :: ks, deeds => ((g.call e k).actAll (deeds.headD [])).deliver e ks deeds.tail

def notify (g : Gathering κ ε) (e : ε) (v : Order κ) (deeds : List (List (Deed κ))) :
    Gathering κ ε :=
  (g.put (.announced e)).deliver e (v.of g.registry.listeners) deeds

def receive (g : Gathering κ ε) (k : κ) : Gathering κ ε :=
  match (g.channels k).receive with
  | (c, some x) => (g.onChannel k fun _ => c).put (.received k x)
  | (_, none) => g

def step (g : Gathering κ ε) : Move κ ε → Gathering κ ε
  | .act d => g.act d
  | .notify e v deeds => g.notify e v deeds
  | .receive k => g.receive k
  | .dropSender k => (g.onChannel k .dropSender).put (.senderLost k)
  | .dropReceiver k => (g.onChannel k .dropReceiver).put (.receiverLost k)

def run (g : Gathering κ ε) (ms : List (Move κ ε)) : Gathering κ ε :=
  ms.foldl step g

lemma deliver_facts (e : ε) (g : Gathering κ ε) (ks : List κ) (deeds : List (List (Deed κ))) :
    ∃ fs, (g.deliver e ks deeds).facts = g.facts ++ fs ∧ calls fs = ks.map (·, e) ∧
      ∀ f ∈ fs, f.IsInner := by
  induction ks generalizing g deeds with
  | nil => exact ⟨[], (List.append_nil _).symm, rfl, nofun⟩
  | cons k ks ih =>
    obtain ⟨fs, hf, hc, hi⟩ := actAll_facts (g.call e k) (deeds.headD [])
    obtain ⟨fs', hf', hc', hi'⟩ := ih ((g.call e k).actAll (deeds.headD [])) deeds.tail
    refine ⟨.called k e :: (fs ++ fs'), ?_, ?_, ?_⟩
    · rw [deliver, hf', hf, call, put, List.append_assoc, List.append_assoc, List.singleton_append]
      rfl
    · have hh : calls (Fact.called k e :: (fs ++ fs')) = (k, e) :: calls (fs ++ fs') := rfl
      rw [hh, calls_append, hc, hc', List.nil_append, List.map_cons]
    · exact List.forall_mem_cons.2 ⟨trivial, List.forall_mem_append.2 ⟨hi, hi'⟩⟩

theorem notify_facts (g : Gathering κ ε) (e : ε) (v : Order κ) (deeds : List (List (Deed κ))) :
    ∃ fs, (g.notify e v deeds).facts = g.facts ++ .announced e :: fs ∧
      calls fs = (v.of g.registry.listeners).map (·, e) ∧ ∀ f ∈ fs, f.IsInner := by
  obtain ⟨fs, hf, hc, hi⟩ := deliver_facts e (g.put (.announced e)) (v.of g.registry.listeners) deeds
  exact ⟨fs, hf.trans (List.append_assoc _ _ _), hc, hi⟩

lemma channels_deliver (e : ε) (g : Gathering κ ε) (ks : List κ) (deeds : List (List (Deed κ)))
    (k : κ) : (g.deliver e ks deeds).channels k =
      (g.channels k).forwardAll (List.replicate (ks.count k) e) := by
  induction ks generalizing g deeds with
  | nil => exact (Channel.forwardAll_nil _).symm
  | cons j ks ih =>
    rw [deliver, ih, channels_actAll]
    change Channel.forwardAll (Function.update g.channels j _ k) _ = _
    by_cases hj : j = k
    · subst hj
      rw [Function.update_self, List.count_cons_self, List.replicate_succ, Channel.forwardAll_forward]
    · rw [Function.update_of_ne (Ne.symm hj), List.count_cons_of_ne hj]

section Receive

variable {g : Gathering κ ε} {k : κ}

lemma receive_nil (hr : (g.channels k).hasReceiver = true) (hq : (g.channels k).queue = []) :
    g.receive k = (g.onChannel k id).put (.received k (.ended (g.channels k).atEnd)) := by
  rw [receive, Channel.receive, if_pos hr, hq]
  rfl

lemma receive_cons {x : ε} {xs : List ε} (hr : (g.channels k).hasReceiver = true)
    (hq : (g.channels k).queue = x :: xs) : g.receive k =
      (g.onChannel k fun c => { c with queue := xs }).put (.received k (.event x)) := by
  rw [receive, Channel.receive, if_pos hr, hq]
  rfl

lemma receive_of_no_receiver (hr : ¬ (g.channels k).hasReceiver = true) : g.receive k = g := by
  rw [receive, Channel.receive, if_neg hr]

end Receive

theorem channels_notify (g : Gathering κ ε) (e : ε) (v : Order κ) (deeds : List (List (Deed κ)))
    (k : κ) : (g.notify e v deeds).channels k =
      (g.channels k).forwardAll (List.replicate (g.registry.listeners.count k) e) := by
  rw [notify, channels_deliver, (v.perm _).count_eq]
  rfl

end Gathering

end CallWaiting.Broadcast
