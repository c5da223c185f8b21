import CallWaiting.Broadcast.Hub
import CallWaiting.Proofs.Broadcast.Gathering

namespace CallWaiting.Broadcast

namespace Gathering

variable {κ ε : Type} [DecidableEq κ] {g g' g'' : Gathering κ ε} {i : κ}

structure Beside (i : κ) (g g' : Gathering κ ε) : Prop where
  registry : g'.registry = g.registry
  heard : ∀ j, j ≠ i → heard j g'.facts = heard j g.facts
  channel : ∀ j, j ≠ i → g'.channels j = g.channels j

lemma Beside.refl (i : κ) (g : Gathering κ ε) : Beside i g g := ⟨rfl, fun _ _ => rfl, fun _ _ => rfl⟩

lemma Beside.trans (h : Beside i g g') (h' : Beside i g' g'') : Beside i g g'' :=
  ⟨h'.registry.trans h.registry, fun j hj => (h'.heard j hj).trans (h.heard j hj),
    fun j hj => (h'.channel j hj).trans (h.channel j hj)⟩

lemma beside_onChannel (g : Gathering κ ε) (i : κ) (c : Channel ε → Channel ε) {f : Fact κ ε}
    (hf : ∀ j, j ≠ i → heard j [f] = []) : Beside i g ((g.onChannel i c).put f) where
  registry := rfl
  heard j hj := by
    change heard j (g.facts ++ [f]) = _
    rw [heard_append, hf j hj, List.append_nil]
  channel j hj := Function.update_of_ne hj _ _

lemma run_drained (hr : (g.channels i).hasReceiver = true) : ∃ ms,
    (g.run ms).channels i = (g.channels i).drained ∧ Beside i g (g.run ms) := by
  generalize hq : (g.channels i).queue = q
  induction q generalizing g with
  | nil =>
    refine ⟨[.receive i], ?_, ?_⟩
    · change (g.receive i).channels i = _
      rw [receive_nil hr hq, Channel.drained, ← hq]
      exact Function.update_self _ _ _
    · change Beside i g (g.receive i)
      rw [receive_nil hr hq]
      exact beside_onChannel g i _ fun _ _ => rfl
  | cons x xs ih =>
    have hg : (g.receive i).channels i = { g.channels i with queue := xs } := by
      rw [receive_cons hr hq]
      exact Function.update_self _ _ _
    have hb : Beside i g (g.receive i) := by
      rw [receive_cons hr hq]
      exact beside_onChannel g i _ fun _ _ => rfl
    have hr' : ((g.receive i).channels i).hasReceiver = true := by rw [hg, hr]
    obtain ⟨ms, hd, hb'⟩ := ih hr' (by rw [hg])
    refine ⟨.receive i :: ms, ?_, hb.trans hb'⟩
    change ((g.receive i).run ms).channels i = _
    rw [hd, hg]
    rfl

lemma run_act (g : Gathering κ ε) (ds : List (Deed κ)) : g.run (ds.map .act) = g.actAll ds := by
  rw [run, List.foldl_map]
  rfl

end Gathering

namespace Hub

open Gathering (heard Beside)

variable {h h' : Hub} {g g' : Gathering Nat SlotChange} {i : Nat} {l : Listener}

def run (h : Hub) (rs : List Request) : Hub :=
  rs.foldl (fun h r => (h.step r).1) h

def Matches (g : Gathering Nat SlotChange) (i : Nat) : Option Listener → Prop
  | none => heard i g.facts = [] ∧ g.channels i = .fresh
  | some (.recorder seen _) => seen = heard i g.facts
  | some (.forwarder c) => c = g.channels i

structure Mirrors (h : Hub) (g : Gathering Nat SlotChange) : Prop where
  registry : h.registry = g.registry
  listeners : ∀ i, Matches g i h.listeners[i]?
  entries : ∀ x ∈ h.registry.entries, x.2 < h.listeners.length
  members : ∀ m ∈ h.members, m.listener < h.listeners.length

lemma Matches.congr {o : Option Listener} (hm : Matches g i o)
    (hh : heard i g'.facts = heard i g.facts) (hc : g'.channels i = g.channels i) :
    Matches g' i o := by
  match o with
  | none => exact ⟨hh.trans hm.1, hc.trans hm.2⟩
  | some (.recorder seen _) => exact hm.trans hh.symm
  | some (.forwarder c) => exact hm.trans hc.symm

lemma Mirrors.replace (hm : h.Mirrors g) (hb : Beside i g g') (hr : h'.registry = h.registry)
    (hms : h'.members = h.members) (hn : h'.listeners.length = h.listeners.length)
    (hj : ∀ j, j ≠ i → h'.listeners[j]? = h.listeners[j]?) (hi : Matches g' i h'.listeners[i]?) :
    h'.Mirrors g' := by
  refine ⟨?_, fun j => ?_, ?_, ?_⟩
  · rw [hr, hb.registry, hm.registry]
  · by_cases hji : j = i
    · rwa [hji]
    · rw [hj j hji]
      exact (hm.listeners j).congr (hb.heard j hji) (hb.channel j hji)
  · rw [hr, hn]
    exact hm.entries
  · rw [hms, hn]
    exact hm.members

lemma Mirrors.addListener (hm : h.Mirrors g) (hl : Matches g h.listeners.length (some l)) :
    (h.addListener l).Mirrors g := by
  have hlen : (h.addListener l).listeners.length = h.listeners.length + 1 := by simp [Hub.addListener]
  refine ⟨hm.registry, fun i => ?_, fun x hx => ?_, ?_⟩
  · have hi := hm.listeners i
    simp only [Hub.addListener, List.getElem?_append]
    split
    · exact hi
    · rename_i hn
      rw [List.getElem?_eq_none (Nat.le_of_not_lt hn)] at hi
      by_cases he : i = h.listeners.length
      · subst he
        simpa using hl
      · have ho : [l][i - h.listeners.length]? = none :=
          List.getElem?_eq_none (by simp only [List.length_singleton]; omega)
        rwa [ho]
  · rw [hlen]
    exact Nat.lt_succ_of_lt (hm.entries x hx)
  · rw [hlen]
    simp only [Hub.addListener, List.forall_mem_append, List.forall_mem_singleton]
    exact ⟨fun m hmm => Nat.lt_succ_of_lt (hm.members m hmm), Nat.lt_succ_self _⟩

lemma Mirrors.register (hm : h.Mirrors g) {m n : Nat} (hn : n < h.listeners.length) (x : Member)
    (hx : x.listener < h.listeners.length) :
    Mirrors { h with registry := h.registry.register n, members := h.members.set m x }
      (g.act (.register n)) := by
  refine ⟨congrArg (·.register n) hm.registry, fun i => ?_, ?_, fun y hy => ?_⟩
  · refine (hm.listeners i).congr ?_ rfl
    exact (Gathering.heard_append i).trans (List.append_nil _)
  · simp only [Registry.register, List.forall_mem_append, List.forall_mem_singleton]
    exact ⟨hm.entries, hn⟩
  · obtain hy | rfl := List.mem_or_eq_of_mem_set hy
    · exact hm.members y hy
    · exact hx

lemma Mirrors.registerMember (hm : h.Mirrors g) (m : Nat) :
    ∃ ds, (h.registerMember m).Mirrors (g.actAll ds) := by
  rw [Hub.registerMember]
  split
  · rename_i x hx
    have hl := hm.members x (List.mem_of_getElem? hx)
    exact ⟨[.register x.listener], hm.register hl _ hl⟩
  · exact ⟨[], hm⟩

lemma Mirrors.withdraw (hm : h.Mirrors g) (m : Nat) :
    ∃ ds, (h.withdraw m).Mirrors (g.actAll ds) := by
  rw [Hub.withdraw]
  split
  · rename_i t ht
    refine ⟨[.withdraw t], congrArg (·.withdraw t) hm.registry, fun i => ?_, fun x hx => ?_, hm.members⟩
    · refine (hm.listeners i).congr ?_ rfl
      exact (Gathering.heard_append i).trans (List.append_nil _)
    · exact hm.entries x (List.mem_of_mem_filter hx)
  · exact ⟨[], hm⟩

lemma Mirrors.reactAll (hm : h.Mirrors g) (rs : List Reaction) :
    ∃ ds, (rs.foldl react h).Mirrors (g.actAll ds) := by
  induction rs generalizing h g with
  | nil => exact ⟨[], hm⟩
  | cons r rs ih =>
    have hh : ∃ ds, (h.react r).Mirrors (g.actAll ds) := by
      cases r with
      | withdraw m => exact hm.withdraw m
      | register m => exact hm.registerMember m
    obtain ⟨ds, hd⟩ := hh
    obtain ⟨ds', hd'⟩ := ih hd
    refine ⟨ds ++ ds', ?_⟩
    rwa [Gathering.actAll, List.foldl_append]

lemma listeners_react (h : Hub) (r : Reaction) : (h.react r).listeners = h.listeners := by
  cases r with
  | withdraw m =>
    rw [react, Hub.withdraw]
    split <;> rfl
  | register m =>
    rw [react, Hub.registerMember]
    split <;> rfl

lemma listeners_reactAll (h : Hub) (rs : List Reaction) :
    (rs.foldl react h).listeners = h.listeners := by
  induction rs generalizing h with
  | nil => rfl
  | cons r rs ih => exact (ih _).trans (listeners_react h r)

lemma beside_call (g : Gathering Nat SlotChange) (e : SlotChange) (i : Nat) :
    Beside i g (g.call e i) := by
  refine Gathering.beside_onChannel g i _ fun j hj => ?_
  simp [heard, Gathering.calls, Fact.called?, Ne.symm hj]

lemma Mirrors.call (hm : h.Mirrors g) (e : SlotChange) (hi : i < h.listeners.length) :
    (∃ ds, (Hub.call e h i).Mirrors ((g.call e i).actAll ds)) ∧
      (Hub.call e h i).listeners.length = h.listeners.length := by
  have hs := hm.listeners i
  obtain ⟨l, hl⟩ : ∃ l, h.listeners[i]? = some l := ⟨_, List.getElem?_eq_getElem hi⟩
  rw [hl] at hs
  have hset : ∀ l', Matches (g.call e i) i (some l') →
      Mirrors { h with listeners := h.listeners.set i l' } (g.call e i) := by
    intro l' hl'
    refine hm.replace (beside_call g e i) rfl rfl List.length_set (fun j hj => ?_) ?_
    · exact List.getElem?_set_ne (Ne.symm hj)
    · simpa [hi] using hl'
  rw [Hub.call, hl]
  cases l with
  | recorder seen reactions =>
    simp only
    refine ⟨(hset _ ?_).reactAll reactions, ?_⟩
    · have hc : heard i [Fact.called i e] = [e] := by simp [heard, Gathering.calls, Fact.called?]
      have hh : heard i (g.call e i).facts = heard i g.facts ++ [e] := by
        rw [← hc]
        exact Gathering.heard_append i
      exact (congrArg (· ++ [e]) hs).trans hh.symm
    · rw [listeners_reactAll]
      exact List.length_set
  | forwarder c =>
    refine ⟨⟨[], hset _ ?_⟩, List.length_set⟩
    have hs : c = g.channels i := hs
    have hh : (g.call e i).channels i = (g.channels i).forward e := Function.update_self _ _ _
    exact (congrArg (·.forward e) hs).trans hh.symm

lemma Mirrors.deliver (hm : h.Mirrors g) (e : SlotChange) {order : List Nat}
    (ho : ∀ i ∈ order, i < h.listeners.length) :
    ∃ deeds, (h.deliver e order).Mirrors (g.deliver e order deeds) := by
  induction order generalizing h g with
  | nil => exact ⟨[], hm⟩
  | cons i order ih =>
    rw [List.forall_mem_cons] at ho
    obtain ⟨⟨ds, hd⟩, hn⟩ := hm.call e ho.1
    obtain ⟨deeds, hh⟩ := ih hd (by rw [hn]; exact ho.2)
    exact ⟨ds :: deeds, hh⟩

lemma Mirrors.modify (hm : h.Mirrors g) (m : Nat) {f : Listener → Listener}
    (hf : ∀ i l, h.listener? m = some l → Matches g i (some l) →
      ∃ ms, Matches (g.run ms) i (some (f l)) ∧ Beside i g (g.run ms)) :
    ∃ ms, (h.modify m f).Mirrors (g.run ms) := by
  rw [Hub.modify]
  split
  · rename_i x hx
    have hi := hm.members x (List.mem_of_getElem? hx)
    obtain ⟨l, hl⟩ : ∃ l, h.listeners[x.listener]? = some l := ⟨_, List.getElem?_eq_getElem hi⟩
    have hs := hm.listeners x.listener
    rw [hl] at hs
    obtain ⟨ms, hfl, hb⟩ := hf x.listener l (by rw [listener?, hx]; exact hl) hs
    refine ⟨ms, hm.replace hb rfl rfl (List.length_modify _ _ _) (fun j hj => ?_) ?_⟩
    · exact List.getElem?_modify_ne _ _ (Ne.symm hj)
    · simpa [hl] using hfl
  · exact ⟨[], hm⟩

lemma Mirrors.onChannel (hm : h.Mirrors g) (m : Nat) {f : Channel SlotChange → Channel SlotChange}
    (hf : ∀ i c, h.listener? m = some (.forwarder c) → c = g.channels i →
      ∃ ms, (g.run ms).channels i = f c ∧ Beside i g (g.run ms)) :
    ∃ ms, (h.modify m (onChannel f)).Mirrors (g.run ms) := by
  refine hm.modify m fun i l hl hs => ?_
  cases l with
  | recorder seen reactions => exact ⟨[], hs, .refl i g⟩
  | forwarder c =>
    obtain ⟨ms, hc, hb⟩ := hf i c hl hs
    exact ⟨ms, hc.symm, hb⟩

lemma Mirrors.addReaction (hm : h.Mirrors g) (m : Nat) (r : Reaction) :
    ∃ ms, (h.modify m (addReaction r)).Mirrors (g.run ms) := by
  refine hm.modify m fun i l _ hs => ⟨[], ?_, .refl i g⟩
  cases l <;> exact hs

lemma Mirrors.unused (hm : h.Mirrors g) :
    heard h.listeners.length g.facts = [] ∧ g.channels h.listeners.length = .fresh := by
  have hs := hm.listeners h.listeners.length
  rwa [List.getElem?_eq_none (Nat.le_refl _)] at hs

lemma exists_run_of_actAll (hd : ∃ ds, h.Mirrors (g.actAll ds)) : ∃ ms, h.Mirrors (g.run ms) := by
  obtain ⟨ds, hd⟩ := hd
  exact ⟨ds.map .act, by rwa [Gathering.run_act]⟩

theorem Mirrors.step (hm : h.Mirrors g) (r : Request) : ∃ ms, (h.step r).1.Mirrors (g.run ms) := by
  cases r with
  | record =>
    have ha : (h.addListener (.recorder [] [])).Mirrors g := hm.addListener hm.unused.1.symm
    exact exists_run_of_actAll (ha.registerMember _)
  | channel =>
    have ha : (h.addListener (.forwarder .fresh)).Mirrors g := hm.addListener hm.unused.2.symm
    exact exists_run_of_actAll (ha.registerMember _)
  | again m =>
    rw [Hub.step]
    split
    · rename_i x hx
      have ha : (h.addMember x).Mirrors g := by
        refine ⟨hm.registry, hm.listeners, hm.entries, ?_⟩
        simp only [Hub.addMember, List.forall_mem_append, List.forall_mem_singleton]
        exact ⟨hm.members, hm.members x (List.mem_of_getElem? hx)⟩
      exact exists_run_of_actAll (ha.registerMember _)
    · exact ⟨[], hm⟩
  | withdraw m => exact exists_run_of_actAll (hm.withdraw m)
  | notify e =>
    have ho : ∀ i ∈ h.registry.listeners, i < h.listeners.length := by
      intro i hi
      obtain ⟨x, hx, rfl⟩ := List.mem_map.1 hi
      exact hm.entries x hx
    have ha : h.Mirrors (g.put (.announced e)) := by
      refine ⟨hm.registry, fun i => ?_, hm.entries, hm.members⟩
      refine (hm.listeners i).congr ?_ rfl
      exact (Gathering.heard_append i).trans (List.append_nil _)
    obtain ⟨deeds, hd⟩ := ha.deliver e ho
    refine ⟨[.notify e (.asIs Nat) deeds], ?_⟩
    rw [hm.registry] at hd
    have hn : (h.step (.notify e)).1 = h.deliver e g.registry.listeners := by
      rw [← hm.registry]
      rfl
    rw [hn]
    exact hd
  | onCallWithdraw m target => exact hm.addReaction m _
  | onCallRegister m =>
    have ha : (h.addListener (.recorder [] [])).Mirrors g := hm.addListener hm.unused.1.symm
    exact ha.addReaction m _
  | dropSender m =>
    refine hm.onChannel m fun i c _ hc => ⟨[.dropSender i], ?_, ?_⟩
    · rw [hc]
      exact Function.update_self _ _ _
    · exact Gathering.beside_onChannel g i _ fun _ _ => rfl
  | dropReceiver m =>
    refine hm.onChannel m fun i c _ hc => ⟨[.dropReceiver i], ?_, ?_⟩
    · rw [hc]
      exact Function.update_self _ _ _
    · exact Gathering.beside_onChannel g i _ fun _ _ => rfl
  | receive m =>
    rw [Hub.step]
    split
    · rename_i changes en hr
      refine hm.onChannel m fun i c hl hc => ?_
      rw [receiveFrom, hl] at hr
      have hh : c.hasReceiver = true := by
        simp only [Channel.receiveAll] at hr
        split at hr
        · assumption
        · cases hr
      rw [hc] at hh ⊢
      exact Gathering.run_drained hh
    · exact ⟨[], hm⟩

lemma mirrors_empty : empty.Mirrors .empty :=
  ⟨rfl, fun _ => ⟨rfl, rfl⟩, nofun, nofun⟩

theorem Mirrors.run (hm : h.Mirrors g) (rs : List Request) :
    ∃ ms, (h.run rs).Mirrors (g.run ms) := by
  induction rs generalizing h g with
  | nil => exact ⟨[], hm⟩
  | cons r rs ih =>
    obtain ⟨ms, hs⟩ := hm.step r
    obtain ⟨ms', hs'⟩ := ih hs
    refine ⟨ms ++ ms', ?_⟩
    rwa [Gathering.run, List.foldl_append]

end Hub

end CallWaiting.Broadcast
