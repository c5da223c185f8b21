import Mathlib.Data.List.Nodup
import CallWaiting.Proofs.Broadcast.Mirror

/-!
An event goes to the registrations that were there when it was announced. So a listener hears it as many
times as it was registered then, in whichever order the registrations are visited and whatever is
registered and withdrawn meanwhile. Every ticket is withdrawn at most once.
-/

namespace CallWaiting.Broadcast

lemma Registry.holds_iff {κ : Type} {r : Registry κ} {t : Ticket} :
    r.holds t = true ↔ t ∈ r.entries.map (·.1) := by
  simp [holds]

namespace Gathering

variable {κ ε : Type} {g : Gathering κ ε} {r : Registry κ} {f : Fact κ ε} {t : Ticket}
  {fs : List (Fact κ ε)}

def Honest (past : List (Fact κ ε)) : Fact κ ε → Prop
  | .withdrawn t was => was = true ↔ t ∈ (standing past).map (·.1)
  | _ => True

lemma standing_sublist (fs : List (Fact κ ε)) : (standing fs).Sublist (issued fs) :=
  List.filter_sublist

lemma standing_issued (ht : t ∉ removed fs) (k : κ) :
    standing (fs ++ [.issued t k]) = standing fs ++ [(t, k)] := by
  have hr : removed (fs ++ [.issued t k]) = removed fs := by
    rw [removed_append]
    exact List.append_nil _
  have hi : issued (fs ++ [.issued t k]) = issued fs ++ [(t, k)] := issued_append _ _
  rw [standing, hi, hr, List.filter_append, standing]
  simp [ht]

lemma standing_withdrawn (fs : List (Fact κ ε)) (t : Ticket) :
    standing (fs ++ [.withdrawn t true]) = (standing fs).filter (·.1 ≠ t) := by
  have hr : removed (fs ++ [.withdrawn t true]) = removed fs ++ [t] := removed_append _ _
  have hi : issued (fs ++ [.withdrawn t true]) = issued fs := by
    rw [issued_append]
    exact List.append_nil _
  rw [standing, hi, hr, standing, List.filter_filter]
  congr
  funext x
  simp [not_or, and_comm]

structure Agrees (r : Registry κ) (fs : List (Fact κ ε)) : Prop where
  next : r.next = (issued fs).length
  entries : r.entries = standing fs
  tickets : (issued fs).map (·.1) = List.range (issued fs).length
  once : (removed fs).Nodup
  made : ∀ t ∈ removed fs, t ∈ (issued fs).map (·.1)
  honest : Throughout Honest [] fs

lemma Agrees.silent (h : Agrees r fs) (hi : f.issued? = none) (hr : f.removed? = none)
    (hh : Honest fs f) : Agrees r (fs ++ [f]) := by
  have hi' : issued (fs ++ [f]) = issued fs := by
    rw [issued_append, issued, issued, List.filterMap_cons, hi]
    exact List.append_nil _
  have hr' : removed (fs ++ [f]) = removed fs := by
    rw [removed_append, removed, removed, List.filterMap_cons, hr]
    exact List.append_nil _
  have hs : standing (fs ++ [f]) = standing fs := by rw [standing, standing, hi', hr']
  refine ⟨?_, ?_, ?_, ?_, ?_, throughout_append.2 ⟨h.honest, hh, trivial⟩⟩
  · rw [hi', h.next]
  · rw [hs, h.entries]
  · rw [hi', h.tickets]
  · rw [hr']
    exact h.once
  · rw [hi', hr']
    exact h.made

lemma Agrees.next_not_mem (h : Agrees r fs) : r.next ∉ (issued fs).map (·.1) := by
  rw [h.tickets, h.next, List.mem_range]
  exact Nat.lt_irrefl _

lemma Agrees.register (h : Agrees r fs) (k : κ) :
    Agrees (r.register k) (fs ++ [.issued r.next k]) := by
  have hi : issued (fs ++ [.issued r.next k]) = issued fs ++ [(r.next, k)] := issued_append _ _
  have hr : removed (fs ++ [.issued r.next k]) = removed fs := by
    rw [removed_append]
    exact List.append_nil _
  have hn : r.next ∉ removed fs := fun hm => h.next_not_mem (h.made _ hm)
  refine ⟨?_, ?_, ?_, ?_, ?_, throughout_append.2 ⟨h.honest, trivial, trivial⟩⟩
  · rw [hi, Registry.register, h.next, List.length_append, List.length_singleton]
  · rw [standing_issued hn, Registry.register, h.entries]
  · rw [hi, List.map_append, h.tickets, List.length_append, List.length_singleton, List.range_succ,
      ← h.next, List.map_singleton]
  · rw [hr]
    exact h.once
  · intro t ht
    rw [hr] at ht
    rw [hi, List.map_append]
    exact List.mem_append_left _ (h.made t ht)

lemma Agrees.holds_iff (h : Agrees r fs) : r.holds t = true ↔ t ∈ (standing fs).map (·.1) := by
  rw [Registry.holds_iff, h.entries]

lemma Agrees.withdraw (h : Agrees r fs) (t : Ticket) :
    Agrees (r.withdraw t) (fs ++ [.withdrawn t (r.holds t)]) := by
  have hh : Honest fs (.withdrawn t (r.holds t)) := h.holds_iff
  by_cases hm : t ∈ (standing fs).map (·.1)
  · -- the ticket goes, for the first time
    have hw : r.holds t = true := h.holds_iff.2 hm
    rw [hw] at hh ⊢
    have hi : issued (fs ++ [.withdrawn t true]) = issued fs := by
      rw [issued_append]
      exact List.append_nil _
    have hr : removed (fs ++ [.withdrawn t true]) = removed fs ++ [t] := removed_append _ _
    have ht : t ∉ removed fs := by
      obtain ⟨x, hx, rfl⟩ := List.mem_map.1 hm
      exact of_decide_eq_true (List.mem_filter.1 hx).2
    refine ⟨?_, ?_, ?_, ?_, ?_, throughout_append.2 ⟨h.honest, hh, trivial⟩⟩
    · rw [hi]
      exact h.next
    · rw [standing_withdrawn, Registry.withdraw, h.entries]
    · rw [hi, h.tickets]
    · rw [hr, ← List.concat_eq_append]
      exact List.Nodup.concat ht h.once
    · rw [hi, hr, List.forall_mem_append, List.forall_mem_singleton]
      exact ⟨h.made, ((standing_sublist _).map _).subset hm⟩
  · -- there is no such registration, and none goes
    have hw : r.holds t = false := by
      rwa [← Bool.not_eq_true, h.holds_iff]
    have hr : r.withdraw t = r := by
      have he : r.entries.filter (·.1 ≠ t) = r.entries := by
        rw [List.filter_eq_self, h.entries]
        intro x hx
        refine decide_eq_true fun hxt => hm ?_
        exact List.mem_map.2 ⟨x, hx, hxt⟩
      rw [Registry.withdraw, he]
    rw [hw] at hh ⊢
    rw [hr]
    exact h.silent rfl rfl hh

def Kept (g : Gathering κ ε) : Prop := Agrees g.registry g.facts

lemma Kept.put (h : g.Kept) (hi : f.issued? = none) (hr : f.removed? = none)
    (hh : Honest g.facts f) : (g.put f).Kept := h.silent hi hr hh

lemma Kept.act (h : g.Kept) (d : Deed κ) : (g.act d).Kept := by
  cases d with
  | register k => exact Agrees.register h k
  | withdraw t => exact Agrees.withdraw h t

lemma Kept.actAll (h : g.Kept) (ds : List (Deed κ)) : (g.actAll ds).Kept := by
  induction ds generalizing g with
  | nil => exact h
  | cons d ds ih => exact ih (h.act d)

lemma kept_empty : (empty : Gathering κ ε).Kept :=
  ⟨rfl, rfl, rfl, List.nodup_nil, nofun, trivial⟩

lemma Kept.tickets_nodup (h : g.Kept) : ((issued g.facts).map (·.1)).Nodup := by
  rw [h.tickets]
  exact List.nodup_range

lemma Kept.mem_removed (h : g.Kept) (t : Ticket) : t ∈ removed g.facts ↔
    t ∈ (issued g.facts).map (·.1) ∧ t ∉ (standing g.facts).map (·.1) := by
  constructor
  · intro ht
    refine ⟨h.made t ht, fun hm => ?_⟩
    obtain ⟨x, hx, rfl⟩ := List.mem_map.1 hm
    exact of_decide_eq_true (List.mem_filter.1 hx).2 ht
  · rintro ⟨hi, hs⟩
    obtain ⟨x, hx, rfl⟩ := List.mem_map.1 hi
    by_contra hn
    exact hs (List.mem_map.2 ⟨x, List.mem_filter.2 ⟨hx, decide_eq_true hn⟩, rfl⟩)

lemma Kept.count (h : g.Kept) :
    g.registry.count + (removed g.facts).length = (issued g.facts).length := by
  have hp : (((issued g.facts).filter (·.1 ∈ removed g.facts)).map (·.1)).Perm
      (removed g.facts) := by
    refine (List.perm_ext_iff_of_nodup ?_ h.once).2 fun t => ?_
    · exact (List.filter_sublist.map _).nodup h.tickets_nodup
    · simp only [List.mem_map, List.mem_filter, decide_eq_true_eq]
      constructor
      · rintro ⟨x, ⟨-, hx⟩, rfl⟩
        exact hx
      · intro ht
        obtain ⟨x, hx, rfl⟩ := List.mem_map.1 (h.made t ht)
        exact ⟨x, ⟨hx, ht⟩, rfl⟩
  have hl := hp.length_eq
  rw [List.length_map] at hl
  rw [Registry.count, h.entries, ← hl, Nat.add_comm, standing]
  have he := List.length_eq_length_filter_add (l := issued g.facts) (·.1 ∈ removed g.facts)
  simpa using he.symm

lemma Kept.calls_perm (h : g.Kept) (v : Order κ) (e : ε) :
    ((v.of g.registry.listeners).map (·, e)).Perm ((standing g.facts).map fun x => (x.2, e)) := by
  have hl : (standing g.facts).map (fun x => (x.2, e)) = g.registry.listeners.map (·, e) := by
    rw [Registry.listeners, h.entries, List.map_map]
    rfl
  rw [hl]
  exact (v.perm _).map _

variable [DecidableEq κ]

lemma Kept.onChannel (h : g.Kept) (k : κ) (c : Channel ε → Channel ε) : (g.onChannel k c).Kept := h

lemma Kept.deliver (h : g.Kept) (e : ε) (ks : List κ) (deeds : List (List (Deed κ))) :
    (g.deliver e ks deeds).Kept := by
  induction ks generalizing g deeds with
  | nil => exact h
  | cons k ks ih =>
    have hc : (g.call e k).Kept := (h.onChannel k _).put rfl rfl trivial
    exact ih (hc.actAll _) _

theorem Kept.step (h : g.Kept) (m : Move κ ε) : (g.step m).Kept := by
  cases m with
  | act d => exact h.act d
  | notify e v deeds =>
    have ha : (g.put (.announced e)).Kept := h.put rfl rfl trivial
    exact ha.deliver e _ deeds
  | receive k =>
    rw [Gathering.step, receive]
    split
    · exact (h.onChannel k _).put rfl rfl trivial
    · exact h
  | dropSender k | dropReceiver k => exact (h.onChannel k _).put rfl rfl trivial

theorem Kept.run (h : g.Kept) (ms : List (Move κ ε)) : (g.run ms).Kept := by
  induction ms generalizing g with
  | nil => exact h
  | cons m ms ih => exact ih (h.step m)

lemma Kept.registrations (h : g.Kept) (k : κ) :
    g.registry.listeners.count k = registrations k g.facts := by
  rw [Registry.listeners, h.entries, Gathering.registrations]

lemma heard_calls {ks : List κ} {e : ε} (hc : calls fs = ks.map (·, e)) (k : κ) :
    heard k fs = List.replicate (ks.count k) e := by
  rw [heard, hc]
  clear hc
  induction ks with
  | nil => rfl
  | cons j ks ih =>
    by_cases hj : j = k
    · subst hj
      simp [ih, List.replicate_succ]
    · simp [hj, ih]

def Hears (k : κ) (g : Gathering κ ε) : Prop :=
  heard k g.facts = told (Gathering.registrations k) [] g.facts

lemma Hears.quiet {k : κ} {g' : Gathering κ ε} (hh : g.Hears k) (hf : g'.facts = g.facts ++ fs)
    (hc : calls fs = []) (ha : ∀ f ∈ fs, f.announced? = none) : g'.Hears k := by
  have hq : heard k fs = [] := by
    rw [heard, hc]
    rfl
  rw [Hears] at hh ⊢
  rw [hf, heard_append, told_append, told_unannounced _ _ ha, hq, hh]

theorem Hears.step {k : κ} (hh : g.Hears k) (hg : g.Kept) (m : Move κ ε) : (g.step m).Hears k := by
  cases m with
  | act d => cases d <;> exact hh.quiet rfl rfl (List.forall_mem_singleton.2 rfl)
  | notify e v deeds =>
    obtain ⟨fs, hf, hc, hi⟩ := notify_facts g e v deeds
    rw [Hears] at hh ⊢
    have hn : heard k (.announced e :: fs) = heard k fs := rfl
    rw [Gathering.step, hf, heard_append, told_notice _ e hi, hn, heard_calls hc, hh,
      (v.perm _).count_eq, hg.registrations]
  | receive k =>
    rw [Gathering.step, receive]
    split
    · exact hh.quiet rfl rfl (List.forall_mem_singleton.2 rfl)
    · exact hh
  | dropSender k | dropReceiver k => exact hh.quiet rfl rfl (List.forall_mem_singleton.2 rfl)

theorem Hears.run {k : κ} (hh : g.Hears k) (hg : g.Kept) (ms : List (Move κ ε)) :
    (g.run ms).Hears k := by
  induction ms generalizing g with
  | nil => exact hh
  | cons m ms ih => exact ih (hh.step hg m) (hg.step m)

structure FansOut (g : Gathering κ ε) : Prop where
  entries : g.registry.entries = standing g.facts
  snapshot : ∀ e v deeds, ∃ fs, (g.notify e v deeds).facts = g.facts ++ .announced e :: fs ∧
    (∀ f ∈ fs, f.IsInner) ∧ (calls fs).Perm ((standing g.facts).map fun x => (x.2, e))
  heard : ∀ k, heard k g.facts = told (Gathering.registrations k) [] g.facts
  tickets : (issued g.facts).map (·.1) = List.range (issued g.facts).length
  honest : Throughout Honest [] g.facts
  removed : ∀ t, (removed g.facts).count t =
    if t ∈ (issued g.facts).map (·.1) ∧ t ∉ (standing g.facts).map (·.1) then 1 else 0
  count : g.registry.count + (Gathering.removed g.facts).length = (issued g.facts).length

lemma Kept.fansOut (h : g.Kept) (hh : ∀ k, g.Hears k) : g.FansOut where
  entries := h.entries
  snapshot e v deeds := by
    obtain ⟨fs, hf, hc, hi⟩ := notify_facts g e v deeds
    exact ⟨fs, hf, hi, hc ▸ h.calls_perm v e⟩
  heard := hh
  tickets := h.tickets
  honest := h.honest
  removed t := by
    rw [List.Nodup.count h.once]
    simp only [h.mem_removed]
  count := h.count

/-- Whatever is registered, withdrawn and announced, from inside a call or from outside, and in whichever
order the registrations are visited, they and the events go together. What is asked of a hub comes to
such moves. -/
theorem fans_out : (∀ ms : List (Move κ ε), ((empty : Gathering κ ε).run ms).FansOut) ∧
    ∀ rs, ∃ ms, (Hub.empty.run rs).Mirrors (Gathering.empty.run ms) := by
  refine ⟨fun ms => ?_, fun rs => Hub.mirrors_empty.run rs⟩
  refine (kept_empty.run ms).fansOut fun k => ?_
  have hh : (empty : Gathering κ ε).Hears k := rfl
  exact hh.run kept_empty ms

end Gathering

end CallWaiting.Broadcast
