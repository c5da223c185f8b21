import CallWaiting.Proofs.Broadcast.Snapshot

/-!
What arrives on a channel. While its sender and its receiver are there, it gets every event that is
announced, as often as its forwarder is registered then, and what has arrived can be received to the end.
That its forwarder is registered does not keep it open.
-/

namespace CallWaiting.Broadcast

namespace Channel

variable {α : Type} {c : Channel α}

lemma forwardAll_of_open (hs : c.hasSender = true) (hr : c.hasReceiver = true) (xs : List α) :
    c.forwardAll xs = { c with queue := c.queue ++ xs } := by
  rw [forwardAll, isOpen, hs, hr]
  rfl

lemma forwardAll_of_not_open (hn : ¬ (c.hasSender = true ∧ c.hasReceiver = true)) (xs : List α) :
    c.forwardAll xs = c := by
  rw [← Bool.and_eq_true] at hn
  exact if_neg hn

end Channel

namespace Gathering

variable {κ ε : Type} {g g' : Gathering κ ε} {j k : κ} {fs : List (Fact κ ε)}

def Alive (k : κ) (past : List (Fact κ ε)) : Prop :=
  .senderLost k ∉ past ∧ .receiverLost k ∉ past

lemma alive_iff (hs : (g.channels k).hasSender = true ↔ .senderLost k ∉ g.facts)
    (hr : (g.channels k).hasReceiver = true ↔ .receiverLost k ∉ g.facts) : Alive k g.facts ↔
      (g.channels k).hasSender = true ∧ (g.channels k).hasReceiver = true := by
  rw [Alive, hs, hr]

variable [DecidableEq κ]

lemma registrations_le {p : List (Fact κ ε)} (hp : p <+: fs) (k : κ) :
    registrations k p ≤ ((issued fs).map (·.2)).count k := by
  obtain ⟨q, rfl⟩ := hp
  rw [issued_append]
  have hs : (standing p).Sublist (issued p ++ issued q) :=
    (standing_sublist p).trans (List.sublist_append_left _ _)
  exact (hs.map _).count_le k

structure LeavesAlone (k : κ) (fs : List (Fact κ ε)) : Prop where
  announced : ∀ f ∈ fs, f.announced? = none
  taken : taken k fs = []
  sender : .senderLost k ∉ fs
  receiver : .receiverLost k ∉ fs

lemma leavesAlone_inner (hi : ∀ f ∈ fs, f.IsInner) (k : κ) : LeavesAlone k fs := by
  refine ⟨fun f hf => ?_, taken_inner k hi, fun hf => hi _ hf, fun hf => hi _ hf⟩
  exact (hi f hf).announced

variable [DecidableEq ε]

instance (k : κ) (past : List (Fact κ ε)) : Decidable (Alive k past) :=
  inferInstanceAs (Decidable (_ ∧ _))

/-- Every event that was announced while both ends of the channel were there, as often as its forwarder
was registered then. -/
def due (k : κ) (fs : List (Fact κ ε)) : List ε :=
  told (fun past => if Alive k past then registrations k past else 0) [] fs

def notified (k : κ) (fs : List (Fact κ ε)) : List ε :=
  told (fun past => if 0 < registrations k past ∧ Alive k past then 1 else 0) [] fs

structure Delivers (k : κ) (g : Gathering κ ε) : Prop where
  sender : (g.channels k).hasSender = true ↔ .senderLost k ∉ g.facts
  receiver : (g.channels k).hasReceiver = true ↔ .receiverLost k ∉ g.facts
  queued : (g.channels k).hasReceiver = true →
    taken k g.facts ++ (g.channels k).queue = due k g.facts
  ordered : taken k g.facts <+: due k g.facts

lemma due_of_unannounced (ha : ∀ f ∈ fs, f.announced? = none) (k : κ) (past : List (Fact κ ε)) :
    due k (past ++ fs) = due k past := by
  rw [due, told_append, told_unannounced _ _ ha, List.append_nil, ← due]

lemma Delivers.steady (h : g.Delivers k) (ht : taken k g'.facts = taken k g.facts)
    (hd : due k g'.facts = due k g.facts)
    (hs : (g'.channels k).hasSender = true ↔ .senderLost k ∉ g'.facts)
    (hr : (g'.channels k).hasReceiver = true ↔ .receiverLost k ∉ g'.facts)
    (hq : (g'.channels k).hasReceiver = true →
      (g.channels k).hasReceiver = true ∧ (g'.channels k).queue = (g.channels k).queue) :
    g'.Delivers k := by
  refine ⟨hs, hr, fun hr' => ?_, ?_⟩
  · obtain ⟨hr, hq⟩ := hq hr'
    rw [ht, hd, hq]
    exact h.queued hr
  · rw [ht, hd]
    exact h.ordered

lemma Delivers.quiet (h : g.Delivers k) (hf : g'.facts = g.facts ++ fs)
    (ha : ∀ f ∈ fs, f.announced? = none) (ht : taken k fs = [])
    (hs : (g'.channels k).hasSender = true ↔
      (g.channels k).hasSender = true ∧ .senderLost k ∉ fs)
    (hr : (g'.channels k).hasReceiver = true ↔
      (g.channels k).hasReceiver = true ∧ .receiverLost k ∉ fs)
    (hq : (g'.channels k).hasReceiver = true → (g'.channels k).queue = (g.channels k).queue) :
    g'.Delivers k := by
  refine h.steady ?_ ?_ ?_ ?_ fun hr' => ⟨(hr.1 hr').1, hq hr'⟩
  · rw [hf, taken_append, ht, List.append_nil]
  · rw [hf, due_of_unannounced ha]
  · rw [hs, h.sender, hf, List.mem_append, not_or]
  · rw [hr, h.receiver, hf, List.mem_append, not_or]

lemma Delivers.leftAlone (h : g.Delivers k) (hc : g'.channels k = g.channels k)
    (hf : g'.facts = g.facts ++ fs) (hs : LeavesAlone k fs) : g'.Delivers k := by
  refine h.quiet hf hs.announced hs.taken ?_ ?_ fun _ => by rw [hc]
  · rw [hc, and_iff_left hs.sender]
  · rw [hc, and_iff_left hs.receiver]

lemma Delivers.notify (h : g.Delivers k) (hg : g.Kept) (e : ε) (v : Order κ)
    (deeds : List (List (Deed κ))) : (g.notify e v deeds).Delivers k := by
  obtain ⟨fs, hf, -, hi⟩ := notify_facts g e v deeds
  have hs := leavesAlone_inner hi k
  have hc := channels_notify g e v deeds k
  rw [hg.registrations] at hc
  have ht : taken k (g.notify e v deeds).facts = taken k g.facts := by
    have hn : taken k (.announced e :: fs) = taken k fs := rfl
    rw [hf, taken_append, hn, hs.taken, List.append_nil]
  have hd : due k (g.notify e v deeds).facts = due k g.facts ++
      List.replicate (if Alive k g.facts then registrations k g.facts else 0) e := by
    rw [hf, due, told_notice _ e hi, ← due]
  have hsl : .senderLost k ∈ (g.notify e v deeds).facts ↔ .senderLost k ∈ g.facts := by
    simp [hf, hs.sender]
  have hrl : .receiverLost k ∈ (g.notify e v deeds).facts ↔ .receiverLost k ∈ g.facts := by
    simp [hf, hs.receiver]
  by_cases ha : Alive k g.facts
  · obtain ⟨ho₁, ho₂⟩ := (alive_iff h.sender h.receiver).1 ha
    rw [Channel.forwardAll_of_open ho₁ ho₂] at hc
    rw [if_pos ha] at hd
    refine ⟨?_, ?_, fun hr => ?_, ?_⟩
    · rw [hc, hsl, h.sender]
    · rw [hc, hrl, h.receiver]
    · rw [hc, ht, hd, ← h.queued ho₂, List.append_assoc]
    · rw [ht, hd]
      exact h.ordered.trans (List.prefix_append _ _)
  · rw [Channel.forwardAll_of_not_open fun ho => ha ((alive_iff h.sender h.receiver).2 ho)] at hc
    rw [if_neg ha, List.replicate_zero, List.append_nil] at hd
    refine h.steady ht hd ?_ ?_ fun hr => ?_
    · rw [hc, hsl, h.sender]
    · rw [hc, hrl, h.receiver]
    · rw [hc] at hr ⊢
      exact ⟨hr, rfl⟩

def next (expected : List ε) (k : κ) (fs : List (Fact κ ε)) : Channel.Received ε :=
  match expected[(taken k fs).length]? with
  | some e => .event e
  | none => .ended (if .senderLost k ∈ fs then .disconnected else .empty)

lemma Delivers.atEnd (h : g.Delivers k) : (g.channels k).atEnd =
    if .senderLost k ∈ g.facts then .disconnected else .empty := by
  by_cases hs : .senderLost k ∈ g.facts
  · rw [Channel.atEnd, if_neg fun hh => h.sender.1 hh hs, if_pos hs]
  · rw [Channel.atEnd, if_pos (h.sender.2 hs), if_neg hs]

lemma Delivers.receive_facts (h : g.Delivers k) (hr : (g.channels k).hasReceiver = true) :
    (g.receive k).facts = g.facts ++ [.received k (next (due k g.facts) k g.facts)] := by
  have hq := h.queued hr
  cases hx : (g.channels k).queue with
  | nil =>
    have hn : next (due k g.facts) k g.facts = .ended (g.channels k).atEnd := by
      rw [hx, List.append_nil] at hq
      rw [next, ← hq, List.getElem?_eq_none (Nat.le_refl _), h.atEnd]
    rw [receive_nil hr hx, hn]
    rfl
  | cons x xs =>
    have hn : next (due k g.facts) k g.facts = .event x := by
      rw [next, ← hq, hx, List.getElem?_append_right (Nat.le_refl _), Nat.sub_self]
      rfl
    rw [receive_cons hr hx, hn]
    rfl

lemma Delivers.receive (h : g.Delivers k) : (g.receive k).Delivers k := by
  by_cases hr : (g.channels k).hasReceiver = true
  · cases hx : (g.channels k).queue with
    | nil =>
      rw [receive_nil hr hx]
      refine h.leftAlone (Function.update_self _ _ _) rfl ⟨?_, rfl, ?_, ?_⟩
      · exact List.forall_mem_singleton.2 rfl
      · simp
      · simp
    | cons x xs =>
      -- the head of the queue goes to what was received
      have hc : (g.receive k).channels k = { g.channels k with queue := xs } := by
        rw [receive_cons hr hx]
        exact Function.update_self _ _ _
      have hf : (g.receive k).facts = g.facts ++ [.received k (.event x)] := by
        rw [receive_cons hr hx]
        rfl
      have ht : taken k (g.receive k).facts = taken k g.facts ++ [x] := by
        rw [hf, taken_append]
        simp [taken, Fact.taken?]
      have hd : due k (g.receive k).facts = due k g.facts := by
        rw [hf, due_of_unannounced (List.forall_mem_singleton.2 rfl)]
      have hq : taken k (g.receive k).facts ++ xs = due k (g.receive k).facts := by
        rw [ht, hd, ← h.queued hr, hx, List.append_assoc, List.singleton_append]
      refine ⟨?_, ?_, fun _ => ?_, ?_⟩
      · rw [hc, h.sender, hf]
        simp
      · rw [hc, h.receiver, hf]
        simp
      · rw [hc]
        exact hq
      · rw [← hq]
        exact List.prefix_append _ _
  · rwa [receive_of_no_receiver hr]

lemma Delivers.receive_ne (h : g.Delivers k) (hj : j ≠ k) : (g.receive j).Delivers k := by
  rw [Gathering.receive]
  split
  · rename_i c x _
    refine h.leftAlone (Function.update_of_ne (Ne.symm hj) _ _) rfl ⟨?_, ?_, ?_, ?_⟩
    · exact List.forall_mem_singleton.2 rfl
    · cases x with
      | event e => simp [taken, Fact.taken?, hj]
      | ended en => rfl
    · simp
    · simp
  · exact h

lemma Delivers.drop (h : g.Delivers k) (j : κ) {f : Channel ε → Channel ε} {x : Fact κ ε}
    (hx : f = .dropSender ∧ x = .senderLost j ∨ f = .dropReceiver ∧ x = .receiverLost j) :
    ((g.onChannel j f).put x).Delivers k := by
  by_cases hj : j = k
  · subst hj
    have hc : ((g.onChannel j f).put x).channels j = f (g.channels j) := Function.update_self _ _ _
    obtain ⟨rfl, rfl⟩ | ⟨rfl, rfl⟩ := hx
    all_goals
      refine h.quiet rfl (List.forall_mem_singleton.2 rfl) rfl ?_ ?_ ?_
      all_goals
        rw [hc]
        simp [Channel.dropSender, Channel.dropReceiver]
  · refine h.leftAlone (Function.update_of_ne (Ne.symm hj) _ _) rfl ?_
    obtain ⟨rfl, rfl⟩ | ⟨rfl, rfl⟩ := hx
    all_goals exact ⟨List.forall_mem_singleton.2 rfl, rfl, by simp [Ne.symm hj], by simp [Ne.symm hj]⟩

theorem Delivers.step (h : g.Delivers k) (hg : g.Kept) (m : Move κ ε) : (g.step m).Delivers k := by
  cases m with
  | act d =>
    obtain ⟨fs, hf, -, hi⟩ := actAll_facts g [d]
    exact h.leftAlone (congrFun (channels_actAll g [d]) k) hf (leavesAlone_inner hi k)
  | notify e v deeds => exact h.notify hg e v deeds
  | receive j =>
    by_cases hj : j = k
    · exact hj ▸ (hj ▸ h : g.Delivers j).receive
    · exact h.receive_ne hj
  | dropSender j => exact h.drop j (.inl ⟨rfl, rfl⟩)
  | dropReceiver j => exact h.drop j (.inr ⟨rfl, rfl⟩)

theorem Delivers.run (h : g.Delivers k) (hg : g.Kept) (ms : List (Move κ ε)) :
    (g.run ms).Delivers k := by
  induction ms generalizing g with
  | nil => exact h
  | cons m ms ih => exact ih (h.step hg m) (hg.step m)

lemma delivers_empty (k : κ) : (empty : Gathering κ ε).Delivers k :=
  ⟨by simp [empty, Channel.fresh], by simp [empty, Channel.fresh], fun _ => rfl, List.nil_prefix⟩

lemma due_eq_notified (hk : ((issued fs).map (·.2)).count k ≤ 1) : due k fs = notified k fs := by
  refine told_congr fun p hp => ?_
  have hr := Nat.le_trans (registrations_le hp k) hk
  rw [List.nil_append]
  by_cases ha : Alive k p
  · simp only [ha, if_true, and_true]
    split <;> omega
  · simp only [ha, if_false, and_false]

structure Forwards (k : κ) (g : Gathering κ ε) : Prop where
  ordered : taken k g.facts <+: notified k g.facts
  pending : (g.channels k).receiveAll = if .receiverLost k ∈ g.facts then none else
    some ((notified k g.facts).drop (taken k g.facts).length,
      if .senderLost k ∈ g.facts then .disconnected else .empty)
  received : (g.receive k).facts = if .receiverLost k ∈ g.facts then g.facts else
    g.facts ++ [.received k (next (notified k g.facts) k g.facts)]
  notify : ∀ e v deeds, (∃ fs, (g.notify e v deeds).facts = g.facts ++ .announced e :: fs ∧
      (calls fs).Perm ((standing g.facts).map fun x => (x.2, e))) ∧
    ∀ j, (g.notify e v deeds).channels j =
      (g.channels j).forwardAll (List.replicate (registrations j g.facts) e)

lemma Delivers.forwards (h : g.Delivers k) (hg : g.Kept)
    (hk : ((issued g.facts).map (·.2)).count k ≤ 1) : g.Forwards k := by
  have hn := due_eq_notified hk
  refine ⟨hn ▸ h.ordered, ?_, ?_, fun e v deeds => ⟨?_, fun j => ?_⟩⟩
  · rw [Channel.receiveAll]
    by_cases hr : .receiverLost k ∈ g.facts
    · rw [if_pos hr, if_neg fun hh => h.receiver.1 hh hr]
    · have hh := h.receiver.2 hr
      rw [if_neg hr, if_pos hh, h.atEnd, ← hn, ← h.queued hh, List.drop_left]
  · by_cases hr : .receiverLost k ∈ g.facts
    · rw [if_pos hr, receive_of_no_receiver fun hh => h.receiver.1 hh hr]
    · rw [if_neg hr, h.receive_facts (h.receiver.2 hr), hn]
  · obtain ⟨fs, hf, hc, -⟩ := notify_facts g e v deeds
    exact ⟨fs, hf, hc ▸ hg.calls_perm v e⟩
  · rw [channels_notify, hg.registrations]

/-- A forwarder that is registered once hands on, in order, the events that are announced while it is
registered and both ends of its channel are there. Behind them a receiver finds the end just if the
sender is gone. What is asked of a hub comes to such moves. -/
theorem forwards_run (k : κ) :
    (∀ ms : List (Move κ ε), ((issued ((empty : Gathering κ ε).run ms).facts).map (·.2)).count k ≤ 1 →
      ((empty : Gathering κ ε).run ms).Forwards k) ∧
    ∀ rs, ∃ ms, (Hub.empty.run rs).Mirrors (Gathering.empty.run ms) := by
  refine ⟨fun ms hk => ?_, fun rs => Hub.mirrors_empty.run rs⟩
  exact ((delivers_empty k).run kept_empty ms).forwards (kept_empty.run ms) hk

theorem forwards_run_withdrawn :
    let ms : List (Move Nat Nat) := [.act (.register 0), .act (.register 1), .notify 7 (.asIs Nat) [],
      .receive 0, .notify 8 (.asIs Nat) [[.withdraw 0]], .notify 9 (.asIs Nat) [], .dropSender 0,
      .receive 0, .receive 0, .receive 1]
    let g := (empty : Gathering Nat Nat).run ms
    taken 0 g.facts = [7, 8] ∧ taken 1 g.facts = [7] ∧
      .received 0 (.ended .disconnected) ∈ g.facts ∧ g.Forwards 0 := by
  intro ms g
  exact ⟨by decide, by decide, by decide, (forwards_run 0).1 ms (by decide)⟩

end Gathering

end CallWaiting.Broadcast
