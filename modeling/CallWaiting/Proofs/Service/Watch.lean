import CallWaiting.Proofs.Controller.UpToDate
import CallWaiting.Proofs.Handset.Outcome
import CallWaiting.Proofs.Service.Closeup
import CallWaiting.Proofs.Service.Order

namespace CallWaiting

open Broadcast (Registry Ticket)
open Controller (Operation Stage Sight)
open Handset.Direct (AllStored)

structure Controller.Listed (c : Controller) (i : Nat) (r : Registry Nat) : Prop where
  silent : c.supported = false → c.listener = none
  listens : c.supported = true → ∃ n, c.listener = some n ∧ (n, i) ∈ r.entries

def Command.IsUpdate : Command → Prop
  | .perform op => op.IsUpdate
  | .shutdown => False

instance : (k : Command) → Decidable k.IsUpdate
  | .perform op => inferInstanceAs (Decidable op.IsUpdate)
  | .shutdown => inferInstanceAs (Decidable False)

def Service.commands (s : Service) : List Command :=
  s.queue.map (·.command)

lemma Service.commands_act (s : Service) (a : Service.Act) :
    (s.act a).commands = s.commands ++ ((s.entered? a).map (·.command)).toList := by
  by_cases ha : ∀ n, a ≠ .abandon n
  · rw [commands, s.act_queue ha, List.map_append]
    cases s.entered? a <;> rfl
  · obtain ⟨n, rfl⟩ := not_forall_not.1 ha
    have hf : ∀ e : Entry, (e.forget n).command = e.command := by
      intro e
      rw [Entry.forget]
      split <;> rfl
    simp [commands, act, entered?, Function.comp_def, hf]

namespace Closeup

variable {x : Closeup} {i : Nat} {group : String} {m : Traffic.Move} {o : Bool} {s s' : Service}
  {c : Controller} {p p' : Phone} {slot : PhoneId}

def stage (x : Closeup) : Stage :=
  (x.task.map (·.stage)).getD .finished

def outlook (h : Handset) (i : Nat) : Option (PhoneId × SubscriptionId × Option Bundle) :=
  h.phones[i]?.map fun p => (p.id, p.subscription, h.bundles.get? p.subscription)

def turnsOn (x : Closeup) (i : Nat) : Bool :=
  match x.task, x.traffic.services[i]? with
  | none, some s =>
    match s.controller, s.queue with
    | some c, ⟨.perform (.setSupported true), _⟩ :: _ => !c.supported
    | _, _ => false
  | _, _ => false

def announces (x : Closeup) (i : Nat) (slot : PhoneId) : Bool :=
  slot.isValid && decide (x.traffic.handset.phones[i]?.map (·.id) = some slot)

/-- Whether an announcement is owed after a move, if it was owed before or not: what the controller
would find has changed since support was turned on, and its slot has not been announced since. -/
def owes (i : Nat) (x : Closeup) (m : Traffic.Move) (o : Bool) : Bool :=
  if outlook (x.move i m).1.traffic.handset i ≠ outlook x.traffic.handset i then true
  else match m with
    | .announce slot => if x.announces i slot then false else o
    | .work j => if j = i ∧ x.turnsOn i then false else o
    | .change _ | .act _ _ => o

def Pending (t : Traffic) (i : Nat) (s : Service) (slot : PhoneId) : Prop :=
  slot.isValid = true ∧ ((i, slot) ∈ t.airborne ∨ .perform (.hear slot) ∈ s.commands)

def sight (x : Closeup) (p : Phone) (c : Controller) : Sight :=
  (x.traffic.handset.surroundings p).sight c

structure Engaged (i : Nat) (group : String) (x : Closeup) (o : Bool) (s : Service) (c : Controller)
    (p : Phone) : Prop where
  running : s.isRunning = true
  group : c.group = group
  listed : c.Listed i x.traffic.handset.registry
  loading : x.stage.isLoading = true → c.supported = true
  fresh : c.supported = true →
    o = true ∨ Pending x.traffic i s p.id ∨ c.OnCourse (x.sight p c) x.stage

structure Watched (i : Nat) (group : String) (x : Closeup) (o : Bool) : Prop where
  ordered : x.traffic.Ordered
  plain : ∀ s ∈ x.traffic.services[i]?, ∀ k ∈ s.commands, ¬ k.IsUpdate
  engaged : ∀ s c p, x.traffic.services[i]? = some s → s.controller = some c →
    x.traffic.handset.phones[i]? = some p → Engaged i group x o s c p

/-- What a run allows for: the service has a sender, every batch is stored, nobody else writes the
state of the subscription or strikes out registrations, and no bundle is applied by command. -/
structure Calm (i : Nat) (group : String) (x : Closeup) (m : Traffic.Move) : Prop where
  attended : ∀ s ∈ x.traffic.services[i]?, s.hasSender = true
  stored : AllStored (x.move i m).2
  unwritten : m ≠ .work i → ∀ p ∈ x.traffic.handset.phones[i]?,
    (x.move i m).1.traffic.handset.savedState group p.subscription =
      x.traffic.handset.savedState group p.subscription
  listed : m ≠ .change .withdrawAll
  plain : ∀ e ∈ x.traffic.entered? i m, ¬ e.command.IsUpdate

instance : Decidable (Calm i group x m) :=
  decidable_of_iff ((∀ s ∈ x.traffic.services[i]?, s.hasSender = true) ∧ AllStored (x.move i m).2 ∧
    (m ≠ .work i → ∀ p ∈ x.traffic.handset.phones[i]?,
      (x.move i m).1.traffic.handset.savedState group p.subscription =
        x.traffic.handset.savedState group p.subscription) ∧
    m ≠ .change .withdrawAll ∧ ∀ e ∈ x.traffic.entered? i m, ¬ e.command.IsUpdate)
    ⟨fun ⟨h₁, h₂, h₃, h₄, h₅⟩ => ⟨h₁, h₂, h₃, h₄, h₅⟩,
      fun ⟨h₁, h₂, h₃, h₄, h₅⟩ => ⟨h₁, h₂, h₃, h₄, h₅⟩⟩

lemma move_around (hm : m ≠ .work i) : (x.move i m).1.traffic = (x.traffic.move m).1 ∧
    (x.move i m).1.stage = x.stage := by
  cases m with
  | change a | announce slot => exact ⟨rfl, rfl⟩
  | work j =>
    have hj : j ≠ i := fun h => hm (congrArg _ h)
    simp only [move, if_neg hj]
    exact ⟨rfl, rfl⟩
  | act j a =>
    cases a with
    | abandon n =>
      refine ⟨rfl, ?_⟩
      have hf : ∀ k : Task, (k.forget n).stage = k.stage := by
        intro k
        rw [Task.forget]
        split <;> rfl
      simp only [move, stage, around]
      split
      · cases x.task <;> simp [hf]
      · rfl
    | send k c | ask k op | forward slot | shutdown k | cloneHandle k | dropHandle k | keepSender k
    | dropSender => exact ⟨rfl, rfl⟩

lemma service_around (hm : m ≠ .work i) {t : Traffic} (hs : (t.move m).1.services[i]? = some s') :
    ∃ s, t.services[i]? = some s ∧ s'.controller = s.controller ∧ s'.phase = s.phase ∧
      s'.commands = s.commands ++ ((t.entered? i m).map (·.command)).toList := by
  cases m with
  | change a | announce slot => exact ⟨s', hs, rfl, rfl, (List.append_nil _).symm⟩
  | work j =>
    have hj : j ≠ i := fun h => hm (congrArg _ h)
    rw [Traffic.service_work_ne hj] at hs
    exact ⟨s', hs, rfl, rfl, (List.append_nil _).symm⟩
  | act j a =>
    simp only [Traffic.move, Traffic.entered?] at hs ⊢
    cases hp : t.permits j a with
    | false =>
      have hn : ¬ (j = i ∧ t.permits i a = true) := by
        rintro ⟨rfl, h⟩
        exact Bool.false_ne_true (hp.symm.trans h)
      simp only [hp, Bool.false_eq_true, if_false] at hs
      rw [if_neg hn]
      exact ⟨s', hs, rfl, rfl, (List.append_nil _).symm⟩
    | true =>
      simp only [hp, if_true, List.getElem?_modify] at hs
      obtain ⟨s, hs₀, rfl⟩ := Option.map_eq_some_iff.1 hs
      refine ⟨s, hs₀, ?_⟩
      by_cases hj : j = i
      · obtain ⟨h₁, h₂, -⟩ := s.act_apart a
        simp only [hj, if_true, true_and, hs₀, Option.bind_some]
        rw [if_pos (hj ▸ hp)]
        exact ⟨h₁, h₂, s.commands_act a⟩
      · simp [hj]

lemma entries_around (hm : m ≠ .work i) (hl : m ≠ .change .withdrawAll) {t : Traffic}
    (ho : t.Ordered) {n : Ticket} (hn : (n, i) ∈ t.handset.registry.entries) :
    (n, i) ∈ (t.move m).1.handset.registry.entries := by
  cases m with
  | change a =>
    cases a with
    | withdrawAll => exact absurd rfl hl
    | swap j s | install s b | remove s | refuse on | poison | put b | reopen => exact hn
  | announce slot => exact hn
  | act j a =>
    simp only [Traffic.move]
    split <;> exact hn
  | work j =>
    have hj : i ≠ j := fun h => hm (congrArg _ h.symm)
    exact (ho.work j).2 i n hj hn

lemma Pending.around {t : Traffic} (h : Pending t i s slot) (hm : m ≠ .work i)
    (hs : t.services[i]? = some s) (hr : s.isReachable = true)
    (hs' : s'.commands = s.commands ++ ((t.entered? i m).map (·.command)).toList) :
    Pending (t.move m).1 i s' slot := by
  obtain ⟨hv, ha | hq⟩ := h
  · refine ⟨hv, ?_⟩
    cases m with
    | change a => exact .inl ha
    | announce slot' => exact .inl (List.mem_append_left _ ha)
    | work j => exact .inl ha
    | act j a =>
      simp only [Traffic.move]
      split
      · rename_i hp
        cases a with
        | forward slot' =>
          by_cases hj : (j, slot') = (i, slot)
          · obtain ⟨rfl, rfl⟩ := Prod.mk.inj hj
            refine .inr ?_
            have he : t.entered? j (.act j (.forward slot')) =
                some ⟨.perform (.hear slot'), none⟩ := by
              simp [Traffic.entered?, hp, hs, Service.entered?, hr]
            rw [hs', he]
            exact List.mem_append_right _ (List.mem_singleton.2 rfl)
          · exact .inl ((List.mem_erase_of_ne (Ne.symm hj)).2 ha)
        | send k c | ask k op | abandon n | shutdown k | cloneHandle k | dropHandle k
        | keepSender k | dropSender => exact .inl ha
      · exact .inl ha
  · exact ⟨hv, .inr (hs' ▸ List.mem_append_left _ hq)⟩

lemma pending_announce (hl : c.Listed i x.traffic.handset.registry) (hc : c.supported = true)
    (hp : x.traffic.handset.phones[i]? = some p) (ha : x.announces i slot = true) :
    Pending (x.traffic.move (.announce slot)).1 i s p.id := by
  obtain ⟨hv, hs⟩ := Bool.and_eq_true_iff.1 ha
  obtain rfl : p.id = slot := by simpa [hp] using hs
  obtain ⟨n, -, he⟩ := hl.listens hc
  refine ⟨hv, .inl (List.mem_append_right _ (List.mem_map.2 ⟨i, ?_, rfl⟩))⟩
  exact List.mem_map.2 ⟨(n, i), he, rfl⟩

lemma phone_of_outlook {h h' : Handset} (ho : outlook h' i = outlook h i)
    (hp : h.phones[i]? = some p) (hp' : h'.phones[i]? = some p') :
    p'.id = p.id ∧ p'.subscription = p.subscription ∧
      h'.bundles.get? p'.subscription = h.bundles.get? p.subscription := by
  simpa [outlook, hp, hp'] using ho

lemma sight_eq (hg : c.group = group) : x.sight p c =
    ⟨p.subscription, x.traffic.handset.bundles.get? p.subscription,
      x.traffic.handset.savedState group p.subscription⟩ := by
  rw [← hg]
  rfl

theorem Watched.around (hw : Watched i group x o) (hm : m ≠ .work i) (hc : Calm i group x m) :
    Watched i group (x.move i m).1 (x.owes i m o) := by
  obtain ⟨ht, hst⟩ := move_around (x := x) hm
  refine ⟨ht ▸ hw.ordered.move m, fun s' hs' k hk => ?_, fun s' c p' hs' hcs hp' => ?_⟩
  · rw [Option.mem_def, ht] at hs'
    obtain ⟨s, hs, -, -, hq⟩ := service_around hm hs'
    rw [hq] at hk
    obtain hk | hk := List.mem_append.1 hk
    · exact hw.plain s hs k hk
    · cases he : x.traffic.entered? i m with
      | none => simp [he] at hk
      | some e =>
        rw [he] at hk
        exact List.mem_singleton.1 hk ▸ hc.plain e he
  · rw [ht] at hs'
    obtain ⟨s, hs, hcs', hph, hq⟩ := service_around hm hs'
    rw [hcs'] at hcs
    obtain ⟨p, hp⟩ := hw.ordered.phone hs
    obtain ⟨h₁, h₂, h₃, h₄, h₅⟩ := hw.engaged s c p hs hcs hp
    have hen : ∀ n, (n, i) ∈ x.traffic.handset.registry.entries →
        (n, i) ∈ (x.move i m).1.traffic.handset.registry.entries := by
      intro n hn
      rw [ht]
      exact entries_around hm hc.listed hw.ordered hn
    refine ⟨by rwa [Service.isRunning, hph, ← Service.isRunning], h₂, ⟨h₃.silent, fun hsup => ?_⟩,
      fun hl => h₄ (hst ▸ hl), fun hsup => ?_⟩
    · obtain ⟨n, hn, he⟩ := h₃.listens hsup
      exact ⟨n, hn, hen n he⟩
    by_cases ho : outlook (x.move i m).1.traffic.handset i = outlook x.traffic.handset i
    · have hreach : s.isReachable = true := by
        rw [Service.isReachable, h₁, hc.attended s hs]
        rfl
      obtain ⟨hid, hsub, hb⟩ := phone_of_outlook ho hp hp'
      have hsight : (x.move i m).1.sight p' c = x.sight p c := by
        rw [sight_eq h₂, sight_eq h₂, hb, hsub, hc.unwritten hm p hp]
      rw [hsight, hst, ht, hid]
      obtain hox | hpend | hon := h₅ hsup
      · cases m with
        | announce slot =>
          simp only [owes, ho, ne_eq, not_true_eq_false, if_false]
          split
          · rename_i ha
            exact .inr (.inl (pending_announce h₃ hsup hp ha))
          · exact .inl hox
        | work j =>
          have hj : j ≠ i := fun h => hm (congrArg _ h)
          exact .inl (by simp [owes, ho, hj, hox])
        | change a | act j a => exact .inl (by simp [owes, ho, hox])
      · exact .inr (.inl (hpend.around hm hs hreach hq))
      · exact .inr (.inr hon)
    · exact .inl (if_pos ho)

end Closeup

end CallWaiting
