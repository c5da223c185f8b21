import Mathlib.Data.List.Forall2
import CallWaiting.Proofs.Service.Replies

/-!
Giving up waiting concerns nobody else. A run is the same, move by move, as the one in which
nobody gives up, but for the replies to those who did.
-/

namespace CallWaiting

open Controller (Operation Answer)
open Handset (Happening Direct)

structure Entry.SameBut (gone : List Nat) (e e' : Entry) : Prop where
  command : e.command = e'.command
  waiting : e.waiting = e'.waiting ∨ ∃ n ∈ gone, e.waiting = none ∧ e'.waiting = some n

lemma Entry.SameBut.refl (gone : List Nat) (e : Entry) : e.SameBut gone e :=
  ⟨rfl, .inl rfl⟩

lemma Entry.SameBut.forget {gone : List Nat} {e e' : Entry} (h : e.SameBut gone e') {n : Nat}
    (hn : n ∈ gone) : (e.forget n).SameBut gone e' := by
  rw [Entry.forget]
  split
  · rename_i hw
    obtain hh | ⟨m, -, hh, -⟩ := h.waiting
    · exact ⟨h.command, .inr ⟨n, hn, rfl, hh.symm.trans hw⟩⟩
    · rw [hh] at hw
      cases hw
  · exact h

namespace Service

open Traffic (Stops)

/-- The same task, but that some requesters are gone, whether or not somebody waits for its end. -/
structure SameBut (gone : List Nat) (s s' : Service) : Prop where
  controller : s.controller = s'.controller
  phase : s.phase = s'.phase
  handles : s.handles = s'.handles
  keptSender : s.keptSender = s'.keptSender
  nextRequest : s.nextRequest = s'.nextRequest
  queue : List.Forall₂ (Entry.SameBut gone) s.queue s'.queue
  replies : ∀ n, n ∉ gone → s.replies.filter (·.1 = n) = s'.replies.filter (·.1 = n)

variable {gone : List Nat} {s s' : Service}

lemma SameBut.refl (gone : List Nat) (s : Service) : s.SameBut gone s where
  controller := rfl
  phase := rfl
  handles := rfl
  keptSender := rfl
  nextRequest := rfl
  queue := List.forall₂_same.2 fun e _ => .refl gone e
  replies _ _ := rfl

lemma SameBut.isRunning (h : s.SameBut gone s') : s.isRunning = s'.isRunning := by
  rw [Service.isRunning, Service.isRunning, h.phase]

lemma SameBut.hasSender (h : s.SameBut gone s') : s.hasSender = s'.hasSender := by
  rw [Service.hasSender, Service.hasSender, h.keptSender, h.handles]

lemma SameBut.isReachable (h : s.SameBut gone s') : s.isReachable = s'.isReachable := by
  rw [Service.isReachable, Service.isReachable, h.isRunning, h.hasSender]

lemma SameBut.handle? (h : s.SameBut gone s') (k : Nat) : s.handle? k = s'.handle? k := by
  rw [Service.handle?, Service.handle?, h.handles]

lemma SameBut.canSend (h : s.SameBut gone s') (k : Nat) :
    Exchange.canSend s k = Exchange.canSend s' k := by
  rw [Exchange.canSend, Exchange.canSend, h.keptSender, h.handle?]

lemma SameBut.enqueue (h : s.SameBut gone s') (c : Command) (w : Option Nat) :
    (s.enqueue c w).SameBut gone (s'.enqueue c w) := by
  simp only [Service.enqueue]
  rw [h.isRunning]
  split
  · exact { h with queue := List.rel_append h.queue (.cons (.refl gone _) .nil) }
  · exact h

lemma SameBut.entered? (h : s.SameBut gone s') (a : Act) : s.entered? a = s'.entered? a := by
  cases a <;> simp only [Service.entered?, h.isRunning, h.canSend, h.isReachable, h.handle?,
    h.nextRequest]

lemma SameBut.act (h : s.SameBut gone s') {a : Act} (ha : ∀ n, a ≠ .abandon n) :
    (s.act a).SameBut gone (s'.act a) := by
  cases a with
  | abandon n => exact absurd rfl (ha n)
  | send k c =>
    simp only [Service.act, h.canSend]
    split
    · exact h.enqueue c none
    · exact h
  | ask k op =>
    simp only [Service.act, h.canSend]
    split
    · simp only [ask, h.nextRequest]
      exact { h.enqueue _ _ with nextRequest := rfl }
    · exact h
  | forward slot =>
    simp only [Service.act, h.isReachable]
    split
    · exact h.enqueue _ none
    · exact h
  | shutdown k =>
    simp only [Service.act, h.handle?]
    split
    · exact { h.enqueue _ _ with }
    · exact h
  | cloneHandle k =>
    simp only [Service.act, h.handle?]
    split
    · exact { h with handles := by simp only [cloneHandle, h.handles] }
    · exact h
  | dropHandle k => exact { h with handles := by simp only [Service.act, dropHandle, h.handles] }
  | keepSender k =>
    simp only [Service.act, h.handle?]
    split
    · exact { h with keptSender := rfl }
    · exact h
  | dropSender => exact { h with keptSender := rfl }

lemma SameBut.abandon (h : s.SameBut gone s') {n : Nat} (hn : n ∈ gone) :
    (s.act (.abandon n)).SameBut gone s' :=
  { h with queue := List.forall₂_map_left_iff.2 (h.queue.imp fun _ _ he => he.forget hn) }

lemma SameBut.ended (h : s.SameBut gone s') (p : Phase) : (s.ended p).SameBut gone (s'.ended p) :=
  { h with controller := rfl, phase := rfl, queue := .nil }

lemma SameBut.stops (h : s.SameBut gone s') (hs : Stops s) : Stops s' := by
  have hq := h.queue
  obtain ⟨hn, hh⟩ | ⟨w, q, hn⟩ := hs
  · rw [hn] at hq
    exact .inl ⟨List.forall₂_nil_left_iff.1 hq, h.hasSender ▸ hh⟩
  · rw [hn] at hq
    obtain ⟨⟨c, w'⟩, q', he, -, hs'⟩ := List.forall₂_cons_left_iff.1 hq
    obtain rfl : .shutdown = c := he.command
    exact .inr ⟨w', q', hs'⟩

lemma SameBut.answered {w w' : Option Nat} {q q' : List Entry}
    (h : s.SameBut gone s') (hw : w = w' ∨ ∃ n ∈ gone, w = none ∧ w' = some n)
    (hq : List.Forall₂ (Entry.SameBut gone) q q') (c : Controller) (a : Answer) :
    ({ s with queue := q }.answered c w a).SameBut gone ({ s' with queue := q' }.answered c w' a) := by
  refine { h with controller := rfl, queue := hq, replies := fun n hn => ?_ }
  have hr := h.replies n hn
  obtain rfl | ⟨m, hm, rfl, rfl⟩ := hw
  · cases w with
    | none => exact hr
    | some m => simp only [Service.answered, List.filter_append, hr]
  · have hmn : m ≠ n := by
      rintro rfl
      exact hn hm
    simp [Service.answered, List.filter_append, hr, hmn]

end Service

namespace Traffic

structure SameBut (gone : Nat → List Nat) (t t' : Traffic) : Prop where
  handset : t.handset = t'.handset
  airborne : t.airborne = t'.airborne
  services : ∀ i, Option.Rel (Service.SameBut (gone i)) t.services[i]? t'.services[i]?

variable {gone : Nat → List Nat} {t t' : Traffic} {i : Nat}

lemma SameBut.refl (gone : Nat → List Nat) (t : Traffic) : t.SameBut gone t where
  handset := rfl
  airborne := rfl
  services i := by
    cases t.services[i]? with
    | none => exact .none
    | some s => exact .some (.refl _ s)

lemma SameBut.service (h : t.SameBut gone t') {s : Service} (hs : t.services[i]? = some s) :
    ∃ s', t'.services[i]? = some s' ∧ s.SameBut (gone i) s' := by
  have hh := h.services i
  rw [hs] at hh
  cases hs' : t'.services[i]? with
  | none => rw [hs'] at hh; cases hh
  | some s' =>
    rw [hs'] at hh
    cases hh with
    | some hh => exact ⟨s', rfl, hh⟩

lemma SameBut.service_none (h : t.SameBut gone t') (hs : t.services[i]? = none) :
    t'.services[i]? = none := by
  have hh := h.services i
  rw [hs] at hh
  cases hs' : t'.services[i]? with
  | none => rfl
  | some s' => rw [hs'] at hh; cases hh

lemma SameBut.set (h : t.SameBut gone t') {s s' : Service} (hs : s.SameBut (gone i) s')
    (hd : Handset) : SameBut gone { t with handset := hd, services := t.services.set i s }
      { t' with handset := hd, services := t'.services.set i s' } := by
  refine ⟨rfl, h.airborne, fun j => ?_⟩
  have hh := h.services j
  by_cases hij : i = j
  · subst hij
    simp only [List.getElem?_set_self']
    cases ht : t.services[i]? with
    | none => rw [h.service_none ht]; exact .none
    | some r =>
      obtain ⟨r', ht', -⟩ := h.service ht
      rw [ht']
      exact .some hs
  · simpa only [List.getElem?_set_ne hij] using hh

lemma SameBut.modify (h : t.SameBut gone t') (f f' : Service → Service)
    (hf : ∀ s s', t.services[i]? = some s → t'.services[i]? = some s' → s.SameBut (gone i) s' →
      (f s).SameBut (gone i) (f' s')) (l : List (Nat × PhoneId)) :
    SameBut gone { t with services := t.services.modify i f, airborne := l }
      { t' with services := t'.services.modify i f', airborne := l } := by
  refine ⟨h.handset, rfl, fun j => ?_⟩
  simp only [List.getElem?_modify]
  cases ht : t.services[j]? with
  | none => rw [h.service_none ht]; exact .none
  | some s =>
    obtain ⟨s', ht', hs⟩ := h.service ht
    rw [ht']
    by_cases hij : i = j
    · subst hij
      simpa using Option.Rel.some (hf s s' ht ht' hs)
    · simpa [hij] using Option.Rel.some hs

lemma SameBut.permits (h : t.SameBut gone t') (i : Nat) (a : Service.Act) :
    t.permits i a = t'.permits i a := by
  cases a <;> simp only [Traffic.permits, h.airborne]

lemma SameBut.remaining (h : t.SameBut gone t') (i : Nat) (a : Service.Act) :
    t.remaining i a = t'.remaining i a := by
  cases a <;> simp only [Traffic.remaining, h.airborne]

lemma SameBut.actHappenings (h : t.SameBut gone t') (i : Nat) (a : Service.Act) :
    t.actHappenings i a = t'.actHappenings i a := by
  cases a with
  | forward slot =>
    simp only [Traffic.actHappenings]
    cases ht : t.services[i]? with
    | none => rw [h.service_none ht]
    | some s =>
      obtain ⟨s', ht', hs⟩ := h.service ht
      simp only [ht', hs.isReachable]
  | _ => rfl

structure Step (gone : Nat → List Nat) (t t' : Traffic) (m : Move) : Prop where
  after : SameBut gone (t.move m).1 (t'.move m).1
  happenings : (t.move m).2 = (t'.move m).2
  requests : t.requests m = t'.requests m
  entry : ∀ i, t.entered? i m = t'.entered? i m

lemma SameBut.work (h : t.SameBut gone t') (i : Nat) : Step gone t t' (.work i) := by
  have hn : t.exchange.stoppedNotice i = t'.exchange.stoppedNotice i := by
    simp only [Exchange.stoppedNotice, exchange, h.handset]
  cases work_cases t i with
  | idle hs hr hm =>
    obtain ⟨hr', hm'⟩ : t'.requests (.work i) = [] ∧ t'.move (.work i) = (t', []) := by
      apply work_idle
      intro s' ht'
      cases ht : t.services[i]? with
      | none => rw [h.service_none ht] at ht'; cases ht'
      | some s =>
        obtain ⟨r, hr, he⟩ := h.service ht
        obtain rfl := Option.some.inj (hr.symm.trans ht')
        refine (hs s ht).imp (fun hc => he.controller ▸ hc) (fun hq => ⟨?_, he.hasSender ▸ hq.2⟩)
        have hf := he.queue
        rw [hq.1] at hf
        exact List.forall₂_nil_left_iff.1 hf
    exact ⟨by rwa [hm, hm'], by rw [hm, hm'], hr.trans hr'.symm, fun _ => rfl⟩
  | stop s c hs hc hq hr hm =>
    obtain ⟨s', hs', he⟩ := h.service hs
    obtain ⟨hr', hm'⟩ := work_stop hs' (he.controller ▸ hc) (he.stops hq)
    refine ⟨?_, ?_, hr.trans hr'.symm, fun _ => rfl⟩
    · rw [hm, hm', h.handset]
      exact h.set (he.ended .stopped) _
    · rw [hm, hm', h.handset, hn]
  | answer s c op w q a hs hc hq ha hr hm =>
    obtain ⟨s', hs', he⟩ := h.service hs
    have hf := he.queue
    rw [hq] at hf
    obtain ⟨⟨command, w'⟩, q', he', hq', hs''⟩ := List.forall₂_cons_left_iff.1 hf
    obtain rfl : .perform op = command := he'.command
    obtain ⟨hr', hm'⟩ := work_answer hs' (he.controller ▸ hc) hs'' (h.handset ▸ ha)
    refine ⟨?_, ?_, hr.trans hr'.symm, fun _ => rfl⟩
    · rw [hm, hm', h.handset]
      exact h.set (he.answered he'.waiting hq' _ a) _
    · rw [hm, hm', h.handset]
  | crash s c op w q hs hc hq ha hr hm =>
    obtain ⟨s', hs', he⟩ := h.service hs
    have hf := he.queue
    rw [hq] at hf
    obtain ⟨⟨command, w'⟩, q', he', hq', hs''⟩ := List.forall₂_cons_left_iff.1 hf
    obtain rfl : .perform op = command := he'.command
    obtain ⟨hr', hm'⟩ := work_crash hs' (he.controller ▸ hc) hs'' (h.handset ▸ ha)
    refine ⟨?_, ?_, hr.trans hr'.symm, fun _ => rfl⟩
    · rw [hm, hm', h.handset]
      exact h.set (he.ended .crashed) _
    · rw [hm, hm', h.handset]

lemma SameBut.move (h : t.SameBut gone t') {m : Move} (hm : m.isPatient = true) :
    Step gone t t' m := by
  cases m with
  | change c =>
    refine ⟨⟨?_, h.airborne, h.services⟩, ?_, rfl, fun _ => rfl⟩
    · simp only [Traffic.move, h.handset]
    · simp only [Traffic.move, h.handset]
  | announce slot =>
    refine ⟨⟨h.handset, ?_, h.services⟩, ?_, rfl, fun _ => rfl⟩
    · simp only [Traffic.move, h.handset, h.airborne]
    · simp only [Traffic.move, h.handset]
  | act i a =>
    have ha : ∀ n, a ≠ .abandon n := by
      rintro n rfl
      cases hm
    refine ⟨?_, ?_, rfl, fun j => ?_⟩
    · simp only [Traffic.move, h.permits, h.remaining]
      split
      · exact h.modify _ _ (fun s s' _ _ hs => hs.act ha) _
      · exact h
    · simp only [Traffic.move, h.permits, h.actHappenings]
      split <;> rfl
    · simp only [entered?, h.permits]
      split
      · cases ht : t.services[j]? with
        | none => rw [h.service_none ht]
        | some s =>
          obtain ⟨s', ht', hs⟩ := h.service ht
          rw [ht', Option.bind_some, Option.bind_some, hs.entered?]
      · rfl
  | work i => exact h.work i

def abandoned (i : Nat) (ms : List Move) : List Nat :=
  ms.filterMap fun
    | .act j (.abandon n) => if j = i then some n else none
    | _ => none

lemma SameBut.abandon (h : t.SameBut gone t') {n : Nat} (hn : n ∈ gone i) :
    SameBut gone (t.move (.act i (.abandon n))).1 t' := by
  have hh := h.modify (·.act (.abandon n)) id (fun s s' _ _ hs => Service.SameBut.abandon hs hn) t.airborne
  have hm : t'.services.modify i id = t'.services := by simp
  rw [hm] at hh
  refine ⟨hh.handset, h.airborne, hh.services⟩

lemma eq_abandon {m : Move} (hm : ¬ m.isPatient = true) : ∃ j n, m = .act j (.abandon n) := by
  cases m with
  | act j a => cases a <;> simp_all [Move.isPatient]
  | change c | announce slot | work j => simp_all [Move.isPatient]

theorem SameBut.run (h : t.SameBut gone t') {ms : List Move}
    (hg : ∀ i, ∀ n ∈ abandoned i ms, n ∈ gone i) :
    SameBut gone (t.run ms) (t'.run (ms.filter Move.isPatient)) ∧
      t.happenings ms = t'.happenings (ms.filter Move.isPatient) ∧
      t.script ms = t'.script (ms.filter Move.isPatient) ∧
      ∀ i, t.log i ms = t'.log i (ms.filter Move.isPatient) := by
  induction ms generalizing t t' with
  | nil => exact ⟨h, rfl, rfl, fun _ => rfl⟩
  | cons m ms ih =>
    have hg' : ∀ i, ∀ n ∈ abandoned i ms, n ∈ gone i := by
      intro i n hn
      refine hg i n ?_
      rw [abandoned] at hn ⊢
      rw [List.filterMap_cons]
      split
      · exact hn
      · exact List.mem_cons_of_mem _ hn
    by_cases hm : m.isPatient = true
    · have hs := h.move hm
      obtain ⟨h₁, h₂, h₃, h₄⟩ := ih hs.after hg'
      rw [List.filter_cons_of_pos hm]
      refine ⟨h₁, ?_, ?_, fun i => ?_⟩
      · rw [Traffic.happenings, Traffic.happenings, hs.happenings, h₂]
      · rw [script, script, hs.requests, h₃]
      · rw [log, log, hs.entry, h₄]
    · rw [List.filter_cons_of_neg hm]
      obtain ⟨i, n, rfl⟩ := eq_abandon hm
      have hn : n ∈ gone i := hg i n (by simp [abandoned])
      obtain ⟨h₁, h₂, h₃, h₄⟩ := ih (h.abandon hn) hg'
      refine ⟨h₁, ?_, h₃, fun j => ?_⟩
      · rw [Traffic.happenings, h₂]
        rfl
      · rw [log, h₄]
        simp [entered?, Service.entered?]

end Traffic

end CallWaiting
