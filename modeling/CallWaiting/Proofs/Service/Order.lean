import CallWaiting.Proofs.Handset.Registration
import CallWaiting.Proofs.Service.Sequential

namespace CallWaiting

open Broadcast (Registry Ticket)
open Controller (Operation)

namespace Traffic

variable {t : Traffic} {i j : Nat} {s s' : Service}

def ticket (t : Traffic) (i : Nat) : Option Ticket :=
  (t.controller? i).bind (·.listener)

lemma ticket_set (hs : t.services[i]? = some s) (h : Handset) (s' : Service) :
    ticket { t with handset := h, services := t.services.set i s' } =
      Function.update t.ticket i (s'.controller.bind (·.listener)) := by
  funext j
  have hi : i < t.services.length := (List.getElem?_eq_some_iff.1 hs).1
  rw [Function.update_apply, ticket, controller?]
  split
  · rename_i hj
    simp [hj, hi]
  · rename_i hj
    rw [List.getElem?_set_ne (Ne.symm hj)]
    rfl

lemma ticket_eq {c : Controller} (hs : t.services[i]? = some s) (hc : s.controller = some c) :
    t.ticket i = c.listener := by
  rw [ticket, controller?, hs, Option.bind_some, hc, Option.bind_some]

structure Ordered (t : Traffic) : Prop where
  fits : t.services.length ≤ t.handset.phones.length
  owned : t.handset.registry.Owned t.ticket

lemma Ordered.phone (ho : t.Ordered) (hs : t.services[i]? = some s) :
    ∃ p, t.handset.phones[i]? = some p := by
  have hi := (List.getElem?_eq_some_iff.1 hs).1
  exact ⟨_, List.getElem?_eq_getElem (hi.trans_le ho.fits)⟩

lemma length_phones_applyAll (h : Handset) (i : Nat) (es : List Controller.Effect) :
    (h.applyAll i es).phones.length = h.phones.length := by
  simpa [Handset.lines] using congrArg List.length (Handset.lines_applyAll h i es)

lemma length_phones_operate (h : Handset) (i : Nat) (c : Controller) (op : Operation) :
    (h.operate i c op).1.phones.length = h.phones.length := by
  simpa [Handset.lines] using congrArg List.length (Handset.lines_operate h i c op)

lemma length_phones_dismiss (h : Handset) (i : Nat) (c : Controller) :
    (h.dismiss i c).1.phones.length = h.phones.length := by
  rw [Handset.dismiss]
  split
  · exact length_phones_applyAll _ _ _
  · rfl

lemma Ordered.set (ho : t.Ordered) (hs : t.services[i]? = some s) {h : Handset}
    (hl : h.phones.length = t.handset.phones.length)
    (he : Registry.Enrols i t.handset.registry (t.ticket i) h.registry
      (s'.controller.bind (·.listener))) :
    Ordered { t with handset := h, services := t.services.set i s' } := by
  refine ⟨?_, ?_⟩
  · simpa [hl] using ho.fits
  · rw [ticket_set hs]
    exact ho.owned.enrols he

lemma enrols_performed {c : Controller} (hs : t.services[i]? = some s) (hc : s.controller = some c)
    (op : Operation) : Registry.Enrols i t.handset.registry (t.ticket i)
      (t.handset.operate i c op).1.registry (t.handset.operate i c op).2.controller.listener := by
  rw [ticket_eq hs hc]
  exact Handset.enrols_operate _ _ _ _

lemma enrols_finish {c : Controller} (ho : t.Ordered) (hs : t.services[i]? = some s)
    (hc : s.controller = some c) :
    Registry.Enrols i t.handset.registry (t.ticket i) (t.handset.dismiss i c).1.registry none := by
  obtain ⟨p, hp⟩ := ho.phone hs
  rw [ticket_eq hs hc]
  exact Handset.enrols_dismiss hp c

theorem Ordered.work (ho : t.Ordered) (j : Nat) : (t.move (.work j)).1.Ordered ∧
    ∀ i n, i ≠ j → (n, i) ∈ t.handset.registry.entries →
      (n, i) ∈ (t.move (.work j)).1.handset.registry.entries := by
  cases work_cases t j with
  | idle _ _ hm =>
    rw [hm]
    exact ⟨ho, fun _ _ _ he => he⟩
  | stop s c hs hc hq hr hm =>
    have he := enrols_finish ho hs hc
    rw [hm]
    exact ⟨ho.set hs (length_phones_dismiss _ _ _) he, fun i n hij hn => ho.owned.mem_ne hij he hn⟩
  | answer s c op w q a hs hc hq ha hr hm =>
    have he := enrols_performed hs hc op
    rw [hm]
    exact ⟨ho.set hs (length_phones_operate _ _ _ _) he, fun i n hij hn => ho.owned.mem_ne hij he hn⟩
  | crash s c op w q hs hc hq ha hr hm =>
    -- the operation first, as if it had been answered, and then the end of the task
    let s₁ : Service := { s with controller := some (t.handset.operate j c op).2.controller }
    have he := enrols_performed hs hc op
    have h₁ : Ordered { t with
        handset := (t.handset.operate j c op).1, services := t.services.set j s₁ } :=
      ho.set hs (length_phones_operate _ _ _ _) he
    have hs₁ : (t.services.set j s₁)[j]? = some s₁ :=
      List.getElem?_set_self (List.getElem?_eq_some_iff.1 hs).1
    have he₁ : Registry.Enrols j _ _ _ ((s.ended .crashed).controller.bind (·.listener)) :=
      enrols_finish h₁ hs₁ rfl
    have h₂ := h₁.set hs₁ (length_phones_dismiss _ _ _) he₁
    rw [hm]
    refine ⟨by simpa only [List.set_set] using h₂, fun i n hij hn => ?_⟩
    exact h₁.owned.mem_ne hij he₁ (ho.owned.mem_ne hij he hn)

lemma ticket_modify {u : Traffic} {f : Service → Service}
    (hu : u.services = t.services.modify i f) (hf : ∀ s, (f s).controller = s.controller) :
    u.ticket = t.ticket := by
  funext j
  rw [ticket, ticket, controller?, controller?, hu, List.getElem?_modify]
  cases hs : t.services[j]? with
  | none => rfl
  | some s =>
    by_cases hj : i = j
    · simp [hj, hf]
    · simp [hj]

lemma Ordered.act (ho : t.Ordered) (i : Nat) (a : Service.Act) : (t.move (.act i a)).1.Ordered := by
  rw [move]
  split
  · refine ⟨?_, ?_⟩
    · simpa using ho.fits
    · rw [ticket_modify (t := t) rfl fun s => (s.act_apart a).1]
      exact ho.owned
  · exact ho

lemma Ordered.change (ho : t.Ordered) (x : Handset.Change) : (t.move (.change x)).1.Ordered := by
  refine ⟨?_, ?_⟩
  · cases x with
    | swap i s => simpa [move, Handset.change] using ho.fits
    | install s b | remove s | refuse on | poison | withdrawAll | put b | reopen => exact ho.fits
  · cases x with
    | withdrawAll => exact ho.owned.withdrawAll
    | swap i s | install s b | remove s | refuse on | poison | put b | reopen => exact ho.owned

theorem Ordered.move (ho : t.Ordered) (m : Move) : (t.move m).1.Ordered := by
  cases m with
  | change x => exact ho.change x
  | announce slot => exact ⟨ho.fits, ho.owned⟩
  | act i a => exact ho.act i a
  | work i => exact (ho.work i).1

end Traffic

end CallWaiting
