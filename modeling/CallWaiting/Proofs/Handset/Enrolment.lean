import CallWaiting.Proofs.Handset.Acceptance
import CallWaiting.Proofs.Handset.Registration

namespace CallWaiting

namespace Broadcast.Registry

def Lasts (Inv : Registry Nat → (Nat → Option Ticket) → Prop) : Prop :=
  ∀ ⦃r cs i r' l⦄, Inv r cs → Enrols i r (cs i) r' l → Inv r' (Function.update cs i l)

lemma lasts_owned : Lasts Owned :=
  fun _ _ _ _ _ ho he => ho.enrols he

end Broadcast.Registry

namespace Handset.Direct

open Broadcast (Registry Ticket)
open Controller (Operation)

variable {d : Direct} {r : Request} {i : Nat} {c : Controller} {op : Operation}

def ticket (d : Direct) (i : Nat) : Option Ticket :=
  (d.controller? i).bind (·.listener)

def IsSeated (d : Direct) : Prop :=
  d.controllers.length ≤ d.handset.lines.length

lemma IsSeated.phone (hd : d.IsSeated) (hc : d.controller? i = some c) :
    ∃ p, d.handset.phones[i]? = some p := by
  obtain ⟨hl, -⟩ := List.getElem?_eq_some_iff.1 (Option.join_eq_some_iff.1 hc)
  have hi : i < d.handset.phones.length := by simpa [lines] using hl.trans_le hd
  exact ⟨_, List.getElem?_eq_getElem hi⟩

lemma ticket_operate (hc : d.controller? i = some c) (op : Operation) :
    (d.operate i op).1.ticket =
      Function.update d.ticket i (d.handset.operate i c op).2.controller.listener := by
  funext j
  rw [Function.update_apply, ticket]
  split
  · rename_i hj
    rw [hj, controller?_operate hc]
    rfl
  · rename_i hj
    rw [controller?_operate_ne hj]
    rfl

lemma ticket_drop (d : Direct) (i : Nat) : (d.drop i).1.ticket = Function.update d.ticket i none := by
  funext j
  rw [Function.update_apply, ticket]
  split
  · rename_i hj
    rw [hj, controller?_drop]
    rfl
  · rename_i hj
    rw [controller?_drop_ne hj]
    rfl

lemma ticket_rebuild (d : Direct) (i : Nat) (group : String) :
    (d.step (.rebuild i group)).1.ticket = (d.drop i).1.ticket := by
  funext j
  rw [ticket, ticket]
  by_cases hj : j = i
  · subst hj
    rw [controller?_drop]
    cases hc : (d.step (.rebuild j group)).1.controller? j with
    | none => rfl
    | some x =>
      rw [controller?_rebuild hc]
      rfl
  · have hc : (d.step (.rebuild i group)).1.controller? j = (d.drop i).1.controller? j :=
      controller?_set hj
    rw [hc]

lemma enrols_own {c : Controller} (hc : d.controller? i = some c) (op : Operation) :
    Registry.Enrols i d.handset.registry (d.ticket i) (d.operate i op).1.handset.registry
      (d.handset.operate i c op).2.controller.listener := by
  rw [ticket, hc, operate_some hc]
  exact enrols_operate d.handset i c op

lemma enrols_drop (hd : d.IsSeated) (i : Nat) :
    Registry.Enrols i d.handset.registry (d.ticket i) (d.drop i).1.handset.registry none := by
  rw [ticket]
  cases hc : d.controller? i with
  | none =>
    rw [drop_none hc]
    exact .same _
  | some c =>
    obtain ⟨p, hp⟩ := hd.phone hc
    rw [drop_some hc]
    exact enrols_dismiss hp c

@[simp] lemma queues_operate (d : Direct) (i : Nat) (op : Operation) :
    (d.operate i op).1.queues = d.queues := by
  rw [operate]
  split <;> rfl

@[simp] lemma queues_drop (d : Direct) (i : Nat) : (d.drop i).1.queues = d.queues := by
  rw [drop]
  split <;> rfl

lemma length_operate (d : Direct) (i : Nat) (op : Operation) :
    (d.operate i op).1.controllers.length = d.controllers.length := by
  rw [operate]
  split
  · rfl
  · exact List.length_set

lemma length_drop (d : Direct) (i : Nat) :
    (d.drop i).1.controllers.length = d.controllers.length := by
  rw [drop]
  split
  · rfl
  · exact List.length_set

lemma isSeated_fresh {phones : List Phone} {groups : List String} (hl : groups.length ≤ phones.length)
    (store : Preference.Store) (disk : FileSystem) :
    (fresh (Handset.fresh phones store disk) groups).IsSeated := by
  simpa [IsSeated, fresh, Handset.fresh, lines] using hl

lemma ticket_fresh (h : Handset) (groups : List String) (i : Nat) : (fresh h groups).ticket i = none := by
  rw [ticket, controller?, fresh, List.getElem?_map]
  cases groups[i]? <;> rfl

lemma IsSeated.operate (hd : d.IsSeated) (i : Nat) (op : Operation) :
    (d.operate i op).1.IsSeated := by
  rwa [IsSeated, lines_operate, length_operate]

lemma IsSeated.deliver (hd : d.IsSeated) (i : Nat) (slots : List PhoneId) :
    (d.deliver i slots).1.IsSeated :=
  deliver_keeps IsSeated (fun _ slot hd => hd.operate i (.hear slot)) hd slots

lemma IsSeated.drop (hd : d.IsSeated) (i : Nat) : (d.drop i).1.IsSeated := by
  rwa [IsSeated, lines_drop, length_drop]

theorem IsSeated.step (hd : d.IsSeated) (r : Request) : (d.step r).1.IsSeated := by
  cases r with
  | change x =>
    cases x with
    | swap i s => simpa [IsSeated, Direct.step, Handset.change, lines] using hd
    | install s b | remove s | refuse on | poison | withdrawAll | put b | reopen => exact hd
  | notify slot => exact hd
  | operate i op => exact hd.operate i op
  | pump i =>
    obtain hst | ⟨slots, -, hst⟩ := step_pump d i
    · rwa [hst]
    · rw [hst]
      exact IsSeated.deliver (d := { d with queues := d.queues.set i [] }) hd i slots
  | drop i => exact hd.drop i
  | rebuild i group => simpa [IsSeated, Direct.step] using hd.drop i

section Lasts

variable {Inv : Registry Nat → (Nat → Option Ticket) → Prop} (hk : Registry.Lasts Inv)
  (h : Inv d.handset.registry d.ticket)

include hk h

lemma lasts_operate (i : Nat) (op : Operation) :
    Inv (d.operate i op).1.handset.registry (d.operate i op).1.ticket := by
  cases hc : d.controller? i with
  | none => rwa [operate_none hc]
  | some c =>
    rw [ticket_operate hc]
    exact hk h (enrols_own hc op)

lemma lasts_deliver (i : Nat) (slots : List PhoneId) :
    Inv (d.deliver i slots).1.handset.registry (d.deliver i slots).1.ticket :=
  deliver_keeps (fun d => Inv d.handset.registry d.ticket)
    (fun _ slot h => lasts_operate hk h i (.hear slot)) h slots

lemma lasts_drop (hd : d.IsSeated) (i : Nat) :
    Inv (d.drop i).1.handset.registry (d.drop i).1.ticket := by
  rw [ticket_drop]
  exact hk h (enrols_drop hd i)

theorem lasts_step (hd : d.IsSeated) (hr : r ≠ .change .withdrawAll) :
    Inv (d.step r).1.handset.registry (d.step r).1.ticket := by
  cases r with
  | change x =>
    cases x with
    | withdrawAll => exact absurd rfl hr
    | swap i s | install s b | remove s | refuse on | poison | put b | reopen => exact h
  | notify slot => exact h
  | operate i op => exact lasts_operate hk h i op
  | pump i =>
    obtain hst | ⟨slots, -, hst⟩ := step_pump d i
    · rwa [hst]
    · rw [hst]
      exact lasts_deliver (d := { d with queues := d.queues.set i [] }) hk h i slots
  | drop i => exact lasts_drop hk h hd i
  | rebuild i group =>
    rw [ticket_rebuild]
    exact lasts_drop hk h hd i

end Lasts

end Handset.Direct

end CallWaiting
