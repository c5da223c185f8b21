import CallWaiting.Proofs.Handset.Separation
import Mathlib.Data.List.Nodup
import Mathlib.Data.List.Perm.Basic

/-!
The roster: who is registered, and who has support turned on. They are the same for as long as nobody
withdraws registrations that are not its own; a controller that has lost its registration does not
notice, and gets one again when support is turned off and on.
-/

namespace CallWaiting

namespace Broadcast.Registry

variable {r r' : Registry Nat} {cs : Nat → Option Ticket} {i : Nat} {l : Option Ticket} {t : Ticket}

structure Orderly (r : Registry Nat) (cs : Nat → Option Ticket) : Prop where
  owned : r.Owned cs
  once : r.listeners.Nodup

structure Complete (r : Registry Nat) (cs : Nat → Option Ticket) : Prop extends Orderly r cs where
  listed : ∀ i t, cs i = some t → (t, i) ∈ r.entries

lemma Enrols.listed (he : Enrols i r none r' (some t)) : (t, i) ∈ r'.entries := by
  cases he
  exact List.mem_append_right _ (List.mem_singleton.2 rfl)

lemma Orderly.not_mem (ho : r.Orderly cs) (hi : cs i = none) : i ∉ r.listeners := by
  intro hm
  obtain ⟨e, he, rfl⟩ := List.mem_map.1 hm
  have ht := ho.owned.entry e he
  rw [hi] at ht
  cases ht

lemma nodup_withdraw (ho : r.listeners.Nodup) (t : Ticket) : (r.withdraw t).listeners.Nodup :=
  ho.sublist (List.filter_sublist.map _)

lemma lasts_orderly : Lasts Orderly := by
  intro r cs i r' l ho he
  refine ⟨ho.owned.enrols he, ?_⟩
  generalize hl : cs i = k at he
  cases he with
  | same => exact ho.once
  | joins =>
    have hs : (r.register i).listeners = r.listeners ++ [i] := List.map_append
    rw [hs]
    exact List.nodup_append_comm.1 (List.nodup_cons.2 ⟨ho.not_mem hl, ho.once⟩)
  | leaves t => exact nodup_withdraw ho.once t

lemma lasts_complete : Lasts Complete := by
  intro r cs i r' l ho he
  refine ⟨lasts_orderly ho.toOrderly he, fun j t hj => ?_⟩
  by_cases hji : j = i
  · subst hji
    rw [Function.update_self] at hj
    subst hj
    generalize hl : cs j = k at he
    cases he with
    | same => exact ho.listed j t hl
    | joins => exact Enrols.joins.listed
  · rw [Function.update_of_ne hji] at hj
    exact ho.owned.mem_ne hji he (ho.listed j t hj)

lemma Orderly.withdraw (ho : r.Orderly cs) (t : Ticket) : (r.withdraw t).Orderly cs where
  owned := ⟨fun e he => ho.owned.entry e (List.mem_filter.1 he).1, ho.owned.unique, ho.owned.below⟩
  once := nodup_withdraw ho.once t

lemma Orderly.withdrawAll (ho : r.Orderly cs) : r.withdrawAll.Orderly cs :=
  ⟨ho.owned.withdrawAll, List.nodup_nil⟩

lemma complete_empty (h : ∀ i, cs i = none) : (empty : Registry Nat).Complete cs :=
  ⟨⟨owned_empty h, List.nodup_nil⟩, fun i t hi => by simp [h] at hi⟩

end Broadcast.Registry

namespace Controller

variable {c : Controller} {op : Operation}

lemma isListening_perform (env : Surroundings) (c : Controller) (op : Operation)
    (hc : c.isListening = c.supported) :
    (c.perform env op).controller.isListening = (c.perform env op).controller.supported := by
  obtain ⟨hs, hl⟩ := perform_standing env c op
  rw [isListening, hs, hl]
  cases op with
  | setSupported v =>
    simp only [holding, supporting]
    split
    · rename_i hv
      exact hc.trans hv
    · cases v with
      | true => cases c.listener <;> rfl
      | false => rfl
  | hear slot | update s bundle enforced | interrogate | request enable serviceClass | readState =>
    exact hc

end Controller

namespace Handset.Direct

open Broadcast (Registry Ticket)
open Controller (Operation)

variable {d : Direct} {i : Nat} {c : Controller}

inductive Move where
  | request (r : Request)
  | withdraw (t : Ticket)

def move (d : Direct) : Move → Direct
  | .request r => (d.step r).1
  | .withdraw t =>
    { d with handset := { d.handset with registry := d.handset.registry.withdraw t } }

def moves (d : Direct) (ms : List Move) : Direct :=
  ms.foldl move d

def Move.Meddles : Move → Prop
  | .request (.change .withdrawAll) | .withdraw _ => True
  | .request _ => False

def supporting (d : Direct) : List Nat :=
  (List.range d.controllers.length).filter fun i => (d.controller? i).any (·.supported)

structure Rostered (d : Direct) : Prop where
  seated : d.IsSeated
  orderly : d.handset.registry.Orderly d.ticket
  listening : ∀ i c, d.controller? i = some c → c.isListening = c.supported

lemma mem_supporting : i ∈ d.supporting ↔ ∃ c, d.controller? i = some c ∧ c.supported = true := by
  simp only [supporting, List.mem_filter, List.mem_range, Option.any_eq_true]
  refine and_iff_right_of_imp ?_
  rintro ⟨c, hc, -⟩
  exact (List.getElem?_eq_some_iff.1 (Option.join_eq_some_iff.1 hc)).1

lemma Rostered.step (hd : d.Rostered) (r : Request) : (d.step r).1.Rostered := by
  refine ⟨hd.seated.step r, ?_, controllers_step Controller.isListening_perform hd.listening (fun _ => rfl) r⟩
  by_cases hr : r = .change .withdrawAll
  · subst hr
    exact hd.orderly.withdrawAll
  · exact lasts_step Registry.lasts_orderly hd.orderly hd.seated hr

lemma Rostered.move (hd : d.Rostered) (m : Move) : (d.move m).Rostered := by
  cases m with
  | request r => exact hd.step r
  | withdraw t => exact ⟨hd.seated, hd.orderly.withdraw t, hd.listening⟩

lemma Rostered.complete_move (hd : d.Rostered) {m : Move}
    (hc : d.handset.registry.Complete d.ticket) (hm : ¬ m.Meddles) :
    (d.move m).handset.registry.Complete (d.move m).ticket := by
  cases m with
  | request r =>
    refine lasts_step Registry.lasts_complete hc hd.seated ?_
    rintro rfl
    exact hm trivial
  | withdraw t => exact absurd trivial hm

theorem Rostered.moves (hd : d.Rostered) (ms : List Move) : (d.moves ms).Rostered := by
  induction ms generalizing d with
  | nil => exact hd
  | cons m ms ih => exact ih (hd.move m)

theorem Rostered.complete_moves (hd : d.Rostered) {ms : List Move}
    (hc : d.handset.registry.Complete d.ticket) (hm : ∀ m ∈ ms, ¬ m.Meddles) :
    (d.moves ms).handset.registry.Complete (d.moves ms).ticket := by
  induction ms generalizing d with
  | nil => exact hc
  | cons m ms ih =>
    exact ih (hd.move m) (hd.complete_move hc (hm m List.mem_cons_self))
      fun m' hm' => hm m' (List.mem_cons_of_mem _ hm')

lemma rostered_fresh {phones : List Phone} {groups : List String} (hl : groups.length ≤ phones.length)
    (store : Preference.Store) (disk : FileSystem) :
    (fresh (Handset.fresh phones store disk) groups).Rostered where
  seated := isSeated_fresh hl store disk
  orderly := (Registry.complete_empty (ticket_fresh _ groups)).toOrderly
  listening i c hc := by
    obtain ⟨g, -, he⟩ :=
      Option.map_eq_some_iff.1 (List.getElem?_map.symm.trans (Option.join_eq_some_iff.1 hc))
    cases he
    rfl

lemma Rostered.listeners_perm (hd : d.Rostered) (hc : d.handset.registry.Complete d.ticket) :
    d.handset.registry.listeners.Perm d.supporting := by
  refine (List.perm_ext_iff_of_nodup hc.once (List.nodup_range.filter _)).2 fun i => ?_
  refine Iff.trans ?_ mem_supporting.symm
  constructor
  · intro hi
    obtain ⟨e, he, rfl⟩ := List.mem_map.1 hi
    obtain ⟨c, hx, ht⟩ := Option.bind_eq_some_iff.1 (hc.owned.entry e he)
    refine ⟨c, hx, ?_⟩
    rw [← hd.listening _ c hx, Controller.isListening, ht]
    rfl
  · rintro ⟨c, hx, hs⟩
    rw [← hd.listening i c hx] at hs
    obtain ⟨t, ht⟩ := Option.isSome_iff_exists.1 hs
    have hi : d.ticket i = some t := by rw [ticket, hx, Option.bind_some, ht]
    exact List.mem_map.2 ⟨_, hc.listed i t hi, rfl⟩

lemma ticket_eq_none (hd : d.Rostered) (hs : ∀ c, d.controller? i = some c → c.supported = false) :
    d.ticket i = none := by
  rw [ticket]
  cases hc : d.controller? i with
  | none => rfl
  | some c =>
    have hl := (hd.listening i c hc).trans (hs c hc)
    rw [Option.bind_some]
    exact Option.isNone_iff_eq_none.1 (by simpa [Controller.isListening] using hl)

lemma supported_operate (hd : d.Rostered) (hc : d.controller? i = some c) (v : Bool) :
    ∃ c', (d.step (.operate i (.setSupported v))).1.controller? i = some c' ∧ c'.supported = v := by
  obtain ⟨p, hp⟩ := hd.seated.phone hc
  refine ⟨_, controller?_operate hc _, ?_⟩
  rw [operate_eq hp]
  exact (Controller.perform_standing _ c _).1

lemma count_turned_on (hd : d.Rostered) (hc : d.controller? i = some c) (hs : c.supported = false) :
    (d.step (.operate i (.setSupported true))).1.handset.registry.listeners.count i = 1 := by
  have hd' := hd.step (.operate i (.setSupported true))
  have he := enrols_own hc (.setSupported true)
  have hn : d.ticket i = none := ticket_eq_none hd fun c' hc' => by
    rwa [Option.some.inj (hc'.symm.trans hc)]
  obtain ⟨c', hc', hs'⟩ := supported_operate hd hc true
  obtain rfl := Option.some.inj ((controller?_operate hc (.setSupported true)).symm.trans hc')
  obtain ⟨t, ht⟩ := Option.isSome_iff_exists.1 ((hd'.listening i _ hc').trans hs')
  rw [hn, ht] at he
  exact List.count_eq_one_of_mem hd'.orderly.once (List.mem_map.2 ⟨_, he.listed, rfl⟩)

lemma answered_or_crashed (hd : d.Rostered) (hc : d.controller? i = some c) (v : Bool) :
    let off := d.step (.operate i (.setSupported v))
    off.2.1 = .answered .done ∨ ∃ b, (b, .crashed) ∈ offers i off.2.2 := by
  intro off
  obtain ⟨p, hp⟩ := hd.seated.phone hc
  have ho : off = ((d.operate i (.setSupported v)).1,
      ((d.operate i (.setSupported v)).2.1.map .answered).getD .nothing,
      (d.operate i (.setSupported v)).2.2) := rfl
  rw [ho, operate_some hc, operate_eq hp]
  obtain ⟨ha, -⟩ | ⟨ha, -⟩ := Controller.perform_ends (d.handset.surroundings p) c (.setSupported v)
  · exact .inl (by rw [ha]; rfl)
  · refine .inr ?_
    simp only [offers_happenings]
    obtain ⟨-, b, hb, -⟩ := Controller.perform_broken (by rw [Controller.Turn.crashed, ha]; rfl)
    exact ⟨b, by rw [← Controller.Turn.offers, hb]; exact List.mem_singleton.2 rfl⟩

/-- After every step a controller listens just if it has support turned on. Where nobody withdraws
what is not its own, the registrations are those of the controllers with support on, one each; and
where somebody does, withdrawing support and dropping a controller still work and reach no other, and
turning support off and on leaves exactly one registration. -/
theorem listens_iff_supported {phones : List Phone} {groups : List String}
    {store : Preference.Store} {disk : FileSystem} {ms : List Move}
    (hl : groups.length ≤ phones.length)
    (hd : (fresh (Handset.fresh phones store disk) groups).moves ms = d) :
    (∀ i c, d.controller? i = some c → c.isListening = c.supported) ∧
    ((∀ m ∈ ms, ¬ m.Meddles) → d.handset.registry.listeners.Perm d.supporting ∧
      d.handset.registry.count = d.supporting.length) ∧
    ∀ i c, d.controller? i = some c →
      let off := d.step (.operate i (.setSupported false))
      let gone := d.step (.drop i)
      (off.2.1 = .answered .done ∨ ∃ b, (b, .crashed) ∈ offers i off.2.2) ∧
      gone.1.controller? i = none ∧
      i ∉ off.1.handset.registry.listeners ∧ i ∉ gone.1.handset.registry.listeners ∧
      (∀ e ∈ d.handset.registry.entries, e.2 ≠ i →
        e ∈ off.1.handset.registry.entries ∧ e ∈ gone.1.handset.registry.entries) ∧
      (off.1.step (.operate i (.setSupported true))).1.handset.registry.listeners.count i = 1 := by
  subst hd
  have h₀ := rostered_fresh hl store disk
  have hd := h₀.moves ms
  refine ⟨hd.listening, fun hm => ?_, fun i c hc => ?_⟩
  · have hp := hd.listeners_perm
      (h₀.complete_moves (Registry.complete_empty (ticket_fresh _ groups)) hm)
    refine ⟨hp, ?_⟩
    rw [← hp.length_eq, Registry.listeners, List.length_map, Registry.count]
  · intro off gone
    have hoff : off.1.Rostered := hd.step _
    have hgone : gone.1.Rostered := hd.step _
    have hnone : gone.1.controller? i = none := controller?_drop _ i
    obtain ⟨c', hc', hs'⟩ := supported_operate hd hc false
    refine ⟨answered_or_crashed hd hc false, hnone, ?_, ?_, fun e he hi => ⟨?_, ?_⟩, ?_⟩
    · refine hoff.orderly.not_mem (ticket_eq_none hoff fun x hx => ?_)
      obtain rfl := Option.some.inj (hc'.symm.trans hx)
      exact hs'
    · refine hgone.orderly.not_mem ?_
      rw [ticket, hnone]
      rfl
    · exact hd.orderly.owned.mem_ne hi (enrols_own hc _) he
    · exact hd.orderly.owned.mem_ne hi (enrols_drop hd.seated i) he
    · exact count_turned_on hoff hc' hs'

theorem listens_iff_supported_after_crash :
    let d₀ := fresh (Handset.fresh [.fresh ⟨0⟩ ⟨1⟩, .fresh ⟨1⟩ ⟨2⟩] (.memory .empty) .empty) ["", ""]
    let ms : List Move := [.request (.change (.install ⟨1⟩ (.offering true))),
      .request (.change .poison), .request (.operate 0 (.setSupported true)),
      .request (.operate 1 (.setSupported true))]
    let d := d₀.moves (ms ++ [.withdraw 0])
    (d₀.moves ms).handset.registry.count = 2 ∧ d.handset.registry.listeners = [1] ∧
      (d.controller? 0).map (·.isListening) = some true ∧
      ((d.step (.operate 0 (.setSupported false))).1.step
        (.operate 0 (.setSupported true))).1.handset.registry.listeners.count 0 = 1 := by
  intro d₀ ms d
  have hl : ["", ""].length ≤ [Phone.fresh ⟨0⟩ ⟨1⟩, Phone.fresh ⟨1⟩ ⟨2⟩].length := by decide
  have hm : ∀ m ∈ ms, ¬ m.Meddles := by simp [ms, Move.Meddles]
  have hs : (d₀.moves ms).supporting = [0, 1] := by decide
  have hk := (listens_iff_supported hl (d := d₀.moves ms) rfl).2.1 hm
  have hd := listens_iff_supported hl (d := d) rfl
  obtain ⟨c, hc, hs'⟩ : ∃ c ∈ d.controller? 0, c.supported = true := by decide
  obtain ⟨-, -, -, -, -, hon⟩ := hd.2.2 0 c hc
  refine ⟨hk.2.trans (congrArg List.length hs), by decide, ?_, hon⟩
  rw [Option.mem_def.1 hc, Option.map_some, hd.1 0 c hc, hs']

end Handset.Direct

end CallWaiting
