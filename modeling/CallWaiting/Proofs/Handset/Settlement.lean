import CallWaiting.Proofs.Controller.Twin
import CallWaiting.Proofs.Handset.Enrolment

namespace CallWaiting.Handset

open Broadcast (Registry Ticket)
open Controller (Effect Operation)
open Preference (Batch Fate Key)

variable {h : Handset} {i j : Nat} {c : Controller} {op : Operation}

def numberAfter (group : String) (k : Key) (n : Option Int32) (os : List (Batch × Fate)) :
    Option Int32 :=
  os.foldl (fun n o => if o.2 = .stored then (o.1.value? group k).or n else n) n

lemma get?_operate (h : Handset) (i : Nat) (c : Controller) (op : Operation) (group : String)
    (k : Key) : (h.operate i c op).1.store.get? group k =
      numberAfter group k (h.store.get? group k) (h.operate i c op).2.offers := by
  rw [(operate_sameVault h i c op).store]
  cases hp : h.phones[i]? with
  | none =>
    simp only [operate, hp]
    rfl
  | some p =>
    rw [operate_eq hp]
    obtain ho | ⟨y, x, ho, -⟩ := Controller.offers_perform (h.surroundings p) c op
    · rw [ho]
      rfl
    · simp only [ho, offerAll, numberAfter, List.foldl_cons, List.foldl_nil]
      have hf : (h.surroundings p).fate = h.fate := rfl
      rw [hf]
      split
      · rename_i hs
        exact get?_offer hs group k
      · rename_i hs
        rw [store_offer_of_not_stored hs]

namespace Direct

variable {d : Direct} {r : Request} {lands : Nat → Territory}

structure Settled (lands : Nat → Territory) (d : Direct) : Prop where
  group : ∀ j c, d.controller? j = some c → c.group = (lands j).group
  line : ∀ j n s, d.handset.lines[j]? = some (n, s) →
    n = (lands j).phone ∧ (lands j).subscriptions s
  fits : d.controllers.length ≤ d.handset.lines.length
  owned : d.handset.registry.Owned d.ticket

def Request.Within (lands : Nat → Territory) : Request → Prop
  | .change (.swap j s) => (lands j).subscriptions s
  | .change (.put _) | .change .reopen => False
  | .change _ => True
  | .operate j op => op.Within (lands j)
  | .rebuild j group => group = (lands j).group
  | .notify _ | .pump _ | .drop _ => True

lemma Settled.phone (hd : d.Settled lands) (hc : d.controller? i = some c) :
    ∃ p, d.handset.phones[i]? = some p ∧ p.id = (lands i).phone ∧
      (lands i).subscriptions p.subscription := by
  have hi : i < d.handset.lines.length := by
    obtain ⟨hl, -⟩ := List.getElem?_eq_some_iff.1 (Option.join_eq_some_iff.1 hc)
    exact hl.trans_le hd.fits
  have hl : d.handset.lines[i]? = some d.handset.lines[i] := List.getElem?_eq_getElem hi
  obtain ⟨p, hp, hn, hs⟩ := phone_of_lines hl
  obtain ⟨h₁, h₂⟩ := hd.line i _ _ hl
  exact ⟨p, hp, hn.trans h₁, hs ▸ h₂⟩

lemma settled_fresh {phones : List Phone} {store : Preference.Store} {disk : FileSystem}
    {groups : List String} (hg : ∀ (j : Nat) g, groups[j]? = some g → g = (lands j).group)
    (hp : ∀ (j : Nat) p, phones[j]? = some p →
      p.id = (lands j).phone ∧ (lands j).subscriptions p.subscription)
    (hl : groups.length ≤ phones.length) :
    (fresh (Handset.fresh phones store disk) groups).Settled lands := by
  have hc : ∀ j c, (fresh (Handset.fresh phones store disk) groups).controller? j = some c →
      ∃ g, groups[j]? = some g ∧ c = .fresh g := by
    intro j c hc
    obtain ⟨g, hg, he⟩ :=
      Option.map_eq_some_iff.1 (List.getElem?_map.symm.trans (Option.join_eq_some_iff.1 hc))
    exact ⟨g, hg, (Option.some.inj he).symm⟩
  refine ⟨fun j c h => ?_, fun j n s h => ?_, ?_, ?_⟩
  · obtain ⟨g, h₁, rfl⟩ := hc j c h
    exact hg j g h₁
  · obtain ⟨p, h₁, rfl, rfl⟩ := phone_of_lines h
    exact hp j p h₁
  · exact isSeated_fresh hl store disk
  · exact Registry.owned_empty (ticket_fresh _ groups)

lemma Settled.operate (hd : d.Settled lands) (i : Nat) (op : Operation) :
    (d.operate i op).1.Settled lands := by
  refine ⟨fun j x hx => ?_, fun j n s hl => ?_, IsSeated.operate hd.fits i op,
    lasts_operate Registry.lasts_owned hd.owned i op⟩
  · cases hc : d.controller? i with
    | none =>
      rw [operate_none hc] at hx
      exact hd.group j x hx
    | some c =>
      by_cases hj : j = i
      · subst hj
        rw [controller?_operate hc] at hx
        cases hx
        exact (group_operate _ _ _ _).trans (hd.group j c hc)
      · rw [controller?_operate_ne hj] at hx
        exact hd.group j x hx
  · rw [lines_operate] at hl
    exact hd.line j n s hl

lemma Settled.deliver (hd : d.Settled lands) (i : Nat) (slots : List PhoneId) :
    (d.deliver i slots).1.Settled lands :=
  deliver_keeps (Settled lands) (fun _ slot hd => hd.operate i (.hear slot)) hd slots

lemma Settled.drop (hd : d.Settled lands) (i : Nat) : (d.drop i).1.Settled lands := by
  refine ⟨fun j x hx => ?_, fun j n s hl => ?_, IsSeated.drop hd.fits i,
    lasts_drop Registry.lasts_owned hd.owned hd.fits i⟩
  · by_cases hj : j = i
    · subst hj
      rw [controller?_drop] at hx
      cases hx
    · rw [controller?_drop_ne hj] at hx
      exact hd.group j x hx
  · rw [lines_drop] at hl
    exact hd.line j n s hl

theorem Settled.step (hd : d.Settled lands) (hr : r.Within lands) : (d.step r).1.Settled lands := by
  cases r with
  | change x =>
    cases x with
    | swap i s =>
      refine ⟨hd.group, fun j n t hl => ?_, IsSeated.step hd.fits (.change (.swap i s)), hd.owned⟩
      · obtain ⟨p', hp', rfl, rfl⟩ := phone_of_lines hl
        obtain ⟨p, hp, rfl⟩ := Option.map_eq_some_iff.1 ((List.getElem?_modify _ _ _ _).symm.trans hp')
        obtain ⟨h₁, h₂⟩ := hd.line j p.id p.subscription (by simp [lines, hp])
        split
        · rename_i hi
          exact ⟨h₁, hi ▸ hr⟩
        · exact ⟨h₁, h₂⟩
    | withdrawAll => exact ⟨hd.group, hd.line, hd.fits, hd.owned.withdrawAll⟩
    | put b | reopen => cases hr
    | install s b | remove s | refuse on | poison => exact ⟨hd.group, hd.line, hd.fits, hd.owned⟩
  | notify slot => exact ⟨hd.group, hd.line, hd.fits, hd.owned⟩
  | operate i op => exact hd.operate i op
  | pump i =>
    obtain hst | ⟨slots, -, hst⟩ := step_pump d i
    · rwa [hst]
    · rw [hst]
      exact Settled.deliver (d := { d with queues := d.queues.set i [] })
        ⟨hd.group, hd.line, hd.fits, hd.owned⟩ i slots
  | drop i => exact hd.drop i
  | rebuild i group =>
    have hdr := hd.drop i
    refine ⟨fun j x hx => ?_, hdr.line, IsSeated.step hd.fits (.rebuild i group),
      lasts_step Registry.lasts_owned hd.owned hd.fits (fun h => by cases h)⟩
    by_cases hj : j = i
    · subst hj
      rw [controller?_rebuild hx]
      exact hr
    · exact hdr.group j x ((controller?_set hj).symm.trans hx)

end Direct

end CallWaiting.Handset
