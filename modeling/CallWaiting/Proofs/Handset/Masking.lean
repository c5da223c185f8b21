import CallWaiting.Proofs.Controller.UpToDate
import CallWaiting.Proofs.Handset.Verdict

/-!
A phone without a subscription. Once its controller has seen that there is none, it shows no setting
for as long as there is none, unless a bundle is handed to it directly: that is taken to be for a
valid subscription until the controller looks again.
-/

namespace CallWaiting

namespace Controller

variable {env : Surroundings} {c : Controller} {op : Operation}

lemma verdict?_eq (env : Surroundings) (c : Controller) (hu : ¬ op.IsUpdate) :
    c.verdict? env op = if c.Looks env op then some env.subscription.isValid else none := by
  cases op with
  | update s bundle enforced => exact absurd trivial hu
  | hear slot | setSupported on => rfl
  | interrogate | request enable serviceClass | readState => rfl

end Controller

namespace Handset.Direct

open Controller (Operation Knows)

variable {d : Direct} {r : Request} {rs : List Request} {i : Nat} {c : Controller} {op : Operation}
  {v : Option Bool}

def IsAbsent (i : Nat) (d : Direct) : Prop :=
  ∃ p ∈ d.handset.phones[i]?, p.subscription.isValid = false

instance (i : Nat) (d : Direct) : Decidable (d.IsAbsent i) :=
  inferInstanceAs (Decidable (∃ p ∈ d.handset.phones[i]?, p.subscription.isValid = false))

def Heeds (i : Nat) (d : Direct) (op : Operation) : Prop :=
  ∃ c ∈ d.controller? i, ∃ p ∈ d.handset.phones[i]?, c.Looks (d.handset.surroundings p) op

instance (i : Nat) (d : Direct) (op : Operation) : Decidable (d.Heeds i op) :=
  inferInstanceAs (Decidable (∃ c ∈ d.controller? i, ∃ p ∈ d.handset.phones[i]?,
    c.Looks (d.handset.surroundings p) op))

/-- A step in which the controller of a place looks at its phone's subscription, told by a direct call
or by an event that was waiting. -/
def Evaluates (i : Nat) (d : Direct) : Request → Prop
  | .operate j op => j = i ∧ d.Heeds i op
  | .pump j => j = i ∧ ∃ slot ∈ (d.queues[i]?).getD [], d.Heeds i (.hear slot)
  | .change _ | .notify _ | .drop _ | .rebuild _ _ => False

instance (i : Nat) (d : Direct) : ∀ r, Decidable (d.Evaluates i r)
  | .operate _ _ | .pump _ => inferInstanceAs (Decidable (_ ∧ _))
  | .change _ | .notify _ | .drop _ | .rebuild _ _ => inferInstanceAs (Decidable False)

def Request.HandsBundle (i : Nat) : Request → Prop
  | .operate j op => j = i ∧ op.IsUpdate
  | .change _ | .notify _ | .pump _ | .drop _ | .rebuild _ _ => False

instance (i : Nat) : ∀ r : Request, Decidable (r.HandsBundle i)
  | .operate _ _ => inferInstanceAs (Decidable (_ ∧ _))
  | .change _ | .notify _ | .pump _ | .drop _ | .rebuild _ _ => inferInstanceAs (Decidable False)

lemma verdict?_absent (ha : d.IsAbsent i) (hu : ¬ op.IsUpdate) :
    d.verdict? i op = if d.Heeds i op then some false else none := by
  obtain ⟨p, hp, hv⟩ := ha
  cases hc : d.controller? i with
  | none => simp [verdict?, Heeds, hc]
  | some c =>
    simp [verdict?, Heeds, hc, Option.mem_def.1 hp, Controller.verdict?_eq _ _ hu, hv]

lemma foldl_or_absent {α : Type} {f : α → Option Bool} {P : α → Prop} [DecidablePred P]
    (hf : ∀ a, f a = if P a then some false else none) (as : List α) (v : Option Bool) :
    as.foldl (fun v a => (f a).or v) v = if ∃ a ∈ as, P a then some false else v := by
  induction as generalizing v with
  | nil => simp
  | cons a as ih =>
    rw [List.foldl_cons, ih, hf]
    by_cases ha : P a <;> simp [ha]

lemma looked_operate (ha : d.IsAbsent i) (hu : ¬ op.IsUpdate) (v : Option Bool) :
    d.looked i v (.operate i op) = if d.Heeds i op then some false else v := by
  rw [looked, if_pos rfl, verdict?_absent ha hu]
  split <;> rfl

lemma looked_pump (ha : d.IsAbsent i) (v : Option Bool) :
    d.looked i v (.pump i) =
      if ∃ slot ∈ (d.queues[i]?).getD [], d.Heeds i (.hear slot) then some false else v := by
  rw [looked, if_pos rfl]
  exact foldl_or_absent (fun slot => verdict?_absent ha id) _ v

lemma looked_evaluates (ha : d.IsAbsent i) (he : d.Evaluates i r) (v : Option Bool) :
    d.looked i v r = some false := by
  cases r with
  | change c | notify slot | drop j | rebuild j group => cases he
  | operate j op =>
    obtain ⟨rfl, hh⟩ := he
    have hu : ¬ op.IsUpdate := by
      obtain ⟨c, -, p, -, hp⟩ := hh
      cases op <;> first | exact hp.elim | exact id
    rw [looked_operate ha hu, if_pos hh]
  | pump j =>
    obtain ⟨rfl, hh⟩ := he
    rw [looked_pump ha, if_pos hh]

lemma looked_ne_true (ha : d.IsAbsent i) (hr : ¬ r.HandsBundle i) (hv : v ≠ some true) :
    d.looked i v r ≠ some true := by
  cases r with
  | change c | notify slot => exact hv
  | operate j op =>
    by_cases hj : j = i
    · subst hj
      rw [looked_operate ha fun hu => hr ⟨rfl, hu⟩]
      split
      · simp
      · exact hv
    · rwa [looked, if_neg hj]
  | pump j =>
    by_cases hj : j = i
    · subst hj
      rw [looked_pump ha]
      split
      · simp
      · exact hv
    · rwa [looked, if_neg hj]
  | drop j | rebuild j group =>
    rw [looked]
    split
    · simp
    · exact hv

lemma lastLook_ne_true (ha : Along (fun d _ => d.IsAbsent i) d rs)
    (hr : ∀ r ∈ rs, ¬ r.HandsBundle i) (hv : v ≠ some true) : lastLook i d v rs ≠ some true := by
  induction rs generalizing d v with
  | nil => exact hv
  | cons r rs ih =>
    exact ih ha.2 (fun r hm => hr r (List.mem_cons_of_mem _ hm))
      (looked_ne_true ha.1 (hr r List.mem_cons_self) hv)

theorem masked_until_update {h : Handset} {groups : List String} {rs' : List Request}
    (he : ((fresh h groups).run rs).Evaluates i r)
    (ha : Along (fun d _ => d.IsAbsent i) ((fresh h groups).run rs) (r :: rs')) :
    let d := (((fresh h groups).run rs).step r).1
    ∀ c, (d.run rs').controller? i = some c →
      ((∀ r' ∈ rs', ¬ r'.HandsBundle i) → c.shownState = .notSupported) ∧
      c.shownState =
        if lastLook i d (some false) rs' = some true then c.state else .notSupported := by
  intro d c hc
  have hk : KnowsAt i (some false) d := by
    have hr := ((knowsAt_fresh h groups i).run rs).step r
    rwa [looked_evaluates ha.1 he] at hr
  have hv := (hk.run rs' c hc).valid
  have hs : c.shownState =
      if lastLook i d (some false) rs' = some true then c.state else .notSupported := by
    rw [Controller.shownState, hv]
    rcases lastLook i d (some false) rs' with _ | _ | _ <;> rfl
  refine ⟨fun hr => ?_, hs⟩
  rw [hs, if_neg (lastLook_ne_true ha.2 hr (by simp))]

theorem masked_until_update_with_request :
    let rs : List Request := [.change (.install ⟨1⟩ (.offering true)),
      .operate 0 (.setSupported true), .notify ⟨0⟩, .change (.swap 0 .absent)]
    let d := ((single.run rs).step (.pump 0)).1
    let served : List Request := [.operate 0 (.request false .voice)]
    let handed : List Request :=
      served ++ [.operate 0 (.update ⟨1⟩ none false), .operate 0 (.hear ⟨1⟩)]
    (single.run rs).Evaluates 0 (.pump 0) ∧
      Along (fun d _ => d.IsAbsent 0) (single.run rs) (.pump 0 :: handed) ∧
      (d.run served).shown 0 = some .notSupported ∧
      (d.run handed).shown 0 = some .notActivated := by
  intro rs d served handed
  have he : (single.run rs).Evaluates 0 (.pump 0) := by decide
  have ha : Along (fun d _ => d.IsAbsent 0) (single.run rs) (.pump 0 :: handed) := by decide
  have ha' : Along (fun d _ => d.IsAbsent 0) (single.run rs) (.pump 0 :: served) := by decide
  obtain ⟨c, hc⟩ : ∃ c, (d.run served).controller? 0 = some c :=
    Option.isSome_iff_exists.1 (by decide)
  obtain ⟨c', hc'⟩ : ∃ c', (d.run handed).controller? 0 = some c' :=
    Option.isSome_iff_exists.1 (by decide)
  have hs := (masked_until_update he ha' c hc).1 (by decide)
  have hl : lastLook 0 d (some false) handed = some true := by decide
  have hs' := (masked_until_update he ha c' hc').2.trans (if_pos hl)
  have hn : c'.state = .notActivated := by
    have hn : ((d.run handed).controller? 0).map (·.state) = some .notActivated := by decide
    rw [hc'] at hn
    exact Option.some.inj hn
  refine ⟨he, ha, ?_, ?_⟩
  · rw [shown, hc, Option.map_some, hs]
  · rw [shown, hc', Option.map_some, hs', hn]

theorem not_masked_after_update :
    let rs : List Request := [.change (.install ⟨1⟩ (.offering true)),
      .operate 0 (.setSupported true), .change (.swap 0 .absent)]
    let d := single.run rs
    let d' := (d.step (.operate 0 (.hear ⟨0⟩))).1
    d.Evaluates 0 (.operate 0 (.hear ⟨0⟩)) ∧ d.IsAbsent 0 ∧ d'.IsAbsent 0 ∧
      d'.shown 0 = some .notSupported ∧
      (d'.step (.operate 0 (.update ⟨1⟩ none false))).1.IsAbsent 0 ∧
      (d'.step (.operate 0 (.update ⟨1⟩ none false))).1.shown 0 = some .activated := by
  decide

end Handset.Direct

end CallWaiting
