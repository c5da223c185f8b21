import CallWaiting.Proofs.Handset.Settlement

/-!
Where an update is filed. It looks up what is saved under the subscription that it is for, but puts its
outcome down under the one that the phone is on by then. If these are two, the choice of one is
recorded as the choice of the other.
-/

namespace CallWaiting

open Preference (Batch Fate Key)
open Controller (Operation Surroundings Transition recordBatch)

namespace Controller

variable {env : Surroundings} {c : Controller} {s : SubscriptionId} {bundle : Option Bundle}
  {b : Bundle} {enforced : Bool}

def outcome (c : Controller) (env : Surroundings) (s : SubscriptionId) (b : Bundle)
    (enforced : Bool) : Transition :=
  ⟨.merge b.defaultState (c.savedState env s) enforced, b.sync, enforced⟩

lemma offers_update_none : (c.perform env (.update s none enforced)).offers = [] :=
  (perform_sameWork env c (.update s none enforced)).offers

lemma offers_update_idle (hi : (c.outcome env s b enforced).IsIdle env c) :
    (c.perform env (.update s (some b) enforced)).offers = [] := by
  have hr : c.Rests env (.update s (some b) enforced) := by
    intro y hy
    obtain rfl := Option.some.inj hy
    exact hi
  exact (perform_rests hr).offers

lemma offers_update (hi : ¬ (c.outcome env s b enforced).IsIdle env c) :
    (c.perform env (.update s (some b) enforced)).offers =
      [((c.outcome env s b enforced).batch env c, env.fate ((c.outcome env s b enforced).batch env c))] := by
  have hx : (c.intent env (.update s (some b) enforced)).2 = some (c.outcome env s b enforced) := rfl
  exact (perform_carried hx hi).offers

end Controller

namespace Handset

variable {h : Handset} {i : Nat} {p : Phone} {c : Controller} {s t : SubscriptionId}
  {bundle : Option Bundle} {b : Bundle} {enforced : Bool} {group : String}

/-- An update that records its outcome in the place of something else that is saved for another
subscription, the one that the phone is on. -/
structure Misfiles (h : Handset) (p : Phone) (c : Controller) (s : SubscriptionId) (b : Bundle)
    (enforced : Bool) : Prop where
  elsewhere : p.subscription ≠ s
  moves : ¬ (c.outcome (h.surroundings p) s b enforced).IsIdle (h.surroundings p) c
  stored : h.fate ((c.outcome (h.surroundings p) s b enforced).batch (h.surroundings p) c) = .stored
  differs : h.store.get? c.group (.state p.subscription) ≠
    some (c.outcome (h.surroundings p) s b enforced).state.code

lemma value?_batch (y : Transition) : (y.batch (h.surroundings p) c).value? group (.state t) =
    if group = c.group ∧ t = p.subscription then some y.state.code else none := by
  by_cases hg : group = c.group
  · subst hg
    rw [Transition.batch, surroundings_subscription, value?_state]
    simp
  · have hb : (y.batch (h.surroundings p) c).group ≠ group := Ne.symm hg
    rw [Batch.value?, if_neg hb, if_neg fun hh => hg hh.1]

lemma get?_update_none (hp : h.phones[i]? = some p) :
    (h.operate i c (.update s none enforced)).1.store.get? group (.state t) =
      h.store.get? group (.state t) := by
  rw [get?_operate, operate_eq hp, Controller.offers_update_none]
  rfl

lemma get?_update_dropped (hp : h.phones[i]? = some p)
    (hd : (c.outcome (h.surroundings p) s b enforced).IsIdle (h.surroundings p) c ∨
      h.fate ((c.outcome (h.surroundings p) s b enforced).batch (h.surroundings p) c) ≠ .stored) :
    (h.operate i c (.update s (some b) enforced)).1.store.get? group (.state t) =
      h.store.get? group (.state t) := by
  rw [get?_operate, operate_eq hp]
  by_cases hi : (c.outcome (h.surroundings p) s b enforced).IsIdle (h.surroundings p) c
  · rw [Controller.offers_update_idle hi]
    rfl
  · have hf : (h.surroundings p).fate
        ((c.outcome (h.surroundings p) s b enforced).batch (h.surroundings p) c) ≠ .stored :=
      hd.resolve_left hi
    rw [Controller.offers_update hi]
    simp only [numberAfter, List.foldl_cons, List.foldl_nil, if_neg hf]

lemma get?_update_stored (hp : h.phones[i]? = some p)
    (hi : ¬ (c.outcome (h.surroundings p) s b enforced).IsIdle (h.surroundings p) c)
    (hf : h.fate ((c.outcome (h.surroundings p) s b enforced).batch (h.surroundings p) c) = .stored) :
    (h.operate i c (.update s (some b) enforced)).1.store.get? group (.state t) =
      if group = c.group ∧ t = p.subscription then
        some (c.outcome (h.surroundings p) s b enforced).state.code
      else h.store.get? group (.state t) := by
  have hf' : (h.surroundings p).fate
      ((c.outcome (h.surroundings p) s b enforced).batch (h.surroundings p) c) = .stored := hf
  rw [get?_operate, operate_eq hp, Controller.offers_update hi]
  simp only [numberAfter, List.foldl_cons, List.foldl_nil, if_pos hf', value?_batch]
  split <;> rfl

theorem update_confined_iff (hp : h.phones[i]? = some p) (c : Controller) (s : SubscriptionId)
    (bundle : Option Bundle) (enforced : Bool) :
    ((∀ group t, t ≠ s →
        (h.operate i c (.update s bundle enforced)).1.store.get? group (.state t) =
          h.store.get? group (.state t)) ↔ ∀ b ∈ bundle, ¬ h.Misfiles p c s b enforced) ∧
    ∀ b ∈ bundle, h.Misfiles p c s b enforced → ∀ group t,
      (h.operate i c (.update s bundle enforced)).1.store.get? group (.state t) =
        if group = c.group ∧ t = p.subscription then
          some (State.merge b.defaultState (h.savedState c.group s) enforced).code
        else h.store.get? group (.state t) := by
  have hm : ∀ b ∈ bundle, h.Misfiles p c s b enforced → ∀ group t,
      (h.operate i c (.update s bundle enforced)).1.store.get? group (.state t) =
        if group = c.group ∧ t = p.subscription then
          some (c.outcome (h.surroundings p) s b enforced).state.code
        else h.store.get? group (.state t) := by
    rintro b hb hm group t
    obtain rfl : bundle = some b := hb
    exact get?_update_stored hp hm.moves hm.stored
  refine ⟨⟨fun hk b hb hf => ?_, fun hk group t ht => ?_⟩, hm⟩
  · have hn := hk c.group p.subscription hf.elsewhere
    rw [hm b hb hf, if_pos ⟨rfl, rfl⟩] at hn
    exact hf.differs hn.symm
  · cases bundle with
    | none => exact get?_update_none hp
    | some b =>
      by_cases hd : (c.outcome (h.surroundings p) s b enforced).IsIdle (h.surroundings p) c ∨
          h.fate ((c.outcome (h.surroundings p) s b enforced).batch (h.surroundings p) c) ≠ .stored
      · exact get?_update_dropped hp hd
      · -- the batch is stored, under the phone's subscription
        obtain ⟨hi, hf⟩ := not_or.1 hd
        have hf := not_not.1 hf
        rw [get?_update_stored hp hi hf]
        split
        · rename_i hg
          obtain ⟨rfl, rfl⟩ := hg
          by_contra hne
          exact hk b rfl ⟨ht, hi, hf, fun he => hne he.symm⟩
        · rfl

set_option maxRecDepth 10000 in
theorem update_confined_after_swap :
    let d := Direct.single.run [.operate 0 (.update ⟨1⟩ (some (.offering true)) false),
      .change (.swap 0 ⟨2⟩)]
    let c : Controller := ⟨"", none, false, true, .activated, .none, ⟨1⟩⟩
    d.controller? 0 = some c ∧
      (d.handset.operate 0 c (.update ⟨2⟩ (some (.offering false)) false)).1.store.get? ""
        (.state ⟨2⟩) = some 0 ∧
      ∀ group t, t ≠ ⟨2⟩ →
        (d.handset.operate 0 c (.update ⟨2⟩ (some (.offering false)) false)).1.store.get? group
          (.state t) = d.handset.store.get? group (.state t) := by
  intro d c
  have hp : d.handset.phones[0]? = some ⟨⟨0⟩, ⟨2⟩, [.activated]⟩ := rfl
  refine ⟨by decide, by decide, ?_⟩
  exact (update_confined_iff hp c ⟨2⟩ (some (.offering false)) false).1.2
    fun b hb hm => hm.elsewhere rfl

set_option maxRecDepth 10000 in
theorem not_update_confined :
    let d := Direct.single.run [.change (.install ⟨1⟩ (.offering true)),
      .operate 0 (.setSupported true), .operate 0 (.request false .voice)]
    let c : Controller := ⟨"", some 0, true, true, .notActivated, .none, ⟨1⟩⟩
    let h := (d.handset.operate 0 c (.update ⟨2⟩ (some (.offering true)) false)).1
    d.controller? 0 = some c ∧ d.handset.store.get? "" (.state ⟨1⟩) = some 0 ∧
      h.store.get? "" (.state ⟨1⟩) = some 1 ∧ h.store.get? "" (.state ⟨2⟩) = none ∧
      ¬ ∀ group t, t ≠ ⟨2⟩ →
        h.store.get? group (.state t) = d.handset.store.get? group (.state t) := by
  intro d c h
  have h₀ : d.handset.store.get? "" (.state ⟨1⟩) = some 0 := by decide
  have h₁ : h.store.get? "" (.state ⟨1⟩) = some 1 := by decide
  refine ⟨by decide, h₀, h₁, by decide, fun hk => ?_⟩
  have hn := hk "" ⟨1⟩ (by decide)
  rw [h₀, h₁] at hn
  exact absurd hn (by decide)

end Handset

end CallWaiting
