import CallWaiting.Proofs.Handset.Relapse
import CallWaiting.Proofs.Handset.Telling

/-!
Evaluations that are repeated. What one of them comes to is a fixed point of the merge, whether or not it
arrived in the store, so that the next finds nothing to change. An enforced bundle is written every time.
-/

namespace CallWaiting

namespace Controller

variable {env env' : Surroundings} {c : Controller} {op op' : Operation} {s : SubscriptionId}
  {bundle : Option Bundle} {enforced : Bool} {slot : PhoneId}

namespace Operation

/-- What an operation weighs up: the bundle that is handed in, or else the one that is loaded. Against
an enforced bundle nothing saved has any weight. -/
def sight (env : Surroundings) (c : Controller) : Operation → Sight
  | .update s bundle enforced =>
    ⟨env.subscription, bundle, if enforced then .notSupported else c.savedState env s⟩
  | .hear _ | .setSupported _ | .interrogate | .request _ _ | .readState => env.sight c

def Repeats : Operation → Operation → Prop
  | .hear _, .hear _ => True
  | .update s bundle enforced, op => op = .update s bundle enforced
  | _, _ => False

def IsGentle (n : PhoneId) : Operation → Prop
  | .hear slot => slot = n
  | .update _ bundle enforced => enforced = true → bundle = none
  | .setSupported _ | .interrogate | .request _ _ | .readState => False

end Operation

lemma intent_update (env : Surroundings) (c : Controller) (s : SubscriptionId)
    (bundle : Option Bundle) (enforced : Bool) :
    c.intent env (.update s bundle enforced) = ({ c with validSubscription := true },
      bundle.map fun b => ⟨.merge b.defaultState
        (Operation.sight env c (.update s bundle enforced)).saved enforced, b.sync, enforced⟩) := by
  cases enforced <;> rfl

lemma intent_sight (hr : op.Repeats op') (hp : env'.phone = env.phone)
    (hs : op.sight env' c = op.sight env c) : c.intent env' op' = c.intent env op' := by
  cases op with
  | hear slot =>
    cases op' with
    | hear slot' =>
      have hv : env'.sight c = env.sight c := hs
      have hl : ∀ env : Surroundings, c.lookAgain env =
          if (env.sight c).subscription.isValid then ({ c with validSubscription := true },
            (env.sight c).bundle.map fun b =>
              ⟨.merge b.defaultState (env.sight c).saved false, b.sync, false⟩)
          else ({ c with validSubscription := false }, none) := fun _ => rfl
      simp only [intent, hp, hl, hv]
    | update s bundle enforced | setSupported v | interrogate | request enable classes | readState =>
      cases hr
  | update s bundle enforced =>
    obtain rfl : op' = .update s bundle enforced := hr
    rw [intent_update, intent_update, hs]
  | setSupported v | interrogate | request enable classes | readState => cases hr

lemma IsMoot.congr (h : c.IsMoot env op') (hr : op.Repeats op') (hp : env'.phone = env.phone)
    (hs : op.sight env' c = op.sight env c) : c.IsMoot env' op' := by
  have hi := intent_sight hr hp hs
  have hsub : env'.subscription = env.subscription := by
    have hv := congrArg Sight.subscription hs
    cases op <;> exact hv
  refine ⟨hi ▸ h.prepared, fun y hy => ?_⟩
  rw [hi] at hy ⊢
  have hy := h.rests y hy
  rwa [Transition.IsIdle, isSettled, hsub, ← isSettled, ← Transition.IsIdle]

lemma isMoot_update (hg : enforced = true → bundle = none) :
    c.IsMoot env (.update s bundle enforced) ↔ c.validSubscription = true ∧
      ∀ b ∈ bundle, c.isSettled env (.merge b.defaultState (c.savedState env s) false) b.sync = true := by
  constructor
  · intro h
    have hv : { c with validSubscription := true } = c := h.prepared
    refine ⟨(congrArg validSubscription hv).symm, fun b hb => ?_⟩
    obtain rfl : bundle = some b := hb
    have he : enforced = false := Bool.eq_false_iff.2 fun he => nomatch hg he
    have hi := (h.rests _ (by rw [he]; rfl)).1
    rw [h.prepared] at hi
    exact hi
  · rintro ⟨hv, hb⟩
    have hc : { c with validSubscription := true } = c := by rw [← hv]
    refine ⟨hc, fun y hy => ?_⟩
    obtain ⟨b, rfl, rfl⟩ := Option.map_eq_some_iff.1 hy
    have he : enforced = false := Bool.eq_false_iff.2 fun he => nomatch hg he
    rw [show (c.intent env (.update s (some b) enforced)).1 = c from hc]
    subst he
    exact ⟨hb b rfl, rfl⟩

lemma perform_hear_valid (hs : slot.isValid = true ∧ slot = env.phone)
    (hv : env.subscription.isValid = true) : c.perform env (.hear slot) =
      c.perform env (.update env.subscription (env.bundle env.subscription) false) := by
  obtain ⟨hs, rfl⟩ := hs
  simp [perform, hear, hs, reevaluate, hv]

lemma intent_hear_valid (hs : slot.isValid = true ∧ slot = env.phone)
    (hv : env.subscription.isValid = true) : c.intent env (.hear slot) =
      c.intent env (.update env.subscription (env.bundle env.subscription) false) := by
  rw [intent, if_pos hs, lookAgain, if_pos hv]
  rfl

lemma intent_hear_invalid (hs : slot.isValid = true ∧ slot = env.phone)
    (hv : env.subscription.isValid = false) :
    c.intent env (.hear slot) = ({ c with validSubscription := false }, none) := by
  rw [intent, if_pos hs, lookAgain, hv]
  rfl

lemma intent_hear_other (hs : ¬ (slot.isValid = true ∧ slot = env.phone)) :
    c.intent env (.hear slot) = (c, none) := by
  rw [intent, if_neg hs]

lemma IsMoot.of_intent_eq (h : c.IsMoot env op) (hi : c.intent env op' = c.intent env op) :
    c.IsMoot env op' :=
  ⟨hi ▸ h.prepared, fun y hy => by rw [hi] at hy ⊢; exact h.rests y hy⟩

end Controller

namespace Handset

open Controller (Operation Transition Sight)
open Preference (Batch Fate)

variable {h : Handset} {i : Nat} {p p' : Phone} {c : Controller} {op : Operation} {s t : SubscriptionId}
  {bundle : Option Bundle} {enforced : Bool}

lemma savedState_operate (hp : h.phones[i]? = some p) (c : Controller) (op : Operation)
    (t : SubscriptionId) :
    (h.operate i c op).1.savedState c.group t = h.savedState c.group t ∨
      ∃ y, (c.intent (h.surroundings p) op).2 = some y ∧
        (h.operate i c op).1.savedState c.group t = y.state := by
  have hv := operate_sameVault h i c op
  have ht : (h.operate i c op).2 = c.perform (h.surroundings p) op := by rw [operate_eq hp]
  rw [ht] at hv
  obtain hr | ⟨y, hx, hy⟩ := Controller.rests_or (h.surroundings p) c op
  · rw [(Controller.perform_rests hr).offers] at hv
    exact .inl (hv.savedState _ _)
  · rw [(Controller.perform_carried hx hy).offers] at hv
    rw [hv.savedState]
    by_cases hf : h.fate (y.batch (h.surroundings p) (c.intent (h.surroundings p) op).1) = .stored
    · have hs := savedState_offer hf c.group t
      split at hs
      · exact .inr ⟨y, hx, hs⟩
      · exact .inl hs
    · have hs := store_offer_of_not_stored hf
      refine .inl ?_
      simp only [offerAll, List.foldl_cons, List.foldl_nil, savedState]
      exact congrArg (fun st : Preference.Store => State.ofCode ((st.get? c.group (.state t)).getD _)) hs

lemma isMoot_update_again (hp : h.phones[i]? = some p) (hg : enforced = true → bundle = none)
    (hn : (h.operate i c (.update s bundle enforced)).2.crashed = false)
    (hs : p'.subscription = p.subscription) :
    (h.operate i c (.update s bundle enforced)).2.controller.IsMoot
      ((h.operate i c (.update s bundle enforced)).1.surroundings p') (.update s bundle enforced) := by
  have hsv := savedState_operate hp c (.update s bundle enforced) s
  set h' := (h.operate i c (.update s bundle enforced)).1
  rw [operate_eq hp] at hn ⊢
  simp only at hn ⊢
  cases bundle with
  | none => exact (Controller.isMoot_update hg).2 ⟨rfl, nofun⟩
  | some b =>
    obtain rfl : enforced = false := Bool.eq_false_iff.2 fun he => nomatch hg he
    let y : Transition := ⟨.merge b.defaultState (h.savedState c.group s) false, b.sync, false⟩
    let x : Controller := { c with validSubscription := true }
    have hm : Controller.Moves (h.surroundings p) x y
        (c.perform (h.surroundings p) (.update s (some b) false)) := Controller.perform_moves rfl
    rw [Controller.isMoot_update hg, hm.controller hn]
    refine ⟨rfl, ?_⟩
    rintro _ ⟨⟩
    have hy : y.state = .merge b.defaultState (h'.savedState c.group s) false := by
      obtain hsv | ⟨z, hz, hsv⟩ := hsv
      · rw [hsv]
      · obtain rfl : y = z := Option.some.inj hz
        rw [hsv]
        exact (State.merge_merge _ _).symm
    exact (Controller.isSettled_iff _ _ _ _).2 ⟨hs.symm, hy, rfl⟩

lemma isMoot_hear_again {slot : PhoneId} (hp : h.phones[i]? = some p)
    (hn : (h.operate i c (.hear p.id)).2.crashed = false) (hi : p'.id = p.id)
    (hs : p'.subscription = p.subscription) :
    (h.operate i c (.hear p.id)).2.controller.IsMoot
      ((h.operate i c (.hear p.id)).1.surroundings p') (.hear slot) := by
  by_cases ho : slot.isValid = true ∧ slot = p'.id
  · obtain ⟨hv, rfl⟩ := ho
    have hv' : p.id.isValid = true ∧ p.id = (h.surroundings p).phone := ⟨hi ▸ hv, rfl⟩
    by_cases hsub : p.subscription.isValid = true
    · have ho : h.operate i c (.hear p.id) =
          h.operate i c (.update p.subscription (h.bundles.get? p.subscription) false) := by
        rw [operate_eq hp, operate_eq hp, Controller.perform_hear_valid hv' hsub]
        rfl
      rw [ho] at hn ⊢
      have hb := bundles_operate h i c (.update p.subscription (h.bundles.get? p.subscription) false)
      have hm := isMoot_update_again hp (fun he => absurd he Bool.false_ne_true) hn hs
      refine hm.of_intent_eq ?_
      rw [Controller.intent_hear_valid ⟨hv, rfl⟩ (by rwa [surroundings_subscription, hs]),
        surroundings_subscription, hs, surroundings, hb]
    · have hsub : p.subscription.isValid = false := Bool.eq_false_iff.2 hsub
      have hc : (h.operate i c (.hear p.id)).2.controller = { c with validSubscription := false } := by
        rw [operate_eq hp, (Controller.perform_sameWork _ _ _).controller,
          Controller.intent_hear_invalid hv' hsub]
        rfl
      refine Controller.isMoot_of_intent ?_
      rw [hc, Controller.intent_hear_invalid ⟨hv, rfl⟩ (by rwa [surroundings_subscription, hs])]
  · exact Controller.isMoot_of_intent (Controller.intent_hear_other ho)

lemma sight_congr {h' : Handset} (hst : h'.store = h.store) (hb : h'.bundles = h.bundles)
    (op : Operation) (c : Controller) (p : Phone) :
    op.sight (h'.surroundings p) c = op.sight (h.surroundings p) c := by
  cases op <;> simp only [Operation.sight, Controller.Surroundings.sight, Controller.savedState,
    Controller.savedNumber, surroundings, hst, hb]

namespace Direct

variable {d : Direct} {r : Request} {rs : List Request} {op' : Operation} {hs hs' : List Happening}

def sight? (i : Nat) (d : Direct) (op : Operation) : Option Sight := do
  return op.sight (d.handset.surroundings (← d.handset.phones[i]?)) (← d.controller? i)

lemma sight?_some (hc : d.controller? i = some c) (hp : d.handset.phones[i]? = some p)
    (op : Operation) : d.sight? i op = some (op.sight (d.handset.surroundings p) c) := by
  simp [sight?, hc, hp]

/-- A step that asks a place for an operation again, or one elsewhere that changes nothing which the
operation weighs up. -/
inductive Insists (i : Nat) (op : Operation) (d : Direct) : Request → Prop
  | again {op' : Operation} (hr : op.Repeats op') : Insists i op d (.operate i op')
  | pump (hr : ∀ slot, op.Repeats (.hear slot)) : Insists i op d (.pump i)
  | elsewhere {r : Request} (hi : r.place? ≠ some i)
    (hs : (d.step r).1.sight? i op = d.sight? i op) : Insists i op d r

structure Poised (i : Nat) (c : Controller) (op : Operation) (d : Direct) : Prop where
  controller : d.controller? i = some c
  moot : ∃ p, d.handset.phones[i]? = some p ∧
    ∀ op', op.Repeats op' → c.IsMoot (d.handset.surroundings p) op'

structure Idles (i : Nat) (c : Controller) (op : Operation) (d : Direct) (hs : List Happening) :
    Prop where
  poised : d.Poised i c op
  offers : offers i hs = []
  pushes : pushes i hs = []

lemma Idles.append {d' : Direct} (h : d.Idles i c op hs) (h' : d'.Idles i c op hs') :
    d'.Idles i c op (hs ++ hs') := by
  refine ⟨h'.poised, ?_, ?_⟩
  · rw [offers_append, h.offers, h'.offers, List.append_nil]
  · rw [pushes_append, h.pushes, h'.pushes, List.append_nil]

lemma Poised.again (h : d.Poised i c op) (hr : op.Repeats op') :
    (d.operate i op').1.Idles i c op (d.operate i op').2.2 := by
  obtain ⟨p, hp, hm⟩ := h.moot
  have hw := (hm op' hr).perform
  have hv := operate_sameVault d.handset i c op'
  have hb := Handset.bundles_operate d.handset i c op'
  rw [operate_some h.controller]
  rw [operate_eq hp] at hv hb ⊢
  rw [hw.offers] at hv
  refine ⟨⟨?_, p, ?_, fun op'' hr'' => ?_⟩, ?_, ?_⟩
  · exact (controller?_set_self h.controller _).trans (congrArg some hw.controller)
  · exact (congrArg (·[i]?) (phones_applyAll hw.pushes)).trans hp
  · exact (hm op'' hr'').congr hr'' rfl (sight_congr hv.store hb op c p)
  · rw [offers_happenings]
    exact hw.offers
  · rw [pushes_happenings]
    exact hw.pushes

lemma Poised.deliver (h : d.Poised i c op) (hr : ∀ slot, op.Repeats (.hear slot))
    (slots : List PhoneId) : (d.deliver i slots).1.Idles i c op (d.deliver i slots).2 := by
  induction slots generalizing d with
  | nil => exact ⟨h, rfl, rfl⟩
  | cons slot slots ih =>
    have hh := h.again (hr slot)
    rw [deliver_cons]
    exact hh.append (ih hh.poised)

lemma Poised.elsewhere (h : d.Poised i c op) (hi : r.place? ≠ some i)
    (hs : (d.step r).1.sight? i op = d.sight? i op) :
    (d.step r).1.Idles i c op (d.step r).2.2 := by
  obtain ⟨p, hp, hm⟩ := h.moot
  have hc : (d.step r).1.controller? i = some c := (controller?_step_ne hi).trans h.controller
  have ht := told_step_ne (d := d) hi
  rw [hp] at ht
  obtain ⟨p', hp', he⟩ := Option.map_eq_some_iff.1 ht
  have ho := own_elsewhere (d := d) hi
  refine ⟨⟨hc, p', hp', fun op' hr => ?_⟩, by rw [offers, ho]; rfl, by rw [pushes, ho]; rfl⟩
  rw [sight?_some hc hp', sight?_some h.controller hp] at hs
  exact (hm op' hr).congr hr (congrArg Prod.fst he) (Option.some.inj hs)

theorem Poised.step (h : d.Poised i c op) (hr : d.Insists i op r) :
    (d.step r).1.Idles i c op (d.step r).2.2 := by
  cases hr with
  | again hr => exact h.again hr
  | pump hr =>
    obtain hst | ⟨slots, -, hst⟩ := step_pump d i
    · rw [hst]
      exact ⟨h, rfl, rfl⟩
    · rw [hst]
      exact Poised.deliver (d := { d with queues := d.queues.set i [] }) ⟨h.controller, h.moot⟩ hr slots
  | elsewhere hi hs => exact h.elsewhere hi hs

theorem Poised.run (h : d.Poised i c op) (hr : Along (Insists i op) d rs) :
    (d.run rs).Idles i c op (d.happenings rs) := by
  induction rs generalizing d with
  | nil => exact ⟨h, rfl, rfl⟩
  | cons r rs ih =>
    have hh := h.step hr.1
    exact hh.append (ih hh.poised hr.2)

lemma not_crashed_of_answers (hc : d.controller? i = some c) (hp : d.handset.phones[i]? = some p)
    (ha : Answers i (d.operate i op).2.2) : (d.handset.operate i c op).2.crashed = false := by
  refine Bool.eq_false_iff.2 fun hn => ?_
  rw [operate_some hc] at ha
  rw [operate_eq hp] at ha hn
  obtain ⟨-, b, ho, -⟩ := Controller.perform_broken hn
  refine ha (b, .crashed) ?_ rfl
  rw [offers_happenings, ← Controller.Turn.offers, ho]
  exact List.mem_singleton.2 rfl

lemma poised_operate (hc : d.controller? i = some c) (hp : d.handset.phones[i]? = some p)
    (hg : op.IsGentle p.id) (ha : Answers i (d.operate i op).2.2) :
    (d.operate i op).1.Poised i (d.handset.operate i c op).2.controller op := by
  have hn := not_crashed_of_answers hc hp ha
  have hp' := Handset.phone_operate hp c op
  refine ⟨controller?_operate hc op, ?_⟩
  rw [operate_some hc]
  refine ⟨_, hp', fun op' hr => ?_⟩
  cases op with
  | hear slot =>
    obtain rfl : slot = p.id := hg
    cases op' with
    | hear slot' => exact isMoot_hear_again hp hn rfl rfl
    | update s bundle enforced | setSupported v | interrogate | request enable classes | readState =>
      cases hr
  | update s bundle enforced =>
    obtain rfl : op' = .update s bundle enforced := hr
    exact isMoot_update_again hp hg hn rfl
  | setSupported v | interrogate | request enable classes | readState => cases hr

structure Writes (i : Nat) (op : Operation) (batch : Batch) (state : State) (d : Direct) : Prop where
  offers : offers i (d.step (.operate i op)).2.2 = [(batch, d.handset.fate batch)]
  pushes : d.handset.fate batch ≠ .crashed → pushes i (d.step (.operate i op)).2.2 = [state]

lemma writes_enforced (hc : d.controller? i = some c) (hp : d.handset.phones[i]? = some p)
    (s : SubscriptionId) (b : Bundle) : d.Writes i (.update s (some b) true)
      ((Controller.Record.mk p.subscription b.defaultState b.sync).batch c.group p.id)
      b.defaultState := by
  let y : Transition := ⟨b.defaultState, b.sync, true⟩
  let x : Controller := { c with validSubscription := true }
  have hm : Controller.Moves (d.handset.surroundings p) x y
      (c.perform (d.handset.surroundings p) (.update s (some b) true)) := Controller.perform_moves rfl
  have hy : ¬ y.IsIdle (d.handset.surroundings p) x := fun hy => nomatch hy.2
  have hst : (d.step (.operate i (.update s (some b) true))).2.2 =
      Handset.happenings i
        (c.perform (d.handset.surroundings p) (.update s (some b) true)).effects := by
    simp only [step, operate_some hc, operate_eq hp]
  refine ⟨?_, fun hf => ?_⟩
  · rw [hst, offers_happenings]
    exact hm.offers hy
  · rw [hst, pushes_happenings]
    exact hm.pushes (hm.answers hf) hy

structure Stands (i : Nat) (group : String) (n : PhoneId) (s : SubscriptionId) (d : Direct) : Prop where
  controller : ∃ c, d.controller? i = some c ∧ c.group = group
  phone : ∃ p, d.handset.phones[i]? = some p ∧ p.id = n ∧ p.subscription = s

lemma Stands.step {group : String} {n : PhoneId} {s t : SubscriptionId} {b : Bundle}
    (h : d.Stands i group n s) (hr : d.Insists i (.update t (some b) true) r) :
    (d.step r).1.Stands i group n s := by
  obtain ⟨c, hc, hg⟩ := h.controller
  obtain ⟨p, hp, hn, hs⟩ := h.phone
  cases hr with
  | again hr =>
    obtain rfl := hr
    obtain ⟨p', hp', hi', hs'⟩ := phone_operate hp i (.update t (some b) true)
    exact ⟨⟨_, controller?_operate hc _, (group_operate _ _ _ _).trans hg⟩,
      ⟨p', hp', hi'.trans hn, hs'.trans hs⟩⟩
  | pump hr => cases hr n
  | elsewhere hi he =>
    have hc' : (d.step r).1.controller? i = some c := (controller?_step_ne hi).trans hc
    have ht := told_step_ne (d := d) hi
    rw [hp] at ht
    obtain ⟨p', hp', hl⟩ := Option.map_eq_some_iff.1 ht
    rw [sight?_some hc' hp', sight?_some hc hp] at he
    have hv : p'.subscription = p.subscription := congrArg Sight.subscription (Option.some.inj he)
    have hid : p'.id = p.id := congrArg Prod.fst hl
    exact ⟨⟨c, hc', hg⟩, ⟨p', hp', hid.trans hn, hv.trans hs⟩⟩

/-- After one event of the phone's slot, or one update that has no bundle to enforce, the same again has
no effect for as long as nothing that it weighs up is changed by others. An enforced bundle is offered
and pushed each time, with the same values. -/
theorem repeated_idle_or_written (hc : d.controller? i = some c) (hp : d.handset.phones[i]? = some p)
    (hr : Along (Insists i op) (d.step (.operate i op)).1 rs) :
    let first := d.step (.operate i op)
    let e := first.1.run rs
    (op.IsGentle p.id → Answers i first.2.2 →
      offers i (first.1.happenings rs) = [] ∧ pushes i (first.1.happenings rs) = [] ∧
        e.controller? i = first.1.controller? i) ∧
    ∀ s b, op = .update s (some b) true →
      let batch := (Controller.Record.mk p.subscription b.defaultState b.sync).batch c.group p.id
      d.Writes i op batch b.defaultState ∧ e.Writes i op batch b.defaultState := by
  intro first e
  refine ⟨fun hg ha => ?_, ?_⟩
  · have hh : (d.operate i op).1.Poised i (d.handset.operate i c op).2.controller op :=
      poised_operate hc hp hg ha
    have hi := hh.run hr
    exact ⟨hi.offers, hi.pushes, hi.poised.controller.trans hh.controller.symm⟩
  · rintro s b rfl batch
    have h₀ : d.Stands i c.group p.id p.subscription := ⟨⟨c, hc, rfl⟩, ⟨p, hp, rfl, rfl⟩⟩
    have h₁ : e.Stands i c.group p.id p.subscription :=
      hr.preserved _ (fun d r hr hd => hd.step hr) (h₀.step (.again rfl))
    obtain ⟨c', hc', hg⟩ := h₁.controller
    obtain ⟨p', hp', hi, hs⟩ := h₁.phone
    refine ⟨writes_enforced hc hp s b, ?_⟩
    have hw := writes_enforced hc' hp' s b
    rwa [hg, hi, hs] at hw

theorem repeated_idle_after_refusal :
    let d := single.run [.change (.refuse true)]
    let op : Operation := .update ⟨2⟩ (some (.offering true)) false
    let first := d.step (.operate 0 op)
    let rs : List Request := [.operate 0 op, .change (.refuse false), .operate 0 op, .notify ⟨0⟩,
      .change (.install ⟨1⟩ (.offering false)), .operate 0 op]
    (offers 0 first.2.2).map (·.2) = [.refused (.storage "disk full")] ∧
      pushes 0 first.2.2 = [.activated] ∧ offers 0 (first.1.happenings rs) = [] ∧
      pushes 0 (first.1.happenings rs) = [] ∧
      (first.1.run rs).controller? 0 = first.1.controller? 0 := by
  intro d op first rs
  have h₁ : ∀ d' : Direct, d'.Insists 0 op (.change (.refuse false)) := fun _ => .elsewhere nofun rfl
  have h₂ : ∀ d' : Direct, d'.Insists 0 op (.notify ⟨0⟩) := fun _ => .elsewhere nofun rfl
  have h₃ : ∀ d' : Direct, d'.Insists 0 op (.change (.install ⟨1⟩ (.offering false))) :=
    fun _ => .elsewhere nofun rfl
  have hr : Along (Insists 0 op) first.1 rs :=
    .cons (.again rfl) (.cons (h₁ _) (.cons (.again rfl)
      (.cons (h₂ _) (.cons (h₃ _) (.cons (.again rfl) .nil)))))
  have hh := (repeated_idle_or_written (d := d) (i := 0) (c := .fresh "") (p := .fresh ⟨0⟩ ⟨1⟩)
    rfl rfl hr).1 nofun (by decide)
  exact ⟨by decide, by decide, hh⟩

theorem not_written_without_bundle :
    let op : Operation := .update ⟨1⟩ none true
    let d := single.run [.operate 0 (.update ⟨1⟩ (some (.offering true)) false)]
    let first := d.step (.operate 0 op)
    let again := first.1.step (.operate 0 op)
    d.shown 0 = some .activated ∧ offers 0 again.2.2 = [] ∧ pushes 0 again.2.2 = [] ∧
      ¬ ∃ batch state, first.1.Writes 0 op batch state := by
  intro op d first again
  have ho : offers 0 again.2.2 = [] := by decide
  refine ⟨by decide, ho, by decide, ?_⟩
  rintro ⟨batch, state, hw⟩
  exact absurd (ho.symm.trans hw.offers) (List.cons_ne_nil _ _).symm

end Direct

end Handset

end CallWaiting
