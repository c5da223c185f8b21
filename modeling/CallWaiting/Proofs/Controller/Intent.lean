import Mathlib.Tactic.Lemma
import CallWaiting.Controller.Basic

/-!
What an operation comes to. It prepares the controller without a word to the store or the phone,
and then attempts at most one transition; all that a turn offers and pushes comes from there.
-/

namespace CallWaiting.Controller

open Preference (Batch Fate Key)

namespace Effect

def offer? : Effect → Option (Batch × Fate)
  | .offer b fate => some (b, fate)
  | _ => none

def push? : Effect → Option State
  | .push state => some state
  | _ => none

end Effect

namespace Turn

def offers (t : Turn) : List (Batch × Fate) :=
  t.effects.filterMap Effect.offer?

def pushes (t : Turn) : List State :=
  t.effects.filterMap Effect.push?

def IsStored (t : Turn) : Prop :=
  ∀ o ∈ t.offers, o.2 = .stored

instance (t : Turn) : Decidable t.IsStored :=
  inferInstanceAs (Decidable (∀ o ∈ t.offers, o.2 = .stored))

lemma mem_offers {t : Turn} {b : Batch} {fate : Fate} :
    (b, fate) ∈ t.offers ↔ Effect.offer b fate ∈ t.effects := by
  simp only [offers, List.mem_filterMap]
  constructor
  · rintro ⟨e, he, h⟩
    cases e <;> simp_all [Effect.offer?]
  · intro h
    exact ⟨_, h, rfl⟩

structure SameWork (t u : Turn) : Prop where
  controller : t.controller = u.controller
  offers : t.offers = u.offers
  pushes : t.pushes = u.pushes
  crashed : t.crashed = u.crashed

lemma SameWork.after {t u : Turn} (h : t.SameWork u) {es : List Effect}
    (ho : es.filterMap Effect.offer? = []) (hp : es.filterMap Effect.push? = []) :
    (t.after es).SameWork u where
  controller := h.controller
  offers := by
    simpa only [Turn.offers, Turn.after, List.filterMap_append, ho, List.nil_append] using h.offers
  pushes := by
    simpa only [Turn.pushes, Turn.after, List.filterMap_append, hp, List.nil_append] using h.pushes
  crashed := h.crashed

lemma SameWork.answering {t u : Turn} (h : t.SameWork u) (a : Answer) :
    (t.answering a).SameWork u where
  controller := h.controller
  offers := h.offers
  pushes := h.pushes
  crashed := by simpa only [Turn.crashed, Turn.answering, Option.isNone_map] using h.crashed

lemma SameWork.sending {t u : Turn} (h : t.SameWork u) (r : Option Receipt) :
    (t.sending r).SameWork u :=
  ⟨h.controller, h.offers, h.pushes, h.crashed⟩

lemma rest_sameWork (c : Controller) (a b : Answer) : (rest c a).SameWork (rest c b) :=
  ⟨rfl, rfl, rfl, rfl⟩

@[simp] lemma offers_rest (c : Controller) (a : Answer) : (rest c a).offers = [] := rfl

@[simp] lemma pushes_rest (c : Controller) (a : Answer) : (rest c a).pushes = [] := rfl

end Turn

structure Transition where
  state : State
  sync : Sync
  enforced : Bool

variable (env : Surroundings)

namespace Transition

def batch (x : Transition) (c : Controller) : Batch :=
  recordBatch c.group env.phone env.subscription x.state x.sync

def IsIdle (x : Transition) (c : Controller) : Prop :=
  c.isSettled env x.state x.sync = true ∧ x.enforced = false

end Transition

def attempt (c : Controller) : Option Transition → Turn
  | none => .rest c .done
  | some x => c.moveTo env x.state x.sync x.enforced

lemma isSettled_iff (c : Controller) (state : State) (sync : Sync) :
    c.isSettled env state sync = true ↔
      c.lastSubscription = env.subscription ∧ c.state = state ∧ c.sync = sync := by
  simp [isSettled]

lemma attempt_idle (c : Controller) (x : Transition) (h : x.IsIdle env c) :
    c.attempt env (some x) = .rest c .done := by
  obtain ⟨hs, he⟩ := h
  simp [attempt, moveTo, hs, he]

structure Carried (c : Controller) (x : Transition) (t : Turn) : Prop where
  offers : t.offers = [(x.batch env c, env.fate (x.batch env c))]
  done : env.fate (x.batch env c) ≠ .crashed →
    t.controller = c.recorded env.subscription x.state x.sync ∧ t.pushes = [x.state] ∧
      t.crashed = false
  crashed : env.fate (x.batch env c) = .crashed →
    t.controller = c ∧ t.pushes = [] ∧ t.crashed = true

lemma attempt_carried (c : Controller) (x : Transition) (h : ¬ x.IsIdle env c) :
    Carried env c x (c.attempt env (some x)) := by
  have hc : ¬ (c.isSettled env x.state x.sync = true ∧ (!x.enforced) = true) := by
    simpa [Transition.IsIdle] using h
  simp only [attempt, moveTo, if_neg hc]
  cases hf : env.fate (x.batch env c) with
  | stored =>
    rw [Transition.batch] at hf
    simp only [hf]
    exact ⟨by rw [Transition.batch, hf]; rfl, fun _ => ⟨rfl, rfl, rfl⟩,
      fun h => by simp [Transition.batch, hf] at h⟩
  | refused e =>
    rw [Transition.batch] at hf
    simp only [hf]
    exact ⟨by rw [Transition.batch, hf]; rfl, fun _ => ⟨rfl, rfl, rfl⟩,
      fun h => by simp [Transition.batch, hf] at h⟩
  | crashed =>
    rw [Transition.batch] at hf
    simp only [hf]
    exact ⟨by rw [Transition.batch, hf]; rfl, fun h => absurd hf h, fun _ => ⟨rfl, rfl, rfl⟩⟩

lemma attempt_keeps {α : Type} {f : Controller → α}
    (hf : ∀ c s state sync, f (recorded c s state sync) = f c) (c : Controller)
    (x : Option Transition) : f (c.attempt env x).controller = f c := by
  cases x with
  | none => rfl
  | some y =>
    by_cases hi : y.IsIdle env c
    · rw [attempt_idle env c y hi]
      rfl
    · have hh := attempt_carried env c y hi
      by_cases hc : env.fate (y.batch env c) = .crashed
      · rw [(hh.crashed hc).1]
      · rw [(hh.done hc).1]
        exact hf c _ _ _

def weigh (c : Controller) (s : SubscriptionId) (bundle : Option Bundle) (enforced : Bool) :
    Controller × Option Transition :=
  ({ c with validSubscription := true },
    bundle.map fun b => ⟨.merge b.defaultState (c.savedState env s) enforced, b.sync, enforced⟩)

def lookAgain (c : Controller) : Controller × Option Transition :=
  if env.subscription.isValid then
    c.weigh env env.subscription (env.bundle env.subscription) false
  else ({ c with validSubscription := false }, none)

def serves (c : Controller) (serviceClass : ServiceClass) : Bool :=
  decide (c.state ≠ .notSupported) && serviceClass.contains .voice && c.sync.isLocal

def intent (c : Controller) : Operation → Controller × Option Transition
  | .hear slot => if slot.isValid ∧ slot = env.phone then c.lookAgain env else (c, none)
  | .update s bundle enforced => c.weigh env s bundle enforced
  | .setSupported supported =>
    if c.supported = supported then (c, none)
    else if supported then ({ c with supported := true }.load env).lookAgain env
    else ({ c with supported := false, listener := none }, some ⟨.notSupported, c.sync, false⟩)
  | .request enable serviceClass =>
    (c, if c.serves serviceClass then some ⟨.ofEnabled enable, c.sync, false⟩ else none)
  | .interrogate | .readState => (c, none)

def Looks (c : Controller) : Operation → Prop
  | .hear slot => slot.isValid = true ∧ slot = env.phone
  | .setSupported v => v = true ∧ c.supported = false
  | _ => False

instance (c : Controller) : (op : Operation) → Decidable (c.Looks env op)
  | .hear slot => inferInstanceAs (Decidable (slot.isValid = true ∧ slot = env.phone))
  | .setSupported v => inferInstanceAs (Decidable (v = true ∧ c.supported = false))
  | .update _ _ _ | .interrogate | .request _ _ | .readState => inferInstanceAs (Decidable False)

def readied (c : Controller) : Operation → Controller
  | .setSupported v =>
    if c.supported = v then c
    else if v then { c with supported := true }.load env
    else { c with supported := false, listener := none }
  | .hear _ | .update _ _ _ | .interrogate | .request _ _ | .readState => c

lemma intent_keeps {α : Type} {f : Controller → α}
    (hf : ∀ c v, f { c with validSubscription := v } = f c) (c : Controller) (op : Operation) :
    f (c.intent env op).1 = f (c.readied env op) := by
  have hl : ∀ c : Controller, f (c.lookAgain env).1 = f c := by
    intro c
    rw [lookAgain]
    split
    · exact hf c true
    · exact hf c false
  cases op with
  | hear slot =>
    simp only [intent, readied]
    split
    · exact hl c
    · rfl
  | update s bundle enforced => exact hf c true
  | setSupported v =>
    simp only [intent, readied]
    split
    · rfl
    · split
      · exact hl _
      · rfl
  | interrogate | request enable serviceClass | readState => rfl

lemma intent_group (c : Controller) (op : Operation) : (c.intent env op).1.group = c.group := by
  rw [intent_keeps env (f := group) fun _ _ => rfl]
  cases op with
  | setSupported v =>
    simp only [readied]
    split
    · rfl
    · split <;> rfl
  | hear slot | update s bundle enforced | interrogate | request enable serviceClass | readState => rfl

lemma intent_record (c : Controller) (op : Operation) :
    ((c.intent env op).1.lastSubscription = c.lastSubscription ∧
      (c.intent env op).1.state = c.state) ∨
    (c.intent env op).1.state = c.savedState env env.subscription := by
  rw [intent_keeps env (f := lastSubscription) fun _ _ => rfl,
    intent_keeps env (f := state) fun _ _ => rfl]
  cases op with
  | setSupported v =>
    simp only [readied]
    split
    · exact .inl ⟨rfl, rfl⟩
    · split
      · exact .inr rfl
      · exact .inl ⟨rfl, rfl⟩
  | hear slot | update s bundle enforced | interrogate | request enable serviceClass | readState =>
    exact .inl ⟨rfl, rfl⟩

lemma intent_looks {c : Controller} {op : Operation} {b : Bundle} (hl : c.Looks env op)
    (hv : env.subscription.isValid = true) (hb : env.bundle env.subscription = some b) :
    (c.intent env op).1.validSubscription = true ∧ (c.intent env op).2 =
      some ⟨.merge b.defaultState (c.savedState env env.subscription) false, b.sync, false⟩ := by
  cases op with
  | hear slot =>
    have hs : slot.isValid = true ∧ slot = env.phone := hl
    rw [intent, if_pos hs, lookAgain, if_pos hv, hb]
    exact ⟨rfl, rfl⟩
  | setSupported v =>
    obtain ⟨rfl, hs⟩ := hl
    rw [intent, if_neg (by simp [hs]), if_pos rfl, lookAgain, if_pos hv, hb]
    exact ⟨rfl, rfl⟩
  | update s bundle enforced | interrogate | request enable serviceClass | readState => cases hl

open Turn in
lemma update_sameWork (c : Controller) (s : SubscriptionId) (bundle : Option Bundle)
    (enforced : Bool) : (c.update env s bundle enforced).SameWork
      ((c.weigh env s bundle enforced).1.attempt env (c.weigh env s bundle enforced).2) := by
  cases bundle with
  | none => exact rest_sameWork _ _ _
  | some b => exact SameWork.after ⟨rfl, rfl, rfl, rfl⟩ rfl rfl

lemma reevaluate_sameWork (c : Controller) : (c.reevaluate env).SameWork
    ((c.lookAgain env).1.attempt env (c.lookAgain env).2) := by
  rw [reevaluate, lookAgain]
  split
  · exact update_sameWork env c _ _ _
  · exact (Turn.rest_sameWork _ _ _).after rfl rfl

lemma hear_sameWork (c : Controller) (slot : PhoneId) : (c.hear env slot).SameWork
    ((c.intent env (.hear slot)).1.attempt env (c.intent env (.hear slot)).2) := by
  rw [hear]
  by_cases hv : slot.isValid = true
  · by_cases hp : slot = env.phone
    · simp only [hp, intent]
      simpa [← hp, hv] using reevaluate_sameWork env c
    · simpa [hv, hp, intent, attempt] using Turn.rest_sameWork c .done .done
  · simpa [hv, intent, attempt] using (Turn.rest_sameWork c .done .done).after rfl rfl

lemma registering_silent (c : Controller) :
    c.registering.filterMap Effect.offer? = [] ∧ c.registering.filterMap Effect.push? = [] := by
  rw [registering]
  split <;> exact ⟨rfl, rfl⟩

lemma withdrawing_silent (c : Controller) :
    (c.withdrawing env).filterMap Effect.offer? = [] ∧
      (c.withdrawing env).filterMap Effect.push? = [] := by
  rw [withdrawing]
  split
  · exact ⟨rfl, rfl⟩
  · split <;> exact ⟨rfl, rfl⟩

lemma setSupported_sameWork (c : Controller) (v : Bool) : (c.setSupported env v).SameWork
    ((c.intent env (.setSupported v)).1.attempt env (c.intent env (.setSupported v)).2) := by
  rw [setSupported]
  by_cases hs : c.supported = v
  · simpa [hs, intent, attempt] using Turn.rest_sameWork c .done .done
  · simp only [hs, intent, if_false]
    cases v with
    | true =>
      obtain ⟨ho, hp⟩ := registering_silent { c with supported := true }
      refine (reevaluate_sameWork env _).after ?_ ?_
      · simp [List.filterMap_cons, ho, Effect.offer?]
      · simp [List.filterMap_cons, hp, Effect.push?]
    | false =>
      obtain ⟨ho, hp⟩ := withdrawing_silent env { c with supported := false }
      refine Turn.SameWork.after ⟨rfl, rfl, rfl, rfl⟩ ?_ ?_
      · simp [List.filterMap_cons, ho, Effect.offer?]
      · simp [List.filterMap_cons, hp, Effect.push?]

lemma request_sameWork (c : Controller) (enable : Bool) (serviceClass : ServiceClass) :
    (c.request env enable serviceClass).SameWork
      ((c.intent env (.request enable serviceClass)).1.attempt env
        (c.intent env (.request enable serviceClass)).2) := by
  rw [request]
  by_cases hn : c.state = .notSupported ∨ (!serviceClass.contains .voice) = true
  · have hs : c.serves serviceClass = false := by
      rcases hn with h | h <;> simp_all [serves]
    simpa only [if_pos hn, intent, hs] using! Turn.rest_sameWork c _ _
  · have hs : c.serves serviceClass = c.sync.isLocal := by
      simp_all [serves]
    simp only [if_neg hn, intent, hs]
    cases c.sync.isLocal with
    | true =>
      have hm : (c.moveTo env (.ofEnabled enable) c.sync false).SameWork
          (c.moveTo env (.ofEnabled enable) c.sync false) := ⟨rfl, rfl, rfl, rfl⟩
      exact ((hm.sending _).answering _).after rfl rfl
    | false => exact (Turn.rest_sameWork c _ _).after rfl rfl

lemma serves_of_handled {c : Controller} {enable : Bool} {serviceClass : ServiceClass}
    (h : (c.request env enable serviceClass).answer = some (.handled true)) :
    c.serves serviceClass = true := by
  rw [request] at h
  split at h
  · cases h
  · rename_i hn
    split at h
    · rename_i hl
      simp_all [serves]
    · cases h

theorem perform_sameWork (c : Controller) (op : Operation) : (c.perform env op).SameWork
    ((c.intent env op).1.attempt env (c.intent env op).2) := by
  cases op with
  | hear slot => exact hear_sameWork env c slot
  | update s bundle enforced => exact update_sameWork env c s bundle enforced
  | setSupported v => exact setSupported_sameWork env c v
  | interrogate =>
    change c.interrogate.SameWork _
    rw [interrogate]
    split
    · exact Turn.rest_sameWork c _ _
    · simp only
      split
      · exact ((Turn.rest_sameWork c _ _).sending _).after rfl rfl
      · exact (Turn.rest_sameWork c _ _).after rfl rfl
  | request enable serviceClass => exact request_sameWork env c enable serviceClass
  | readState => exact Turn.rest_sameWork c _ _

end CallWaiting.Controller
