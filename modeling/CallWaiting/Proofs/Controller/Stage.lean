import CallWaiting.Proofs.Controller.Course

/-!
An operation in small steps, each of which looks at the surroundings or acts on them at most once.
What remains of an operation at any stage is its next step and what remains after that, so that the
steps make up the operation when nothing happens in between.
-/

namespace CallWaiting.Controller

open Preference (Batch Fate)

variable {env env' : Surroundings} {c : Controller} {op : Operation}

inductive Stage where
  | loading
  | looking
  | fetching (s : SubscriptionId)
  | weighing (s : SubscriptionId) (b : Bundle) (enforced : Bool)
  | moving (x : Transition)
  | offering (s : SubscriptionId) (x : Transition)
  | telling (state : State)
  | finished
  | broken

structure Step where
  controller : Controller
  effects : List Effect
  stage : Stage

variable (env : Surroundings) (c : Controller)

def enter : Operation → Step
  | .hear slot =>
    if !slot.isValid then ⟨c, [.note (.invalidSlot slot)], .finished⟩
    else if slot ≠ env.phone then ⟨c, [], .finished⟩
    else ⟨c, [], .looking⟩
  | .update s bundle enforced =>
    match bundle with
    | none => ⟨{ c with validSubscription := true }, [], .finished⟩
    | some b => ⟨{ c with validSubscription := true }, [], .weighing s b enforced⟩
  | .setSupported v =>
    if c.supported = v then ⟨c, [], .finished⟩
    else if v then
      ⟨{ c with supported := true, listener := c.listener.or (some env.nextTicket) },
        .note (.supportChanged true) :: c.registering, .loading⟩
    else
      ⟨{ c with supported := false, listener := none },
        .note (.supportChanged false) :: c.withdrawing env, .moving ⟨.notSupported, c.sync, false⟩⟩
  | .interrogate => ⟨c, c.interrogate.effects, .finished⟩
  | .request enable serviceClass =>
    if c.state = .notSupported ∨ !serviceClass.contains .voice then ⟨c, [], .finished⟩
    else
      ⟨c, [.note (.requested enable serviceClass)],
        if c.sync.isLocal then .moving ⟨.ofEnabled enable, c.sync, false⟩ else .finished⟩
  | .readState => ⟨c, [], .finished⟩

/-- The next step. The subscription is read again when a transition is made. -/
def advance : Stage → Step
  | .loading => ⟨c.load env, [.note ((c.load env).loadedNotice env)], .looking⟩
  | .looking =>
    if env.subscription.isValid then ⟨c, [], .fetching env.subscription⟩
    else ⟨{ c with validSubscription := false },
      [.note (.invalidSubscription env.subscription)], .finished⟩
  | .fetching s =>
    match env.bundle s with
    | none => ⟨{ c with validSubscription := true }, [], .finished⟩
    | some b => ⟨{ c with validSubscription := true }, [], .weighing s b false⟩
  | .weighing s b enforced =>
    let saved := c.savedState env s
    ⟨c, [.note (.savedState s saved),
      .note (.evaluated env.phone s b.offers b.sync b.defaultState saved)],
      .moving ⟨.merge b.defaultState saved enforced, b.sync, enforced⟩⟩
  | .moving x =>
    if c.isSettled env x.state x.sync ∧ !x.enforced then ⟨c, [], .finished⟩
    else ⟨c, [.note (.changing env.phone env.subscription x.state x.sync x.enforced)],
      .offering env.subscription x⟩
  | .offering s x =>
    let batch := recordBatch c.group env.phone s x.state x.sync
    match env.fate batch with
    | .stored => ⟨c.recorded s x.state x.sync, [.offer batch .stored], .telling x.state⟩
    | .refused e =>
      ⟨c.recorded s x.state x.sync, [.offer batch (.refused e), .note (.notPersisted e)],
        .telling x.state⟩
    | .crashed => ⟨c, [.offer batch .crashed], .broken⟩
  | .telling state => ⟨c, [.push state], .finished⟩
  | .finished => ⟨c, [], .finished⟩
  | .broken => ⟨c, [], .broken⟩

def remaining : Stage → Turn
  | .loading => ((c.load env).reevaluate env).after [.note ((c.load env).loadedNotice env)]
  | .looking => c.reevaluate env
  | .fetching s => c.update env s (env.bundle s) false
  | .weighing s b enforced =>
    let saved := c.savedState env s
    (c.moveTo env (State.merge b.defaultState saved enforced) b.sync enforced).after
      [.note (.savedState s saved),
        .note (.evaluated env.phone s b.offers b.sync b.defaultState saved)]
  | .moving x => c.moveTo env x.state x.sync x.enforced
  | .offering s x =>
    let batch := recordBatch c.group env.phone s x.state x.sync
    match env.fate batch with
    | .stored =>
      ⟨c.recorded s x.state x.sync, [.offer batch .stored, .push x.state], some .done, none⟩
    | .refused e =>
      ⟨c.recorded s x.state x.sync,
        [.offer batch (.refused e), .note (.notPersisted e), .push x.state], some .done, none⟩
    | .crashed => ⟨c, [.offer batch .crashed], none, none⟩
  | .telling state => ⟨c, [.push state], some .done, none⟩
  | .finished => .rest c .done
  | .broken => ⟨c, [], none, none⟩

theorem remaining_advance (st : Stage) : c.remaining env st =
    (remaining env (c.advance env st).controller (c.advance env st).stage).after
      (c.advance env st).effects := by
  cases st with
  | loading | weighing s b enforced | telling state | finished | broken => rfl
  | looking =>
    simp only [remaining, advance, reevaluate]
    split <;> rfl
  | fetching s =>
    simp only [remaining, advance]
    cases env.bundle s <;> rfl
  | moving x =>
    simp only [remaining, advance, moveTo]
    split
    · rfl
    · cases hf : env.fate (recordBatch c.group env.phone env.subscription x.state x.sync) <;>
        simp [hf, Turn.after]
  | offering s x =>
    simp only [remaining, advance]
    cases env.fate (recordBatch c.group env.phone s x.state x.sync) <;> rfl

theorem perform_enter (op : Operation) : c.perform env op =
    (((remaining env (c.enter env op).controller (c.enter env op).stage).sending
      (c.receipt? op)).answering (c.reply op)).after (c.enter env op).effects := by
  have hd : ∀ t : Turn, t.Ends .done none → (t.sending none).answering .done = t := by
    rintro ⟨c, es, a, r⟩ (⟨rfl, rfl⟩ | ⟨rfl, rfl⟩) <;> rfl
  cases op with
  | hear slot =>
    simp only [perform, hear, enter, reply, receipt?]
    split
    · rfl
    · split
      · rfl
      · exact (hd _ (reevaluate_ends env c)).symm
  | update s bundle enforced =>
    cases bundle with
    | none => rfl
    | some b => exact (hd _ (update_ends env c s (some b) enforced)).symm
  | setSupported v =>
    simp only [perform, setSupported, enter, reply, receipt?]
    split
    · rfl
    · cases v with
      | true =>
        -- the listener is registered by now, and loading does not register it again
        let x : Controller :=
          { c with supported := true, listener := c.listener.or (some env.nextTicket) }
        have ho : x.listener.or (some env.nextTicket) = c.listener.or (some env.nextTicket) := by
          cases hc : c.listener <;> simp [x, hc]
        have hl : x.load env = { c with supported := true }.load env :=
          congrArg (fun l => { { c with supported := true }.load env with listener := l }) ho
        have hm := hd _ (reevaluate_ends env (x.load env))
        change _ = ((((((x.load env).reevaluate env).sending none).answering .done).after _).after _)
        rw [hm, hl]
        simp only [if_true, Turn.after, List.append_assoc]
        rfl
      | false =>
        have hm := hd _ (moveTo_ends env { c with supported := false, listener := none }
          .notSupported c.sync false)
        simp only [Bool.false_eq_true, if_false, remaining, hm]
        rfl
  | interrogate =>
    simp only [perform, interrogate, enter, reply, receipt?]
    by_cases hn : c.state = .notSupported
    · simp [hn, Turn.rest, Turn.after, Turn.sending, Turn.answering, remaining]
    · cases hl : c.sync.isLocal <;>
        simp [hn, Turn.rest, Turn.after, Turn.sending, Turn.answering, remaining]
  | request enable serviceClass =>
    simp only [perform, request, enter, reply, receipt?]
    by_cases hn : c.state = .notSupported ∨ (!serviceClass.contains .voice) = true
    · have hs : c.serves serviceClass = false := by
        rcases hn with h | h <;> simp_all [serves]
      rw [if_pos hn, if_pos hn, hs]
      rfl
    · have hs : c.serves serviceClass = c.sync.isLocal := by simp_all [serves]
      simp only [if_neg hn, hs]
      cases c.sync.isLocal <;> rfl
  | readState => rfl

variable {env : Surroundings} {c : Controller}

def Stage.isLoading : Stage → Bool
  | loading => true
  | _ => false

def Stage.rank : Stage → Nat
  | loading => 7
  | looking => 6
  | fetching _ => 5
  | weighing _ _ _ => 4
  | moving _ => 3
  | offering _ _ => 2
  | telling _ => 1
  | finished | broken => 0

structure Advances (env : Surroundings) (c : Controller) (st : Stage) (y : Step) : Prop where
  group : y.controller.group = c.group
  supported : y.controller.supported = c.supported
  listener : (st.isLoading = true → c.listener.isSome = true) → y.controller.listener = c.listener
  listings : y.effects.filter Effect.isListing = []
  offers : (∀ s x, st ≠ .offering s x) → y.effects.filterMap Effect.offer? = []
  isLoading : y.stage.isLoading = false
  rank : st.rank ≠ 0 → y.stage.rank < st.rank

theorem advances (env : Surroundings) (c : Controller) (st : Stage) :
    Advances env c st (c.advance env st) := by
  cases st with
  | loading =>
    refine ⟨rfl, rfl, fun hl => ?_, rfl, fun _ => rfl, rfl, fun _ => Nat.lt_succ_self 6⟩
    obtain ⟨t, ht⟩ := Option.isSome_iff_exists.1 (hl rfl)
    simp [advance, load, ht]
  | looking =>
    simp only [advance]
    split
    · exact ⟨rfl, rfl, fun _ => rfl, rfl, fun _ => rfl, rfl, fun _ => Nat.lt_succ_self 5⟩
    · exact ⟨rfl, rfl, fun _ => rfl, rfl, fun _ => rfl, rfl, fun _ => Nat.succ_pos 5⟩
  | fetching s =>
    simp only [advance]
    cases env.bundle s with
    | none => exact ⟨rfl, rfl, fun _ => rfl, rfl, fun _ => rfl, rfl, fun _ => Nat.succ_pos 4⟩
    | some b =>
      exact ⟨rfl, rfl, fun _ => rfl, rfl, fun _ => rfl, rfl, fun _ => Nat.lt_succ_self 4⟩
  | weighing s b enforced =>
    exact ⟨rfl, rfl, fun _ => rfl, rfl, fun _ => rfl, rfl, fun _ => Nat.lt_succ_self 3⟩
  | moving x =>
    simp only [advance]
    split
    · exact ⟨rfl, rfl, fun _ => rfl, rfl, fun _ => rfl, rfl, fun _ => Nat.succ_pos 2⟩
    · exact ⟨rfl, rfl, fun _ => rfl, rfl, fun _ => rfl, rfl, fun _ => Nat.lt_succ_self 2⟩
  | offering s x =>
    have hn : ∀ {P : Prop}, (∀ s' x', Stage.offering s x ≠ .offering s' x') → P :=
      fun hn => absurd rfl (hn s x)
    simp only [advance]
    cases env.fate (recordBatch c.group env.phone s x.state x.sync) with
    | stored | refused e => exact ⟨rfl, rfl, fun _ => rfl, rfl, hn, rfl, fun _ => Nat.lt_succ_self 1⟩
    | crashed => exact ⟨rfl, rfl, fun _ => rfl, rfl, hn, rfl, fun _ => Nat.succ_pos 1⟩
  | telling state => exact ⟨rfl, rfl, fun _ => rfl, rfl, fun _ => rfl, rfl, fun _ => Nat.succ_pos 0⟩
  | finished | broken =>
    exact ⟨rfl, rfl, fun _ => rfl, rfl, fun _ => rfl, rfl, fun h => absurd rfl h⟩

lemma remaining_congr {st : Stage} (hp : env'.phone = env.phone)
    (hs : env'.subscription = env.subscription) (hb : env'.bundle = env.bundle)
    (hv : env'.saved = env.saved) (hf : env'.fate = env.fate)
    (hl : st.isLoading = true → c.listener.isSome = true) :
    c.remaining env' st = c.remaining env st := by
  obtain ⟨phone, subscription, bundle, saved, fate, next, holds⟩ := env
  obtain ⟨phone', subscription', bundle', saved', fate', next', holds'⟩ := env'
  obtain rfl := hp
  obtain rfl := hs
  obtain rfl := hb
  obtain rfl := hv
  obtain rfl := hf
  cases st with
  | loading =>
    obtain ⟨t, ht⟩ := Option.isSome_iff_exists.1 (hl rfl)
    simp only [remaining, load, ht, Option.some_or]
    rfl
  | looking | fetching s | weighing s b enforced | moving x | offering s x | telling state
  | finished | broken => rfl

lemma remaining_offered (env env' env'' : Surroundings) (c : Controller) (s : SubscriptionId)
    (x : Transition) :
    remaining env' (c.advance env (.offering s x)).controller (c.advance env (.offering s x)).stage =
      remaining env'' (c.advance env (.offering s x)).controller
        (c.advance env (.offering s x)).stage := by
  simp only [advance]
  cases env.fate (recordBatch c.group env.phone s x.state x.sync) <;> rfl

inductive Enters (env : Surroundings) (c : Controller) (y : Step) : Prop
  | same (hs : y.controller.supported = c.supported) (hl : y.controller.listener = c.listener)
    (he : y.effects.filter Effect.isListing = []) (hy : y.stage.isLoading = false)
  | on (hc : c.supported = false) (hs : y.controller.supported = true)
    (hl : y.controller.listener = c.listener.or (some env.nextTicket))
    (he : y.effects.filter Effect.isListing = c.registering)
  | off (hs : y.controller.supported = false) (hl : y.controller.listener = none)
    (he : y.effects.filter Effect.isListing = (c.listener.map .withdraw).toList)
    (hy : y.stage.isLoading = false)

theorem enter_cases (env : Surroundings) (c : Controller) (op : Operation) :
    Enters env c (c.enter env op) ∧ (c.enter env op).controller.group = c.group ∧
      (c.enter env op).effects.filterMap Effect.offer? = [] := by
  cases op with
  | hear slot =>
    simp only [enter]
    split
    · exact ⟨.same rfl rfl rfl rfl, rfl, rfl⟩
    · split <;> exact ⟨.same rfl rfl rfl rfl, rfl, rfl⟩
  | update s bundle enforced => cases bundle <;> exact ⟨.same rfl rfl rfl rfl, rfl, rfl⟩
  | setSupported v =>
    simp only [enter]
    split
    · exact ⟨.same rfl rfl rfl rfl, rfl, rfl⟩
    · rename_i hv
      cases v with
      | true =>
        refine ⟨.on (by simpa using hv) rfl rfl ?_, rfl, (registering_silent c).1⟩
        simp only [if_true, registering]
        split <;> rfl
      | false =>
        refine ⟨.off rfl rfl ?_ rfl, rfl, (withdrawing_silent env c).1⟩
        simpa [Effect.isListing] using withdrawing_listings env c
  | interrogate =>
    simp only [enter, interrogate]
    split
    · exact ⟨.same rfl rfl rfl rfl, trivial, rfl⟩
    · split <;> exact ⟨.same rfl rfl rfl rfl, trivial, rfl⟩
  | request enable serviceClass =>
    simp only [enter]
    split
    · exact ⟨.same rfl rfl rfl rfl, rfl, rfl⟩
    · cases c.sync.isLocal <;> exact ⟨.same rfl rfl rfl rfl, rfl, rfl⟩
  | readState => exact ⟨.same rfl rfl rfl rfl, rfl, rfl⟩

lemma Enters.listener {y : Step} (he : Enters env c y) (hy : y.stage.isLoading = true) :
    y.controller.listener.isSome = true := by
  cases he with
  | same _ _ _ hn | off _ _ _ hn => exact absurd (hn.symm.trans hy) Bool.false_ne_true
  | on _ _ hl _ =>
    rw [hl]
    cases c.listener <;> rfl

end CallWaiting.Controller
