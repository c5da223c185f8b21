import CallWaiting.Proofs.Controller.Intent

/-!
How a turn runs: it comes to nothing more than its preparation, or it carries out one transition.
Its answer, and what it does to the controller's registration, do not depend on which.
-/

namespace CallWaiting.Controller

open Preference (Batch Fate)
open Broadcast (Ticket)

variable {env : Surroundings} {c : Controller} {op : Operation}

def Rests (env : Surroundings) (c : Controller) (op : Operation) : Prop :=
  ∀ y ∈ (c.intent env op).2, y.IsIdle env (c.intent env op).1

lemma rests_or (env : Surroundings) (c : Controller) (op : Operation) : c.Rests env op ∨
    ∃ y, (c.intent env op).2 = some y ∧ ¬ y.IsIdle env (c.intent env op).1 := by
  cases hx : (c.intent env op).2 with
  | none => exact .inl (by simp [Rests, hx])
  | some y =>
    by_cases hy : y.IsIdle env (c.intent env op).1
    · exact .inl (by simpa [Rests, hx] using hy)
    · exact .inr ⟨y, rfl, hy⟩

lemma perform_rests (hr : c.Rests env op) :
    (c.perform env op).SameWork (.rest (c.intent env op).1 .done) := by
  have hw := perform_sameWork env c op
  cases hx : (c.intent env op).2 with
  | none => rwa [hx] at hw
  | some y => rwa [hx, attempt_idle env _ y (hr y hx)] at hw

lemma perform_carried {y : Transition} (hx : (c.intent env op).2 = some y)
    (hy : ¬ y.IsIdle env (c.intent env op).1) :
    Carried env (c.intent env op).1 y (c.perform env op) := by
  have hw := perform_sameWork env c op
  rw [hx] at hw
  obtain ⟨ho, hd, hc⟩ := attempt_carried env _ y hy
  refine ⟨hw.offers.trans ho, fun hf => ?_, fun hf => ?_⟩
  · rw [hw.controller, hw.pushes, hw.crashed]
    exact hd hf
  · rw [hw.controller, hw.pushes, hw.crashed]
    exact hc hf

lemma carried_of_intent {y : Transition} (hx : c.intent env op = (c, some y))
    (hy : ¬ y.IsIdle env c) : Carried env c y (c.perform env op) := by
  have hi : (c.intent env op).1 = c := congrArg Prod.fst hx
  have hh := perform_carried (congrArg Prod.snd hx) (by rwa [hi])
  rwa [hi] at hh

structure IsMoot (env : Surroundings) (c : Controller) (op : Operation) : Prop where
  prepared : (c.intent env op).1 = c
  rests : c.Rests env op

lemma IsMoot.perform (h : c.IsMoot env op) : (c.perform env op).SameWork (.rest c .done) := by
  have hw := perform_rests h.rests
  rwa [h.prepared] at hw

lemma isMoot_of_intent (hi : c.intent env op = (c, none)) : c.IsMoot env op := by
  refine ⟨congrArg Prod.fst hi, fun y hy => ?_⟩
  rw [hi] at hy
  cases hy

lemma isMoot_of_isIdle {y : Transition} (hi : c.intent env op = (c, some y)) (hd : y.IsIdle env c) :
    c.IsMoot env op := by
  refine ⟨congrArg Prod.fst hi, fun z hz => ?_⟩
  rw [hi] at hz ⊢
  obtain rfl := Option.some.inj hz
  exact hd

section

variable {x : Controller} {y : Transition} {t : Turn}

structure Moves (env : Surroundings) (x : Controller) (y : Transition) (t : Turn) : Prop where
  crashed : t.crashed = true ↔ ¬ y.IsIdle env x ∧ env.fate (y.batch env x) = .crashed
  offers : ¬ y.IsIdle env x → t.offers = [(y.batch env x, env.fate (y.batch env x))]
  controller : t.crashed = false → t.controller = x.recorded env.subscription y.state y.sync
  pushes : t.crashed = false → ¬ y.IsIdle env x → t.pushes = [y.state]
  idle : y.IsIdle env x → t.offers = [] ∧ t.pushes = []
  broken : t.crashed = true → t.controller = x ∧ t.pushes = []

lemma Transition.IsIdle.recorded (h : y.IsIdle env c) :
    c.recorded env.subscription y.state y.sync = c := by
  obtain ⟨hl, hs, hy⟩ := (isSettled_iff env c _ _).1 h.1
  rw [Controller.recorded, ← hl, ← hs, ← hy]

lemma perform_moves (hi : c.intent env op = (x, some y)) : Moves env x y (c.perform env op) := by
  have hx : (c.intent env op).1 = x := congrArg Prod.fst hi
  have hy : (c.intent env op).2 = some y := congrArg Prod.snd hi
  by_cases hd : y.IsIdle env x
  · have hr : c.Rests env op := by
      intro z hz
      obtain rfl := Option.some.inj (hy.symm.trans hz)
      rwa [hx]
    have hw := perform_rests hr
    rw [hx] at hw
    have hn : (c.perform env op).crashed = false := hw.crashed
    exact ⟨by simp [hn, hd], absurd hd, fun _ => hw.controller.trans hd.recorded.symm,
      fun _ => absurd hd, fun _ => ⟨hw.offers, hw.pushes⟩, by simp [hn]⟩
  · have hh := perform_carried hy (by rwa [hx])
    rw [hx] at hh
    by_cases hf : env.fate (y.batch env x) = .crashed
    · obtain ⟨hc, hp, hn⟩ := hh.crashed hf
      exact ⟨by simp [hn, hd, hf], fun _ => hh.offers, by simp [hn], by simp [hn],
        fun h => absurd h hd, fun _ => ⟨hc, hp⟩⟩
    · obtain ⟨hc, hp, hn⟩ := hh.done hf
      exact ⟨by simp [hn, hf], fun _ => hh.offers, fun _ => hc, fun _ _ => hp,
        fun h => absurd h hd, by simp [hn]⟩

lemma Moves.answers (h : Moves env x y t) (hf : env.fate (y.batch env x) ≠ .crashed) :
    t.crashed = false :=
  Bool.eq_false_iff.2 fun hn => hf (h.crashed.1 hn).2

end

lemma perform_broken (hb : (c.perform env op).crashed = true) :
    (c.perform env op).pushes = [] ∧
      ∃ b, (c.perform env op).offers = [(b, .crashed)] ∧ env.fate b = .crashed := by
  obtain hr | ⟨y, hx, hy⟩ := rests_or env c op
  · cases hb.symm.trans (perform_rests hr).crashed
  · have hh := perform_carried hx hy
    have hf : env.fate (y.batch env (c.intent env op).1) = .crashed :=
      Classical.byContradiction fun hf => by cases hb.symm.trans (hh.done hf).2.2
    exact ⟨(hh.crashed hf).2.1, _, by rw [hh.offers, hf], hf⟩

lemma offers_perform (env : Surroundings) (c : Controller) (op : Operation) :
    (c.perform env op).offers = [] ∨ ∃ y : Transition, ∃ x : Controller,
      (c.perform env op).offers = [(y.batch env x, env.fate (y.batch env x))] ∧ x.group = c.group := by
  obtain hr | ⟨y, hx, hy⟩ := rests_or env c op
  · exact .inl (perform_rests hr).offers
  · exact .inr ⟨y, _, (perform_carried hx hy).offers, intent_group env c op⟩

def reply (c : Controller) : Operation → Answer
  | .hear _ | .update _ _ _ | .setSupported _ => .done
  | .interrogate =>
    .status (if c.state ≠ .notSupported ∧ c.sync.isLocal then some (.ofState c.state) else none)
  | .request _ serviceClass => .handled (c.serves serviceClass)
  | .readState => .state c.shownState

def receipt? (c : Controller) : Operation → Option Receipt
  | .interrogate =>
    if c.state ≠ .notSupported ∧ c.sync.isLocal then some (.status (.ofState c.state)) else none
  | .request _ serviceClass => if c.serves serviceClass then some .completed else none
  | .hear _ | .update _ _ _ | .setSupported _ | .readState => none

def Turn.Ends (t : Turn) (a : Answer) (r : Option Receipt) : Prop :=
  t.answer = some a ∧ t.sent = r ∨ t.answer = none ∧ t.sent = none

lemma moveTo_ends (env : Surroundings) (c : Controller) (state : State) (sync : Sync)
    (enforced : Bool) : (c.moveTo env state sync enforced).Ends .done none := by
  rw [moveTo]
  split
  · exact .inl ⟨rfl, rfl⟩
  · simp only
    split
    · exact .inl ⟨rfl, rfl⟩
    · exact .inl ⟨rfl, rfl⟩
    · exact .inr ⟨rfl, rfl⟩

lemma update_ends (env : Surroundings) (c : Controller) (s : SubscriptionId)
    (bundle : Option Bundle) (enforced : Bool) :
    (c.update env s bundle enforced).Ends .done none := by
  cases bundle with
  | none => exact .inl ⟨rfl, rfl⟩
  | some b => exact moveTo_ends _ _ _ _ _

lemma reevaluate_ends (env : Surroundings) (c : Controller) :
    (c.reevaluate env).Ends .done none := by
  rw [reevaluate]
  split
  · exact update_ends _ _ _ _ _
  · exact .inl ⟨rfl, rfl⟩

theorem perform_ends (env : Surroundings) (c : Controller) (op : Operation) :
    (c.perform env op).Ends (c.reply op) (c.receipt? op) := by
  cases op with
  | hear slot =>
    simp only [perform, hear]
    split
    · exact .inl ⟨rfl, rfl⟩
    · split
      · exact .inl ⟨rfl, rfl⟩
      · exact reevaluate_ends env c
  | update s bundle enforced => exact update_ends _ _ _ _ _
  | setSupported v =>
    simp only [perform, setSupported]
    split
    · exact .inl ⟨rfl, rfl⟩
    · split
      · exact reevaluate_ends _ _
      · exact moveTo_ends _ _ _ _ _
  | interrogate =>
    simp only [perform, interrogate, reply, receipt?]
    split
    · rename_i hn
      exact .inl (by simp [Turn.rest, hn])
    · rename_i hn
      cases hl : c.sync.isLocal with
      | false => exact .inl (by simp [Turn.rest, Turn.after])
      | true => exact .inl (by simp [Turn.rest, Turn.after, Turn.sending, hn])
  | request enable serviceClass =>
    simp only [perform, request, reply, receipt?]
    split
    · rename_i hn
      have hs : c.serves serviceClass = false := by
        rcases hn with h | h <;> simp_all [serves]
      exact .inl (by rw [hs]; exact ⟨rfl, rfl⟩)
    · rename_i hn
      have hs : c.serves serviceClass = c.sync.isLocal := by simp_all [serves]
      cases hl : c.sync.isLocal with
      | false => exact .inl (by rw [hs, hl]; exact ⟨rfl, rfl⟩)
      | true =>
        rw [hs, hl]
        obtain ⟨ha, -⟩ | ⟨ha, -⟩ := moveTo_ends env c (.ofEnabled enable) c.sync false
        · exact .inl (by simp [Turn.after, Turn.answering, Turn.sending, ha])
        · exact .inr (by simp [Turn.after, Turn.answering, Turn.sending, ha])
  | readState => exact .inl ⟨rfl, rfl⟩

lemma answer_perform (env : Surroundings) (c : Controller) (op : Operation) :
    (c.perform env op).answer =
      if (c.perform env op).crashed then none else some (c.reply op) := by
  obtain ⟨ha, -⟩ | ⟨ha, -⟩ := perform_ends env c op <;> simp [Turn.crashed, ha]

lemma sent_perform (ha : (c.perform env op).answer ≠ none) :
    (c.perform env op).sent = c.receipt? op := by
  obtain ⟨-, hs⟩ | ⟨hn, -⟩ := perform_ends env c op
  · exact hs
  · exact absurd hn ha

lemma sent_broken (ha : (c.perform env op).answer = none) : (c.perform env op).sent = none := by
  obtain ⟨hn, -⟩ | ⟨-, hs⟩ := perform_ends env c op
  · cases ha.symm.trans hn
  · exact hs

lemma Rests.answer (hr : c.Rests env op) : (c.perform env op).answer = some (c.reply op) := by
  have hc : (c.perform env op).crashed = false := (perform_rests hr).crashed
  rw [answer_perform, if_neg (Bool.eq_false_iff.1 hc)]

namespace Effect

def isListing : Effect → Bool
  | .register | .withdraw _ => true
  | .offer _ _ | .push _ | .note _ => false

end Effect

def listings (c : Controller) : Operation → List Effect
  | .setSupported v =>
    if c.supported = v then [] else if v then c.registering else (c.listener.map .withdraw).toList
  | .hear _ | .update _ _ _ | .interrogate | .request _ _ | .readState => []

lemma moveTo_listings (env : Surroundings) (c : Controller) (state : State) (sync : Sync)
    (enforced : Bool) : (c.moveTo env state sync enforced).effects.filter Effect.isListing = [] := by
  rw [moveTo]
  split
  · rfl
  · simp only
    split <;> rfl

lemma update_listings (env : Surroundings) (c : Controller) (s : SubscriptionId)
    (bundle : Option Bundle) (enforced : Bool) :
    (c.update env s bundle enforced).effects.filter Effect.isListing = [] := by
  cases bundle with
  | none => rfl
  | some b => exact moveTo_listings _ _ _ _ _

lemma reevaluate_listings (env : Surroundings) (c : Controller) :
    (c.reevaluate env).effects.filter Effect.isListing = [] := by
  rw [reevaluate]
  split
  · exact update_listings _ _ _ _ _
  · rfl

lemma withdrawing_listings (env : Surroundings) (c : Controller) :
    (c.withdrawing env).filter Effect.isListing = (c.listener.map .withdraw).toList := by
  rw [withdrawing]
  cases c.listener with
  | none => rfl
  | some t =>
    simp only
    split <;> rfl

theorem perform_listings (env : Surroundings) (c : Controller) (op : Operation) :
    (c.perform env op).effects.filter Effect.isListing = c.listings op := by
  cases op with
  | hear slot =>
    simp only [perform, hear, listings]
    split
    · rfl
    · split
      · rfl
      · exact reevaluate_listings env c
  | update s bundle enforced => exact update_listings _ _ _ _ _
  | setSupported v =>
    simp only [perform, setSupported, listings]
    split
    · rfl
    · cases v with
      | true =>
        have hr : c.registering.filter Effect.isListing = c.registering := by
          rw [registering]
          split <;> rfl
        have hh := reevaluate_listings env ({ c with supported := true }.load env)
        have hc : Controller.registering { c with supported := true } = c.registering := rfl
        simp only [if_true, Turn.after, List.filter_append, hh, List.append_nil]
        simp [Effect.isListing, hr, hc]
      | false =>
        have hw := withdrawing_listings env { c with supported := false }
        have hm := moveTo_listings env { c with supported := false, listener := none } .notSupported
          c.sync false
        simp [Turn.after, hw, hm, Effect.isListing]
  | interrogate =>
    simp only [perform, interrogate, listings]
    split
    · rfl
    · split <;> rfl
  | request enable serviceClass =>
    simp only [perform, request, listings]
    split
    · rfl
    · split
      · exact moveTo_listings _ _ _ _ _
      · rfl
  | readState => rfl

def holding (c : Controller) (next : Ticket) : Operation → Option Ticket
  | .setSupported v =>
    if c.supported = v then c.listener else if v then c.listener.or (some next) else none
  | .hear _ | .update _ _ _ | .interrogate | .request _ _ | .readState => c.listener

lemma perform_keeps {α : Type} {f : Controller → α}
    (hr : ∀ c s state sync, f (recorded c s state sync) = f c)
    (hv : ∀ c v, f { c with validSubscription := v } = f c) (env : Surroundings) (c : Controller)
    (op : Operation) : f (c.perform env op).controller = f (c.readied env op) := by
  rw [(perform_sameWork env c op).controller, attempt_keeps env hr, intent_keeps env hv]

lemma perform_group (env : Surroundings) (c : Controller) (op : Operation) :
    (c.perform env op).controller.group = c.group := by
  rw [(perform_sameWork env c op).controller, attempt_keeps env (f := group) fun _ _ _ _ => rfl,
    intent_group]

def supporting (c : Controller) : Operation → Bool
  | .setSupported v => v
  | .hear _ | .update _ _ _ | .interrogate | .request _ _ | .readState => c.supported

theorem perform_standing (env : Surroundings) (c : Controller) (op : Operation) :
    (c.perform env op).controller.supported = c.supporting op ∧
      (c.perform env op).controller.listener = c.holding env.nextTicket op := by
  have hs : (c.perform env op).controller.supported = (c.readied env op).supported :=
    perform_keeps (f := supported) (fun _ _ _ _ => rfl) (fun _ _ => rfl) env c op
  have hl : (c.perform env op).controller.listener = (c.readied env op).listener :=
    perform_keeps (f := listener) (fun _ _ _ _ => rfl) (fun _ _ => rfl) env c op
  rw [hs, hl]
  cases op with
  | setSupported v =>
    simp only [readied, supporting, holding]
    split
    · exact ⟨‹_›, rfl⟩
    · cases v <;> exact ⟨rfl, rfl⟩
  | hear slot | update s bundle enforced | interrogate | request enable serviceClass | readState =>
    exact ⟨rfl, rfl⟩

end CallWaiting.Controller
