import CallWaiting.Proofs.Controller.Course

/-!
What an operation depends on. Two controllers that differ in nothing but the ticket they hold, in
surroundings that agree on what is theirs, set out to make the same change; and if the same becomes
of it, they come out of the operation alike.
-/

namespace CallWaiting

open Preference (Batch Fate Key)

/-- What a controller may read and write: the record of a phone and those of some subscriptions,
within a group. -/
structure Territory where
  group : String
  phone : PhoneId
  subscriptions : SubscriptionId → Prop

namespace Territory

def Owns (a : Territory) (k : Key) : Prop :=
  k = .lastSubscription a.phone ∨ k = .sync a.phone ∨ ∃ s, a.subscriptions s ∧ k = .state s

def Apart (a b : Territory) : Prop :=
  a.group ≠ b.group ∨ a.phone ≠ b.phone ∧ ∀ s, a.subscriptions s → ¬ b.subscriptions s

end Territory

namespace Controller

variable {a : Territory} {env env' : Surroundings} {c c' : Controller} {op : Operation}

def blurred (c : Controller) : Controller :=
  { c with listener := c.listener.map fun _ => 0 }

def Operation.Within (a : Territory) : Operation → Prop
  | .update s _ _ => a.subscriptions s
  | .hear _ | .setSupported _ | .interrogate | .request _ _ | .readState => True

structure Surroundings.Agree (a : Territory) (env env' : Surroundings) : Prop where
  phone : env.phone = a.phone
  phone' : env'.phone = a.phone
  subscription : env.subscription = env'.subscription
  within : a.subscriptions env.subscription
  bundle : env.bundle = env'.bundle
  saved : ∀ k, a.Owns k → env.saved a.group k = env'.saved a.group k

def Concur {α : Type} (xs ys : List α) : Prop :=
  ∀ (n : Nat) x y, xs[n]? = some x → ys[n]? = some y → x = y

structure Turn.Alike (t u : Turn) : Prop where
  controller : t.controller.blurred = u.controller.blurred
  offers : t.offers = u.offers
  pushes : t.pushes = u.pushes
  answer : t.answer = u.answer

lemma Concur.append {α : Type} {xs ys xs' ys' : List α} (h : Concur (xs ++ xs') (ys ++ ys')) :
    Concur xs ys ∧ (xs = ys → Concur xs' ys') := by
  refine ⟨fun n x y hx hy => ?_, ?_⟩
  · have hnx := (List.getElem?_eq_some_iff.1 hx).1
    have hny := (List.getElem?_eq_some_iff.1 hy).1
    exact h n x y (by rw [List.getElem?_append_left hnx, hx])
      (by rw [List.getElem?_append_left hny, hy])
  · rintro rfl n x y hx hy
    have ha : ∀ zs : List α, (xs ++ zs)[xs.length + n]? = zs[n]? := fun zs => by
      rw [List.getElem?_append_right (Nat.le_add_right _ _), Nat.add_sub_cancel_left]
    exact h (xs.length + n) x y ((ha xs').trans hx) ((ha ys').trans hy)

lemma Concur.of_eq {α : Type} {xs ys : List α} (h : xs = ys) : Concur xs ys := by
  rintro n x y hx hy
  exact Option.some.inj (hx.symm.trans (h ▸ hy))

lemma twin_of_blurred (h : c.blurred = c'.blurred) :
    ∃ l, c' = { c with listener := l } ∧ l.isSome = c.listener.isSome := by
  refine ⟨c'.listener, ?_, ?_⟩
  · cases c
    cases c'
    simp_all [blurred]
  · simpa [blurred] using congrArg (fun c => c.listener.isSome) h.symm

lemma isSome_of_blurred (h : c.blurred = c'.blurred) : c.listener.isSome = c'.listener.isSome := by
  simpa [blurred] using congrArg (fun c => c.listener.isSome) h

lemma blurred_of_twin {l : Option Broadcast.Ticket} (h : l.isSome = c.listener.isSome) :
    c.blurred = { c with listener := l }.blurred := by
  cases hl : c.listener <;> cases l <;> simp_all [blurred]

section Agree

variable (hs : Surroundings.Agree a env env') (hg : c.group = a.group)

include hs hg

lemma savedNumber_agree {k : Key} (hk : a.Owns k) (l : Option Broadcast.Ticket) (n : Int32) :
    c.savedNumber env k n = { c with listener := l }.savedNumber env' k n := by
  rw [savedNumber, savedNumber, hg, hs.saved k hk]

lemma savedState_agree {s : SubscriptionId} (h : a.subscriptions s) (l : Option Broadcast.Ticket) :
    c.savedState env s = { c with listener := l }.savedState env' s := by
  rw [savedState, savedState, savedNumber_agree hs hg (.inr (.inr ⟨s, h, rfl⟩)) l]

lemma weigh_agree {s : SubscriptionId} (h : a.subscriptions s) {l : Option Broadcast.Ticket}
    (hl : l.isSome = c.listener.isSome) (b : Option Bundle) (enforced : Bool) :
    (c.weigh env s b enforced).1.blurred =
        ({ c with listener := l }.weigh env' s b enforced).1.blurred ∧
      (c.weigh env s b enforced).2 = ({ c with listener := l }.weigh env' s b enforced).2 := by
  refine ⟨blurred_of_twin hl, ?_⟩
  simp only [weigh]
  rw [savedState_agree hs hg h l]

lemma lookAgain_agree {l : Option Broadcast.Ticket} (hl : l.isSome = c.listener.isSome) :
    (c.lookAgain env).1.blurred = ({ c with listener := l }.lookAgain env').1.blurred ∧
      (c.lookAgain env).2 = ({ c with listener := l }.lookAgain env').2 := by
  simp only [lookAgain, ← hs.subscription, ← hs.bundle]
  split
  · exact weigh_agree hs hg hs.within hl _ _
  · exact ⟨blurred_of_twin hl, rfl⟩

lemma load_agree (l : Option Broadcast.Ticket) :
    { c with listener := l }.load env' =
      { c.load env with listener := l.or (some env'.nextTicket) } := by
  have h₁ := savedNumber_agree hs hg (.inl rfl) l SubscriptionId.absent.number
  have h₂ := savedState_agree hs hg hs.within l
  have h₃ := savedNumber_agree hs hg (.inr (.inl rfl)) l Sync.none.code
  simp only [load, hs.phone, hs.phone', ← hs.subscription, h₁, h₂, h₃]

theorem intent_agree (hb : c.blurred = c'.blurred) (ho : op.Within a) :
    (c.intent env op).1.blurred = (c'.intent env' op).1.blurred ∧
      (c.intent env op).2 = (c'.intent env' op).2 := by
  obtain ⟨l, rfl, hl⟩ := twin_of_blurred hb
  cases op with
  | hear slot =>
    simp only [intent, hs.phone, hs.phone']
    split
    · exact lookAgain_agree hs hg hl
    · exact ⟨blurred_of_twin hl, rfl⟩
  | update s bundle enforced => exact weigh_agree hs hg ho hl _ _
  | setSupported v =>
    simp only [intent]
    split
    · exact ⟨blurred_of_twin hl, rfl⟩
    · split
      · rw [load_agree (c := { c with supported := true }) hs hg l]
        refine lookAgain_agree (c := { c with supported := true }.load env) hs hg ?_
        simp [load]
      · exact ⟨rfl, rfl⟩
  | request enable serviceClass => exact ⟨blurred_of_twin hl, rfl⟩
  | interrogate | readState => exact ⟨blurred_of_twin hl, rfl⟩

end Agree

lemma reply_of_blurred (hb : c.blurred = c'.blurred) (op : Operation) :
    c.reply op = c'.reply op := by
  obtain ⟨l, rfl, -⟩ := twin_of_blurred hb
  cases op <;> rfl

lemma isIdle_agree {y : Transition} (hs : Surroundings.Agree a env env')
    (hb : c.blurred = c'.blurred) : y.IsIdle env c ↔ y.IsIdle env' c' := by
  obtain ⟨l, rfl, -⟩ := twin_of_blurred hb
  rw [Transition.IsIdle, Transition.IsIdle, isSettled_iff, isSettled_iff, hs.subscription]

theorem perform_agree (hs : Surroundings.Agree a env env') (hg : c.group = a.group)
    (hb : c.blurred = c'.blurred) (ho : op.Within a)
    (hf : Concur ((c.perform env op).offers.map (·.2)) ((c'.perform env' op).offers.map (·.2))) :
    (c.perform env op).Alike (c'.perform env' op) := by
  obtain ⟨hx, hy⟩ := intent_agree hs hg hb ho
  have ha : (c.perform env op).crashed = (c'.perform env' op).crashed →
      (c.perform env op).answer = (c'.perform env' op).answer := by
    intro hc
    rw [answer_perform, answer_perform, hc, reply_of_blurred hb]
  obtain hr | ⟨y, hi, hn⟩ := rests_or env c op
  · have hr' : c'.Rests env' op := by
      intro y hm
      exact (isIdle_agree hs hx).1 (hr y (hy ▸ hm))
    have hw := perform_rests hr
    have hw' := perform_rests hr'
    refine ⟨?_, hw.offers.trans hw'.offers.symm, hw.pushes.trans hw'.pushes.symm,
      ha (hw.crashed.trans hw'.crashed.symm)⟩
    rw [hw.controller, hw'.controller]
    exact hx
  · have hi' : (c'.intent env' op).2 = some y := hy ▸ hi
    have hn' : ¬ y.IsIdle env' (c'.intent env' op).1 := fun h => hn ((isIdle_agree hs hx).2 h)
    have ht := perform_carried hi hn
    have ht' := perform_carried hi' hn'
    obtain ⟨l, hc, hl⟩ := twin_of_blurred hx
    have hbatch : y.batch env (c.intent env op).1 = y.batch env' (c'.intent env' op).1 := by
      rw [hc, Transition.batch, Transition.batch, hs.phone, hs.phone', hs.subscription]
    rw [ht.offers, ht'.offers] at hf
    have hfate := hf 0 _ _ rfl rfl
    simp only at hfate
    have hoff : (c.perform env op).offers = (c'.perform env' op).offers := by
      rw [ht.offers, ht'.offers, hfate, hbatch]
    by_cases hcr : env.fate (y.batch env (c.intent env op).1) = .crashed
    · obtain ⟨h₁, h₂, h₃⟩ := ht.crashed hcr
      obtain ⟨h₁', h₂', h₃'⟩ := ht'.crashed (hfate ▸ hcr)
      refine ⟨?_, hoff, h₂.trans h₂'.symm, ha (h₃.trans h₃'.symm)⟩
      rw [h₁, h₁']
      exact hx
    · obtain ⟨h₁, h₂, h₃⟩ := ht.done hcr
      obtain ⟨h₁', h₂', h₃'⟩ := ht'.done (hfate ▸ hcr)
      refine ⟨?_, hoff, h₂.trans h₂'.symm, ha (h₃.trans h₃'.symm)⟩
      rw [h₁, h₁', hc, hs.subscription]
      exact blurred_of_twin hl

end Controller

end CallWaiting
