import CallWaiting.Proofs.Bundle
import CallWaiting.Proofs.Controller.Stage

/-!
A controller that is up to date shows what the bundle of the subscription and the state saved for it
come to. From close up, an evaluation on which nothing intrudes brings it there, and a request keeps it
there.
-/

namespace CallWaiting.Controller

structure Sight where
  subscription : SubscriptionId
  bundle : Option Bundle
  saved : State

def Surroundings.sight (env : Surroundings) (c : Controller) : Sight :=
  ⟨env.subscription, env.bundle env.subscription, c.savedState env env.subscription⟩

variable {env : Surroundings} {c : Controller} {v : Sight} {op : Operation}

structure UpToDate (c : Controller) (v : Sight) : Prop where
  shown : ∀ b, v.subscription.isValid = true → v.bundle = some b →
    c.validSubscription = true ∧ c.state = State.merge b.defaultState v.saved false ∧ c.sync = b.sync

def Transition.Suits (x : Transition) (c : Controller) (v : Sight) : Prop :=
  ∀ b, v.subscription.isValid = true → v.bundle = some b →
    c.validSubscription = true ∧ State.merge b.defaultState x.state false = x.state ∧ x.sync = b.sync

def OnCourse (c : Controller) (v : Sight) : Stage → Prop
  | .loading | .looking | .broken => True
  | .fetching s => s = v.subscription
  | .weighing s b enforced =>
    s = v.subscription ∧ v.bundle = some b ∧ enforced = false ∧ c.validSubscription = true
  | .moving x => x.enforced = false ∧ x.Suits c v ∧ (c.state = x.state → c.sync = x.sync → c.UpToDate v)
  | .offering s x => s = v.subscription ∧ x.Suits c v
  | .telling _ | .finished => c.UpToDate v

def Operation.IsUpdate : Operation → Prop
  | .update _ _ _ => True
  | .hear _ | .setSupported _ | .interrogate | .request _ _ | .readState => False

instance : (op : Operation) → Decidable op.IsUpdate
  | .update _ _ _ => inferInstanceAs (Decidable True)
  | .hear _ | .setSupported _ | .interrogate | .request _ _ | .readState =>
    inferInstanceAs (Decidable False)

theorem onCourse_enter (ho : ¬ op.IsUpdate) (hy : (c.enter env op).controller.supported = true)
    (hc : c.supported = true → op = .hear env.phone ∧ env.phone.isValid = true ∨ c.UpToDate v) :
    (c.enter env op).controller.OnCourse v (c.enter env op).stage := by
  have hu : c.supported = true → (∀ slot, op ≠ .hear slot) → c.UpToDate v := by
    intro hs hn
    exact (hc hs).resolve_left fun hh => hn _ hh.1
  cases op with
  | hear slot =>
    simp only [enter] at hy ⊢
    split at hy <;> rename_i hv
    · rw [if_pos hv]
      refine (hc hy).resolve_left fun hh => ?_
      obtain ⟨⟨⟩, hi⟩ := hh
      simp [hi] at hv
    · rw [if_neg hv]
      split at hy <;> rename_i hp
      · rw [if_pos hp]
        refine (hc hy).resolve_left fun hh => ?_
        obtain ⟨⟨⟩, -⟩ := hh
        exact hp rfl
      · rw [if_neg hp]
        trivial
  | update s bundle enforced => exact absurd trivial ho
  | setSupported w =>
    simp only [enter] at hy ⊢
    split at hy <;> rename_i hw
    · rw [if_pos hw]
      exact hu hy (by simp)
    · rw [if_neg hw]
      cases w with
      | true => trivial
      | false => cases hy
  | interrogate | readState => exact hu hy (by simp)
  | request enable serviceClass =>
    simp only [enter] at hy ⊢
    split at hy <;> rename_i hn
    · rw [if_pos hn]
      exact hu hy (by simp)
    · rw [if_neg hn]
      have hd := hu hy (by simp)
      cases c.sync.isLocal with
      | false => exact hd
      | true =>
        refine ⟨rfl, fun b hv hb => ?_, fun _ _ => hd⟩
        obtain ⟨h₁, h₂, h₃⟩ := hd.shown b hv hb
        refine ⟨h₁, State.merge_saved ?_ (State.ofEnabled_ne enable), h₃⟩
        intro hz
        rw [hz] at h₂
        exact hn (.inl h₂)

theorem onCourse_advance {st : Stage} (hc : c.OnCourse (env.sight c) st)
    (hn : ∀ s x, st ≠ .offering s x) :
    (c.advance env st).controller.OnCourse (env.sight c) (c.advance env st).stage := by
  cases st with
  | loading | broken => trivial
  | finished => exact hc
  | telling state => exact hc
  | offering s x => exact absurd rfl (hn s x)
  | looking =>
    simp only [advance]
    by_cases hv : env.subscription.isValid = true
    · rw [if_pos hv]
      rfl
    · rw [if_neg hv]
      exact ⟨fun b hb => absurd hb hv⟩
  | fetching s =>
    obtain rfl : s = env.subscription := hc
    simp only [advance]
    cases hb : env.bundle env.subscription with
    | none => exact ⟨fun b _ hb' => by cases hb.symm.trans hb'⟩
    | some b => exact ⟨rfl, hb, rfl, rfl⟩
  | weighing s b enforced =>
    obtain ⟨rfl, hb, rfl, hv⟩ := hc
    refine ⟨rfl, fun b' _ hb' => ?_, fun hs hy => ⟨fun b' _ hb' => ?_⟩⟩
    · obtain rfl := Option.some.inj (hb.symm.trans hb')
      exact ⟨hv, State.merge_merge _ _, rfl⟩
    · obtain rfl := Option.some.inj (hb.symm.trans hb')
      exact ⟨hv, hs, hy⟩
  | moving x =>
    obtain ⟨he, hs, hd⟩ := hc
    simp only [advance]
    split
    · rename_i hi
      obtain ⟨-, h₁, h₂⟩ := (isSettled_iff env c _ _).1 hi.1
      exact hd h₁ h₂
    · exact ⟨rfl, hs⟩

theorem upToDate_offering {s : SubscriptionId} {x : Transition} (hc : c.OnCourse v (.offering s x)) :
    (c.recorded s x.state x.sync).UpToDate { v with saved := x.state } := by
  refine ⟨fun b hv hb => ?_⟩
  obtain ⟨h₁, h₂, h₃⟩ := hc.2 b hv hb
  exact ⟨h₁, h₂.symm, h₃⟩

end CallWaiting.Controller
