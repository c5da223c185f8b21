import CallWaiting.Proofs.Controller.Course
import CallWaiting.Proofs.Handset.Acceptance

/-!
When the record that a controller has in mind, the one in the store and what the phone was told agree.
A record is loaded in two halves, one by phone and one by subscription. If the phone is swapped
before anything is written, the halves belong to different subscriptions, and a change may be dropped
as if it had been made.
-/

namespace CallWaiting

namespace Controller

variable {env : Surroundings} {c : Controller} {op : Operation}

def Loads (c : Controller) (op : Operation) : Prop :=
  op = .setSupported true ∧ c.supported = false

instance : Decidable (c.Loads op) :=
  inferInstanceAs (Decidable (_ ∧ _))

/-- An operation that is to leave everything in accord: it evaluates a loaded bundle on a valid
subscription, is a request that is handled, or withdraws support. -/
def Concludes (env : Surroundings) (c : Controller) (op : Operation) : Prop :=
  (c.Looks env op ∧ env.subscription.isValid = true ∧ env.bundle env.subscription ≠ none) ∨
    (∃ enable classes, op = .request enable classes ∧
      (c.perform env op).answer = some (.handled true)) ∨
    op = .setSupported false ∧ c.supported = true

structure SameRecord (c c' : Controller) : Prop where
  lastSubscription : c.lastSubscription = c'.lastSubscription
  state : c.state = c'.state
  sync : c.sync = c'.sync

lemma intent_sameRecord (env : Surroundings) (c : Controller) (op : Operation) :
    (c.intent env op).1.SameRecord (c.readied env op) where
  lastSubscription := intent_keeps env (f := lastSubscription) (fun _ _ => rfl) c op
  state := intent_keeps env (f := state) (fun _ _ => rfl) c op
  sync := intent_keeps env (f := sync) (fun _ _ => rfl) c op

lemma intent_loads (h : c.Loads op) : (c.intent env op).1.SameRecord (c.load env) := by
  obtain ⟨rfl, hs⟩ := h
  have hr := intent_sameRecord env c (.setSupported true)
  rw [readied, if_neg (by simp [hs]), if_pos rfl] at hr
  exact ⟨hr.lastSubscription, hr.state, hr.sync⟩

lemma intent_unloaded (env : Surroundings) (h : ¬ c.Loads op) :
    (c.intent env op).1.SameRecord c ∧
      (c.supported = false → (c.intent env op).1.supported = false) := by
  have hr := intent_sameRecord env c op
  have hs := intent_keeps env (f := supported) (fun _ _ => rfl) c op
  cases op with
  | setSupported v =>
    rw [readied] at hr hs
    split at hr
    · rename_i hv
      rw [if_pos hv] at hs
      exact ⟨hr, hs.trans⟩
    · rename_i hv
      cases v with
      | true => exact absurd ⟨rfl, by simpa using hv⟩ h
      | false =>
        rw [if_neg hv] at hs
        exact ⟨⟨hr.lastSubscription, hr.state, hr.sync⟩, fun _ => hs⟩
  | hear slot | update s bundle enforced | interrogate | request enable classes | readState =>
    exact ⟨hr, hs.trans⟩

lemma intent_concludes (h : c.Concludes env op) :
    ∃ y, (c.intent env op).2 = some y ∧ y.enforced = false := by
  obtain ⟨hl, hv, hb⟩ | ⟨enable, classes, rfl, ha⟩ | ⟨rfl, hs⟩ := h
  · obtain ⟨b, hb⟩ := Option.ne_none_iff_exists'.1 hb
    exact ⟨_, (intent_looks env hl hv hb).2, rfl⟩
  · exact ⟨_, by rw [intent, if_pos (serves_of_handled env ha)], rfl⟩
  · exact ⟨_, by simp only [intent, hs, Bool.true_eq_false, if_false]; rfl, rfl⟩

structure IsBlank (c : Controller) : Prop where
  supported : c.supported = false
  state : c.state = .notSupported
  lastSubscription : c.lastSubscription = .absent

lemma IsBlank.not_rests (hb : c.IsBlank) (h : c.Concludes env op) (hl : ¬ c.Loads op) :
    ¬ c.Rests env op := by
  intro hr
  obtain ⟨y, hy, -⟩ := intent_concludes h
  obtain ⟨hi, -⟩ := hr y hy
  have hlast := ((isSettled_iff env _ _ _).1 hi).1
  rw [(intent_unloaded env hl).1.lastSubscription, hb.lastSubscription] at hlast
  obtain ⟨-, hv, -⟩ | ⟨enable, classes, rfl, ha⟩ | ⟨-, hs⟩ := h
  · rw [← hlast] at hv
    exact absurd hv (by decide)
  · have hs := serves_of_handled env ha
    simp [serves, hb.state] at hs
  · rw [hb.supported] at hs
    cases hs

end Controller

namespace Handset

open Controller (Surroundings Operation)
open Preference (Key)

variable {h h' : Handset} {i : Nat} {p p' : Phone} {c c' : Controller} {op : Operation}
  {t : SubscriptionId} {group : String}

def savedSubscription (h : Handset) (group : String) (p : PhoneId) : SubscriptionId :=
  ⟨h.store.get group (.lastSubscription p) SubscriptionId.absent.number⟩

structure Holds (h : Handset) (p : Phone) (c : Controller) (t : SubscriptionId) : Prop where
  lastSubscription : h.savedSubscription c.group p.id = c.lastSubscription
  state : h.savedState c.group t = c.state
  sync : h.store.get c.group (.sync p.id) Sync.none.code = c.sync.code

/-- The store, read as the controller reads it, holds what the controller has in mind for the phone's
subscription, and the phone was told so last, if the controller has told it anything. -/
structure Agreed (h : Handset) (p : Phone) (c : Controller) (told : Option State) : Prop where
  lastSubscription : h.store.get c.group (.lastSubscription p.id) SubscriptionId.absent.number =
    p.subscription.number
  state : h.store.get c.group (.state p.subscription) State.notSupported.code = c.state.code
  sync : h.store.get c.group (.sync p.id) Sync.none.code = c.sync.code
  told : told ≠ none → p.shown = some c.state

structure Trail where
  source : Option SubscriptionId
  told : Option State
deriving DecidableEq

namespace Trail

def blank : Trail := ⟨none, none⟩

def after (tr : Trail) (env : Surroundings) (c : Controller) (op : Operation) : Trail where
  source := if c.Loads op ∨ (c.perform env op).offers ≠ [] then some env.subscription else tr.source
  told := ((c.perform env op).pushes.getLast?).or tr.told

end Trail

def IsCoded (h : Handset) (group : String) : Prop :=
  ∀ s, h.store.get group (.state s) State.notSupported.code = (h.savedState group s).code

structure Sound (h : Handset) (p : Phone) (c : Controller) (tr : Trail) : Prop where
  source : match tr.source with
    | none => c.IsBlank
    | some t => h.Holds p c t
  told : ∀ v, tr.told = some v →
    p.shown = some v ∧ h.savedState c.group (h.savedSubscription c.group p.id) = v

def SameNumbers (group : String) (h h' : Handset) : Prop :=
  ∀ k, h.store.get? group k = h'.store.get? group k

lemma SameVault.sameNumbers (hv : h.SameVault h') (group : String) : h.SameNumbers group h' := by
  intro k
  rw [hv.store]

lemma SameNumbers.get (hn : h.SameNumbers group h') (k : Key) (d : Int32) :
    h.store.get group k d = h'.store.get group k d := by
  rw [Preference.Store.get, hn k, ← Preference.Store.get]

lemma SameNumbers.savedState (hn : h.SameNumbers group h') (s : SubscriptionId) :
    h.savedState group s = h'.savedState group s := by
  rw [Handset.savedState, hn, ← Handset.savedState]

lemma SameNumbers.savedSubscription (hn : h.SameNumbers group h') (p : PhoneId) :
    h.savedSubscription group p = h'.savedSubscription group p := by
  rw [Handset.savedSubscription, hn.get, ← Handset.savedSubscription]

lemma IsCoded.congr (hn : h'.SameNumbers group h) (hc : h.IsCoded group) : h'.IsCoded group := by
  intro s
  rw [hn.get, hn.savedState]
  exact hc s

lemma Sound.congr {tr : Trail} (hs : h.Sound p c tr) (hn : h'.SameNumbers c.group h)
    (hi : p'.id = p.id) (ht : p'.told = p.told) : h'.Sound p' c tr := by
  refine ⟨?_, fun v hv => ?_⟩
  · have hh := hs.source
    cases hsrc : tr.source with
    | none => rwa [hsrc] at hh
    | some t =>
      rw [hsrc] at hh
      refine ⟨?_, ?_, ?_⟩
      · rw [hn.savedSubscription, hi]
        exact hh.lastSubscription
      · rw [hn.savedState]
        exact hh.state
      · rw [hn.get, hi]
        exact hh.sync
  · obtain ⟨h₁, h₂⟩ := hs.told v hv
    rw [hn.savedState, hn.savedSubscription, hi, Phone.shown, ht]
    exact ⟨h₁, h₂⟩

lemma sound_blank (hb : c.IsBlank) : h.Sound p c .blank :=
  ⟨hb, nofun⟩

section Offer

variable {y : Controller.Transition}

lemma get_offer_state (hf : h.fate (y.batch (h.surroundings p) c) = .stored) (s : SubscriptionId) :
    (h.offer (y.batch (h.surroundings p) c)).store.get c.group (.state s) State.notSupported.code =
      if s = p.subscription then y.state.code
      else h.store.get c.group (.state s) State.notSupported.code := by
  rw [Preference.Store.get, get?_offer hf, Controller.Transition.batch, surroundings_subscription,
    value?_state]
  split <;> rfl

lemma isCoded_offer (hf : h.fate (y.batch (h.surroundings p) c) = .stored)
    (hc : h.IsCoded c.group) : (h.offer (y.batch (h.surroundings p) c)).IsCoded c.group := by
  intro s
  rw [get_offer_state hf, savedState_offer hf]
  by_cases hs : s = p.subscription
  · rw [if_pos hs, if_pos ⟨rfl, hs⟩]
  · rw [if_neg hs, if_neg (fun hh => hs hh.2)]
    exact hc s

lemma holds_offer (hf : h.fate (y.batch (h.surroundings p) c) = .stored) :
    (h.offer (y.batch (h.surroundings p) c)).Holds p (c.recorded p.subscription y.state y.sync)
      p.subscription := by
  obtain ⟨h₁, h₂, h₃⟩ := hasRecord_offer hf
  refine ⟨?_, ?_, ?_⟩
  · change SubscriptionId.mk ((_ : Option Int32).getD _) = _
    exact congrArg (fun n : Option Int32 => SubscriptionId.mk (n.getD _)) h₂
  · rw [savedState_offer hf, if_pos ⟨rfl, rfl⟩]
    rfl
  · exact congrArg (fun n : Option Int32 => n.getD Sync.none.code) h₃

lemma sound_offer (hf : h.fate (y.batch (h.surroundings p) c) = .stored) :
    (h.offer (y.batch (h.surroundings p) c)).Sound (p.pushAll [y.state])
      (c.recorded p.subscription y.state y.sync) ⟨some p.subscription, some y.state⟩ := by
  obtain ⟨h₁, h₂, h₃⟩ := holds_offer hf
  refine ⟨⟨h₁, h₂, h₃⟩, ?_⟩
  rintro v ⟨⟩
  refine ⟨by simp [Phone.shown, Phone.pushAll], ?_⟩
  exact (congrArg (Handset.savedState _ _) h₁).trans h₂

end Offer

lemma holds_load (h : Handset) (p : Phone) (c : Controller) :
    h.Holds p (c.load (h.surroundings p)) p.subscription where
  lastSubscription := rfl
  state := rfl
  sync := (Sync.code_ofCode _).symm

lemma Holds.congr (hh : h.Holds p c t) (hg : c'.group = c.group) (hr : c'.SameRecord c) :
    h.Holds p c' t := by
  obtain ⟨h₁, h₂, h₃⟩ := hh
  refine ⟨?_, ?_, ?_⟩
  · rw [hg, hr.lastSubscription, h₁]
  · rw [hg, hr.state, h₂]
  · rw [hg, hr.sync, h₃]

lemma sound_intent {tr : Trail} (hs : h.Sound p c tr) (op : Operation) :
    h.Sound p (c.intent (h.surroundings p) op).1
      ⟨if c.Loads op then some p.subscription else tr.source, tr.told⟩ := by
  have hg := Controller.intent_group (h.surroundings p) c op
  refine ⟨?_, fun v hv => ?_⟩
  · by_cases hl : c.Loads op
    · rw [if_pos hl]
      exact (holds_load h p c).congr hg (Controller.intent_loads hl)
    · rw [if_neg hl]
      obtain ⟨hr, hsup⟩ := Controller.intent_unloaded (h.surroundings p) hl
      have hh := hs.source
      cases hsrc : tr.source with
      | none =>
        rw [hsrc] at hh
        exact ⟨hsup hh.supported, hr.state.trans hh.state,
          hr.lastSubscription.trans hh.lastSubscription⟩
      | some t =>
        rw [hsrc] at hh
        exact hh.congr hg hr
  · rw [hg]
    exact hs.told v hv

theorem sound_operate {tr : Trail} (hp : h.phones[i]? = some p)
    (hs : (h.operate i c op).2.IsStored) (hc : h.IsCoded c.group) (h₀ : h.Sound p c tr) :
    (h.operate i c op).1.IsCoded c.group ∧ (h.operate i c op).1.Sound
      (p.pushAll (h.operate i c op).2.pushes) (h.operate i c op).2.controller
      (tr.after (h.surroundings p) c op) := by
  have hg := Controller.intent_group (h.surroundings p) c op
  have hi := sound_intent h₀ op
  have hv := operate_sameVault h i c op
  have ht : (h.operate i c op).2 = c.perform (h.surroundings p) op := by rw [operate_eq hp]
  rw [ht] at hs hv ⊢
  rw [Trail.after]
  obtain hr | ⟨y, hx, hy⟩ := Controller.rests_or (h.surroundings p) c op
  · -- nothing is written, and what the controller has in mind comes from before or was loaded now
    have hw := Controller.perform_rests hr
    have ho : (c.perform (h.surroundings p) op).offers = [] := hw.offers
    have hpu : (c.perform (h.surroundings p) op).pushes = [] := hw.pushes
    rw [ho] at hv
    rw [hw.controller, ho, hpu]
    refine ⟨hc.congr (hv.sameNumbers _), ?_⟩
    have hsnd := hi.congr (hv.sameNumbers _) rfl rfl
    simpa [Controller.Turn.rest] using hsnd
  · have hca := Controller.perform_carried hx hy
    have hf : h.fate (y.batch (h.surroundings p) (c.intent (h.surroundings p) op).1) = .stored := by
      rw [Controller.Turn.IsStored, hca.offers] at hs
      exact hs _ (List.mem_singleton.2 rfl)
    have hn : (h.surroundings p).fate
        (y.batch (h.surroundings p) (c.intent (h.surroundings p) op).1) ≠ .crashed := by
      change h.fate _ ≠ _
      simp [hf]
    obtain ⟨hco, hpu, -⟩ := hca.done hn
    rw [hca.offers] at hv
    rw [hco, hpu, hca.offers]
    simp only [ne_eq, List.cons_ne_nil, not_false_eq_true, or_true, if_true]
    refine ⟨?_, (sound_offer hf).congr (hv.sameNumbers _) rfl rfl⟩
    have hcd := isCoded_offer hf (hg.symm ▸ hc)
    rw [hg] at hcd
    exact hcd.congr (hv.sameNumbers _)

lemma lastSubscription_concludes (hp : h.phones[i]? = some p) (hs : (h.operate i c op).2.IsStored)
    (ho : c.Concludes (h.surroundings p) op) :
    (h.operate i c op).2.controller.lastSubscription = p.subscription := by
  cases outcome_operate hp hs with
  | idle hx hc hv =>
    obtain ⟨y, hy, -⟩ := Controller.intent_concludes ho
    rw [hc]
    exact ((Controller.isSettled_iff _ _ _ _).1 (hx y hy).1).1
  | written y hx hf hc hv => rw [hc, Controller.recorded]

lemma source_concludes {tr : Trail} (h₀ : h.Sound p c tr)
    (ho : c.Concludes (h.surroundings p) op) :
    ∃ t, (tr.after (h.surroundings p) c op).source = some t := by
  by_cases hl : c.Loads op ∨ (c.perform (h.surroundings p) op).offers ≠ []
  · exact ⟨_, if_pos hl⟩
  · rw [Trail.after, if_neg hl]
    obtain ⟨hl, hn⟩ := not_or.1 hl
    have hh := h₀.source
    cases hsrc : tr.source with
    | some t => exact ⟨t, rfl⟩
    | none =>
      rw [hsrc] at hh
      obtain hr | ⟨y, hx, hy⟩ := Controller.rests_or (h.surroundings p) c op
      · exact absurd hr (hh.not_rests ho hl)
      · simp [(Controller.perform_carried hx hy).offers] at hn

lemma Sound.agreed_iff {tr : Trail} (hs : h.Sound p c tr) (hc : h.IsCoded c.group)
    (hl : c.lastSubscription = p.subscription) (ht : tr.source = some t) :
    h.Agreed p c tr.told ↔ h.savedState c.group p.subscription = h.savedState c.group t := by
  have hh := hs.source
  rw [ht] at hh
  obtain ⟨h₁, h₂, h₃⟩ := hh
  constructor
  · intro ha
    have hcode := (hc p.subscription).symm.trans ha.state
    rw [h₂, ← State.ofCode_code (h.savedState c.group p.subscription), hcode, State.ofCode_code]
  · intro he
    refine ⟨?_, ?_, h₃, fun hn => ?_⟩
    · exact congrArg SubscriptionId.number (h₁.trans hl)
    · rw [hc, he, h₂]
    · obtain ⟨v, hv⟩ := Option.ne_none_iff_exists'.1 hn
      obtain ⟨h₄, h₅⟩ := hs.told v hv
      rw [h₄, ← h₅, h₁, hl, he, h₂]

end Handset

end CallWaiting
