import CallWaiting.Proofs.Handset.Effects
import CallWaiting.Proofs.Handset.Run

namespace CallWaiting.Handset

open Controller (Operation Transition recordBatch)
open Preference (Batch Fate Key)

variable {h : Handset} {i : Nat} {p : Phone} {c : Controller} {group : String} {state : State}
  {sync : Sync}

structure HasRecord (h : Handset) (group : String) (p : PhoneId) (s : SubscriptionId)
    (state : State) (sync : Sync) : Prop where
  state : h.store.get? group (.state s) = some state.code
  lastSubscription : h.store.get? group (.lastSubscription p) = some s.number
  sync : h.store.get? group (.sync p) = some sync.code

lemma beq_of_field_ne {f f' : Preference.Field} (hf : f ≠ f') (n n' : Int32) :
    (Key.mk f n == Key.mk f' n') = false := by
  rw [beq_eq_false_iff_ne]
  rintro ⟨⟩
  exact hf rfl

lemma value?_state (group : String) (p : PhoneId) (s s' : SubscriptionId) (state : State)
    (sync : Sync) : (recordBatch group p s state sync).value? group (.state s') =
      if s' = s then some state.code else none := by
  obtain ⟨n⟩ := s
  obtain ⟨n'⟩ := s'
  by_cases hn : n' = n
  · simp [recordBatch, Batch.value?, Key.state, Key.sync, Key.lastSubscription, List.lookup_cons, hn,
      beq_of_field_ne]
  · have hb : (Key.mk .state n' == Key.mk .state n) = false := by simpa using hn
    simp [recordBatch, Batch.value?, Key.state, Key.sync, Key.lastSubscription, List.lookup_cons, hn, hb,
      beq_of_field_ne]

lemma hasRecord_offer {p : PhoneId} {s : SubscriptionId}
    (hf : h.fate (recordBatch group p s state sync) = .stored) :
    (h.offer (recordBatch group p s state sync)).HasRecord group p s state sync where
  state := by rw [get?_offer hf, value?_state, if_pos rfl, Option.some_or]
  lastSubscription := by
    rw [get?_offer hf]
    simp [recordBatch, Batch.value?, Key.state, Key.sync, Key.lastSubscription, List.lookup_cons,
      beq_of_field_ne]
  sync := by
    rw [get?_offer hf]
    simp [recordBatch, Batch.value?]

lemma SameVault.hasRecord {h' : Handset} (hv : h.SameVault h') {p : PhoneId} {s : SubscriptionId}
    (hh : h'.HasRecord group p s state sync) : h.HasRecord group p s state sync := by
  obtain ⟨h₁, h₂, h₃⟩ := hh
  exact ⟨hv.store ▸ h₁, hv.store ▸ h₂, hv.store ▸ h₃⟩

/-- A handled request whose batches were all stored. Unless it repeats the record that the
controller has in mind, the store holds what was requested; if it does, nothing was offered and
the store is as it was. -/
theorem hasRecord_request {enable : Bool} {serviceClass : ServiceClass}
    (hp : h.phones[i]? = some p)
    (ha : (h.operate i c (.request enable serviceClass)).2.answer = some (.handled true))
    (hs : (h.operate i c (.request enable serviceClass)).2.IsStored) :
    if c.lastSubscription = p.subscription ∧ c.state = .ofEnabled enable then
      (h.operate i c (.request enable serviceClass)).2.offers = [] ∧
        (h.operate i c (.request enable serviceClass)).1.store = h.store
    else
      (h.operate i c (.request enable serviceClass)).1.HasRecord c.group p.id p.subscription
        (.ofEnabled enable) c.sync := by
  have hv := operate_sameVault h i c (.request enable serviceClass)
  simp only [operate_eq hp] at ha hs hv ⊢
  have hw := Controller.perform_sameWork (h.surroundings p) c (.request enable serviceClass)
  rw [Controller.intent, if_pos (Controller.serves_of_handled _ ha)] at hw
  let x : Transition := ⟨.ofEnabled enable, c.sync, false⟩
  rw [Controller.Turn.IsStored] at hs
  rw [hw.offers] at hs hv ⊢
  split
  · rename_i hr
    have hx : x.IsIdle (h.surroundings p) c :=
      ⟨(Controller.isSettled_iff _ c _ _).2 ⟨hr.1, hr.2, rfl⟩, rfl⟩
    rw [Controller.attempt_idle _ c x hx] at hv ⊢
    exact ⟨rfl, hv.store⟩
  · rename_i hr
    have hx : ¬ x.IsIdle (h.surroundings p) c := by
      rintro ⟨hx, -⟩
      obtain ⟨h₁, h₂, -⟩ := (Controller.isSettled_iff _ c _ _).1 hx
      exact hr ⟨h₁, h₂⟩
    have ho := (Controller.attempt_carried _ c x hx).offers
    rw [ho] at hs hv
    exact hv.hasRecord (hasRecord_offer (hs _ (List.mem_singleton.2 rfl)))

set_option maxRecDepth 10000 in
theorem hasRecord_request_first :
    let d := Direct.single.run [.operate 0 (.update ⟨1⟩ (some (.offering false)) false)]
    let c : Controller := ⟨"", none, false, true, .notActivated, .none, ⟨1⟩⟩
    d.controller? 0 = some c ∧
      (d.handset.operate 0 c (.request true .voice)).1.HasRecord "" ⟨0⟩ ⟨1⟩ .activated .none := by
  intro d c
  have hp : d.handset.phones[0]? = some ⟨⟨0⟩, ⟨1⟩, [.notActivated]⟩ := rfl
  have ha : (d.handset.operate 0 c (.request true .voice)).2.answer = some (.handled true) := by
    decide
  have hs : (d.handset.operate 0 c (.request true .voice)).2.IsStored := by decide
  have hh := hasRecord_request hp ha hs
  rw [if_neg (by decide)] at hh
  exact ⟨by decide, hh⟩

set_option maxRecDepth 10000 in
theorem not_hasRecord_request_repeated :
    let d := Direct.single.run [.operate 0 (.update ⟨1⟩ (some (.offering false)) false),
      .change (.refuse true), .operate 0 (.request true .voice), .change (.refuse false)]
    let c : Controller := ⟨"", none, false, true, .activated, .none, ⟨1⟩⟩
    d.controller? 0 = some c ∧
      (d.handset.operate 0 c (.request true .voice)).2.answer = some (.handled true) ∧
      (d.handset.operate 0 c (.request true .voice)).2.IsStored ∧
      ¬ (d.handset.operate 0 c (.request true .voice)).1.HasRecord "" ⟨0⟩ ⟨1⟩ .activated .none :=
  ⟨by decide, by decide, by decide, fun hh => absurd hh.state (by decide)⟩

end CallWaiting.Handset
