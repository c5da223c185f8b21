import CallWaiting.Form.Values
import CallWaiting.Proofs.Handset.Separation

/-!
How a way of keeping in step with the network gets through the store, where only its number is kept.
Every number is read as just one way, and a controller has no other way in mind than one that is read
from a number. So the next controller of the phone loads the way that was written.
-/

namespace CallWaiting

namespace Sync

variable {y : Sync}

def IsCanonical (y : Sync) : Prop :=
  ∀ n, y = .other n → n ∉ named.map code

lemma ofCode_code_named : ∀ y ∈ named, ofCode y.code = y := by decide

lemma other_notMem_named (n : Int32) : other n ∉ named := by simp [named]

lemma isCanonical_iff : y.IsCanonical ↔ .ofCode y.code = y := by
  constructor
  · intro h
    cases y with
    | other n =>
      have hn := h n rfl
      simp only [named, List.map_cons, List.map_nil, List.mem_cons, List.not_mem_nil, or_false,
        not_or] at hn
      obtain ⟨h₀, h₁, h₂, h₃, h₄⟩ := hn
      exact (if_neg h₀).trans ((if_neg h₁).trans ((if_neg h₂).trans ((if_neg h₃).trans (if_neg h₄))))
    | none | userChange | firstPowerUp | firstChange | imsOnly => rfl
  · rintro h n rfl hn
    obtain ⟨z, hz, he⟩ := List.mem_map.1 hn
    rw [code, ← he, ofCode_code_named z hz] at h
    exact other_notMem_named _ (h ▸ hz)

lemma isCanonical_ofCode (n : Int32) : (ofCode n).IsCanonical :=
  isCanonical_iff.2 (congrArg ofCode (code_ofCode n))

lemma isCanonical_none : IsCanonical none := isCanonical_iff.2 rfl

lemma isLocal_ofCode_iff (n : Int32) : (ofCode n).isLocal = true ↔ n = 0 := by
  rw [isLocal, decide_eq_true_eq]
  constructor
  · intro h
    rw [← code_ofCode n, h]
    rfl
  · rintro rfl
    rfl

end Sync

lemma Bundle.isCanonical_sync (b : Bundle) : b.sync.IsCanonical := by
  rw [Bundle.sync]
  split
  · exact Sync.isCanonical_ofCode _
  · exact Sync.isCanonical_none

namespace Controller

variable {env : Surroundings} {c : Controller} {op : Operation}

structure Reads (x : Controller × Option Transition) : Prop where
  controller : x.1.sync.IsCanonical
  transition : ∀ y ∈ x.2, y.sync.IsCanonical

lemma reads_none (hc : c.sync.IsCanonical) : Reads (c, none) := by
  refine ⟨hc, ?_⟩
  rintro _ ⟨⟩

lemma reads_some {y : Transition} (hc : c.sync.IsCanonical) (hy : y.sync.IsCanonical) :
    Reads (c, some y) := by
  refine ⟨hc, ?_⟩
  rintro _ ⟨⟩
  exact hy

lemma reads_weigh (hc : c.sync.IsCanonical) (env : Surroundings) (s : SubscriptionId)
    (bundle : Option Bundle) (enforced : Bool) : Reads (c.weigh env s bundle enforced) := by
  cases bundle with
  | none => exact reads_none hc
  | some b => exact reads_some hc b.isCanonical_sync

lemma reads_lookAgain (hc : c.sync.IsCanonical) (env : Surroundings) : Reads (c.lookAgain env) := by
  rw [lookAgain]
  split
  · exact reads_weigh hc env _ _ _
  · exact reads_none hc

lemma reads_intent (hc : c.sync.IsCanonical) (env : Surroundings) (op : Operation) :
    Reads (c.intent env op) := by
  cases op with
  | hear slot =>
    simp only [intent]
    split
    · exact reads_lookAgain hc env
    · exact reads_none hc
  | update s bundle enforced => exact reads_weigh hc env s bundle enforced
  | setSupported v =>
    simp only [intent]
    split
    · exact reads_none hc
    · split
      · exact reads_lookAgain (Sync.isCanonical_ofCode _) env
      · exact reads_some hc hc
  | request enable classes =>
    simp only [intent]
    split
    · exact reads_some hc hc
    · exact reads_none hc
  | interrogate | readState => exact reads_none hc

theorem perform_canonical (env : Surroundings) (c : Controller) (op : Operation)
    (hc : c.sync.IsCanonical) :
    (c.perform env op).controller.sync.IsCanonical := by
  obtain ⟨hx, hy⟩ := reads_intent hc env op
  obtain hr | ⟨y, hi, hd⟩ := rests_or env c op
  · rwa [(perform_rests hr).controller]
  · have hh := perform_carried hi hd
    by_cases hf : env.fate (y.batch env (c.intent env op).1) = .crashed
    · rwa [(hh.crashed hf).1]
    · rw [(hh.done hf).1]
      exact hy y hi

end Controller

namespace Handset

open Controller (Effect Operation)
open Preference (Batch Fate Key)

variable {h : Handset} {i : Nat} {p : Phone} {c : Controller} {op : Operation} {b : Batch}
  {group : String} {y : Sync}

lemma hasRecord_operate (hp : h.phones[i]? = some p)
    (ho : (b, .stored) ∈ (h.operate i c op).2.offers) :
    (h.operate i c op).1.store.IsOpened (h.operate i c op).1.disk ∧
      (h.operate i c op).1.HasRecord c.group p.id p.subscription (h.operate i c op).2.controller.state
        (h.operate i c op).2.controller.sync := by
  have hv := operate_sameVault h i c op
  have hg := Controller.intent_group (h.surroundings p) c op
  rw [operate_eq hp] at ho hv ⊢
  obtain hr | ⟨y, hx, hy⟩ := Controller.rests_or (h.surroundings p) c op
  · rw [(Controller.perform_rests hr).offers] at ho
    cases ho
  · have hh := Controller.perform_carried hx hy
    rw [hh.offers, List.mem_singleton] at ho
    have hf : h.fate (y.batch (h.surroundings p) (c.intent (h.surroundings p) op).1) = .stored :=
      (congrArg Prod.snd ho).symm
    have hn : (h.surroundings p).fate
        (y.batch (h.surroundings p) (c.intent (h.surroundings p) op).1) ≠ .crashed :=
      fun hc => nomatch hf.symm.trans hc
    rw [hh.offers] at hv
    rw [(hh.done hn).1, ← hg]
    refine ⟨?_, hv.hasRecord (hasRecord_offer hf)⟩
    rw [hv.store, hv.disk]
    exact isOpened_offer hf

/-- A new controller of the phone finds the way in the store, says so, and has it in mind unless there is
a bundle that says otherwise. -/
structure Regains (h : Handset) (i : Nat) (p : Phone) (group : String) (y : Sync) : Prop where
  said : ∃ last state, Effect.note (.loaded p.id last p.subscription state y) ∈
    (h.operate i (.fresh group) (.setSupported true)).2.effects
  kept : (p.subscription.isValid = true → h.bundles.get? p.subscription = none) →
    (h.operate i (.fresh group) (.setSupported true)).2.controller.sync = y

def booted (h : Handset) (p : Phone) (group : String) : Controller :=
  { Controller.fresh group with supported := true }.load (h.surroundings p)

lemma booted_sync (hy : y.IsCanonical) (hn : h.store.get? group (.sync p.id) = some y.code) :
    (h.booted p group).sync = y := by
  change Sync.ofCode ((h.store.get? group (.sync p.id)).getD _) = y
  rw [hn]
  exact Sync.isCanonical_iff.1 hy

lemma said_booting (hp : h.phones[i]? = some p) (group : String) :
    .note ((h.booted p group).loadedNotice (h.surroundings p)) ∈
      (h.operate i (.fresh group) (.setSupported true)).2.effects := by
  rw [operate_eq hp]
  refine List.mem_append_left _ (List.mem_cons_of_mem _ (List.mem_append_right _ ?_))
  exact List.mem_singleton_self _

lemma kept_booting (hp : h.phones[i]? = some p)
    (hb : p.subscription.isValid = true → h.bundles.get? p.subscription = none) (group : String) :
    (h.operate i (.fresh group) (.setSupported true)).2.controller.sync = (h.booted p group).sync := by
  have hi : ((Controller.fresh group).intent (h.surroundings p) (.setSupported true)) =
      (h.booted p group).lookAgain (h.surroundings p) := rfl
  obtain ⟨hs, hn⟩ : ((h.booted p group).lookAgain (h.surroundings p)).1.sync =
      (h.booted p group).sync ∧ ((h.booted p group).lookAgain (h.surroundings p)).2 = none := by
    rw [Controller.lookAgain]
    split
    · exact ⟨rfl, congrArg (Option.map _) (hb ‹_›)⟩
    · exact ⟨rfl, rfl⟩
  have hr : (Controller.fresh group).Rests (h.surroundings p) (.setSupported true) := by
    intro z hz
    rw [hi, hn] at hz
    cases hz
  rw [operate_eq hp, (Controller.perform_rests hr).controller, ← hs, ← hi]
  rfl

lemma regains (hp : h.phones[i]? = some p) (hy : y.IsCanonical)
    (hn : h.store.get? group (.sync p.id) = some y.code) : h.Regains i p group y := by
  have hs := booted_sync hy hn
  have hl := said_booting hp group
  rw [Controller.loadedNotice, hs] at hl
  exact ⟨⟨_, _, hl⟩, fun hb => (kept_booting hp hb group).trans hs⟩

namespace Direct

variable {d : Direct} {r : Request} {rs : List Request} {k : Key} {n : Int32}

structure Leaves (group : String) (k : Key) (d : Direct) (r : Request) : Prop where
  accepts : d.Accepts r
  number : r ≠ .change .reopen →
    (d.step r).1.handset.store.get? group k = d.handset.store.get? group k

structure Retains (group : String) (k : Key) (n : Int32) (d : Direct) : Prop where
  opened : d.IsOpened
  number : d.handset.store.get? group k = some n

lemma Retains.step (h : d.Retains group k n) (hr : d.Leaves group k r) :
    (d.step r).1.Retains group k n := by
  refine ⟨isOpened_step hr.accepts h.opened, ?_⟩
  by_cases hre : r = .change .reopen
  · -- nothing is assumed of what opening finds: it is what was written, for every batch arrived
    subst hre
    have hst : (d.step (.change .reopen)).1.handset.store = d.handset.store := reopened_store h.opened
    rw [hst, h.number]
  · rw [hr.number hre, h.number]

lemma Retains.run (h : d.Retains group k n) (hr : Along (Leaves group k) d rs) :
    (d.run rs).Retains group k n :=
  hr.preserved _ (fun _ _ hl hd => hd.step hl) h

lemma retains_operate (hc : d.controller? i = some c) (hp : d.handset.phones[i]? = some p)
    (ho : (b, .stored) ∈ offers i (d.step (.operate i op)).2.2) :
    (d.step (.operate i op)).1.Retains c.group (.sync p.id)
      (d.handset.operate i c op).2.controller.sync.code := by
  rw [step, operate_some hc, offers_happenings] at ho
  obtain ⟨hop, hrec⟩ := hasRecord_operate hp ho
  have hh : (d.step (.operate i op)).1.handset = (d.handset.operate i c op).1 := by
    simp only [step, operate_some hc]
  refine ⟨?_, ?_⟩
  · rwa [IsOpened, hh]
  · rw [hh]
    exact hrec.sync

lemma canonical_run (hd : ∀ j c, d.controller? j = some c → c.sync.IsCanonical) (rs : List Request) :
    ∀ j c, (d.run rs).controller? j = some c → c.sync.IsCanonical := by
  induction rs generalizing d with
  | nil => exact hd
  | cons r rs ih =>
    exact ih (controllers_step (P := (·.sync.IsCanonical)) Controller.perform_canonical hd
      (fun _ => Sync.isCanonical_none) r)

lemma canonical_fresh (h : Handset) (groups : List String) :
    ∀ j c, (fresh h groups).controller? j = some c → c.sync.IsCanonical := by
  intro j c hc
  rw [controller?, fresh, List.getElem?_map] at hc
  cases hg : groups[j]? with
  | none => simp [hg] at hc
  | some group =>
    rw [hg] at hc
    cases hc
    exact Sync.isCanonical_none

/-- Numbers and the ways they are read as, what controllers have in mind of them, and what is left of that
when a batch was stored and the phone's next controller, over the same store or one that was opened again,
loads the record. -/
theorem sync_retained :
    (∀ n : Int32, (Sync.ofCode n).code = n ∧ ((Sync.ofCode n).isLocal = true ↔ n = 0)) ∧
    (∀ (b : Bundle) (n : Int32), (b.withSync (.ofCode n)).sync = .ofCode n) ∧
    ∀ h groups rs i c, let d := (fresh h groups).run rs
      d.controller? i = some c →
      (.ofCode c.sync.code = c.sync ∧ ∀ n, c.sync = .other n → n ∉ Sync.named.map Sync.code) ∧
      ∀ p op b rs' j q, d.handset.phones[i]? = some p →
        (b, .stored) ∈ offers i (d.step (.operate i op)).2.2 →
        let e := (d.step (.operate i op)).1
        Along (Leaves c.group (.sync p.id)) e rs' →
        (e.run rs').handset.phones[j]? = some q → q.id = p.id →
        ∃ x, e.controller? i = some x ∧ (e.run rs').handset.Regains j q c.group x.sync := by
  refine ⟨fun n => ⟨Sync.code_ofCode n, Sync.isLocal_ofCode_iff n⟩,
    fun b n => congrArg Sync.ofCode (Sync.code_ofCode n), ?_⟩
  intro h groups rs i c d hc
  have hd := canonical_run (canonical_fresh h groups) rs
  refine ⟨⟨Sync.isCanonical_iff.1 (hd i c hc), hd i c hc⟩, ?_⟩
  intro p op b rs' j q hp ho e hr hq hi
  have he : e.controller? i = some (d.handset.operate i c op).2.controller := controller?_operate hc op
  have hn := ((retains_operate hc hp ho).run hr).number
  rw [← hi] at hn
  exact ⟨_, he, regains hq (controller_operate Controller.perform_canonical _ _ (hd i c hc) _) hn⟩

theorem sync_retained_reopened :
    let d := fresh (Handset.fresh [.fresh ⟨0⟩ ⟨1⟩] (.file ⟨⟨"prefs.json"⟩, .empty⟩) .empty) [""]
    let op : Operation := .update ⟨1⟩ (some ⟨some [0], some 7, some true⟩) false
    let b : Preference.Batch :=
      ⟨"", [(⟨.lastSubscription, 0⟩, 1), (⟨.state, 1⟩, 1), (⟨.sync, 0⟩, 7)]⟩
    let e := (d.step (.operate 0 op)).1
    (b, .stored) ∈ offers 0 (d.step (.operate 0 op)).2.2 ∧
      (e.run [.drop 0, .change .reopen]).handset.Regains 0 ⟨⟨0⟩, ⟨1⟩, [.activated]⟩ "" (.other 7) := by
  intro d op b e
  have ho : (b, .stored) ∈ offers 0 (d.step (.operate 0 op)).2.2 := by decide +kernel
  refine ⟨ho, ?_⟩
  have hr : Along (Leaves "" (.sync ⟨0⟩)) e [.drop 0, .change .reopen] := by
    refine .cons ⟨⟨by decide +kernel, nofun⟩, fun _ => rfl⟩ (.cons ⟨⟨by decide +kernel, nofun⟩, ?_⟩ .nil)
    exact fun h => absurd rfl h
  have hq : (e.run [.drop 0, .change .reopen]).handset.phones[0]? =
      some ⟨⟨0⟩, ⟨1⟩, [.activated]⟩ := by decide +kernel
  have hc : e.controller? 0 = some ⟨"", none, false, true, .activated, .other 7, ⟨1⟩⟩ := by
    decide +kernel
  obtain ⟨x, hx, hg⟩ := (sync_retained.2.2 _ _ [] 0 (.fresh "") rfl).2 (.fresh ⟨0⟩ ⟨1⟩) op b _ 0 _ rfl ho
    hr hq rfl
  obtain rfl := Option.some.inj (hc.symm.trans hx)
  exact hg

end Direct

end Handset

end CallWaiting
