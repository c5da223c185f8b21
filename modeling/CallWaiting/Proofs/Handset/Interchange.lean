import CallWaiting.Proofs.Controller.Dependence
import CallWaiting.Proofs.Handset.Account
import CallWaiting.Proofs.Preference.Interruption

/-!
The two kinds of store are interchangeable. Handsets that differ only in the kind of store do the same
and are told the same, for as long as the file takes what is written to it; the file may be opened
again at any point.
-/

namespace CallWaiting

open Preference (Address Batch Fate File Key Memory Store)

namespace Handset

open Controller (Operation)

variable {h e h' e' : Handset} {b : Batch} {p : Phone} {i : Nat} {c : Controller} {op : Operation}

structure Stocks (h e : Handset) : Prop where
  memory : ∃ m, h.store = .memory m
  opened : e.store.IsOpened e.disk
  numbers : ∀ group k, h.store.get? group k = e.store.get? group k
  refusing : h.refusing = e.refusing
  poisoned : h.poisoned = e.poisoned

structure Resembles (h e : Handset) : Prop extends Stocks h e where
  phones : h.phones = e.phones
  bundles : h.bundles = e.bundles
  registry : h.registry = e.registry

def Takes (h : Handset) (b : Batch) : Prop :=
  h.fate b ≠ .stored → h.fate b ≠ .crashed → h.refusing = true

lemma Stocks.congr (hs : h.Stocks e) (hh : h'.SameVault h) (he : e'.SameVault e) : h'.Stocks e' where
  memory := by rw [hh.store]; exact hs.memory
  opened := by rw [he.store, he.disk]; exact hs.opened
  numbers group k := by rw [hh.store, he.store, hs.numbers]
  refusing := by rw [hh.refusing, he.refusing, hs.refusing]
  poisoned := by rw [hh.poisoned, he.poisoned, hs.poisoned]

lemma Stocks.put (hs : h.Stocks e) (hb : (e.store.put e.disk b).2.2 = .ok ()) :
    (h.putBatch b).Stocks (e.putBatch b) := by
  obtain ⟨m, hm⟩ := hs.memory
  have hm' : (h.store.put h.disk b).2.2 = .ok () := by rw [hm]; rfl
  refine ⟨⟨m.put b, ?_⟩, Store.isOpened_put hb, fun group k => ?_, hs.refusing, hs.poisoned⟩
  · rw [putBatch, hm]
    rfl
  · exact (Store.get?_put hm' group k).trans
      ((congrArg _ (hs.numbers group k)).trans (Store.get?_put hb group k).symm)

lemma Takes.put_ok (hb : e.Takes b) (hp : e.poisoned = false) (hr : e.refusing = false) :
    (e.store.put e.disk b).2.2 = .ok () := by
  cases hput : (e.store.put e.disk b).2.2 with
  | ok u => rfl
  | error err =>
    have hf : e.fate b = .refused err := by simp [Handset.fate, hp, hr, hput]
    have hh := hb (by simp [hf]) (by simp [hf])
    rw [hr] at hh
    cases hh

lemma Stocks.fate (hs : h.Stocks e) (hb : e.Takes b) : h.fate b = e.fate b := by
  obtain ⟨m, hm⟩ := hs.memory
  rw [Handset.fate, Handset.fate, hs.poisoned, hs.refusing, hm]
  split
  · rfl
  · rename_i hp
    split
    · rfl
    · rename_i hr
      rw [hb.put_ok (by simpa using hp) (by simpa using hr)]
      rfl

lemma Stocks.offer (hs : h.Stocks e) (hb : e.Takes b) : (h.offer b).Stocks (e.offer b) := by
  rw [Handset.offer, Handset.offer, hs.poisoned, hs.refusing]
  split
  · exact ⟨hs.memory, hs.opened, hs.numbers, rfl, rfl⟩
  · rename_i hp
    split
    · exact hs
    · rename_i hr
      exact hs.put (hb.put_ok (by simpa using hp) (by simpa using hr))

lemma refusing_offerAll (h : Handset) (os : List (Batch × Fate)) :
    (h.offerAll os).refusing = h.refusing := by
  induction os generalizing h with
  | nil => rfl
  | cons o os ih =>
    refine (ih (h.offer o.1)).trans ?_
    rw [Handset.offer]
    split
    · rfl
    · split <;> rfl

lemma Resembles.surroundings (hr : h.Resembles e) (p : Phone) :
    h.surroundings p = { e.surroundings p with fate := h.fate } := by
  simp only [Handset.surroundings, hr.bundles, hr.registry, funext fun g => funext (hr.numbers g)]

lemma Resembles.applyAll {es : List Controller.Effect} (hr : h.Resembles e)
    (hs : (h.offerAll (es.filterMap Controller.Effect.offer?)).Stocks
      (e.offerAll (es.filterMap Controller.Effect.offer?))) :
    (h.applyAll i es).Resembles (e.applyAll i es) where
  toStocks := hs.congr (applyAll_sameVault h i es) (applyAll_sameVault e i es)
  phones := by
    refine List.ext_getElem? fun j => ?_
    rw [phone_applyAll, phone_applyAll, hr.phones]
  bundles := by rw [bundles_applyAll, bundles_applyAll, hr.bundles]
  registry := by rw [registry_applyAll, registry_applyAll, hr.registry]

theorem Resembles.operate (hr : h.Resembles e)
    (hb : ∀ o ∈ (e.operate i c op).2.offers, e.Takes o.1) :
    (h.operate i c op).1.Resembles (e.operate i c op).1 ∧
      (h.operate i c op).2 = (e.operate i c op).2 := by
  cases hp : e.phones[i]? with
  | none =>
    have hp' : h.phones[i]? = none := by rw [hr.phones, hp]
    simp only [Handset.operate, hp, hp']
    exact ⟨hr, trivial⟩
  | some p =>
    have hp' : h.phones[i]? = some p := by rw [hr.phones, hp]
    rw [operate_eq hp] at hb ⊢
    rw [operate_eq hp', hr.surroundings p, Controller.perform_fate]
    · refine ⟨hr.applyAll ?_, rfl⟩
      obtain hn | ⟨y, x, hn, -⟩ := Controller.offers_perform (e.surroundings p) c op
      · simp only [Controller.Turn.offers] at hn
        rw [hn]
        exact hr.toStocks
      · have hy := hb _ (by rw [hn]; exact List.mem_singleton.2 rfl)
        simp only [Controller.Turn.offers] at hn
        rw [hn]
        exact hr.offer hy
    · intro o ho
      exact (hr.fate (hb o ho)).trans (Controller.fate_of_mem_offers ho)

lemma Resembles.dismiss (hr : h.Resembles e) (i : Nat) (c : Controller) :
    (h.dismiss i c).1.Resembles (e.dismiss i c).1 ∧ (h.dismiss i c).2 = (e.dismiss i c).2 := by
  rw [Handset.dismiss, Handset.dismiss, hr.phones]
  split
  · rename_i p hp
    have hw : c.withdrawing (h.surroundings p) = c.withdrawing (e.surroundings p) := by
      rw [hr.surroundings p]
      rfl
    rw [hw]
    refine ⟨hr.applyAll ?_, rfl⟩
    rw [(Controller.withdrawing_silent _ c).1]
    exact hr.toStocks
  · exact ⟨hr, rfl⟩

lemma Resembles.change (hr : h.Resembles e) (x : Change)
    (hb : ∀ b, x = .put b → (e.store.put e.disk b).2.2 = .ok ()) :
    (h.change x).1.Resembles (e.change x).1 := by
  cases x with
  | put b => exact ⟨hr.toStocks.put (hb b rfl), hr.phones, hr.bundles, hr.registry⟩
  | reopen =>
    obtain ⟨m, hm⟩ := hr.memory
    have ho : h.reopened.1 = h.store := by rw [reopened, hm]
    have he := Direct.reopened_store hr.opened
    exact ⟨hr.toStocks.congr ⟨ho, rfl, rfl, rfl⟩ ⟨he, rfl, rfl, rfl⟩, hr.phones, hr.bundles, hr.registry⟩
  | swap j s =>
    exact ⟨⟨hr.memory, hr.opened, hr.numbers, hr.refusing, hr.poisoned⟩,
      congrArg (·.modify j (·.swap s)) hr.phones, hr.bundles, hr.registry⟩
  | install s b =>
    exact ⟨⟨hr.memory, hr.opened, hr.numbers, hr.refusing, hr.poisoned⟩, hr.phones,
      congrArg (·.install s b) hr.bundles, hr.registry⟩
  | remove s =>
    exact ⟨⟨hr.memory, hr.opened, hr.numbers, hr.refusing, hr.poisoned⟩, hr.phones,
      congrArg (·.remove s) hr.bundles, hr.registry⟩
  | refuse on =>
    exact ⟨⟨hr.memory, hr.opened, hr.numbers, rfl, hr.poisoned⟩, hr.phones, hr.bundles, hr.registry⟩
  | poison =>
    exact ⟨⟨hr.memory, hr.opened, hr.numbers, hr.refusing, rfl⟩, hr.phones, hr.bundles, hr.registry⟩
  | withdrawAll =>
    exact ⟨⟨hr.memory, hr.opened, hr.numbers, hr.refusing, hr.poisoned⟩, hr.phones, hr.bundles,
      congrArg Broadcast.Registry.withdrawAll hr.registry⟩

def stored (os : List (Batch × Fate)) : List Batch :=
  os.filterMap fun o => if o.2 = .stored then some o.1 else none

lemma store_operate {m : Memory} (hm : h.store = .memory m) (i : Nat) (c : Controller)
    (op : Operation) : (h.operate i c op).1.store =
      .memory ((stored (h.operate i c op).2.offers).foldl Memory.put m) := by
  rw [(operate_sameVault h i c op).store]
  cases hp : h.phones[i]? with
  | none => simpa only [Handset.operate, hp] using! hm
  | some p =>
    rw [operate_eq hp]
    obtain hn | ⟨y, x, hn, -⟩ := Controller.offers_perform (h.surroundings p) c op
    · rw [hn]
      exact hm
    · simp only [hn]
      by_cases hf : (h.surroundings p).fate (y.batch (h.surroundings p) x) = .stored
      · obtain ⟨-, hb⟩ := fate_stored hf
        simp only [stored, offerAll, List.foldl_cons, List.foldl_nil, List.filterMap_cons,
          List.filterMap_nil, hf, if_true, hb, putBatch, hm]
        rfl
      · have hb := store_offer_of_not_stored hf
        simp only [stored, offerAll, List.foldl_cons, List.foldl_nil, List.filterMap_cons,
          List.filterMap_nil, hf, if_false, hb, hm]

namespace Direct

variable {d e : Direct} {r : Request} {rs : List Request} {j : Nat}

def Arrives (e : Direct) (hs : List Happening) : Prop :=
  ∀ x ∈ hs, ∀ o ∈ x.effect.offer?, o.2 ≠ .stored → o.2 ≠ .crashed → e.handset.refusing = true

instance (e : Direct) (hs : List Happening) : Decidable (e.Arrives hs) :=
  inferInstanceAs (Decidable (∀ x ∈ hs, ∀ o ∈ x.effect.offer?, o.2 ≠ .stored → o.2 ≠ .crashed →
    e.handset.refusing = true))

def Request.puts : Request → List Batch
  | .change (.put b) => [b]
  | _ => []

structure Succeeds (e : Direct) (r : Request) : Prop where
  arrives : e.Arrives (e.step r).2.2
  put : ∀ b ∈ r.puts, (e.handset.store.put e.handset.disk b).2.2 = .ok ()

instance (e : Direct) (r : Request) : Decidable (e.Succeeds r) :=
  decidable_of_iff (e.Arrives (e.step r).2.2 ∧
    ∀ b ∈ r.puts, (e.handset.store.put e.handset.disk b).2.2 = .ok ())
    ⟨fun h => ⟨h.1, h.2⟩, fun h => ⟨h.arrives, h.put⟩⟩

structure Resembles (d e : Direct) : Prop where
  handset : d.handset.Resembles e.handset
  controllers : d.controllers = e.controllers
  queues : d.queues = e.queues

structure Concurs (x y : Direct × Reply × List Happening) : Prop where
  resembles : x.1.Resembles y.1
  reply : x.2.1 = y.2.1
  own : ∀ i, own i x.2.2 = own i y.2.2

lemma Resembles.controller? (hr : d.Resembles e) (i : Nat) : d.controller? i = e.controller? i := by
  rw [Direct.controller?, Direct.controller?, hr.controllers]

lemma refusing_operate (e : Direct) (i : Nat) (op : Operation) :
    (e.operate i op).1.handset.refusing = e.handset.refusing :=
  operate_keeps
    (fun h i c op => (operate_sameVault h i c op).refusing.trans (refusing_offerAll _ _)) e i op

lemma Arrives.takes (ha : e.Arrives (happenings i (e.handset.operate i c op).2.effects)) :
    ∀ o ∈ (e.handset.operate i c op).2.offers, e.handset.Takes o.1 := by
  rintro ⟨b, fate⟩ ho
  have hf : e.handset.fate b = fate := by
    cases hp : e.handset.phones[i]? with
    | none =>
      simp only [Handset.operate, hp] at ho
      cases ho
    | some p =>
      rw [operate_eq hp] at ho
      exact Controller.fate_of_mem_offers ho
  rw [Takes, hf]
  exact ha ⟨some i, .offer b fate⟩ (List.mem_map.2 ⟨_, Controller.Turn.mem_offers.1 ho, rfl⟩) _ rfl

lemma Resembles.operate (hr : d.Resembles e) (ha : e.Arrives (e.operate i op).2.2) :
    (d.operate i op).1.Resembles (e.operate i op).1 ∧ (d.operate i op).2 = (e.operate i op).2 := by
  cases hc : e.controller? i with
  | none =>
    rw [operate_none hc, operate_none ((hr.controller? i).trans hc)]
    exact ⟨hr, rfl⟩
  | some c =>
    rw [operate_some hc] at ha ⊢
    rw [operate_some ((hr.controller? i).trans hc)]
    obtain ⟨hh, ht⟩ := hr.handset.operate (Arrives.takes ha)
    refine ⟨⟨hh, ?_, hr.queues⟩, by rw [ht]⟩
    rw [hr.controllers, ht]

lemma Resembles.deliver (hr : d.Resembles e) {slots : List PhoneId}
    (ha : e.Arrives (e.deliver i slots).2) :
    (d.deliver i slots).1.Resembles (e.deliver i slots).1 ∧
      (d.deliver i slots).2 = (e.deliver i slots).2 := by
  induction slots generalizing d e with
  | nil => exact ⟨hr, rfl⟩
  | cons slot slots ih =>
    rw [deliver_cons] at ha ⊢
    rw [deliver_cons]
    have hop : e.Arrives (e.operate i (.hear slot)).2.2 := fun x hx =>
      ha x (List.mem_append_left _ hx)
    obtain ⟨h₁, h₂⟩ := hr.operate hop
    obtain ⟨h₃, h₄⟩ := ih h₁ fun x hx => by
      rw [refusing_operate]
      exact ha x (List.mem_append_right _ hx)
    exact ⟨h₃, by rw [h₂, h₄]⟩

lemma Resembles.drop (hr : d.Resembles e) (i : Nat) :
    (d.drop i).1.Resembles (e.drop i).1 ∧ (d.drop i).2 = (e.drop i).2 := by
  cases hc : e.controller? i with
  | none =>
    rw [drop_none hc, drop_none ((hr.controller? i).trans hc)]
    exact ⟨hr, rfl⟩
  | some c =>
    rw [drop_some hc, drop_some ((hr.controller? i).trans hc)]
    obtain ⟨hh, he⟩ := hr.handset.dismiss i c
    exact ⟨⟨hh, by rw [hr.controllers], hr.queues⟩, by rw [he]⟩

theorem Resembles.step (hr : d.Resembles e) (hs : e.Succeeds r) : Concurs (d.step r) (e.step r) := by
  cases r with
  | change x =>
    have hn : ∀ i, (Request.change x).place? ≠ some i := nofun
    refine ⟨⟨hr.handset.change x fun b hb => hs.put b (by rw [hb]; exact List.mem_singleton.2 rfl), hr.controllers, hr.queues⟩,
      rfl, fun i => ?_⟩
    rw [own_elsewhere (hn i), own_elsewhere (hn i)]
  | notify slot =>
    have hn : ∀ i, (Request.notify slot).place? ≠ some i := nofun
    refine ⟨⟨hr.handset, hr.controllers, ?_⟩, rfl, fun i => ?_⟩
    · simp only [Direct.step, notify, hr.handset.registry, hr.queues]
    · rw [own_elsewhere (hn i), own_elsewhere (hn i)]
  | operate i op =>
    obtain ⟨h₁, h₂⟩ := hr.operate hs.arrives
    exact ⟨h₁, by simp only [Direct.step, h₂], fun i => by simp only [Direct.step, h₂]⟩
  | pump i =>
    have ha := hs.arrives
    have hc' := hr.controller? i
    cases hc : e.controller? i with
    | none =>
      simp only [Direct.step, hc, hc']
      exact ⟨hr, rfl, fun _ => rfl⟩
    | some c =>
      cases hq : e.queues[i]? with
      | none =>
        simp only [Direct.step, hc, hc', hr.queues, hq]
        exact ⟨hr, rfl, fun _ => rfl⟩
      | some slots =>
        simp only [Direct.step, hc, hc', hr.queues, hq] at ha ⊢
        obtain ⟨h₁, h₂⟩ := Resembles.deliver (d := { d with queues := e.queues.set i [] })
          (e := { e with queues := e.queues.set i [] }) ⟨hr.handset, hr.controllers, rfl⟩ ha
        exact ⟨h₁, rfl, fun i => by simp only [h₂]⟩
  | drop i =>
    obtain ⟨h₁, h₂⟩ := hr.drop i
    exact ⟨h₁, rfl, fun i => by simp only [Direct.step, h₂]⟩
  | rebuild i group =>
    obtain ⟨h₁, h₂⟩ := hr.drop i
    exact ⟨⟨h₁.handset, by simp only [Direct.step, h₁.controllers], h₁.queues⟩, rfl,
      fun i => by simp only [Direct.step, h₂]⟩

theorem Resembles.run (hr : d.Resembles e) (hs : Along Succeeds e rs) :
    (d.run rs).Resembles (e.run rs) := by
  induction rs generalizing d e with
  | nil => exact hr
  | cons r rs ih => exact ih (hr.step hs.1).resembles hs.2

theorem Resembles.account (hr : d.Resembles e) (hs : Along Succeeds e rs) (i : Nat) :
    account i d rs = account i e rs := by
  induction rs generalizing d e with
  | nil => simp only [Direct.account, hr.controller? i]
  | cons r rs ih =>
    have hh := hr.step hs.1
    simp only [Direct.account, ih hh.resembles hs.2, hh.reply, Direct.offers, Direct.pushes, hh.own i]

lemma resembles_fresh {phones : List Phone} {disk disk' : FileSystem} {f : File}
    {path : FileSystem.Path} (hf : File.load disk path = .ok f)
    (hn : ∀ group k, f.get? group k = none) (groups : List String) :
    (fresh (Handset.fresh phones (.memory .empty) disk') groups).Resembles
      (fresh (Handset.fresh phones (.file f) disk) groups) := by
  refine ⟨⟨⟨⟨_, rfl⟩, ?_, fun group k => ?_, rfl, rfl⟩, rfl, rfl, rfl⟩, rfl, rfl⟩
  · have hp : f.path = path := File.load_path hf
    change File.load disk f.path = .ok f
    rwa [hp]
  · exact (hn group k).symm

def taken (d : Direct) (r : Request) : List Batch :=
  r.puts ++ stored ((d.step r).2.2.filterMap (·.effect.offer?))

def allTaken (d : Direct) : List Request → List Batch
  | [] => []
  | r :: rs => d.taken r ++ (d.step r).1.allTaken rs

section Memory

variable {m : Memory} (hm : d.handset.store = .memory m)

include hm

lemma store_operate_direct (i : Nat) (op : Operation) : (d.operate i op).1.handset.store =
    .memory ((stored ((d.operate i op).2.2.filterMap (·.effect.offer?))).foldl Memory.put m) := by
  cases hc : d.controller? i with
  | none =>
    rw [operate_none hc]
    exact hm
  | some c =>
    rw [operate_some hc, happenings, List.filterMap_map]
    exact store_operate hm i c op

lemma store_deliver (i : Nat) (slots : List PhoneId) : (d.deliver i slots).1.handset.store =
    .memory ((stored ((d.deliver i slots).2.filterMap (·.effect.offer?))).foldl Memory.put m) := by
  induction slots generalizing d m with
  | nil => exact hm
  | cons slot slots ih =>
    rw [deliver_cons, ih (store_operate_direct hm i (.hear slot))]
    simp only [stored, List.filterMap_append, List.foldl_append]

lemma store_drop (i : Nat) : (d.drop i).1.handset.store =
    .memory ((stored ((d.drop i).2.filterMap (·.effect.offer?))).foldl Memory.put m) := by
  have hn : (d.drop i).2.filterMap (·.effect.offer?) = [] := by
    cases hc : d.controller? i with
    | none =>
      rw [drop_none hc]
      rfl
    | some c =>
      rw [drop_some hc, happenings, List.filterMap_map, dismiss]
      split
      · exact (Controller.withdrawing_silent _ c).1
      · rfl
  rw [hn, (drop_sameVault d i).store]
  exact hm

lemma store_step (r : Request) :
    (d.step r).1.handset.store = .memory ((d.taken r).foldl Memory.put m) := by
  cases r with
  | change x =>
    cases x with
    | put b =>
      simp only [Direct.step, Handset.change, putBatch, hm]
      rfl
    | reopen =>
      simp only [taken, Direct.step, Handset.change, reopened, hm]
      rfl
    | swap j s | install s b | remove s | refuse on | poison | withdrawAll => exact hm
  | notify slot => exact hm
  | operate i op => exact store_operate_direct hm i op
  | pump i =>
    obtain hst | ⟨slots, -, hst⟩ := step_pump d i
    · simp only [taken, hst]
      exact hm
    · simp only [taken, hst]
      exact store_deliver (d := { d with queues := d.queues.set i [] }) hm i slots
  | drop i | rebuild i group => exact store_drop hm i

theorem store_run (rs : List Request) :
    (d.run rs).handset.store = .memory ((d.allTaken rs).foldl Memory.put m) := by
  induction rs generalizing d m with
  | nil => exact hm
  | cons r rs ih =>
    rw [run_cons, ih (store_step hm r), allTaken, List.foldl_append]

end Memory

theorem stores_interchangeable {phones : List Phone} {disk disk' : FileSystem} {f : File}
    {path : FileSystem.Path} {groups : List String} (hf : File.load disk path = .ok f)
    (hn : ∀ group k, f.get? group k = none)
    (hd : fresh (Handset.fresh phones (.memory .empty) disk') groups = d)
    (he : fresh (Handset.fresh phones (.file f) disk) groups = e) (hs : Along Succeeds e rs) :
    (∀ group k default, (d.run rs).handset.store.get group k default =
      (e.run rs).handset.store.get group k default) ∧
    (∀ i, account i d rs = account i e rs) ∧
    ∃ m, (d.run rs).handset.store = .memory m ∧
      m.size = ((d.allTaken rs).flatMap Batch.addresses).dedup.length := by
  have hr : d.Resembles e := by
    rw [← hd, ← he]
    exact resembles_fresh hf hn groups
  have hm : d.handset.store = .memory .empty := by rw [← hd]; rfl
  refine ⟨fun group k default => ?_, hr.account hs, _, store_run hm rs, ?_⟩
  · rw [Store.get, Store.get, (hr.run hs).handset.numbers]
  · refine Memory.size_eq fun a => ?_
    rw [Memory.mem_foldl_put]
    simp [Memory.empty]

theorem stores_interchangeable_reopened :
    let path : FileSystem.Path := ⟨"prefs.json"⟩
    let d := fresh (Handset.fresh [.fresh ⟨0⟩ ⟨1⟩] (.memory .empty) .empty) [""]
    let e := fresh (Handset.fresh [.fresh ⟨0⟩ ⟨1⟩] (.file ⟨path, .empty⟩) .empty) [""]
    let rs : List Request := [.change (.put ⟨"g", [(.state ⟨1⟩, 1), (.state ⟨1⟩, 0)]⟩),
      .change (.install ⟨1⟩ (.offering true)), .operate 0 (.setSupported true),
      .operate 0 (.request false .voice), .change .reopen, .rebuild 0 "",
      .operate 0 (.setSupported true)]
    (e.run rs).handset.store.get "" (.state ⟨1⟩) (-1) = 0 ∧
      (account 0 e rs).shown = some .notActivated ∧
      ∃ m, (d.run rs).handset.store = .memory m ∧ m.size = 4 := by
  intro path d e rs
  have hf : File.load .empty path = .ok ⟨path, .empty⟩ := File.load_empty ⟨by decide, by decide⟩
  have hn : ∀ group k, File.get? ⟨path, .empty⟩ group k = none := fun _ _ => by
    simp [File.get?, Preference.Document.get?, Preference.Document.empty]
  have hs : Along Succeeds e rs := by decide +kernel
  obtain ⟨hg, ha, m, hm, hz⟩ := stores_interchangeable (d := d) hf hn rfl rfl hs
  have hl : ((d.allTaken rs).flatMap Batch.addresses).dedup.length = 4 := by decide
  refine ⟨?_, ?_, m, hm, hz.trans hl⟩
  · rw [← hg]
    decide
  · rw [← ha 0]
    decide

end Direct

end Handset

end CallWaiting
