import CallWaiting.Proofs.Handset.Settlement

namespace CallWaiting

open Broadcast (Registry)
open Preference (Batch Fate Key)
open Controller (Concur Effect Operation recordBatch)

namespace Territory

variable {a b : Territory} {k : Key} {s : SubscriptionId}

lemma Apart.value?_recordBatch (h : a.Apart b) (hk : a.Owns k) (hs : b.subscriptions s)
    (state : State) (sync : Sync) :
    (recordBatch b.group b.phone s state sync).value? a.group k = none := by
  rw [Batch.value?]
  split
  · rename_i hg
    obtain h | ⟨hp, hd⟩ := h
    · exact absurd hg.symm h
    · refine List.lookup_eq_none_iff.2 fun e he => bne_iff_ne.2 (Ne.symm ?_)
      simp only [recordBatch, List.mem_reverse, List.mem_cons, List.not_mem_nil, or_false] at he
      have hn : ∀ {p q : PhoneId}, p.number = q.number → p = q := by
        rintro ⟨n⟩ ⟨_⟩ rfl
        rfl
      have hn' : ∀ {t u : SubscriptionId}, t.number = u.number → t = u := by
        rintro ⟨n⟩ ⟨_⟩ rfl
        rfl
      obtain rfl | rfl | rfl := he <;> obtain rfl | rfl | ⟨t, ht, rfl⟩ := hk <;>
        simp only [Key.lastSubscription, Key.state, Key.sync, ne_eq, Key.mk.injEq, reduceCtorEq,
          false_and, true_and, not_false_eq_true]
      · exact fun h => hp (hn h.symm)
      · exact fun h => hd t ht (hn' h ▸ hs)
      · exact fun h => hp (hn h.symm)
  · rfl

end Territory

namespace Handset.Direct

variable {d e f : Direct} {r : Request} {i j : Nat} {lands : Nat → Territory} {op : Operation}
  {a : Territory}

structure Alike (i : Nat) (a : Territory) (d e : Direct) : Prop where
  controller : (d.controller? i).map Controller.blurred = (e.controller? i).map Controller.blurred
  seats : d.controllers.length = e.controllers.length
  line : d.handset.lines[i]? = e.handset.lines[i]?
  bundles : d.handset.bundles = e.handset.bundles
  saved : ∀ k, a.Owns k → d.handset.store.get? a.group k = e.handset.store.get? a.group k
  queue : d.queues[i]? = e.queues[i]?
  listed : d.handset.registry.listeners.count i = e.handset.registry.listeners.count i

lemma Alike.refl (d : Direct) : Alike i a d d := ⟨rfl, rfl, rfl, rfl, fun _ _ => rfl, rfl, rfl⟩

lemma Alike.trans (h : Alike i a d e) (h' : Alike i a e f) : Alike i a d f :=
  ⟨h.controller.trans h'.controller, h.seats.trans h'.seats, h.line.trans h'.line, h.bundles.trans h'.bundles,
    fun k hk => (h.saved k hk).trans (h'.saved k hk), h.queue.trans h'.queue,
    h.listed.trans h'.listed⟩

def own (i : Nat) (hs : List Happening) : List Effect :=
  (hs.filter (·.phone = some i)).map (·.effect)

@[simp] lemma own_append (hs hs' : List Happening) : own i (hs ++ hs') = own i hs ++ own i hs' := by
  simp [own]

@[simp] lemma own_happenings (es : List Effect) : own i (happenings i es) = es := by
  simp [own, happenings, List.filter_map, Function.comp_def]

lemma own_happenings_ne (hij : i ≠ j) (es : List Effect) : own i (happenings j es) = [] := by
  simp [own, happenings, List.filter_map, Function.comp_def, hij.symm]

def offers (i : Nat) (hs : List Happening) : List (Batch × Fate) :=
  (own i hs).filterMap Effect.offer?

def pushes (i : Nat) (hs : List Happening) : List State :=
  (own i hs).filterMap Effect.push?

structure SameDeeds (i : Nat) (hs hs' : List Happening) : Prop where
  offers : offers i hs = offers i hs'
  pushes : pushes i hs = pushes i hs'

lemma offers_append (hs hs' : List Happening) :
    offers i (hs ++ hs') = offers i hs ++ offers i hs' := by
  simp [offers]

lemma pushes_append (hs hs' : List Happening) :
    pushes i (hs ++ hs') = pushes i hs ++ pushes i hs' := by
  simp [pushes]

lemma offers_happenings (es : List Effect) :
    offers i (happenings i es) = es.filterMap Effect.offer? := by
  rw [offers, own_happenings]

lemma pushes_happenings (es : List Effect) :
    pushes i (happenings i es) = es.filterMap Effect.push? := by
  rw [pushes, own_happenings]

lemma SameDeeds.append {hs hs' ks ks' : List Happening} (h : SameDeeds i hs hs')
    (h' : SameDeeds i ks ks') : SameDeeds i (hs ++ ks) (hs' ++ ks') := by
  refine ⟨?_, ?_⟩
  · rw [offers_append, offers_append, h.offers, h'.offers]
  · rw [pushes_append, pushes_append, h.pushes, h'.pushes]

section Elsewhere

lemma own_operate_ne (hij : i ≠ j) (d : Direct) (op : Operation) :
    own i (d.operate j op).2.2 = [] := by
  cases hc : d.controller? j with
  | none => rw [operate_none hc]; rfl
  | some c =>
    rw [operate_some hc]
    exact own_happenings_ne hij _

lemma alike_operate_ne (hij : i ≠ j) (ha : (lands i).Apart (lands j)) (hd : d.Settled lands)
    (op : Operation) : Alike i (lands i) (d.operate j op).1 d := by
  cases hc : d.controller? j with
  | none =>
    rw [operate_none hc]
    exact .refl d
  | some c =>
    refine ⟨by rw [controller?_operate_ne hij], length_operate d j op, by rw [lines_operate],
      bundles_operate d j op, fun k hk => ?_, by rw [queues_operate], ?_⟩
    · rw [operate_some hc]
      simp only [get?_operate]
      obtain ⟨p, hp, hi, hs⟩ := hd.phone hc
      rw [operate_eq hp]
      obtain ho | ⟨y, x, ho, hg⟩ := Controller.offers_perform (d.handset.surroundings p) c op
      · rw [ho]
        rfl
      · have hb : (y.batch (d.handset.surroundings p) x).value? (lands i).group k = none := by
          rw [Controller.Transition.batch, hg, hd.group j c hc]
          change (recordBatch _ p.id p.subscription _ _).value? _ _ = _
          rw [hi]
          exact ha.value?_recordBatch hk hs _ _
        simp [ho, numberAfter, hb]
    · exact hd.owned.count_ne hij (enrols_own hc op)

lemma own_deliver_ne (hij : i ≠ j) (d : Direct) (slots : List PhoneId) :
    own i (d.deliver j slots).2 = [] := by
  induction slots generalizing d with
  | nil => rfl
  | cons slot slots ih => rw [deliver_cons, own_append, own_operate_ne hij, ih, List.nil_append]

lemma alike_deliver_ne (hij : i ≠ j) (ha : (lands i).Apart (lands j)) (hd : d.Settled lands)
    (slots : List PhoneId) : Alike i (lands i) (d.deliver j slots).1 d := by
  have hh := deliver_keeps (fun d' => d'.Settled lands ∧ Alike i (lands i) d' d)
    (fun d' slot h => ⟨h.1.operate j (.hear slot), (alike_operate_ne hij ha h.1 _).trans h.2⟩)
    ⟨hd, .refl d⟩ slots
  exact hh.2

lemma own_drop_ne (hij : i ≠ j) (d : Direct) : own i (d.drop j).2 = [] := by
  cases hc : d.controller? j with
  | none => rw [drop_none hc]; rfl
  | some c =>
    rw [drop_some hc]
    exact own_happenings_ne hij _

lemma own_elsewhere (hr : r.place? ≠ some i) : own i (d.step r).2.2 = [] := by
  cases r with
  | change x =>
    cases x with
    | reopen =>
      simp only [step, change, reopened]
      split
      · rfl
      · split <;> rfl
    | swap j s | install s b | remove s | refuse on | poison | withdrawAll | put b => rfl
  | notify slot => rfl
  | operate j op => exact own_operate_ne (fun h => hr (congrArg some h.symm)) d op
  | pump j =>
    have hij : i ≠ j := fun h => hr (congrArg some h.symm)
    obtain hst | ⟨slots, -, hst⟩ := step_pump d j
    · rw [hst]
      rfl
    · rw [hst]
      exact own_deliver_ne hij _ slots
  | drop j | rebuild j g => exact own_drop_ne (fun h => hr (congrArg some h.symm)) d

lemma alike_drop_ne (hij : i ≠ j) (hd : d.Settled lands) : Alike i a (d.drop j).1 d where
  controller := by rw [controller?_drop_ne hij]
  seats := length_drop d j
  line := by rw [lines_drop]
  bundles := bundles_drop d j
  saved k hk := by rw [(drop_sameVault d j).store]
  queue := by rw [queues_drop]
  listed := hd.owned.count_ne hij (enrols_drop hd.fits j)

theorem step_elsewhere (ha : ∀ j, i ≠ j → (lands i).Apart (lands j)) (hd : d.Settled lands)
    (hj : r.place? = some j) (hij : i ≠ j) :
    own i (d.step r).2.2 = [] ∧ Alike i (lands i) (d.step r).1 d := by
  refine ⟨own_elsewhere fun h => hij (Option.some.inj (h.symm.trans hj)), ?_⟩
  cases r with
  | change x | notify slot => cases hj
  | operate k op =>
    obtain rfl := Option.some.inj hj
    exact alike_operate_ne hij (ha _ hij) hd op
  | pump k =>
    obtain rfl := Option.some.inj hj
    obtain hst | ⟨slots, -, hst⟩ := step_pump d k
    · rw [hst]
      exact .refl d
    · rw [hst]
      have hd' : Settled lands { d with queues := d.queues.set k [] } :=
        ⟨hd.group, hd.line, hd.fits, hd.owned⟩
      refine (alike_deliver_ne hij (ha _ hij) hd' slots).trans ?_
      exact ⟨rfl, rfl, rfl, rfl, fun _ _ => rfl, List.getElem?_set_ne hij.symm, rfl⟩
  | drop k =>
    obtain rfl := Option.some.inj hj
    exact alike_drop_ne hij hd
  | rebuild k group =>
    obtain rfl := Option.some.inj hj
    refine Alike.trans ?_ (alike_drop_ne hij hd)
    exact ⟨congrArg (Option.map _) (controller?_set hij), List.length_set, rfl, rfl, fun _ _ => rfl,
      rfl, rfl⟩

end Elsewhere

lemma getElem?_announced (order : List Nat) (qs : List (List PhoneId)) (slot : PhoneId) :
    (order.foldl (fun qs i => qs.modify i (· ++ [slot])) qs)[i]? =
      qs[i]?.map (· ++ List.replicate (order.count i) slot) := by
  induction order generalizing qs with
  | nil => simp
  | cons k order ih =>
    rw [List.foldl_cons, ih, List.getElem?_modify]
    by_cases hk : k = i
    · subst hk
      cases qs[k]? <;> simp [List.replicate_succ]
    · simp [hk]

lemma step_around (h : Alike i a d e) (hr : r.place? = none) (hw : r.Within lands) :
    own i (d.step r).2.2 = [] ∧ own i (e.step r).2.2 = [] ∧
      Alike i a (d.step r).1 (e.step r).1 := by
  obtain ⟨h₁, h₀, h₂, h₃, h₄, h₅, h₆⟩ := h
  cases r with
  | change x =>
    cases x with
    | swap j s =>
      refine ⟨rfl, rfl, h₁, h₀, ?_, h₃, h₄, h₅, h₆⟩
      simp only [lines, List.getElem?_map] at h₂
      simp only [step, change, lines, List.getElem?_map, List.getElem?_modify]
      cases hp : d.handset.phones[i]? <;> cases hq : e.handset.phones[i]? <;>
        simp only [hp, hq, Option.map_none, Option.map_some, reduceCtorEq, Option.some.injEq,
          Prod.mk.injEq] at h₂ ⊢
      · split <;> simp [Phone.swap, h₂]
    | install s b => exact ⟨rfl, rfl, h₁, h₀, h₂, by simp [step, change, h₃], h₄, h₅, h₆⟩
    | remove s => exact ⟨rfl, rfl, h₁, h₀, h₂, by simp [step, change, h₃], h₄, h₅, h₆⟩
    | refuse on | poison => exact ⟨rfl, rfl, h₁, h₀, h₂, h₃, h₄, h₅, h₆⟩
    | withdrawAll => exact ⟨rfl, rfl, h₁, h₀, h₂, h₃, h₄, h₅, rfl⟩
    | put b | reopen => cases hw
  | notify slot =>
    refine ⟨rfl, rfl, h₁, h₀, h₂, h₃, h₄, ?_, h₆⟩
    simp only [step, notify, getElem?_announced, h₅, h₆]
  | operate k op | pump k | drop k | rebuild k group => cases hr

section Own

lemma agree_of_alike (h : Alike i (lands i) d e) (hd : d.Settled lands) {p q : Phone}
    (hp : d.handset.phones[i]? = some p) (hq : e.handset.phones[i]? = some q) :
    Controller.Surroundings.Agree (lands i) (d.handset.surroundings p) (e.handset.surroundings q) := by
  have hl : d.handset.lines[i]? = some (p.id, p.subscription) := by simp [lines, hp]
  have hl' : e.handset.lines[i]? = some (q.id, q.subscription) := by simp [lines, hq]
  obtain ⟨h₁, h₂⟩ := hd.line i _ _ hl
  obtain ⟨h₃, h₄⟩ := Prod.mk.inj (Option.some.inj (hl.symm.trans (h.line.trans hl')))
  exact ⟨h₁, h₃.symm.trans h₁, h₄, h₂, by rw [surroundings, surroundings, h.bundles], h.saved⟩

theorem operate_alike (h : Alike i (lands i) d e) (hd : d.Settled lands) (he : e.Settled lands)
    (ho : op.Within (lands i))
    (hf : Concur ((offers i (d.operate i op).2.2).map (·.2))
      ((offers i (e.operate i op).2.2).map (·.2))) :
    (d.operate i op).2.1 = (e.operate i op).2.1 ∧ SameDeeds i (d.operate i op).2.2 (e.operate i op).2.2 ∧
      Alike i (lands i) (d.operate i op).1 (e.operate i op).1 := by
  cases hc : d.controller? i with
  | none =>
    have hc' : e.controller? i = none := by simpa [hc] using h.controller.symm
    rw [operate_none hc, operate_none hc']
    exact ⟨rfl, ⟨rfl, rfl⟩, h⟩
  | some c =>
    obtain ⟨c', hc', hb⟩ : ∃ c', e.controller? i = some c' ∧ c'.blurred = c.blurred := by
      have hm := h.controller.symm
      rw [hc] at hm
      exact Option.map_eq_some_iff.1 hm
    obtain ⟨p, hp, -⟩ := hd.phone hc
    obtain ⟨q, hq, -⟩ := he.phone hc'
    have ht : (d.handset.operate i c op).2.Alike (e.handset.operate i c' op).2 := by
      rw [operate_some hc, operate_some hc', offers_happenings, offers_happenings, operate_eq hp,
        operate_eq hq] at hf
      rw [operate_eq hp, operate_eq hq]
      exact Controller.perform_agree (agree_of_alike h hd hp hq) (hd.group i c hc) hb.symm ho hf
    refine ⟨?_, ⟨?_, ?_⟩, ?_, ?_, ?_, ?_, fun k hk => ?_, ?_, ?_⟩
    · rw [operate_some hc, operate_some hc']
      exact ht.answer
    · rw [operate_some hc, operate_some hc', offers_happenings, offers_happenings]
      exact ht.offers
    · rw [operate_some hc, operate_some hc', pushes_happenings, pushes_happenings]
      exact ht.pushes
    · rw [controller?_operate hc, controller?_operate hc']
      exact congrArg some ht.controller
    · rw [length_operate, length_operate, h.seats]
    · rw [lines_operate, lines_operate, h.line]
    · rw [bundles_operate, bundles_operate, h.bundles]
    · rw [operate_some hc, operate_some hc']
      simp only [get?_operate, h.saved k hk, ht.offers]
    · rw [queues_operate, queues_operate, h.queue]
    · rw [hd.owned.count_self (enrols_own hc op), he.owned.count_self (enrols_own hc' op), h.listed]
      have hl : (d.ticket i).isSome = (e.ticket i).isSome := by
        simp only [ticket, hc, hc', Option.bind_some]
        exact (Controller.isSome_of_blurred hb).symm
      have hl' := Controller.isSome_of_blurred ht.controller
      rw [hl, hl']

lemma deliver_alike (h : Alike i (lands i) d e) (hd : d.Settled lands) (he : e.Settled lands)
    (slots : List PhoneId)
    (hf : Concur ((offers i (d.deliver i slots).2).map (·.2))
      ((offers i (e.deliver i slots).2).map (·.2))) :
    SameDeeds i (d.deliver i slots).2 (e.deliver i slots).2 ∧
      Alike i (lands i) (d.deliver i slots).1 (e.deliver i slots).1 := by
  induction slots generalizing d e with
  | nil => exact ⟨⟨rfl, rfl⟩, h⟩
  | cons slot slots ih =>
    simp only [deliver_cons, offers_append, List.map_append] at hf ⊢
    obtain ⟨hf₁, hf₂⟩ := hf.append
    have hw : Operation.Within (lands i) (.hear slot) := trivial
    obtain ⟨-, hs, ha⟩ := operate_alike h hd he hw hf₁
    obtain ⟨hs', ha'⟩ := ih ha (hd.operate i _) (he.operate i _) (hf₂ (by rw [hs.offers]))
    exact ⟨hs.append hs', ha'⟩

lemma drop_alike (h : Alike i (lands i) d e) (hd : d.Settled lands) (he : e.Settled lands) :
    SameDeeds i (d.drop i).2 (e.drop i).2 ∧ Alike i (lands i) (d.drop i).1 (e.drop i).1 := by
  have hq : ∀ d : Direct, offers i (d.drop i).2 = [] ∧ pushes i (d.drop i).2 = [] := by
    intro d
    cases hc : d.controller? i with
    | none =>
      rw [drop_none hc]
      exact ⟨rfl, rfl⟩
    | some c =>
      rw [drop_some hc, offers_happenings, pushes_happenings, dismiss]
      split
      · exact Controller.withdrawing_silent _ c
      · exact ⟨rfl, rfl⟩
  have hl : (d.ticket i).isSome = (e.ticket i).isSome := by
    have hm := h.controller
    cases hc : d.controller? i <;> cases hc' : e.controller? i <;>
      simp only [hc, hc', Option.map_none, Option.map_some, reduceCtorEq, Option.some.injEq] at hm
    · rw [ticket, ticket, hc, hc']
    · simp only [ticket, hc, hc', Option.bind_some]
      exact Controller.isSome_of_blurred hm
  refine ⟨⟨by rw [(hq d).1, (hq e).1], by rw [(hq d).2, (hq e).2]⟩, ?_, ?_, ?_, ?_, fun k hk => ?_, ?_, ?_⟩
  · rw [controller?_drop, controller?_drop]
  · rw [length_drop, length_drop, h.seats]
  · rw [lines_drop, lines_drop, h.line]
  · rw [bundles_drop, bundles_drop, h.bundles]
  · rw [(drop_sameVault d i).store, (drop_sameVault e i).store, h.saved k hk]
  · rw [queues_drop, queues_drop, h.queue]
  · rw [hd.owned.count_self (enrols_drop hd.fits i), he.owned.count_self (enrols_drop he.fits i), h.listed, hl]

lemma controller?_rebuild_self (d : Direct) (i : Nat) (group : String) :
    (d.step (.rebuild i group)).1.controller? i =
      if i < d.controllers.length then some (.fresh group) else none := by
  simp only [step, controller?, List.getElem?_set, if_true, length_drop]
  split <;> rfl

theorem step_own (h : Alike i (lands i) d e) (hd : d.Settled lands) (he : e.Settled lands)
    (hr : r.place? = some i) (hw : r.Within lands)
    (hf : Concur ((offers i (d.step r).2.2).map (·.2)) ((offers i (e.step r).2.2).map (·.2))) :
    (d.step r).2.1 = (e.step r).2.1 ∧ SameDeeds i (d.step r).2.2 (e.step r).2.2 ∧
      Alike i (lands i) (d.step r).1 (e.step r).1 := by
  cases r with
  | change x | notify slot => cases hr
  | operate k op =>
    obtain rfl := Option.some.inj hr
    obtain ⟨ha, hs, hn⟩ := operate_alike h hd he hw hf
    exact ⟨congrArg (fun a : Option _ => (a.map Reply.answered).getD .nothing) ha, hs, hn⟩
  | pump k =>
    obtain rfl := Option.some.inj hr
    have hc : (d.controller? k).isSome = (e.controller? k).isSome := by
      simpa using congrArg Option.isSome h.controller
    have hq := h.queue
    simp only [step] at hf ⊢
    cases hx : d.controller? k <;> cases hx' : e.controller? k <;> simp only [hx, hx'] at hc hf ⊢
    · exact ⟨trivial, ⟨rfl, rfl⟩, h⟩
    · cases hc
    · cases hc
    · rw [← hq] at hf ⊢
      cases hs : d.queues[k]? with
      | none => exact ⟨rfl, ⟨rfl, rfl⟩, h⟩
      | some slots =>
        simp only [hs] at hf ⊢
        have hn : Alike k (lands k) { d with queues := d.queues.set k [] }
            { e with queues := e.queues.set k [] } := by
          refine ⟨h.controller, h.seats, h.line, h.bundles, h.saved, ?_, h.listed⟩
          have hl : k < d.queues.length := (List.getElem?_eq_some_iff.1 hs).1
          have hl' : k < e.queues.length := (List.getElem?_eq_some_iff.1 (hq.symm.trans hs)).1
          simp [hl, hl']
        exact ⟨trivial, deliver_alike hn ⟨hd.group, hd.line, hd.fits, hd.owned⟩
          ⟨he.group, he.line, he.fits, he.owned⟩ slots hf⟩
  | drop k =>
    obtain rfl := Option.some.inj hr
    exact ⟨rfl, drop_alike h hd he⟩
  | rebuild k group =>
    obtain rfl := Option.some.inj hr
    obtain ⟨hs, hn⟩ := drop_alike h hd he
    refine ⟨rfl, hs, ?_, ?_, hn.line, hn.bundles, hn.saved, hn.queue, hn.listed⟩
    · rw [controller?_rebuild_self, controller?_rebuild_self, h.seats]
    · simpa [step] using hn.seats

end Own

end Handset.Direct

end CallWaiting
