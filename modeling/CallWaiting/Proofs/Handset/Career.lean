import CallWaiting.Proofs.Handset.Accord

namespace CallWaiting.Handset.Direct

open Controller (Operation)

variable {d : Direct} {r : Request} {i j : Nat} {group : String} {tr : Trail} {c : Controller}
  {p : Phone} {op : Operation}

structure Elsewhere (i : Nat) (group : String) (d : Direct) (r : Request) : Prop where
  place : r.place? ≠ some i
  accepts : d.Accepts r
  undisturbed : r ≠ .change .reopen → (d.step r).1.handset.SameNumbers group d.handset

/-- Where the controllers of a place can come to from an empty store, and what the present one has
done. What waits in queues makes no difference to them. -/
inductive Career (i : Nat) (group : String) : Direct → Trail → Prop
  | start {d : Direct} (hc : d.controller? i = some (.fresh group))
    (he : ∀ k, d.handset.store.get? group k = none) (ho : d.IsOpened) : Career i group d .blank
  | operate {d : Direct} {tr : Trail} {c : Controller} {p : Phone} (op : Operation)
    (hd : Career i group d tr) (hc : d.controller? i = some c) (hp : d.handset.phones[i]? = some p)
    (hs : AllStored (d.operate i op).2.2) :
    Career i group (d.operate i op).1 (tr.after (d.handset.surroundings p) c op)
  | elsewhere {d : Direct} {tr : Trail} {r : Request} (hd : Career i group d tr)
    (hr : Elsewhere i group d r) : Career i group (d.step r).1 tr
  | queues {d : Direct} {tr : Trail} (qs : List (List PhoneId)) (hd : Career i group d tr) :
    Career i group { d with queues := qs } tr
  | drop {d : Direct} {tr : Trail} (hd : Career i group d tr) :
    Career i group (d.step (.drop i)).1 .blank
  | rebuild {d : Direct} {tr : Trail} (hd : Career i group d tr) :
    Career i group (d.step (.rebuild i group)).1 .blank

lemma told_step_ne (hr : r.place? ≠ some i) :
    (d.step r).1.handset.phones[i]?.map (fun p => (p.id, p.told)) =
      d.handset.phones[i]?.map fun p => (p.id, p.told) := by
  have hne : ∀ j, r.place? = some j → i ≠ j := by
    rintro j hj rfl
    exact hr hj
  cases r with
  | change c =>
    cases c with
    | swap j s =>
      simp only [step, change, List.getElem?_modify]
      cases d.handset.phones[i]? with
      | none => rfl
      | some p =>
        simp only [Option.map_eq_map, Option.map_some]
        split <;> rfl
    | install s b | remove s | refuse on | poison | withdrawAll | put b | reopen => rfl
  | notify slot => rfl
  | operate j op => exact congrArg _ (phone_operate_ne (hne j rfl) d op)
  | pump j =>
    obtain hst | ⟨slots, -, hst⟩ := step_pump d j
    · rw [hst]
    · rw [hst]
      exact congrArg _ (phone_deliver_ne (hne j rfl) { d with queues := d.queues.set j [] } slots)
  | drop j | rebuild j g => exact congrArg _ (phone_drop_ne (hne j rfl) d)

lemma phone_step_ne (hr : r.place? ≠ some i) {p' : Phone}
    (hp : (d.step r).1.handset.phones[i]? = some p') :
    ∃ p, d.handset.phones[i]? = some p ∧ p'.id = p.id ∧ p'.told = p.told := by
  have hh := told_step_ne (d := d) hr
  rw [hp] at hh
  obtain ⟨p, hp, he⟩ := Option.map_eq_some_iff.1 hh.symm
  exact ⟨p, hp, (congrArg Prod.fst he).symm, (congrArg Prod.snd he).symm⟩

lemma Elsewhere.sameNumbers (hr : Elsewhere i group d r) (ho : d.IsOpened) :
    (d.step r).1.handset.SameNumbers group d.handset := by
  by_cases hre : r = .change .reopen
  · intro k
    rw [hre]
    exact congrArg (fun s => s.get? group k) (reopened_store ho)
  · exact hr.undisturbed hre

structure Kept (i : Nat) (group : String) (d : Direct) (tr : Trail) : Prop where
  opened : d.IsOpened
  coded : d.handset.IsCoded group
  controller : ∀ c, d.controller? i = some c → c.group = group ∧
    ∀ p, d.handset.phones[i]? = some p → d.handset.Sound p c tr

lemma Kept.start (hc : d.controller? i = some (.fresh group))
    (he : ∀ k, d.handset.store.get? group k = none) (ho : d.IsOpened) : Kept i group d .blank where
  opened := ho
  coded s := by
    rw [savedState, Preference.Store.get, he]
    rfl
  controller c hc' := by
    obtain rfl := Option.some.inj (hc.symm.trans hc')
    exact ⟨rfl, fun p _ => sound_blank ⟨rfl, rfl, rfl⟩⟩

lemma Kept.operate (hd : Kept i group d tr) (hc : d.controller? i = some c)
    (hp : d.handset.phones[i]? = some p) (hs : AllStored (d.operate i op).2.2) :
    Kept i group (d.operate i op).1 (tr.after (d.handset.surroundings p) c op) := by
  obtain ⟨hg, hsnd⟩ := hd.controller c hc
  have hs' := isStored_operate hc hs
  obtain ⟨h₁, h₂⟩ := sound_operate hp hs' (hg.symm ▸ hd.coded) (hsnd p hp)
  have hp' := Handset.phone_operate hp c op
  have hc' := controller?_operate hc op
  refine ⟨isOpened_operate hs hd.opened, ?_, ?_⟩
  · rw [operate_some hc]
    exact hg ▸ h₁
  · intro c₁ hc₁
    obtain rfl := Option.some.inj (hc'.symm.trans hc₁)
    refine ⟨(group_operate _ _ _ _).trans hg, fun p₁ hp₁ => ?_⟩
    rw [operate_some hc] at hp₁ ⊢
    obtain rfl := Option.some.inj (hp'.symm.trans hp₁)
    exact h₂

lemma Kept.elsewhere (hd : Kept i group d tr) (hr : Elsewhere i group d r) :
    Kept i group (d.step r).1 tr := by
  have hn := hr.sameNumbers hd.opened
  refine ⟨isOpened_step hr.accepts hd.opened, hd.coded.congr hn, fun c hc => ?_⟩
  rw [controller?_step_ne hr.place] at hc
  obtain ⟨hg, hsnd⟩ := hd.controller c hc
  refine ⟨hg, fun p' hp' => ?_⟩
  obtain ⟨p, hp, hi, ht⟩ := phone_step_ne hr.place hp'
  exact (hsnd p hp).congr (hg.symm ▸ hn) hi ht

lemma Kept.drop (hd : Kept i group d tr) : Kept i group (d.step (.drop i)).1 .blank where
  opened := isOpened_drop i hd.opened
  coded := hd.coded.congr ((drop_sameVault d i).sameNumbers group)
  controller c hc := by cases (controller?_drop d i).symm.trans hc

lemma Kept.rebuild (hd : Kept i group d tr) : Kept i group (d.step (.rebuild i group)).1 .blank where
  opened := isOpened_drop i hd.opened
  coded := hd.coded.congr ((drop_sameVault d i).sameNumbers group)
  controller c hc := by
    obtain rfl := controller?_rebuild hc
    exact ⟨rfl, fun p _ => sound_blank ⟨rfl, rfl, rfl⟩⟩

theorem Career.kept (hd : Career i group d tr) : Kept i group d tr := by
  induction hd with
  | start hc he ho => exact .start hc he ho
  | operate op _ hc hp hs ih => exact ih.operate hc hp hs
  | elsewhere _ hr ih => exact ih.elsewhere hr
  | queues qs _ ih => exact ⟨ih.opened, ih.coded, ih.controller⟩
  | drop _ ih => exact ih.drop
  | rebuild _ ih => exact ih.rebuild

lemma operate_of_no_phone (hc : d.controller? i = some c) (hp : d.handset.phones[i]? = none)
    (op : Operation) : (d.operate i op).1 = d := by
  have hi : d.controllers.set i (some c) = d.controllers := by
    obtain ⟨hl, he⟩ := List.getElem?_eq_some_iff.1 (Option.join_eq_some_iff.1 hc)
    rw [← he, List.set_getElem_self]
  simp only [operate_some hc, Handset.operate, hp, Controller.Turn.rest, hi]

lemma Career.operation (hd : Career i group d tr) (hs : AllStored (d.operate i op).2.2) :
    ∃ tr', Career i group (d.operate i op).1 tr' := by
  cases hc : d.controller? i with
  | none => exact ⟨tr, by rwa [operate_none hc]⟩
  | some c =>
    cases hp : d.handset.phones[i]? with
    | none => exact ⟨tr, by rwa [operate_of_no_phone hc hp]⟩
    | some p => exact ⟨_, hd.operate op hc hp hs⟩

structure Occurs (i : Nat) (group : String) (d : Direct) (r : Request) : Prop where
  accepts : d.Accepts r
  successor : ∀ g, r = .rebuild i g → g = group
  undisturbed : r.place? ≠ some i → r ≠ .change .reopen →
    (d.step r).1.handset.SameNumbers group d.handset

lemma Career.step (hd : Career i group d tr) (hr : Occurs i group d r) :
    ∃ tr', Career i group (d.step r).1 tr' := by
  by_cases hi : r.place? = some i
  · have hs := hr.accepts.offered
    cases r with
    | change c | notify slot => cases hi
    | operate j op =>
      obtain rfl := Option.some.inj hi
      exact hd.operation hs
    | pump j =>
      obtain rfl := Option.some.inj hi
      obtain hst | ⟨slots, -, hst⟩ := step_pump d j
      · exact ⟨tr, by rwa [hst]⟩
      · rw [hst] at hs ⊢
        exact deliver_preserved (fun d => ∃ tr', Career j group d tr')
          (fun _ _ hs ⟨_, hd⟩ => hd.operation hs) hs ⟨tr, hd.queues _⟩
    | drop j =>
      obtain rfl := Option.some.inj hi
      exact ⟨_, hd.drop⟩
    | rebuild j g =>
      obtain rfl := Option.some.inj hi
      obtain rfl := hr.successor g rfl
      exact ⟨_, hd.rebuild⟩
  · exact ⟨tr, hd.elsewhere ⟨hi, hr.accepts, hr.undisturbed hi⟩⟩

theorem Career.run {rs : List Request} (hd : Career i group d tr) (hr : Along (Occurs i group) d rs) :
    ∃ tr', Career i group (d.run rs) tr' :=
  hr.preserved (fun d => ∃ tr', Career i group d tr') (fun _ _ hr ⟨_, hd⟩ => hd.step hr) ⟨tr, hd⟩

/-- After an operation that is to leave store, phone and controller in accord they are, just if the
state saved for the phone's subscription is the one saved for the subscription under which the
controller last loaded or wrote. -/
theorem agreed_operate_iff (hd : Career i group d tr) (hc : d.controller? i = some c)
    (hp : d.handset.phones[i]? = some p) (hs : AllStored (d.operate i op).2.2)
    (ho : c.Concludes (d.handset.surroundings p) op) :
    ∃ c' p' t, (d.operate i op).1.controller? i = some c' ∧
      (d.operate i op).1.handset.phones[i]? = some p' ∧ p'.subscription = p.subscription ∧
      (tr.after (d.handset.surroundings p) c op).source = some t ∧
      ((d.operate i op).1.handset.Agreed p' c' (tr.after (d.handset.surroundings p) c op).told ↔
        (d.operate i op).1.handset.savedState group p.subscription =
          (d.operate i op).1.handset.savedState group t) := by
  have hk := (hd.operate op hc hp hs).kept
  obtain ⟨hg, h₀⟩ := hd.kept.controller c hc
  have hc' := controller?_operate hc op
  obtain ⟨p', hp', -, hsub⟩ := phone_operate hp i op
  obtain ⟨hg', h₁⟩ := hk.controller _ hc'
  have hl := Handset.lastSubscription_concludes hp (isStored_operate hc hs) ho
  obtain ⟨t, ht⟩ := Handset.source_concludes (h₀ p hp) ho
  refine ⟨_, p', t, hc', hp', hsub, ht, ?_⟩
  have hi := (h₁ p' hp').agreed_iff (hg'.symm ▸ hk.coded) (hl.trans hsub.symm) ht
  rwa [hg', hsub] at hi

set_option maxRecDepth 10000 in
theorem agreed_after_swap :
    let d := single.run [.change (.install ⟨2⟩ (.offering false)),
      .operate 0 (.update ⟨1⟩ (some (.offering true)) false), .change (.swap 0 ⟨2⟩)]
    (d.operate 0 (.setSupported true)).1.handset.Agreed ⟨⟨0⟩, ⟨2⟩, [.activated, .notActivated]⟩
      ⟨"", some 0, true, true, .notActivated, .none, ⟨2⟩⟩ (some .notActivated) := by
  intro d
  let p : Phone := ⟨⟨0⟩, ⟨2⟩, [.activated]⟩
  let c : Controller := ⟨"", none, false, true, .activated, .none, ⟨1⟩⟩
  have h₀ : Career 0 "" single .blank := .start rfl (fun _ => rfl) trivial
  have h₁ := h₀.elsewhere (r := .change (.install ⟨2⟩ (.offering false)))
    ⟨nofun, ⟨by decide, nofun⟩, fun _ _ => rfl⟩
  have h₂ := h₁.operate (.update ⟨1⟩ (some (.offering true)) false) rfl rfl (by decide)
  have h₃ : Career 0 "" d ⟨some ⟨1⟩, some .activated⟩ :=
    h₂.elsewhere (r := .change (.swap 0 ⟨2⟩)) ⟨nofun, ⟨by decide, nofun⟩, fun _ _ => rfl⟩
  have hp : d.handset.phones[0]? = some p := rfl
  have ho : c.Concludes (d.handset.surroundings p) (.setSupported true) :=
    .inl ⟨by decide, by decide, by decide⟩
  obtain ⟨c', p', t, hc', hp', -, ht, hi⟩ := agreed_operate_iff h₃ rfl hp (by decide) ho
  obtain rfl := Option.some.inj hc'
  obtain rfl := Option.some.inj hp'
  obtain rfl := Option.some.inj ht
  exact hi.2 rfl

set_option maxRecDepth 10000 in
theorem not_agreed_after_swap :
    let rs : List Request := [.change (.install ⟨1⟩ (.offering true)), .operate 0 (.setSupported true),
      .change (.swap 0 ⟨2⟩), .operate 0 (.setSupported false), .change (.remove ⟨1⟩),
      .change (.swap 0 ⟨1⟩), .operate 0 (.setSupported true), .change (.swap 0 ⟨2⟩),
      .change (.install ⟨2⟩ (.offering true))]
    let d := single.run rs
    let p : Phone := ⟨⟨0⟩, ⟨2⟩, [.activated, .notSupported]⟩
    let c : Controller := ⟨"", some 1, true, true, .activated, .none, ⟨2⟩⟩
    let d' := (d.operate 0 (.hear ⟨0⟩)).1
    Along (fun d r => AllStored (d.step r).2.2) single (rs ++ [.operate 0 (.hear ⟨0⟩)]) ∧
      d.controller? 0 = some c ∧ d.handset.phones[0]? = some p ∧
      c.Concludes (d.handset.surroundings p) (.hear ⟨0⟩) ∧
      d'.controller? 0 = some c ∧ d'.handset.phones[0]? = some p ∧
      ¬ d'.handset.Agreed p c (some .notSupported) := by
  intro rs d p c d'
  refine ⟨by decide, by decide, rfl, .inl ⟨by decide, by decide, by decide⟩, by decide, rfl, ?_⟩
  intro ha
  exact absurd ha.state (by decide)

end CallWaiting.Handset.Direct
