import CallWaiting.Proofs.Service.Traffic

namespace CallWaiting

open Handset (Happening)

namespace Traffic

variable {t u v : Traffic} {hs hs' : List Happening} {i : Nat}

def ofExchange (x : Exchange) : Traffic :=
  ⟨x.handset, x.services, []⟩

def Reaches (t u : Traffic) (hs : List Happening) : Prop :=
  ∃ ms, t.run ms = u ∧ t.happenings ms = hs

lemma run_append (t : Traffic) (ms ms' : List Move) : t.run (ms ++ ms') = (t.run ms).run ms' :=
  List.foldl_append

lemma happenings_append (t : Traffic) (ms ms' : List Move) :
    t.happenings (ms ++ ms') = t.happenings ms ++ (t.run ms).happenings ms' := by
  induction ms generalizing t with
  | nil => rfl
  | cons m ms ih => simp only [List.cons_append, happenings, ih, run_cons, List.append_assoc]

lemma Reaches.refl (t : Traffic) : t.Reaches t [] := ⟨[], rfl, rfl⟩

lemma reaches_move (t : Traffic) (m : Move) : t.Reaches (t.move m).1 (t.move m).2 :=
  ⟨[m], rfl, List.append_nil _⟩

lemma Reaches.trans (h : t.Reaches u hs) (h' : u.Reaches v hs') : t.Reaches v (hs ++ hs') := by
  obtain ⟨ms, rfl, rfl⟩ := h
  obtain ⟨ms', rfl, rfl⟩ := h'
  exact ⟨ms ++ ms', run_append t ms ms', happenings_append t ms ms'⟩

lemma modify_congr {ss : List Service} {f g : Service → Service}
    (h : ∀ s, ss[i]? = some s → f s = g s) : ss.modify i f = ss.modify i g := by
  apply List.ext_getElem?
  intro j
  simp only [List.getElem?_modify]
  by_cases hij : i = j
  · subst hij
    cases hs : ss[i]? with
    | none => rfl
    | some s => simp [h s hs]
  · simp [hij]

lemma reaches_act (x : Exchange) (i : Nat) {a : Service.Act} (ha : ∀ slot, a ≠ .forward slot)
    {f : Service → Service} (hf : ∀ s, x.services[i]? = some s → s.act a = f s) :
    (ofExchange x).Reaches (ofExchange (x.modify i f)) [] := by
  have hs : x.services.modify i (·.act a) = x.services.modify i f := modify_congr hf
  have hm : (ofExchange x).move (.act i a) =
      (ofExchange (x.modify i f), []) := by
    cases a with
    | forward slot => exact absurd rfl (ha slot)
    | _ => simp [move, permits, remaining, actHappenings, ofExchange, Exchange.modify, hs]
  have hh := reaches_move (ofExchange x) (.act i a)
  rwa [hm] at hh

end Traffic

namespace Exchange

open Traffic (ofExchange Reaches)

variable {x : Exchange} {i : Nat}

lemma services_wake (x : Exchange) (i : Nat) :
    (x.wake i).services = x.services ∧ (x.wake i).handset = x.handset := by
  rw [wake]
  split
  · split <;> exact ⟨rfl, rfl⟩
  · exact ⟨rfl, rfl⟩

lemma ofExchange_wake (x : Exchange) (i : Nat) : ofExchange (x.wake i) = ofExchange x := by
  rw [ofExchange, (services_wake x i).1, (services_wake x i).2, ofExchange]

lemma reaches_sent {s : Service} (hs : x.services[i]? = some s) {a : Service.Act}
    (ha : ∀ slot, a ≠ .forward slot) {f : Service → Service} (hf : s.act a = f s) :
    (ofExchange x).Reaches (ofExchange ((x.modify i f).wake i)) [] := by
  rw [ofExchange_wake]
  refine Traffic.reaches_act x i ha fun s' hs' => ?_
  obtain rfl := Option.some.inj (hs.symm.trans hs')
  exact hf

lemma ofExchange_wakeIfAlone (x : Exchange) (i : Nat) :
    ofExchange (x.wakeIfAlone i) = ofExchange x := by
  rw [wakeIfAlone]
  split
  · split
    · rfl
    · exact ofExchange_wake x i
  · rfl

lemma line_runOne (x : Exchange) (i : Nat) : (x.runOne i).1.line = x.line := by
  rw [runOne]
  split
  · rfl
  · split
    · rfl
    · split <;> rfl
    · rfl
    · simp only [perform]
      split <;> rfl

lemma reaches_runOne (hx : x.line = []) (i : Nat) :
    (ofExchange x).Reaches (ofExchange (x.runOne i).1) (x.runOne i).2 := by
  have hh := Traffic.reaches_move (ofExchange x) (.work i)
  have he : (ofExchange x).exchange = x := by
    obtain ⟨h, ss, l⟩ := x
    obtain rfl : l = [] := hx
    rfl
  simp only [Traffic.move, he] at hh
  exact hh

lemma reaches_runMany (n : Nat) (hx : x.line = []) (i : Nat) :
    (ofExchange x).Reaches (ofExchange (runMany i n x).1) (runMany i n x).2 ∧
      (runMany i n x).1.line = [] := by
  induction n generalizing x with
  | zero => exact ⟨.refl _, hx⟩
  | succ n ih =>
    obtain ⟨hr, hl⟩ := ih ((line_runOne x i).trans hx)
    exact ⟨(reaches_runOne hx i).trans hr, hl⟩

lemma reaches_runLine (is : List Nat) (hx : x.line = []) :
    (ofExchange x).Reaches (ofExchange (x.runLine is).1) (x.runLine is).2 := by
  induction is generalizing x with
  | nil => exact .refl _
  | cons i is ih =>
    have hr : (ofExchange x).Reaches (ofExchange (x.runAll i).1) (x.runAll i).2 ∧
        (x.runAll i).1.line = [] := by
      rw [runAll]
      split
      · exact reaches_runMany _ hx i
      · exact ⟨.refl _, hx⟩
    exact hr.1.trans (ih hr.2)

lemma reaches_settle (x : Exchange) :
    (ofExchange x).Reaches (ofExchange x.settle.1) x.settle.2 :=
  reaches_runLine (x := { x with line := [] }) x.line rfl

lemma forward_eq (slot : PhoneId) (x : Exchange) (i : Nat) :
    (forward slot x i).1.services = x.services.modify i (·.act (.forward slot)) ∧
      (forward slot x i).1.handset = x.handset ∧ ∀ l,
      (forward slot x i).2 = Traffic.actHappenings ⟨x.handset, x.services, l⟩ i (.forward slot) := by
  rw [forward]
  simp only [Traffic.actHappenings]
  cases hx : x.services[i]? with
  | none =>
    refine ⟨?_, rfl, fun _ => rfl⟩
    exact (List.modify_eq_self (List.getElem?_eq_none_iff.1 hx)).symm
  | some s =>
    cases hr : s.isReachable with
    | true =>
      simp only [if_true, enqueue, (services_wake _ i).1, (services_wake _ i).2, modify, hr]
      refine ⟨Traffic.modify_congr fun s' hs' => ?_, trivial, fun _ => trivial⟩
      obtain rfl := Option.some.inj (hx.symm.trans hs')
      simp [Service.act, hr]
    | false =>
      simp only [hr]
      refine ⟨?_, rfl, fun _ => rfl⟩
      have hs : x.services.modify i (·.act (.forward slot)) = x.services.modify i id :=
        Traffic.modify_congr fun s' hs' => by
          obtain rfl := Option.some.inj (hx.symm.trans hs')
          simp [Service.act, hr]
      simp [hs]

lemma reaches_forwardAll (slot : PhoneId) (x : Exchange) (order : List Nat) :
    Reaches ⟨x.handset, x.services, order.map (·, slot)⟩ (ofExchange (forwardAll slot x order).1)
      (forwardAll slot x order).2 := by
  induction order generalizing x with
  | nil => exact .refl _
  | cons i is ih =>
    obtain ⟨hs, hh, he⟩ := forward_eq slot x i
    have hm : Traffic.move ⟨x.handset, x.services, (i :: is).map (·, slot)⟩ (.act i (.forward slot)) =
        (⟨(forward slot x i).1.handset, (forward slot x i).1.services, is.map (·, slot)⟩,
          (forward slot x i).2) := by
      simp [Traffic.move, Traffic.permits, Traffic.remaining, hs, hh, ← he]
    have hr := Traffic.reaches_move ⟨x.handset, x.services, (i :: is).map (·, slot)⟩
      (.act i (.forward slot))
    rw [hm] at hr
    exact hr.trans (ih (forward slot x i).1)

theorem reaches_step (x : Exchange) (r : Request) :
    (ofExchange x).Reaches (ofExchange (x.step r).1) (x.step r).2.2 := by
  cases r with
  | change c => exact Traffic.reaches_move (ofExchange x) (.change c)
  | notify slot =>
    have hr := Traffic.reaches_move (ofExchange x) (.announce slot)
    exact hr.trans (reaches_forwardAll slot x x.handset.registry.listeners)
  | settle => exact reaches_settle x
  | ask i k op =>
    simp only [step]
    split
    · rename_i s hs
      split
      · rename_i hk
        have ha := reaches_sent hs (a := .ask k op) (f := (·.ask op)) (by simp)
          (by simp [Service.act, canSend, hk])
        exact ha.trans (reaches_settle _)
      · exact .refl _
    · exact .refl _
  | shutdown i k =>
    simp only [step]
    split
    · rename_i s hs
      split
      · rename_i hk
        have ha := reaches_sent hs (a := .shutdown k) (f := Service.beginShutdown) (by simp)
          (by simp [Service.act, hk])
        exact ha.trans (reaches_settle _)
      · exact .refl _
    · exact .refl _
  | send i k c =>
    simp only [step]
    split
    · rename_i s hs
      split
      · rename_i hk
        exact reaches_sent hs (a := .send k c) (f := (·.enqueue c none)) (by simp)
          (by simp [Service.act, hk])
      · exact .refl _
    · exact .refl _
  | cloneHandle i k =>
    exact Traffic.reaches_act x i (a := .cloneHandle k) (by simp) (fun _ _ => rfl)
  | dropHandle i k =>
    have ha := Traffic.reaches_act x i (a := .dropHandle k) (by simp) (fun _ _ => rfl)
    simp only [step, ofExchange_wakeIfAlone]
    exact ha
  | keepSender i k =>
    exact Traffic.reaches_act x i (a := .keepSender k) (by simp) (fun _ _ => rfl)
  | dropSender i =>
    have ha := Traffic.reaches_act x i (a := .dropSender) (by simp) (fun _ _ => rfl)
    simp only [step, ofExchange_wakeIfAlone]
    exact ha
  | info i k =>
    simp only [step]
    split <;> exact .refl _

theorem exists_run (h : Handset) (groups : List String) (rs : List Request) :
    ∃ ms, (Traffic.spawn h groups).run ms =
      ofExchange (rs.foldl (fun x r => (x.step r).1) (spawn h groups)) := by
  have hr : ∀ (x : Exchange), ∃ hs,
      (ofExchange x).Reaches (ofExchange (rs.foldl (fun x r => (x.step r).1) x)) hs := by
    induction rs with
    | nil => exact fun x => ⟨[], .refl _⟩
    | cons r rs ih =>
      intro x
      obtain ⟨hs, hh⟩ := ih (x.step r).1
      exact ⟨_, (reaches_step x r).trans hh⟩
  obtain ⟨hs, ms, hm, -⟩ := hr (spawn h groups)
  exact ⟨ms, hm⟩

end Exchange

end CallWaiting
