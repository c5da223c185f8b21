import CallWaiting.Proofs.Handset.Run
import CallWaiting.Proofs.Service.Traffic

namespace CallWaiting

open Controller (Operation Answer)
open Handset (Happening Direct)

namespace Handset

def Happening.isOwn (e : Happening) : Bool :=
  e.phone.isSome

def Direct.happenings : Direct → List Direct.Request → List Happening
  | _, [] => []
  | d, r :: rs => (d.step r).2.2 ++ (d.step r).1.happenings rs

lemma Direct.run_append (d : Direct) (rs rs' : List Direct.Request) :
    d.run (rs ++ rs') = (d.run rs).run rs' :=
  List.foldl_append

lemma Direct.happenings_append (d : Direct) (rs rs' : List Direct.Request) :
    d.happenings (rs ++ rs') = d.happenings rs ++ (d.run rs).happenings rs' := by
  induction rs generalizing d with
  | nil => rfl
  | cons r rs ih => simp only [List.cons_append, happenings, ih, run_cons, List.append_assoc]

end Handset

namespace Traffic

variable {t : Traffic} {d : Direct} {i : Nat}

def controller? (t : Traffic) (i : Nat) : Option Controller :=
  t.services[i]?.bind (·.controller)

structure Mirrors (t : Traffic) (d : Direct) : Prop where
  handset : t.handset = d.handset
  controllers : ∀ i, t.controller? i = d.controller? i

lemma Mirrors.controller_of (hd : t.Mirrors d) {s : Service} {c : Controller}
    (hs : t.services[i]? = some s) (hc : s.controller = some c) : d.controller? i = some c := by
  rw [← hd.controllers i, controller?, hs, Option.bind_some, hc]

lemma Mirrors.controller_set {h : Handset} {s s' : Service} {x : Option Controller}
    (hd : t.Mirrors d) (hs : t.services[i]? = some s) {c : Controller} (hc : s.controller = some c)
    (hx : s'.controller = x) {q : List (List PhoneId)} :
    Mirrors { t with handset := h, services := t.services.set i s' }
      ⟨h, d.controllers.set i x, q⟩ := by
  refine ⟨rfl, fun j => ?_⟩
  have hi : i < t.services.length := (List.getElem?_eq_some_iff.1 hs).1
  by_cases hij : j = i
  · subst hij
    have hj := hd.controller_of hs hc
    rw [controller?, List.getElem?_set_self hi, Option.bind_some, hx]
    exact (Direct.controller?_set_self hj x).symm
  · rw [controller?, List.getElem?_set_ne (Ne.symm hij), ← controller?]
    exact (hd.controllers j).trans (Direct.controller?_set hij).symm

lemma controller?_act (t : Traffic) (i j : Nat) (a : Service.Act) :
    (t.move (.act j a)).1.controller? i = t.controller? i := by
  simp only [move]
  split
  · simp only [controller?, List.getElem?_modify]
    by_cases hij : j = i
    · cases t.services[i]? <;> simp [hij, (Service.act_apart _ a).1]
    · simp [hij]
  · rfl

lemma Mirrors.act (hd : t.Mirrors d) (i : Nat) (a : Service.Act) :
    Mirrors (t.move (.act i a)).1 d := by
  refine ⟨?_, fun j => (controller?_act t j i a).trans (hd.controllers j)⟩
  rw [← hd.handset]
  simp only [move]
  split <;> rfl

lemma Mirrors.drop {h : Handset} {cs : List (Option Controller)} {q : List (List PhoneId)}
    {c : Controller} (hc : (Direct.mk h cs q).controller? i = some c) :
    (Direct.mk h cs q).step (.drop i) = (⟨(h.dismiss i c).1, cs.set i none, q⟩, .nothing,
      Handset.happenings i (h.dismiss i c).2) := by
  simp only [Direct.step, Direct.drop_some hc]

lemma isOwn_actHappenings (t : Traffic) (i : Nat) (a : Service.Act) :
    ∀ e ∈ t.actHappenings i a, e.isOwn = false := by
  intro e he
  simp only [actHappenings] at he
  split at he
  · split at he
    · split at he
      · cases he
      · rw [List.mem_singleton.1 he]
        rfl
    · cases he
  · cases he

lemma Mirrors.work (hd : t.Mirrors d) (i : Nat) :
    Mirrors (t.move (.work i)).1 (d.run (t.requests (.work i))) ∧
      (t.move (.work i)).2.filter Happening.isOwn =
        (d.happenings (t.requests (.work i))).filter Happening.isOwn := by
  obtain ⟨h, cs, q⟩ := d
  obtain ⟨rfl⟩ := hd.handset
  cases work_cases t i with
  | idle hs hr hm =>
    rw [hm, hr]
    exact ⟨hd, rfl⟩
  | stop s c hs hc hq hr hm =>
    have hc' := hd.controller_of hs hc
    have hn : (t.exchange.stoppedNotice i).filter Happening.isOwn = [] := by
      rw [Exchange.stoppedNotice]
      split <;> rfl
    rw [hm, hr]
    refine ⟨?_, ?_⟩
    · rw [Direct.run_cons, Mirrors.drop hc']
      exact hd.controller_set hs hc rfl
    · rw [Direct.happenings, Mirrors.drop hc', List.filter_append, hn, Direct.happenings]
      simp
  | answer s c op w q' a hs hc hq ha hr hm =>
    have hc' := hd.controller_of hs hc
    rw [hm, hr, Direct.run_cons, Direct.happenings]
    simp only [Direct.step, Direct.operate_some hc', Direct.happenings, Direct.run_nil]
    refine ⟨hd.controller_set hs hc rfl, by simp⟩
  | crash s c op w q' hs hc hq ha hr hm =>
    have hc' := hd.controller_of hs hc
    have hc'' := Direct.controller?_operate hc' op
    rw [Direct.operate_some hc'] at hc''
    rw [hm, hr, Direct.run_cons, Direct.happenings]
    simp only [Direct.step, Direct.operate_some hc', Direct.happenings, Direct.run_cons,
      Direct.run_nil, Direct.drop_some hc'', List.set_set]
    refine ⟨hd.controller_set hs hc rfl, by simp⟩

theorem Mirrors.move (hd : t.Mirrors d) (m : Move) :
    Mirrors (t.move m).1 (d.run (t.requests m)) ∧
      (t.move m).2.filter Happening.isOwn = (d.happenings (t.requests m)).filter Happening.isOwn := by
  cases m with
  | change c =>
    obtain ⟨h, cs, q⟩ := d
    obtain ⟨rfl⟩ := hd.handset
    exact ⟨⟨rfl, hd.controllers⟩, by simp [Traffic.move, requests, Direct.happenings, Direct.step]⟩
  | announce slot => exact ⟨⟨hd.handset, hd.controllers⟩, rfl⟩
  | act i a =>
    refine ⟨hd.act i a, ?_⟩
    simp only [Traffic.move, requests, Direct.happenings]
    split
    · simpa [List.filter_eq_nil_iff] using isOwn_actHappenings t i a
    · rfl
  | work i => exact hd.work i

theorem Mirrors.run (hd : t.Mirrors d) (ms : List Move) :
    Mirrors (t.run ms) (d.run (t.script ms)) ∧
      (t.happenings ms).filter Happening.isOwn =
        (d.happenings (t.script ms)).filter Happening.isOwn := by
  induction ms generalizing t d with
  | nil => exact ⟨hd, rfl⟩
  | cons m ms ih =>
    obtain ⟨hd', hh⟩ := hd.move m
    obtain ⟨hd'', hh'⟩ := ih hd'
    rw [script, Direct.run_append, Direct.happenings_append]
    refine ⟨hd'', ?_⟩
    rw [Traffic.happenings, List.filter_append, List.filter_append, hh, hh']

lemma mirrors_spawn (h : Handset) (groups : List String) :
    (spawn h groups).Mirrors (.fresh h groups) := by
  refine ⟨rfl, fun i => ?_⟩
  simp only [controller?, spawn, Direct.controller?, Direct.fresh, List.getElem?_map]
  cases groups[i]? <;> rfl

end Traffic

end CallWaiting
