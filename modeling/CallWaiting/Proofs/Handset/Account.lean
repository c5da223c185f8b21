import CallWaiting.Proofs.Handset.Separation

/-!
Phones are independent. Where the controllers of a handset keep to territories of their own, each
of them does in a run what it does when the others are left out, provided that the same becomes of
the batches it offers.
-/

namespace CallWaiting

open Preference (Batch Fate)
open Controller (Concur)

namespace Handset.Direct

variable {d e : Direct} {i : Nat} {lands : Nat → Territory}

structure Account where
  replies : List Reply
  offers : List (Batch × Fate)
  pushes : List State
  shown : Option State
  sync : Option Sync
deriving DecidableEq

def account (i : Nat) (d : Direct) : List Request → Account
  | [] => ⟨[], [], [], (d.controller? i).map (·.shownState), (d.controller? i).map (·.sync)⟩
  | r :: rs =>
    let x := account i (d.step r).1 rs
    { x with
      replies := if r.place? = some i then (d.step r).2.1 :: x.replies else x.replies
      offers := offers i (d.step r).2.2 ++ x.offers
      pushes := pushes i (d.step r).2.2 ++ x.pushes }

def Account.fates (x : Account) : List Fate :=
  x.offers.map (·.2)

def Request.Concerns (i : Nat) (r : Request) : Prop :=
  r.place? = none ∨ r.place? = some i

instance (i : Nat) (r : Request) : Decidable (r.Concerns i) :=
  inferInstanceAs (Decidable (_ ∨ _))

lemma account_alike (ha : ∀ j, i ≠ j → (lands i).Apart (lands j)) {rs : List Request}
    (hr : ∀ r ∈ rs, r.Within lands) (hd : d.Settled lands) (he : e.Settled lands)
    (h : Alike i (lands i) d e)
    (hf : Concur (account i d rs).fates (account i e (rs.filter (·.Concerns i))).fates) :
    account i d rs = account i e (rs.filter (·.Concerns i)) := by
  induction rs generalizing d e with
  | nil =>
    have hm := h.controller
    cases hc : d.controller? i <;> cases hc' : e.controller? i <;>
      simp only [hc, hc', Option.map_none, Option.map_some, reduceCtorEq, Option.some.injEq] at hm
    · simp [account, hc, hc']
    · obtain ⟨l, rfl, -⟩ := Controller.twin_of_blurred hm
      simp [account, hc, hc', Controller.shownState]
  | cons r rs ih =>
    have hr' := fun r hm => hr r (List.mem_cons_of_mem _ hm)
    have hw := hr r List.mem_cons_self
    have hd' := hd.step hw
    cases hp : r.place? with
    | none =>
      obtain ⟨ho, ho', hn⟩ := step_around h hp hw
      have hk : r.Concerns i := .inl hp
      simp only [List.filter_cons, hk, decide_true, if_true, account, Account.fates, offers, pushes,
        ho, ho', hp, reduceCtorEq, if_false, List.filterMap_nil, List.nil_append] at hf ⊢
      exact ih hr' hd' (he.step hw) hn hf
    | some j =>
      by_cases hj : i = j
      · subst hj
        have hk : r.Concerns i := .inr hp
        simp only [List.filter_cons, hk, decide_true, if_true, account, Account.fates, hp,
          List.map_append] at hf ⊢
        obtain ⟨hf₁, hf₂⟩ := hf.append
        obtain ⟨ha, hs, hn⟩ := step_own h hd he hp hw hf₁
        rw [ha, hs.offers, hs.pushes, ih hr' hd' (he.step hw) hn (hf₂ (by rw [hs.offers]))]
      · -- a step of another place, which the other run leaves out
        obtain ⟨ho, hn⟩ := step_elsewhere ha hd hp hj
        have hk : ¬ r.Concerns i := by
          rintro (hx | hx) <;> rw [hp] at hx
          · cases hx
          · exact hj (Option.some.inj hx).symm
        have hne : ¬ some j = some i := fun hx => hj (Option.some.inj hx).symm
        simp only [List.filter_cons, hk, decide_false, Bool.false_eq_true, if_false, account,
          Account.fates, offers, pushes, ho, hp, hne, List.filterMap_nil, List.nil_append] at hf ⊢
        exact ih hr' hd' he (hn.trans h) hf

lemma fates_append (i : Nat) (d : Direct) (rs rs' : List Request) :
    (account i d (rs ++ rs')).fates = (account i d rs).fates ++ (account i (d.run rs) rs').fates := by
  induction rs generalizing d with
  | nil => rfl
  | cons r rs ih =>
    have ih := ih (d.step r).1
    simp only [Account.fates] at ih
    simp [account, Account.fates, ih]

theorem account_filter (ha : ∀ j, i ≠ j → (lands i).Apart (lands j)) {rs : List Request}
    (hr : ∀ r ∈ rs, r.Within lands) (hd : d.Settled lands)
    (hf : Concur (account i d rs).fates (account i d (rs.filter (·.Concerns i))).fates) (n : Nat) :
    account i d (rs.take n) = account i d ((rs.take n).filter (·.Concerns i)) := by
  refine account_alike ha (fun r hm => hr r (List.mem_of_mem_take hm)) hd hd (.refl d) ?_
  rw [← List.take_append_drop n rs, List.filter_append, fates_append, fates_append] at hf
  exact hf.append.1

set_option maxRecDepth 10000 in
theorem account_filter_two_phones :
    let d := fresh (Handset.fresh [.fresh ⟨0⟩ ⟨1⟩, .fresh ⟨1⟩ ⟨2⟩] (.memory .empty) .empty) ["", ""]
    let rs : List Request := [.change (.install ⟨1⟩ (.offering true)),
      .change (.install ⟨2⟩ (.offering false)), .operate 1 (.setSupported true),
      .operate 0 (.setSupported true), .operate 1 (.request true .voice), .notify ⟨0⟩,
      .change (.refuse true), .pump 1, .operate 0 (.request false .voice), .drop 1, .pump 0]
    account 0 d rs = account 0 d (rs.filter (·.Concerns 0)) := by
  intro d rs
  let a : Territory := ⟨"", ⟨0⟩, (· = ⟨1⟩)⟩
  let b : Territory := ⟨"", ⟨1⟩, (· = ⟨2⟩)⟩
  let lands : Nat → Territory := fun j => if j = 0 then a else b
  have ha : ∀ j, 0 ≠ j → (lands 0).Apart (lands j) := by
    intro j hj
    refine .inr ?_
    simp only [lands, if_true, if_neg hj.symm]
    refine ⟨by decide, ?_⟩
    rintro s rfl
    decide
  have hr : ∀ r ∈ rs, r.Within lands := by
    simp only [rs, List.forall_mem_cons]
    exact ⟨trivial, trivial, trivial, trivial, trivial, trivial, trivial, trivial, trivial, trivial,
      trivial, nofun⟩
  have hd : d.Settled lands := by
    refine settled_fresh (fun j g hg => ?_) (fun j p hp => ?_) (by decide)
    · obtain _ | _ | j := j
      · exact (Option.some.inj hg).symm
      · exact (Option.some.inj hg).symm
      · cases hg
    · obtain _ | _ | j := j
      · obtain rfl := Option.some.inj hp
        exact ⟨rfl, rfl⟩
      · obtain rfl := Option.some.inj hp
        exact ⟨rfl, rfl⟩
      · cases hp
  have hf : (account 0 d rs).fates = (account 0 d (rs.filter (·.Concerns 0))).fates := by decide
  exact account_filter ha hr hd (.of_eq hf) rs.length

end Handset.Direct

end CallWaiting
