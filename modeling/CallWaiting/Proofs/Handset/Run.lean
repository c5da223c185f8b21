import CallWaiting.Handset.Direct
import CallWaiting.Proofs.Handset.Effects

namespace CallWaiting.Handset.Direct

open Controller (Effect Operation)

variable {P Q : Direct → Request → Prop} {d : Direct} {r : Request} {rs : List Request}
  {i j : Nat} {c : Controller} {op : Operation}

def run (d : Direct) (rs : List Request) : Direct :=
  rs.foldl (fun d r => (d.step r).1) d

@[simp] lemma run_nil (d : Direct) : d.run [] = d := rfl

@[simp] lemma run_cons (d : Direct) (r : Request) (rs : List Request) :
    d.run (r :: rs) = (d.step r).1.run rs := rfl

def Along (P : Direct → Request → Prop) : Direct → List Request → Prop
  | _, [] => True
  | d, r :: rs => P d r ∧ Along P (d.step r).1 rs

instance [∀ d r, Decidable (P d r)] : ∀ d rs, Decidable (Along P d rs)
  | _, [] => inferInstanceAs (Decidable True)
  | d, r :: rs =>
    have := instDecidableAlong (d.step r).1 rs
    inferInstanceAs (Decidable (_ ∧ _))

lemma Along.nil : Along P d [] := trivial

lemma Along.cons (h : P d r) (hs : Along P (d.step r).1 rs) : Along P d (r :: rs) := ⟨h, hs⟩

theorem Along.preserved (Inv : Direct → Prop)
    (hs : ∀ d r, P d r → Inv d → Inv (d.step r).1) (h : Along P d rs) (hd : Inv d) :
    Inv (d.run rs) := by
  induction rs generalizing d with
  | nil => exact hd
  | cons r rs ih => exact ih h.2 (hs d r h.1 hd)

structure Leads (P : Direct → Request → Prop) (d : Direct) (rs : List Request) (d' : Direct) :
    Prop where
  along : Along P d rs
  run : d.run rs = d'

def single : Direct :=
  fresh (Handset.fresh [.fresh ⟨0⟩ ⟨1⟩] (.memory .empty) .empty) [""]

lemma operate_none (hc : d.controller? i = none) (op : Operation) :
    d.operate i op = (d, none, []) := by
  simp only [operate, hc]

lemma operate_some (hc : d.controller? i = some c) (op : Operation) :
    d.operate i op = ({ d with
      handset := (d.handset.operate i c op).1
      controllers := d.controllers.set i (some (d.handset.operate i c op).2.controller) },
      (d.handset.operate i c op).2.answer, happenings i (d.handset.operate i c op).2.effects) := by
  simp only [operate, hc]

lemma controller?_set {cs : List (Option Controller)} {x : Option Controller} (hij : i ≠ j) :
    ((cs.set j x)[i]?).join = (cs[i]?).join := by
  rw [List.getElem?_set_ne hij.symm]

lemma controller?_set_self {cs : List (Option Controller)} (hc : (cs[i]?).join = some c)
    (x : Option Controller) : ((cs.set i x)[i]?).join = x := by
  have hi : i < cs.length := by
    by_contra hi
    simp [List.getElem?_eq_none (Nat.le_of_not_lt hi)] at hc
  simp [hi]

lemma controller?_operate (hc : d.controller? i = some c) (op : Operation) :
    (d.operate i op).1.controller? i = some (d.handset.operate i c op).2.controller := by
  rw [operate_some hc]
  exact controller?_set_self hc _

lemma controller?_operate_ne (hij : i ≠ j) (op : Operation) :
    (d.operate j op).1.controller? i = d.controller? i := by
  cases hc : d.controller? j with
  | none => rw [operate_none hc]
  | some c =>
    rw [operate_some hc]
    exact controller?_set hij

lemma operate_keeps {α : Type} {f : Handset → α} (hf : ∀ h i c op, f (h.operate i c op).1 = f h)
    (d : Direct) (i : Nat) (op : Operation) : f (d.operate i op).1.handset = f d.handset := by
  cases hc : d.controller? i with
  | none => rw [operate_none hc]
  | some c =>
    rw [operate_some hc]
    exact hf d.handset i c op

@[simp] lemma lines_operate (d : Direct) (i : Nat) (op : Operation) :
    (d.operate i op).1.handset.lines = d.handset.lines :=
  operate_keeps Handset.lines_operate d i op

@[simp] lemma bundles_operate (d : Direct) (i : Nat) (op : Operation) :
    (d.operate i op).1.handset.bundles = d.handset.bundles :=
  operate_keeps Handset.bundles_operate d i op

lemma phone_of_lines {h : Handset} {n : PhoneId} {s : SubscriptionId}
    (hl : h.lines[i]? = some (n, s)) :
    ∃ p, h.phones[i]? = some p ∧ p.id = n ∧ p.subscription = s := by
  rw [lines, List.getElem?_map] at hl
  obtain ⟨p, hp, he⟩ := Option.map_eq_some_iff.1 hl
  exact ⟨p, hp, congrArg Prod.fst he, congrArg Prod.snd he⟩

lemma phone_operate {p : Phone} (hp : d.handset.phones[i]? = some p) (j : Nat) (op : Operation) :
    ∃ p', (d.operate j op).1.handset.phones[i]? = some p' ∧ p'.id = p.id ∧
      p'.subscription = p.subscription := by
  apply phone_of_lines
  rw [lines_operate, lines, List.getElem?_map, hp, Option.map_some]

lemma deliver_cons (d : Direct) (i : Nat) (slot : PhoneId) (slots : List PhoneId) :
    d.deliver i (slot :: slots) = (((d.operate i (.hear slot)).1.deliver i slots).1,
      (d.operate i (.hear slot)).2.2 ++ ((d.operate i (.hear slot)).1.deliver i slots).2) := rfl

lemma deliver_keeps (Inv : Direct → Prop)
    (hh : ∀ d slot, Inv d → Inv (d.operate i (.hear slot)).1) (hd : Inv d) (slots : List PhoneId) :
    Inv (d.deliver i slots).1 := by
  induction slots generalizing d with
  | nil => exact hd
  | cons slot slots ih =>
    rw [deliver_cons]
    exact ih (hh d slot hd)

lemma dismiss_sameVault (h : Handset) (i : Nat) (c : Controller) :
    (h.dismiss i c).1.SameVault h := by
  rw [dismiss]
  split
  · rename_i p hp
    have hv := applyAll_sameVault h i (c.withdrawing (h.surroundings p))
    rwa [(Controller.withdrawing_silent _ c).1] at hv
  · exact ⟨rfl, rfl, rfl, rfl⟩

lemma drop_none (hc : d.controller? i = none) : d.drop i = (d, []) := by
  simp only [drop, hc]

lemma drop_some (hc : d.controller? i = some c) : d.drop i =
    ({ d with handset := (d.handset.dismiss i c).1, controllers := d.controllers.set i none },
      happenings i (d.handset.dismiss i c).2) := by
  simp only [drop, hc]

lemma drop_sameVault (d : Direct) (i : Nat) : (d.drop i).1.handset.SameVault d.handset := by
  cases hc : d.controller? i with
  | none =>
    rw [drop_none hc]
    exact ⟨rfl, rfl, rfl, rfl⟩
  | some c =>
    rw [drop_some hc]
    exact dismiss_sameVault d.handset i c

lemma drop_keeps {α : Type} {f : Handset → α} (hf : ∀ h i es, f (applyAll h i es) = f h)
    (d : Direct) (i : Nat) : f (d.drop i).1.handset = f d.handset := by
  cases hc : d.controller? i with
  | none => rw [drop_none hc]
  | some c =>
    rw [drop_some hc, dismiss]
    split
    · exact hf _ _ _
    · rfl

@[simp] lemma lines_drop (d : Direct) (i : Nat) : (d.drop i).1.handset.lines = d.handset.lines :=
  drop_keeps lines_applyAll d i

@[simp] lemma bundles_drop (d : Direct) (i : Nat) :
    (d.drop i).1.handset.bundles = d.handset.bundles :=
  drop_keeps bundles_applyAll d i

lemma controller?_drop (d : Direct) (i : Nat) : (d.drop i).1.controller? i = none := by
  cases hc : d.controller? i with
  | none => rw [drop_none hc, hc]
  | some c =>
    rw [drop_some hc]
    exact controller?_set_self hc _

lemma controller?_drop_ne (hij : i ≠ j) : (d.drop j).1.controller? i = d.controller? i := by
  cases hc : d.controller? j with
  | none => rw [drop_none hc]
  | some c =>
    rw [drop_some hc]
    exact controller?_set hij

lemma controller?_rebuild {group : String}
    (hc : (d.step (.rebuild i group)).1.controller? i = some c) : c = .fresh group := by
  simp only [step, controller?, List.getElem?_set] at hc
  split at hc
  · split at hc
    · exact (Option.some.inj hc).symm
    · cases hc
  · simp_all

def AllStored (hs : List Happening) : Prop :=
  ∀ e ∈ hs, ∀ o ∈ e.effect.offer?, o.2 = .stored

instance (hs : List Happening) : Decidable (AllStored hs) :=
  inferInstanceAs (Decidable (∀ e ∈ hs, ∀ o ∈ e.effect.offer?, o.2 = .stored))

lemma AllStored.append {hs hs' : List Happening} (h : AllStored (hs ++ hs')) :
    AllStored hs ∧ AllStored hs' :=
  ⟨fun e he => h e (List.mem_append_left _ he), fun e he => h e (List.mem_append_right _ he)⟩

lemma AllStored.isStored {t : Controller.Turn} (h : AllStored (happenings i t.effects)) :
    t.IsStored := by
  rintro ⟨b, fate⟩ ho
  have he := Controller.Turn.mem_offers.1 ho
  exact h ⟨some i, .offer b fate⟩ (List.mem_map.2 ⟨_, he, rfl⟩) _ rfl

end CallWaiting.Handset.Direct
