import Mathlib.Data.List.DropRight
import Mathlib.Tactic.ByContra
import Mathlib.Tactic.Lemma
import CallWaiting.Toml.Reader

namespace CallWaiting.Toml

def Extends {α : Type} (o o' : Option α) : Prop :=
  ∀ x, o = some x → o' = some x

namespace Extends

variable {α β : Type} {o o' : Option α} {p q : Prop} [Decidable p] [Decidable q]

lemma refl (o : Option α) : Extends o o :=
  fun _ h => h

lemma bind {f g : α → Option β} (h : Extends o o') (hf : ∀ x, Extends (f x) (g x)) :
    Extends (o.bind f) (o'.bind g) := by
  intro y hy
  obtain ⟨x, hx, hy⟩ := Option.bind_eq_some_iff.1 hy
  exact Option.bind_eq_some_iff.2 ⟨x, h x hx, hf x y hy⟩

lemma map (f : α → β) (h : Extends o o') : Extends (o.map f) (o'.map f) := by
  intro y hy
  obtain ⟨x, hx, hy⟩ := Option.map_eq_some_iff.1 hy
  exact Option.map_eq_some_iff.2 ⟨x, h x hx, hy⟩

end Extends

structure Dialect.Within (d e : Dialect) : Prop where
  shortEscapes : d.shortEscapes = true → e.shortEscapes = true
  openTables : d.openTables = true → e.openTables = true
  shortTimes : d.shortTimes = true → e.shortTimes = true
  lowOverflow : d.lowOverflow = true → e.lowOverflow = true

variable {d e : Dialect} {cs : List Char}

namespace Quoted

end Quoted

namespace Moment

end Moment

namespace Number

end Number

namespace Moment

end Moment

def isOpening (c : Char) : Bool :=
  isBare c || c == '"' || c == '\''

section Brackets

variable {α : Type} {item item' : List Char → Option (α × List Char)} {b : Brackets}

lemma dropLines_eq {c : Char} {rest : List Char} (h : dropBlanks cs = c :: rest) (hn : c ≠ '\n')
    (hr : c ≠ '\r') (hc : c ≠ '#') : dropLines false cs = c :: rest := by
  induction cs with
  | nil => cases h
  | cons x cs ih =>
    by_cases hx : isBlank x = true
    · have hxn : x ≠ '\n' := by
        rintro rfl
        cases hx
      have hxr : x ≠ '\r' := by
        rintro rfl
        cases hx
      rw [dropBlanks, List.dropWhile_cons_of_pos hx] at h
      rw [dropLines.eq_4 _ _ _ hxn (fun _ he => absurd he hxr)]
      simpa [hx] using ih h
    · rw [dropBlanks, List.dropWhile_cons_of_neg hx] at h
      obtain ⟨rfl, rfl⟩ := List.cons.inj h
      rw [dropLines.eq_4 _ _ _ hn (fun _ he => absurd he hr)]
      simp [hx, hc]

def StartsOpen (item : List Char → Option (α × List Char)) : Prop :=
  ∀ cs x, item cs = some x → ∃ c rest, dropBlanks cs = c :: rest ∧ isOpening c = true

lemma isOpening_ne {c c' : Char} (h : isOpening c = true) (hc : isOpening c' = false) : c ≠ c' := by
  rintro rfl
  rw [h] at hc
  cases hc

lemma StartsOpen.dropLines {x : α × List Char} (ho : StartsOpen item)
    (h : item (dropBlanks cs) = some x) : ∃ c rest, dropBlanks cs = c :: rest ∧ isOpening c = true ∧
      Toml.dropLines false cs = c :: rest := by
  obtain ⟨c, rest, hd, hc⟩ := ho _ _ h
  rw [dropBlanks, dropBlanks, List.dropWhile_idempotent] at hd
  exact ⟨c, rest, hd, hc, dropLines_eq hd (isOpening_ne hc (by decide)) (isOpening_ne hc (by decide))
    (isOpening_ne hc (by decide))⟩

end Brackets

section Values

variable {value? value?' : List Char → Option (Toml × List Char)}

end Values

end CallWaiting.Toml
