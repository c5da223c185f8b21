import CallWaiting.Form.Tables
import CallWaiting.Proofs.Settings.Layout
import CallWaiting.Proofs.Toml.Edition

/-!
A text that is taken for settings at once, and the same text in a file that is loaded. The file goes
through a tree, in which keys are paths, and by the rules of a later edition of the format. Where no
key leads to a setting by another name or into an array that cannot be made long enough, and no float is
below the range, what the one makes of the text the other makes of it too.
-/

namespace CallWaiting

def Toml.part? (name : String) (place : Nat) : Toml → Option Toml
  | .table es => es.lookup name
  | .array vs => vs[place]?
  | _ => none

namespace Settings

variable {host : Host} {t : String} {es : List (String × Toml)} {v : Toml}

structure Orderly (host : Host) (t : String) : Prop where
  /-- It is read as well where floats below the range are refused. -/
  inRange : (Toml.read? { Toml.Dialect.first with lowOverflow := false } t.toList).isSome = true
  direct : ∀ es, Toml.read? .first t.toList = some es → ∀ e ∈ es, ¬ IsIndirect e.1
  hasRoom : ∀ es, Toml.read? .first t.toList = some es → ∀ e ∈ es, host.HasRoom e.1

instance (host : Host) (t : String) : Decidable (Orderly host t) :=
  decidable_of_iff
    ((Toml.read? { Toml.Dialect.first with lowOverflow := false } t.toList).isSome = true ∧
      ∀ e ∈ (Toml.read? .first t.toList).getD [], ¬ IsIndirect e.1 ∧ host.HasRoom e.1)
    ⟨fun h => ⟨h.1, fun es hes e he => (h.2 e (by simpa [hes] using he)).1,
      fun es hes e he => (h.2 e (by simpa [hes] using he)).2⟩, fun h => ⟨h.inRange, by
      cases hes : Toml.read? .first t.toList with
      | none => exact nofun
      | some es => exact fun e he => ⟨h.direct es hes e he, h.hasRoom es hes e he⟩⟩⟩

namespace Node

end Node

section Reading

variable {α : Type} [Toml.Form α] {read? : Node → Option α} {default x : α} {o : Option Toml}
  {l : LogSettings} {s : Settings} {a b c : String}

end Reading

variable {fs : FileSystem} {p q : FileSystem.Path} {env : List (String × String)}

end Settings

end CallWaiting
