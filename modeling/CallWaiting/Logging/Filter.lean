import CallWaiting.Logging.Directive
import CallWaiting.Settings.Basic

/-!
The filter of a logger: directives with at most one for each target, of which the most specific
that covers an event decides.
-/

namespace CallWaiting.Logging

abbrev Filter := List Directive

namespace Filter

def add (f : Filter) (d : Directive) : Filter :=
  f.filter (·.target ≠ d.target) ++ [d]

def ofList (ds : List Directive) : Filter :=
  ds.foldl add []

def closer (d e : Directive) : Directive :=
  if d.specificity < e.specificity then e else d

def decisive? (f : Filter) (target : String) : Option Directive :=
  match f.filter (·.covers target) with
  | [] => none
  | d :: ds => some (ds.foldl closer d)

def admits (f : Filter) (target : String) (l : Level) : Bool :=
  match f.decisive? target with
  | some d => d.threshold.admits l
  | none => false

def layered (directives : String) (base : Level) : Filter :=
  (ofList (Directive.listOfText directives)).add (.forAll base)

end Filter

structure Event where
  target : String
  level : Level
  message : String

structure Logger where
  filter : Filter
  json : Bool
  fileInfo : Bool

def Logger.emitted (l : Logger) (es : List Event) : List Event :=
  es.filter fun e => l.filter.admits e.target e.level

def install (present : Option Logger) (s : LogSettings) (directives : String) : Except Error Logger := do
  let base ← s.level?
  match present with
  | none => .ok ⟨.layered directives base, s.json, s.fileInfo⟩
  | some _ => .error (.settings .loggerPresent)

end CallWaiting.Logging
