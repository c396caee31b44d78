import ViewModifiers.Diagnostic
import ViewModifiers.Live.Resolution
import ViewModifiers.Platform.Host

/-!
# Chains of modifiers

A chain is decoded once and run as often as its element changes.  Each modifier
is applied to what the modifiers before it made; one that failed to decode, is
not available on the host or fails to resolve leaves that as it is.
-/

namespace ViewModifiers

structure Chain where
  source : String
  entries : List (Except ModifierError Invocation)

namespace Chain

def ofSource (t : DispatchTable) (source : String) : Chain :=
  ⟨source, t.decodeList source⟩

def decodeErrors (c : Chain) : List ModifierError :=
  c.entries.filterMap fun
    | .ok _ => none
    | .error cause => some cause

def diagnostics (c : Chain) : List Diagnostic :=
  c.decodeErrors.map (ModifierError.diagnosticIn c.source)

end Chain

/-! ## Running -/

inductive StepOutcome where
  | applied
  /-- The overload is not available on the host. -/
  | unavailable
  | failed (cause : ModifierError)
deriving DecidableEq

/-- What became of the modifier of a name; the name is not known if it could not be read. -/
structure Step where
  operation : Option String
  outcome : StepOutcome
deriving DecidableEq

structure ChainOutcome (τ : Type) where
  output : τ
  steps : List Step

namespace ChainOutcome

def errors {τ : Type} (o : ChainOutcome τ) : List ModifierError :=
  o.steps.filterMap fun s =>
    match s.outcome with
    | .failed cause => some cause
    | _ => none

def appliedCount {τ : Type} (o : ChainOutcome τ) : Nat :=
  o.steps.countP fun s => s.outcome = .applied

end ChainOutcome

section
variable {τ : Type} (act : τ → ResolvedModifier → τ) (host : Host) (e : Element)

def Invocation.apply (target : τ) (cells : CellStore) (v : Invocation) :
    τ × StepOutcome × CellStore :=
  if host.supports v.availability then
    match v.resolve e cells with
    | (.ok resolved, cells) => (act target resolved, .applied, cells)
    | (.error cause, cells) => (target, .failed cause, cells)
  else (target, .unavailable, cells)

def Chain.runEntries : List (Except ModifierError Invocation) → τ → CellStore →
    ChainOutcome τ × CellStore
  | [], target, cells => (⟨target, []⟩, cells)
  | .error cause :: rest, target, cells =>
      let (out, cells) := runEntries rest target cells
      ({ out with steps := ⟨cause.operation?, .failed cause⟩ :: out.steps }, cells)
  | .ok v :: rest, target, cells =>
      let (target, outcome, cells) := v.apply act host e target cells
      let (out, cells) := runEntries rest target cells
      ({ out with steps := ⟨some v.operation, outcome⟩ :: out.steps }, cells)

def Chain.run (c : Chain) (target : τ) (cells : CellStore) : ChainOutcome τ × CellStore :=
  Chain.runEntries act host e c.entries target cells

end

/-! ## Recording -/

abbrev Applied : Type :=
  List ResolvedModifier

/-- Puts a modifier behind those that were applied before. -/
def Applied.record (applied : Applied) (m : ResolvedModifier) : Applied :=
  applied ++ [m]

end ViewModifiers
