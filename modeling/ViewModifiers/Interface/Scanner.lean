import ViewModifiers.Diagnostic
import ViewModifiers.Interface.Line
import ViewModifiers.Platform.Condition

/-!
# Scanning an interface

An interface is read line by line.  The scanner keeps the scopes that braces
open, the conditional blocks around the line, the attribute lines that wait for
a declaration, and a declaration whose parameters have not closed yet.  Each
declaration that is started yields one outcome, with the line it starts on.
-/

namespace ViewModifiers
namespace Interface

open Text (Quoting)

inductive Scope where
  | extension (wanted : Bool)
  | other
deriving DecidableEq

/-- A conditional block: the conditions of its branches so far, and the one that holds now. -/
structure Block where
  branches : List (Option PlatformSet)
  current : Option PlatformSet

/-- The platforms that no branch before has taken; unknown if one was not about platforms. -/
def Block.otherwise (b : Block) : Option PlatformSet :=
  (b.branches.mapM id).map fun sets => (sets.foldl PlatformSet.union .empty).compl

/-- A count of open parentheses that stops when they have closed. -/
structure Parens where
  depth : Int
  opened : Bool
deriving DecidableEq

namespace Parens

def start : Parens := ⟨0, false⟩

def closed (p : Parens) : Bool :=
  p.opened && p.depth ≤ 0

def step (p : Parens) (c : Char) : Parens :=
  if c = '(' then ⟨p.depth + 1, true⟩
  else if c = ')' then { p with depth := p.depth - 1 }
  else p

/-- The count behind a text; it stops where the parentheses have closed. -/
def scan (p : Parens) : Quoting → List Char → Parens
  | _, [] => p
  | q, c :: rest =>
      if q = .outside then
        let next := p.step c
        if next.closed then next else next.scan (q.step c) rest
      else p.scan (q.step c) rest

end Parens

/-- A declaration whose parameters have not closed yet. -/
structure Pending where
  text : List Char
  line : Nat
  parens : Parens

inductive Outcome where
  | declared (signature : Signature)
  | skipped (line : Nat) (cause : DeclarationError)

def Outcome.line : Outcome → Nat
  | declared s => s.line
  | skipped line _ => line

/-- The state between two lines; scopes and blocks are listed from the innermost one on. -/
structure Scanner where
  scopes : List Scope
  blocks : List Block
  decorations : List (List Char)
  pending : Option Pending

namespace Scanner

def start : Scanner :=
  ⟨[], [], [], none⟩

/-- Declarations count at top level and directly in a wanted extension. -/
def extracting (s : Scanner) : Bool :=
  match s.scopes with
  | [] => true
  | .extension wanted :: _ => wanted
  | .other :: _ => false

def restriction (s : Scanner) : Option PlatformSet :=
  match s.blocks.reverse.filterMap Block.current with
  | [] => none
  | set :: sets => some (sets.foldl PlatformSet.inter set)

def complete (s : Scanner) (p : Pending) : Outcome :=
  match Signature.parse (String.ofList p.text) p.line with
  | .error cause => .skipped p.line cause
  | .ok signature =>
      match s.restriction with
      | some allowed =>
          .declared { signature with availability := signature.availability.restrict allowed }
      | none => .declared signature

/-- Opens and closes scopes; `first` is the scope that a first brace at top level opens. -/
def braces (first : Option Scope) : Quoting → List Scope → List Char → List Scope
  | _, scopes, [] => scopes
  | q, scopes, c :: rest =>
      if q = .outside ∧ c = '\x7b' then
        let scope := if scopes.isEmpty then first.getD .other else .other
        braces none (q.step c) (scope :: scopes) rest
      else if q = .outside ∧ c = '\x7d' then
        braces first (q.step c) (scopes.drop 1) rest
      else braces first (q.step c) scopes rest

def trackBraces (s : Scanner) (first : Option Scope) (line : List Char) : Scanner :=
  { s with scopes := braces first .outside s.scopes line }

def extensionScope (targets : List String) (line : List Char) : Scope :=
  .extension ((extensionTarget? line).any fun t => targets.contains t)

def splitDirective (line : List Char) : String × String :=
  (String.ofList (line.takeWhile fun c => !Text.isBlank c),
    String.ofList (Text.trimChars (line.dropWhile fun c => !Text.isBlank c)))

def directive (s : Scanner) (line : List Char) : Scanner :=
  let (keyword, condition) := splitDirective line
  if keyword = "#if" then
    let set := PlatformCondition.platforms condition
    { s with blocks := ⟨[set], set⟩ :: s.blocks }
  else
    match s.blocks with
    | [] => s
    | block :: blocks =>
        if keyword = "#elseif" then
          let set := PlatformCondition.platforms condition
          { s with blocks := ⟨block.branches ++ [set], set⟩ :: blocks }
        else if keyword = "#else" then
          { s with blocks := { block with current := block.otherwise } :: blocks }
        else if keyword = "#endif" then { s with blocks := blocks }
        else s

def settle (s : Scanner) (p : Pending) : Scanner × List Outcome :=
  if p.parens.closed then ({ s with pending := none }, [s.complete p])
  else ({ s with pending := some p }, [])

/-- Adds a line to a declaration that is not complete. -/
def continuePending (s : Scanner) (p : Pending) (line : List Char) : Scanner × List Outcome :=
  let (next, outcomes) := s.settle
    { p with text := p.text ++ '\n' :: line, parens := p.parens.scan .outside line }
  (next.trackBraces none line, outcomes)

def startDeclaration (s : Scanner) (number : Nat) (line fromFunc : List Char) :
    Scanner × List Outcome :=
  let text := s.decorations.foldr (fun a rest => a ++ '\n' :: rest) line
  let cleared := { s with decorations := [] }
  let (next, outcomes) :=
    if s.extracting then
      cleared.settle ⟨text, number, Parens.start.scan .outside fromFunc⟩
    else (cleared, [])
  (next.trackBraces none line, outcomes)

def feed (targets : List String) (s : Scanner) (number : Nat) (source : String) :
    Scanner × List Outcome :=
  let line := significantText source
  match s.pending with
  | some p => s.continuePending p line
  | none =>
      if line = [] then (s, [])
      else if line.head? = some '#' then (s.directive line, [])
      else if isDecorationLine line then
        ({ s with decorations := s.decorations ++ [line] }, [])
      else
        match fromKeyword? "func" line with
        | some fromFunc => s.startDeclaration number line fromFunc
        | none =>
            let first :=
              if (fromKeyword? "extension" line).isSome then some (extensionScope targets line)
              else none
            ({ s with decorations := [] }.trackBraces first line, [])

def finish (s : Scanner) : List Outcome :=
  match s.pending with
  | some p => [.skipped p.line .unterminated]
  | none => []

def run (targets : List String) (s : Scanner) (number : Nat) : List String → List Outcome
  | [] => s.finish
  | line :: lines =>
      let (next, outcomes) := s.feed targets number line
      outcomes ++ next.run targets (number + 1) lines

end Scanner

/-- The types whose extensions count if nothing else is said. -/
def defaultTargets : List String :=
  ["View", "SwiftUI.View"]

def outcomes (targets : List String) (text : String) : List Outcome :=
  Scanner.start.run targets 1 (Text.lines text)

/-- The signatures of an interface, and what could not be read. -/
def extract (targets : List String) (text : String) : List Signature × List Diagnostic :=
  let found := outcomes targets text
  (found.filterMap fun
      | .declared s => some s
      | .skipped _ _ => none,
    found.filterMap fun
      | .declared _ => none
      | .skipped line cause => some (.skippedDeclaration line cause))

end Interface
end ViewModifiers
