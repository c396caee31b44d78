import ViewModifiers.Dictionary

/-!
# Configurations

A configuration says which operations are left out, which extensions count, which
type names stand for others, and which enumerations there are.
-/

namespace ViewModifiers

/-- An enumeration of the catalog; an option set takes several cases at once. -/
structure Enumeration where
  cases : List String
  isOptionSet : Bool
deriving DecidableEq

abbrev NameSet : Type :=
  Dictionary Unit

def NameSet.ofList (names : List String) : NameSet :=
  Dictionary.ofList (names.map fun name => (name, ()))

structure Configuration where
  version : String
  /-- The settings are laid over the built-in ones. -/
  extendsDefault : Bool
  excluded : NameSet
  targets : List String
  aliases : Dictionary String
  enumerations : Dictionary Enumeration

inductive ConfigurationError where
  | noTargets
  | noCases (enumeration : String)
  | duplicateCase (enumeration case : String)
  | aliasCycle (name : String)
deriving DecidableEq

def ConfigurationError.message : ConfigurationError → String
  | noTargets => "extension_targets must not be empty"
  | noCases name => "enum '" ++ name ++ "' has no cases"
  | duplicateCase name case => "enum '" ++ name ++ "': duplicate case '" ++ case ++ "'"
  | aliasCycle name => "type alias cycle through '" ++ name ++ "'"

namespace Configuration

/-- Puts a target behind others unless it is among them. -/
def addTarget (targets : List String) (target : String) : List String :=
  if targets.contains target then targets else targets ++ [target]

def overlay (c d : Configuration) : Configuration where
  version := d.version
  extendsDefault := c.extendsDefault
  excluded := c.excluded.overlay d.excluded
  targets := d.targets.foldl addTarget c.targets
  aliases := c.aliases.overlay d.aliases
  enumerations := c.enumerations.overlay d.enumerations

/-! ## Aliases -/

def followAliases (aliases : Dictionary String) : Nat → String → String
  | 0, name => name
  | steps + 1, name =>
      match aliases.find? name with
      | some next => followAliases aliases steps next
      | none => name

/-- The name that aliases lead to; without a cycle there are no more steps than aliases. -/
def resolveAlias (c : Configuration) (name : String) : String :=
  followAliases c.aliases c.aliases.size name

/-- Whether following aliases from a name comes to an end, given the names met before. -/
def aliasesEnd (aliases : Dictionary String) : Nat → List String → String → Bool
  | 0, _, name => !aliases.contains name
  | steps + 1, seen, name =>
      match aliases.find? name with
      | none => true
      | some next =>
          if seen.contains name then false else aliasesEnd aliases steps (name :: seen) next

/-! ## Validation -/

def repeatedCase? : List String → List String → Option String
  | _, [] => none
  | seen, case :: cases =>
      if seen.contains case then some case else repeatedCase? (case :: seen) cases

def enumerationError? (name : String) (e : Enumeration) : Option ConfigurationError :=
  if e.cases.isEmpty then some (.noCases name)
  else (repeatedCase? [] e.cases).map (.duplicateCase name)

def error? (c : Configuration) : Option ConfigurationError :=
  if c.targets.isEmpty then some .noTargets
  else
    match c.enumerations.entries.findSome? fun e => enumerationError? e.1 e.2 with
    | some e => some e
    | none =>
        (c.aliases.keys.find? fun name =>
          !aliasesEnd c.aliases (c.aliases.size + 1) [] name).map .aliasCycle

end Configuration
end ViewModifiers
