import ViewModifiers.Configuration.Builtin
import ViewModifiers.Yaml.Reader

/-!
# Reading configurations

A configuration is a mapping with known keys; others are passed over.  Only the
version must be given.
-/

namespace ViewModifiers

/-- Why a text yields no configuration. -/
inductive SettingsError where
  /-- The text is no YAML, or not of the shape of a configuration. -/
  | malformed
  | invalid (cause : ConfigurationError)
deriving DecidableEq

def Yaml.strings? (y : Yaml) : Option (List String) := do
  (← y.items?).mapM Yaml.string?

/-- The value of a key, or a fixed one where the key is missing. -/
def Yaml.fieldD? (entries : List (String × Yaml)) (key : String) (f : Yaml → Option α)
    (fallback : α) : Option α := do
  match ← Yaml.field? entries key with
  | some y => f y
  | none => some fallback

def Yaml.dictionary? (f : Yaml → Option α) (y : Yaml) : Option (Dictionary α) := do
  let entries ← (← y.entries?).mapM fun e => (f e.2).map fun v => (e.1, v)
  return .ofList entries

def Enumeration.ofYaml? (y : Yaml) : Option Enumeration := do
  let entries ← y.entries?
  let cases ← (← Yaml.field? entries "cases").bind Yaml.strings?
  return ⟨cases, ← Yaml.fieldD? entries "option_set" Yaml.bool? false⟩

namespace Configuration

def ofYaml? (y : Yaml) : Option Configuration := do
  let entries ← y.entries?
  let version ← (← Yaml.field? entries "version").bind Yaml.string?
  return {
    version := version
    extendsDefault := ← Yaml.fieldD? entries "extends_default" Yaml.bool? true
    excluded := NameSet.ofList (← Yaml.fieldD? entries "exclude" Yaml.strings? [])
    targets := ← Yaml.fieldD? entries "extension_targets" Yaml.strings? []
    aliases := ← Yaml.fieldD? entries "type_aliases" (Yaml.dictionary? Yaml.string?) ∅
    enumerations := ← Yaml.fieldD? entries "enums" (Yaml.dictionary? Enumeration.ofYaml?) ∅ }

def validated (c : Configuration) : Except SettingsError Configuration :=
  match c.error? with
  | some cause => .error (.invalid cause)
  | none => .ok c

/-- The configuration of a text, laid over the built-in one unless it stands for itself. -/
def read (text : String) : Except SettingsError Configuration :=
  match (Yaml.read? text).bind ofYaml? with
  | none => .error .malformed
  | some c => validated (if c.extendsDefault then builtin.overlay c else c)

end Configuration
end ViewModifiers
