import ViewModifiers.Artifact.Diagnostics
import ViewModifiers.CommandLine.Arguments
import ViewModifiers.CommandLine.Folder
import ViewModifiers.Configuration.Reading
import ViewModifiers.Table.Compilation

/-!
# Commands

A command reads its files, does its work and reports on it.  A report for a
program is JSON with sorted members; one for people is plain lines, with the
diagnostics beside it.  A failure is reported in the same form.
-/

namespace ViewModifiers
namespace CommandLine

structure Report where
  exitCode : Nat
  output : String
  /-- What is said beside the output. -/
  remarks : String
deriving DecidableEq

inductive CommandFailure where
  | unreadable (path : String) (cause : FileError)
  | unwritable (path : String) (cause : FileError)
  | configuration (path : String) (cause : SettingsError)
  | table (path : String) (cause : TableError)
deriving DecidableEq

def CommandFailure.message : CommandFailure → String
  | unreadable path cause => "Failed to read " ++ path ++ ": " ++ cause.message
  | unwritable path cause => "Failed to write " ++ path ++ ": " ++ cause.message
  | configuration path .malformed => "Failed to parse " ++ path
  | configuration path (.invalid cause) =>
      "Invalid configuration in " ++ path ++ ": " ++ cause.message
  | table path cause => "Failed to load dispatch table " ++ path ++ ": " ++ cause.message

/-! ## Reports -/

def unlines (lines : List String) : String :=
  String.join (lines.map (· ++ "\n"))

def exitCodeOf (success : Bool) : Nat :=
  if success then 0 else 1

def jsonReport (success : Bool) (j : Json) : Report :=
  ⟨exitCodeOf success, j.sorted.pretty ++ "\n", ""⟩

/-- Diagnostics for people, with their numbers if they are of weight. -/
def remarkLines (ds : List Diagnostic) : List String :=
  let (errors, warnings) := Diagnostic.counts ds
  ds.map Diagnostic.text ++
    (if errors + warnings = 0 then []
      else [toString errors ++ " error(s), " ++ toString warnings ++ " warning(s)"])

def strings (items : List String) : Json :=
  .array (items.map .string)

def generationReport (f : ReportFormat) (output : String) (k : Compilation) : Report :=
  let operations := k.table.operations.size
  let overloads := k.table.overloadCount
  match f with
  | .json =>
      jsonReport k.isUsable (.object
        [("success", .bool k.isUsable), ("output", .string output),
          ("declarations", .int k.declarations), ("operations", .int operations),
          ("cases", .int overloads), ("excluded", strings k.excluded),
          ("diagnostics", .array (k.diagnostics.map Diagnostic.toJson))])
  | .pretty =>
      let line :=
        if k.isUsable then
          "OK " ++ toString operations ++ " operation(s), " ++ toString overloads ++
            " case(s) from " ++ toString k.declarations ++ " declaration(s) -> " ++ output
        else "FAILED no operations generated"
      ⟨exitCodeOf k.isUsable, unlines [line], unlines (remarkLines k.diagnostics)⟩

def operationLines (op : Operation) : List String :=
  (op.name ++ " (" ++ toString op.overloads.length ++ ")") ::
    op.overloads.map fun o => "  [" ++ toString o.index ++ "] " ++ o.selector

def operationsReport (f : ReportFormat) (k : Compilation) : Report :=
  match f with
  | .json =>
      jsonReport k.isUsable (.array (k.table.operations.values.map fun op => .object
        [("name", .string op.name), ("cases", strings (op.overloads.map Overload.selector))]))
  | .pretty =>
      let excluded :=
        if k.excluded.isEmpty then []
        else ["", "excluded: " ++ String.intercalate ", " k.excluded]
      ⟨exitCodeOf k.isUsable,
        unlines (k.table.operations.values.flatMap operationLines ++ excluded), ""⟩

def slotLines (source : String) : Except ModifierError Invocation → List String
  | .ok v =>
      ("OK " ++ v.operation ++ " [" ++ toString v.index ++ "] " ++ v.selector) ::
        v.arguments.map fun a => "    " ++ a.name ++ " = " ++ a.reference.display
  | .error cause => ["ERR " ++ (cause.diagnosticIn source).text]

def slotJson (source : String) : Except ModifierError Invocation → Json
  | .ok v => .object [("ok", v.toJson)]
  | .error cause => .object [("error", (cause.diagnosticIn source).toJson)]

def succeeded : Except ε α → Bool
  | .ok _ => true
  | .error _ => false

def decodingReport (f : ReportFormat) (source : String)
    (slots : List (Except ModifierError Invocation)) : Report :=
  let success := slots.all succeeded
  match f with
  | .json => jsonReport success (.array (slots.map (slotJson source)))
  | .pretty => ⟨exitCodeOf success, unlines (slots.flatMap (slotLines source)), ""⟩

def failureReport (f : ReportFormat) (e : CommandFailure) : Report :=
  match f with
  | .json => ⟨1, (Json.object [("error", .string e.message)]).compact ++ "\n", ""⟩
  | .pretty => ⟨1, "", "error: " ++ e.message ++ "\n"⟩

/-! ## Work -/

section
variable {m : Type → Type} [Monad m] (files : FileAccess m)

def readFile (path : String) : ExceptT CommandFailure m String := do
  match ← files.read path with
  | .ok content => return content
  | .error cause => throw (.unreadable path cause)

def writeFile (path content : String) : ExceptT CommandFailure m Unit := do
  match ← files.write path content with
  | .ok () => return ()
  | .error cause => throw (.unwritable path cause)

def configurationFile : String := "modifiers.yaml"

def readConfiguration (directory : String) : ExceptT CommandFailure m Configuration := do
  let path := joinPath directory configurationFile
  match Configuration.read (← readFile files path) with
  | .ok c => return c
  | .error cause => throw (.configuration path cause)

def loadConfiguration (wanted : Option String) : ExceptT CommandFailure m Configuration := do
  match wanted with
  | some directory => readConfiguration files directory
  | none =>
      if ← files.isPresent (joinPath "config" configurationFile) then
        readConfiguration files "config"
      else return .builtin

def perform (r : Request) : ExceptT CommandFailure m Report := do
  match r.command with
  | .generate schema output wanted format =>
      let c ← loadConfiguration files r.configuration
      let source ← readFile files schema
      let k := Compilation.ofInterface c (if wanted.isEmpty then none else some wanted) source
      if k.isUsable then writeFile files output (k.table.emit format)
      return generationReport r.format output k
  | .operations schema =>
      let c ← loadConfiguration files r.configuration
      let source ← readFile files schema
      return operationsReport r.format (.ofInterface c none source)
  | .decode path source =>
      match DispatchTable.read (← readFile files path) with
      | .error cause => throw (.table path cause)
      | .ok t => return decodingReport r.format source (t.decodeList source)

end

/-! ## Whole runs -/

def usage : String :=
  unlines
    ["Usage: modifier_gen [OPTIONS] <COMMAND>",
      "",
      "Commands:",
      "  generate <SCHEMA> <OUTPUT>  Compile a module interface into a dispatch table artifact",
      "  operations <SCHEMA>         List the operations of a module interface",
      "  decode <TABLE> <TEXT>       Decode modifier text against a generated JSON table",
      "",
      "Options:",
      "      --config <CONFIG>  Directory holding modifiers.yaml",
      "  -o, --format <FORMAT>  json or pretty",
      "  -q, --quiet            Say less",
      "      --include <NAME>   Only this operation (generate, repeatable)",
      "      --emit <EMIT>      json or rust (generate)",
      "  -h, --help             Print help",
      "  -V, --version          Print version"]

def detourReport : Detour → Report
  | .help => ⟨0, usage, ""⟩
  | .version => ⟨0, "modifier_gen 0.1.0\n", ""⟩
  | .mistake cause => ⟨2, "", "error: " ++ cause.message ++ "\n\n" ++ usage⟩

def run {m : Type → Type} [Monad m] (files : FileAccess m) (environment : Option String)
    (arguments : List String) : m Report := do
  match readArguments environment arguments with
  | .error detour => return detourReport detour
  | .ok r =>
      match ← (perform files r).run with
      | .ok report => return report
      | .error e => return failureReport r.format e

end CommandLine
end ViewModifiers
