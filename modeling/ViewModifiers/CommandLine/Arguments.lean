import ViewModifiers.Artifact.Format

/-!
# Command line arguments

There are three commands.  Options that belong to all of them may stand in front
of the command or behind it, and one behind it counts more; each may be given
once on either side.  A value that is an option of its own never counts as the
value of another one, and everything behind two dashes is a plain argument.
-/

namespace ViewModifiers
namespace CommandLine

/-! ## Requests -/

inductive Command where
  /-- Compile an interface into an artifact, for some operations only if any are named. -/
  | generate (schema output : String) (wanted : List String) (format : ArtifactFormat)
  /-- List the operations of an interface. -/
  | operations (schema : String)
  /-- Decode modifiers with a stored table. -/
  | decode (table text : String)
deriving DecidableEq

inductive ReportFormat where
  | json
  | pretty
deriving DecidableEq

structure Request where
  command : Command
  /-- The directory of the configuration, if one is given. -/
  configuration : Option String
  format : ReportFormat
  isQuiet : Bool
deriving DecidableEq

/-- Why arguments make no request. -/
inductive UsageError where
  | noCommand
  | unknownCommand (name : String)
  | unknownOption (name : String)
  | repeatedOption (name : String)
  | missingValue (name : String)
  | unwantedValue (name : String)
  | invalidValue (name value : String)
  | missingArgument (name : String)
  | surplusArgument (text : String)
deriving DecidableEq

def UsageError.message : UsageError → String
  | noCommand => "a command is required"
  | unknownCommand name => "unknown command '" ++ name ++ "'"
  | unknownOption name => "unknown option '" ++ name ++ "'"
  | repeatedOption name => "option '" ++ name ++ "' is given twice"
  | missingValue name => "option '" ++ name ++ "' needs a value"
  | unwantedValue name => "option '" ++ name ++ "' takes no value"
  | invalidValue name value => "invalid value '" ++ value ++ "' for '" ++ name ++ "'"
  | missingArgument name => "argument '" ++ name ++ "' is missing"
  | surplusArgument text => "unexpected argument '" ++ text ++ "'"

inductive Detour where
  | help
  | version
  | mistake (cause : UsageError)
deriving DecidableEq

/-! ## Options -/

structure Options where
  configuration : Option String := none
  format : Option ReportFormat := none
  isQuiet : Bool := false
  wanted : List String := []
  artifact : Option ArtifactFormat := none

inductive Setting where
  | configuration
  | format
  | wanted
  | artifact
deriving DecidableEq

namespace Setting

def name : Setting → String
  | configuration => "--config"
  | format => "--format"
  | wanted => "--include"
  | artifact => "--emit"

end Setting

/-- Where options are read: in front of the command or behind it. -/
inductive Side where
  | front
  | behind (command : String)
deriving DecidableEq

def Side.setting? (side : Side) (name : String) : Option Setting :=
  if name = "config" then some .configuration
  else if name = "format" then some .format
  else if side = .behind "generate" then
    if name = "include" then some .wanted
    else if name = "emit" then some .artifact
    else none
  else none

def reportFormat? (text : String) : Option ReportFormat :=
  if text = "json" then some .json
  else if text = "pretty" then some .pretty
  else none

def artifactFormat? (text : String) : Option ArtifactFormat :=
  if text = "json" then some .json
  else if text = "rust" then some .rust
  else none

namespace Options

def hasSetting (o : Options) : Setting → Bool
  | .configuration => o.configuration.isSome
  | .format => o.format.isSome
  | .wanted => false
  | .artifact => o.artifact.isSome

def give (o : Options) (s : Setting) (value : String) : Except Detour Options :=
  if o.hasSetting s then .error (.mistake (.repeatedOption s.name))
  else
    let invalid : Except Detour Options := .error (.mistake (.invalidValue s.name value))
    match s with
    | .configuration =>
        if value.isEmpty then invalid else .ok { o with configuration := some value }
    | .format =>
        match reportFormat? value with
        | some f => .ok { o with format := some f }
        | none => invalid
    | .wanted => .ok { o with wanted := o.wanted ++ [value] }
    | .artifact =>
        match artifactFormat? value with
        | some f => .ok { o with artifact := some f }
        | none => invalid

def silence (o : Options) : Except Detour Options :=
  if o.isQuiet then .error (.mistake (.repeatedOption "--quiet"))
  else .ok { o with isQuiet := true }

end Options

/-! ## Reading options -/

/-- Options read so far, and a setting that waits for its value. -/
structure Reading where
  options : Options
  awaited : Option Setting

def readLetters (side : Side) (o : Options) : List Char → Except Detour Reading
  | [] => .ok ⟨o, none⟩
  | 'q' :: rest => do readLetters side (← o.silence) rest
  | ['o'] => .ok ⟨o, some .format⟩
  | 'o' :: '=' :: value => do return ⟨← o.give .format (String.ofList value), none⟩
  | 'o' :: value => do return ⟨← o.give .format (String.ofList value), none⟩
  | 'h' :: _ => .error .help
  | 'V' :: _ =>
      if side = .front then .error .version else .error (.mistake (.unknownOption "-V"))
  | c :: _ => .error (.mistake (.unknownOption (String.ofList ['-', c])))

/-- The name of an argument with two dashes, with the value behind an equals sign. -/
def readLong (side : Side) (o : Options) (name : String) (value : Option String) :
    Except Detour Reading :=
  let plain (r : Except Detour Reading) : Except Detour Reading :=
    if value.isSome then .error (.mistake (.unwantedValue ("--" ++ name))) else r
  match side.setting? name, value with
  | some s, some v => do return ⟨← o.give s v, none⟩
  | some s, none => .ok ⟨o, some s⟩
  | none, _ =>
      if name = "quiet" then plain (do return ⟨← o.silence, none⟩)
      else if name = "help" then plain (.error .help)
      else if name = "version" ∧ side = .front then plain (.error .version)
      else .error (.mistake (.unknownOption ("--" ++ name)))

def isOption (argument : String) : Bool :=
  match argument.toList with
  | '-' :: _ :: _ => true
  | _ => false

def readOption (side : Side) (o : Options) (argument : String) : Except Detour Reading :=
  match argument.toList with
  | '-' :: '-' :: rest =>
      let name := String.ofList (rest.takeWhile (· ≠ '='))
      match rest.dropWhile (· ≠ '=') with
      | [] => readLong side o name none
      | _ :: value => readLong side o name (some (String.ofList value))
  | '-' :: letters => readLetters side o letters
  | _ => .error (.mistake (.surplusArgument argument))

def readFront : Reading → List String → Except Detour (Options × String × List String)
  | ⟨_, some s⟩, [] => .error (.mistake (.missingValue s.name))
  | ⟨_, none⟩, [] => .error (.mistake .noCommand)
  | ⟨o, some s⟩, argument :: rest =>
      if isOption argument then .error (.mistake (.missingValue s.name))
      else do readFront ⟨← o.give s argument, none⟩ rest
  | ⟨o, none⟩, argument :: rest =>
      if argument = "--" then .error (.mistake .noCommand)
      else if isOption argument then do readFront (← readOption .front o argument) rest
      else .ok (o, argument, rest)

/-- The options and plain arguments behind a command that takes `limit` arguments. -/
def readBehind (command : String) (limit : Nat) :
    Reading → List String → List String → Except Detour (Options × List String)
  | ⟨_, some s⟩, _, [] => .error (.mistake (.missingValue s.name))
  | ⟨o, none⟩, plain, [] => .ok (o, plain)
  | ⟨o, some s⟩, plain, argument :: rest =>
      if isOption argument then .error (.mistake (.missingValue s.name))
      else do readBehind command limit ⟨← o.give s argument, none⟩ plain rest
  | ⟨o, none⟩, plain, argument :: rest =>
      if argument = "--" then
        match (plain ++ rest)[limit]? with
        | some surplus => .error (.mistake (.surplusArgument surplus))
        | none => .ok (o, plain ++ rest)
      else if isOption argument then do
        readBehind command limit (← readOption (.behind command) o argument) plain rest
      else if plain.length < limit then
        readBehind command limit ⟨o, none⟩ (plain ++ [argument]) rest
      else .error (.mistake (.surplusArgument argument))

/-! ## Whole command lines -/

/-- A plain argument that names a file; it must not be empty. -/
def path (name : String) (argument : Option String) : Except Detour String :=
  match argument with
  | none => .error (.mistake (.missingArgument name))
  | some text =>
      if text.isEmpty then .error (.mistake (.invalidValue name text)) else .ok text

def argumentLimit? (command : String) : Option Nat :=
  if command = "generate" ∨ command = "decode" then some 2
  else if command = "operations" then some 1
  else none

def commandOf (name : String) (o : Options) (plain : List String) : Except Detour Command :=
  if name = "generate" then do
    return .generate (← path "schema" plain[0]?) (← path "output" plain[1]?) o.wanted
      (o.artifact.getD .json)
  else if name = "operations" then do
    return .operations (← path "schema" plain[0]?)
  else do
    let table ← path "table" plain[0]?
    match plain[1]? with
    | some text => return .decode table text
    | none => .error (.mistake (.missingArgument "text"))

/-- The request of a command line; the environment may name a configuration as well. -/
def readArguments (environment : Option String) (arguments : List String) :
    Except Detour Request := do
  let (front, name, rest) ← readFront ⟨{}, none⟩ arguments
  if name = "help" then .error .help
  match argumentLimit? name with
  | none => .error (.mistake (.unknownCommand name))
  | some limit =>
      let (behind, plain) ← readBehind name limit ⟨{}, none⟩ [] rest
      let command ← commandOf name behind plain
      if environment = some "" ∧
          (front.configuration.isNone ∨ behind.configuration.isNone) then
        .error (.mistake (.invalidValue Setting.configuration.name ""))
      return {
        command := command
        configuration := behind.configuration <|> front.configuration <|> environment
        format := (behind.format <|> front.format).getD .pretty
        isQuiet := behind.isQuiet || front.isQuiet }

end CommandLine
end ViewModifiers
