import ViewModifiers.Platform.Availability

/-!
# Hosts

The platform that an interface runs on, with its version, written as in
`iOS 17.0`.
-/

namespace ViewModifiers

/-- Why a text names no host. -/
inductive HostError where
  /-- There is no space between a platform and a version. -/
  | malformed (text : String)
  | unknownPlatform (name : String)
  | invalidVersion (text : String)
deriving DecidableEq

def HostError.message : HostError → String
  | malformed text => "expected '<platform> <version>', got '" ++ text ++ "'"
  | unknownPlatform name => "unknown platform '" ++ name ++ "'"
  | invalidVersion text => "invalid version '" ++ text ++ "'"

structure Host where
  platform : Platform
  version : Version
deriving DecidableEq

namespace Host

def supports (h : Host) (a : Availability) : Bool :=
  a.holds h.platform h.version

def text (h : Host) : String :=
  h.platform.name ++ " " ++ h.version.text

def parse (text : String) : Except HostError Host :=
  let trimmed := Text.trimChars text.toList
  match trimmed.dropWhile (· ≠ ' ') with
  | [] => .error (.malformed text)
  | _ :: rest => do
      let name := String.ofList (trimmed.takeWhile (· ≠ ' '))
      let number := String.ofList (Text.trimChars rest)
      let platform ← (Platform.ofName? name).elim (.error (.unknownPlatform name)) .ok
      let version ← (Version.parse? number).elim (.error (.invalidVersion number)) .ok
      return ⟨platform, version⟩

end Host
end ViewModifiers
