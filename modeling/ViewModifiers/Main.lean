import ViewModifiers.CommandLine.Commands

/-!
# The program

The command line over the files of the operating system.
-/

namespace ViewModifiers
namespace CommandLine

def FileError.ofSystem : IO.Error → FileError
  | .noFileOrDirectory _ _ _ => .missing
  | .permissionDenied _ _ _ => .denied
  | .inappropriateType _ 21 _ => .isFolder
  | .inappropriateType _ _ _ => .notFolder
  | .userError _ => .notText
  | e => .other (toString e)

def attempt (action : IO α) : IO (Except FileError α) := do
  try
    return .ok (← action)
  catch e =>
    return .error (.ofSystem e)

def systemFiles : FileAccess IO where
  read path := attempt (IO.FS.readFile path)
  write path content := attempt (IO.FS.writeFile path content)
  isPresent path := do
    match ← attempt (IO.FS.Handle.mk path .read) with
    | .error .missing | .error .notFolder => return false
    | _ => return true

end CommandLine
end ViewModifiers

open ViewModifiers in
def main (arguments : List String) : IO UInt32 := do
  let environment ← IO.getEnv "MODIFIER_CONFIG_DIR"
  let report ← CommandLine.run CommandLine.systemFiles environment arguments
  (← IO.getStdout).putStr report.output
  (← IO.getStderr).putStr report.remarks
  return report.exitCode.toUInt32
