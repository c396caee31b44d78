import ViewModifiers.Artifact.RustSource
import ViewModifiers.Artifact.Tables

/-!
# Forms of artifacts

A table is written out as JSON, from which it can be loaded again, or as source
text for a host program.
-/

namespace ViewModifiers

inductive ArtifactFormat where
  | json
  | rust
deriving DecidableEq

namespace ArtifactFormat

def ofName? (name : String) : Option ArtifactFormat :=
  if name = "json" then some json
  else if name = "rust" ∨ name = "rs" then some rust
  else none

/-- What is said about a name without a form. -/
def unknownMessage (name : String) : String :=
  "unknown emit format '" ++ name ++ "'"

end ArtifactFormat

def DispatchTable.emit (t : DispatchTable) : ArtifactFormat → String
  | .json => t.text
  | .rust => t.rustSource format

end ViewModifiers
