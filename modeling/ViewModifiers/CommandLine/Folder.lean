import ViewModifiers.Dictionary
import ViewModifiers.Text.Split

/-!
# Files

What a command may do with files, for any way of getting at them, and a folder
in memory as one such way.
-/

namespace ViewModifiers
namespace CommandLine

/-- Why a file cannot be read or written, as operating systems number and word it. -/
inductive FileError where
  | missing
  | denied
  | notFolder
  | isFolder
  /-- The content is no text. -/
  | notText
  | other (reason : String)
deriving DecidableEq

def FileError.message : FileError → String
  | missing => "No such file or directory (os error 2)"
  | denied => "Permission denied (os error 13)"
  | notFolder => "Not a directory (os error 20)"
  | isFolder => "Is a directory (os error 21)"
  | notText => "stream did not contain valid UTF-8"
  | other reason => reason

/-- Reading, writing and looking for files by their paths. -/
structure FileAccess (m : Type → Type) where
  read : String → m (Except FileError String)
  write : String → String → m (Except FileError Unit)
  isPresent : String → m Bool

def joinPath (directory name : String) : String :=
  if directory.isEmpty || directory.toList.getLast? = some '/' then directory ++ name
  else directory ++ "/" ++ name

/-! ## Folders in memory -/

/-- Files by their paths from the folder; a directory is there if a file is in it. -/
structure Folder where
  files : Dictionary String

namespace Folder

/-- The names along a path, and whether it must lead to a directory. -/
def partsOf (path : String) : List String × Bool :=
  let pieces := (Text.splitAt '/' path.toList).map String.ofList
  (pieces.filter fun p => p ≠ "" ∧ p ≠ ".",
    match pieces.getLast? with
    | some last => last = "" || last = "." || last = ".."
    | none => false)

/-- A file or directory, or where the path to it breaks off. -/
inductive Place where
  | folder
  | file (path : String)
  | absent
  | broken (cause : FileError)
deriving DecidableEq

def pathOf (names : List String) : String :=
  String.intercalate "/" names

def hasDirectory (f : Folder) (names : List String) : Bool :=
  names.isEmpty ||
    f.files.keys.any fun k =>
      Text.startsWith ((pathOf names).toList ++ ['/']) k.toList

/-- Follows names from a directory; a step upwards ends at the folder itself. -/
def walk (f : Folder) : List String → List String → Place
  | _, [] => .folder
  | here, name :: rest =>
      if name = ".." then walk f here.dropLast rest
      else
        let there := here ++ [name]
        if f.hasDirectory there then walk f there rest
        else if f.files.contains (pathOf there) then
          if rest.isEmpty then .file (pathOf there) else .broken .notFolder
        else if rest.isEmpty then .absent else .broken .missing

def place (f : Folder) (path : String) : Place :=
  let (names, isDirectory) := partsOf path
  match f.walk [] names, isDirectory with
  | .file _, true => .broken .notFolder
  | p, _ => p

/-- Where a path that is absent would be made, from the folder on. -/
def newPath (path : String) : String :=
  pathOf ((partsOf path).1.foldl (fun names n => if n = ".." then names.dropLast else names ++ [n])
    [])

def read (f : Folder) (path : String) : Except FileError String :=
  match f.place path with
  | .file p => (f.files.find? p).elim (.error .missing) .ok
  | .folder => .error .isFolder
  | .absent => .error .missing
  | .broken cause => .error cause

def write (f : Folder) (path content : String) : Except FileError Folder :=
  match f.place path with
  | .file p => .ok ⟨f.files.insert p content⟩
  | .folder => .error .isFolder
  | .absent =>
      if (partsOf path).2 then .error .isFolder
      else .ok ⟨f.files.insert (newPath path) content⟩
  | .broken cause => .error cause

def isPresent (f : Folder) (path : String) : Bool :=
  match f.place path with
  | .file _ | .folder => true
  | .absent | .broken _ => false

def access : FileAccess (StateM Folder) where
  read path := do return (← get).read path
  write path content := do
    match (← get).write path content with
    | .ok f =>
        set f
        return .ok ()
    | .error cause => return .error cause
  isPresent path := do return (← get).isPresent path

end Folder
end CommandLine
end ViewModifiers
