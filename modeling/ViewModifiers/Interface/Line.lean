import ViewModifiers.Signature.TypeGrammar
import ViewModifiers.Text.Letter

/-!
# Lines of an interface

What a single line says: where its comment starts, which keyword it holds, and
whether it is an attribute.  Comments and keywords are looked for outside
quotes, where every double quote opens or closes one.
-/

namespace ViewModifiers
namespace Interface

open Text

def beforeComment (quoted : Bool) : List Char → List Char
  | [] => []
  | c :: rest =>
      if c = '"' then c :: beforeComment (!quoted) rest
      else if !quoted ∧ c = '/' ∧ rest.head? = some '/' then []
      else c :: beforeComment quoted rest

/-- A line without its comment and the blanks around. -/
def significantText (line : String) : List Char :=
  trimChars (beforeComment false line.toList)

def isWordPart (c : Char) : Bool :=
  c.isAlphanum || c == '_' || c == '@' || c == '.'

/-- The word stands here, and no word part follows. -/
def startsWithWord (word cs : List Char) : Bool :=
  match dropPrefix? word cs with
  | some rest => !(rest.head?.any isWordPart)
  | none => false

def fromWord (word : List Char) (before : Option Char) (quoted : Bool) :
    List Char → Option (List Char)
  | [] => none
  | c :: rest =>
      if c = '"' then fromWord word (some c) (!quoted) rest
      else if !quoted ∧ !(before.any isWordPart) ∧ startsWithWord word (c :: rest) then
        some (c :: rest)
      else fromWord word (some c) quoted rest

def fromKeyword? (keyword : String) (line : List Char) : Option (List Char) :=
  fromWord keyword.toList none false line

def isDecorationLine (line : List Char) : Bool :=
  line.head? = some '@' &&
    match (do let _ ← TypeExpr.Grammar.decorations; Grammar.Rule.layout : Grammar.Rule Unit)
        ⟨line, 0⟩ with
    | .ok _ next => next.rest.isEmpty
    | .fail _ _ => false

def extensionTarget? (line : List Char) : Option String :=
  match fromKeyword? "extension" line with
  | none => none
  | some cs =>
      let target := (dropBlanks (cs.drop "extension".length)).takeWhile fun c =>
        isAlphanumeric c || c == '_' || c == '.'
      if target = [] then none else some (String.ofList target)

end Interface
end ViewModifiers
