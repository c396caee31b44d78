import ViewModifiers.Expression.Grammar
import ViewModifiers.Text.Quoting

/-!
# Reading expressions

A text is read as one expression, as an argument list, as one modifier or as a
list of modifiers.  A text that cannot be read is answered with the place where
the grammar was stuck and what it expected there.
-/

namespace ViewModifiers

open Grammar (Cursor Reply Rule Stuck Expectation)

/-- Why a text is no expression, argument list or modifier. -/
inductive ReadError where
  /-- The grammar was stuck before a character or at the end. -/
  | stuck (offset : Nat) (expected : List String) (found : Option Char)
  /-- A modifier of a list is followed by something that does not belong to it. -/
  | trailing (offset : Nat)
deriving DecidableEq

namespace ReadError

def offset : ReadError → Nat
  | stuck offset _ _ => offset
  | trailing offset => offset

/-- What would have been accepted, without repetition. -/
def expected : ReadError → List String
  | stuck _ expected _ => expected
  | trailing _ => ["';'", "newline"]

def foundText : Option Char → String
  | some c => "'" ++ String.singleton c ++ "'"
  | none => "end of input"

def message : ReadError → String
  | stuck _ [] found => "unexpected " ++ foundText found
  | stuck _ (first :: _) found => "expected " ++ first ++ ", found " ++ foundText found
  | trailing _ => "unexpected trailing input"

def description (e : ReadError) : String :=
  e.message ++ " at offset " ++ toString e.offset

def fullMessage (e : ReadError) : String :=
  if e.expected.isEmpty then e.message
  else e.message ++ " (expected " ++ String.intercalate " or " e.expected ++ ")"

def ofStuck (s : Stuck) : ReadError :=
  .stuck s.place.offset (s.expected.map Expectation.text).eraseDups s.place.rest.head?

/-- The same error in a text with `n` more bytes in front. -/
def shift (n : Nat) : ReadError → ReadError
  | stuck offset expected found => stuck (offset + n) expected found
  | trailing offset => trailing (offset + n)

end ReadError

def Grammar.Reply.toExcept : Reply α → Except ReadError α
  | .ok a _ => .ok a
  | .fail _ stuck => .error (.ofStuck stuck)

def Grammar.Rule.read (p : Rule α) (source : String) : Except ReadError α :=
  Reply.toExcept (p.complete (Cursor.ofString source))

theorem exists_eq_ok_of_isOk {x : Except ε α} (h : x.isOk = true) : ∃ a, x = .ok a := by
  cases x with
  | error cause => cases h
  | ok a => exact ⟨a, rfl⟩

theorem exists_eq_ok_of_any {x : Except ε α} {p : α → Bool} (h : x.toOption.any p = true) :
    ∃ a, x = .ok a ∧ p a = true := by
  cases x with
  | error cause => cases h
  | ok a => exact ⟨a, rfl, h⟩

def Expression.read (source : String) : Except ReadError Expression :=
  Rule.read (Rule.padded Expression.Grammar.expression) source

/--
An argument list, with or without its parentheses.  A text that starts with a
parenthesis may still be a bare list whose first argument starts with one.
-/
def Argument.readList (source : String) : Except ReadError (List Argument) :=
  let characters := source.toList
  if Text.allBlank characters then .ok []
  else
    let bare := Rule.read Expression.Grammar.bareArguments source
    if (Text.dropBlanks characters).head? = some '(' then
      match Rule.read (Rule.padded (Expression.Grammar.argumentList Expression.Grammar.expression))
          source with
      | .ok arguments => .ok arguments
      | .error _ => bare
    else bare

def ModifierCall.read (source : String) : Except ReadError ModifierCall :=
  Rule.read (Rule.padded Expression.Grammar.modifierCall) source

def isIdentifier (name : String) : Bool :=
  match Rule.read Expression.Grammar.identifier name with
  | .ok _ => true
  | .error _ => false

/-!
## Lists of modifiers

Semicolons and line breaks separate modifiers where they stand outside brackets
and strings.  Each piece is read by itself: an error in one leaves the others.
-/

/-- Where a scan for separators stands: in a string or not, and within how many brackets. -/
structure Nesting where
  quoting : Text.Quoting
  depth : Nat
deriving DecidableEq

namespace Nesting

def start : Nesting := ⟨.outside, 0⟩

/--
The brackets around the place behind a character; an unmatched closing one counts
for nothing.
-/
def depthBehind (depth : Nat) (c : Char) : Nat :=
  if c = '(' ∨ c = '[' then depth + 1
  else if c = ')' ∨ c = ']' then depth - 1
  else depth

def step (n : Nesting) (c : Char) : Nesting :=
  ⟨n.quoting.step c, if n.quoting = .outside then depthBehind n.depth c else n.depth⟩

/-- A separator ends a piece only outside brackets and strings. -/
def separates (n : Nesting) (c : Char) : Bool :=
  n.quoting = .outside && n.depth = 0 && (c = ';' || c = '\n')

end Nesting

def modifierPieces : Nesting → List Char → List (List Char)
  | _, [] => [[]]
  | state, c :: rest =>
      if state.separates c then [] :: modifierPieces state rest
      else
        match modifierPieces (state.step c) rest with
        | [] => [[c]]
        | piece :: pieces => (c :: piece) :: pieces

namespace ModifierCall

/--
Reads the piece in front of a cursor.  The rule sees the
text behind the piece as well; what it reads must end within the piece, with
blanks only behind it.
-/
def readPiece (c : Cursor) (piece : List Char) : Except ReadError ModifierCall :=
  let stop := c.offset + Text.utf8Length piece
  match (do Rule.layout; Expression.Grammar.modifierCall : Rule ModifierCall) c with
  | .fail _ stuck => .error (.ofStuck stuck)
  | .ok call next =>
      if next.offset > stop then .error (.trailing stop)
      else
        let left := next.rest.take (next.rest.length - (c.rest.length - piece.length))
        if Text.allBlank left then .ok call
        else .error (.trailing (next.offset + Text.utf8Length (left.takeWhile Text.isBlank)))

/-- Reads the pieces of a text one after the other; blank ones are left out. -/
def readPieces : Cursor → List (List Char) → List (Except ReadError ModifierCall)
  | _, [] => []
  | c, piece :: pieces =>
      let next : Cursor :=
        ⟨c.rest.drop (piece.length + 1),
          c.offset + Text.utf8Length (c.rest.take (piece.length + 1))⟩
      if Text.allBlank piece then readPieces next pieces
      else readPiece c piece :: readPieces next pieces

def readList (source : String) : List (Except ReadError ModifierCall) :=
  readPieces (Cursor.ofString source) (modifierPieces .start source.toList)

end ModifierCall

end ViewModifiers
