import ViewModifiers.Text.Blank

/-!
# Grammar rules

A rule reads a text from a cursor on and either succeeds with a value and the
cursor behind it, or fails with the place where it was stuck and what it expected
there.  A failure may be committed: alternatives are then not tried.  Rules are
sequenced as a monad, and every rule is a total function of its cursor.
-/

namespace ViewModifiers
namespace Grammar

/-- The characters still to be read, and the byte offset at which they start. -/
structure Cursor where
  rest : List Char
  offset : Nat
deriving DecidableEq

def Cursor.ofString (source : String) : Cursor :=
  ⟨source.toList, 0⟩

/-- The cursor behind a given text, if the text stands here. -/
def Cursor.skip? : List Char → Cursor → Option Cursor
  | [], c => some c
  | w :: word, ⟨x :: rest, offset⟩ =>
      if x = w then skip? word ⟨rest, offset + x.utf8Size⟩ else none
  | _ :: _, ⟨[], _⟩ => none

/-- What a rule would have accepted: a construct by its name, or one character. -/
inductive Expectation where
  | construct (name : String)
  | char (c : Char)
deriving DecidableEq

def Expectation.text : Expectation → String
  | .construct name => name
  | .char c => "'" ++ String.singleton c ++ "'"

/-- Where a rule was stuck, and what was expected there, the innermost expectation first. -/
structure Stuck where
  place : Cursor
  expected : List Expectation

inductive Reply (α : Type) where
  | ok (value : α) (next : Cursor)
  | fail (committed : Bool) (stuck : Stuck)

def Reply.map (f : α → β) : Reply α → Reply β
  | .ok a next => .ok (f a) next
  | .fail committed stuck => .fail committed stuck

def Rule (α : Type) : Type :=
  Cursor → Reply α

namespace Rule

def run (p : Rule α) (c : Cursor) : Reply α := p c

protected def pure (a : α) : Rule α :=
  fun c => .ok a c

protected def bind (p : Rule α) (f : α → Rule β) : Rule β :=
  fun c =>
    match p c with
    | .ok a next => f a next
    | .fail committed stuck => .fail committed stuck

instance : Monad Rule where
  pure := Rule.pure
  bind := Rule.bind

/-! ## Failure and choice -/

/-- Fails here without naming an expectation. -/
def refuse : Rule α :=
  fun c => .fail false ⟨c, []⟩

def expecting (name : String) (p : Rule α) : Rule α :=
  fun c =>
    match p c with
    | .ok a next => .ok a next
    | .fail committed stuck =>
        .fail committed { stuck with expected := stuck.expected ++ [.construct name] }

def committed (p : Rule α) : Rule α :=
  fun c =>
    match p c with
    | .ok a next => .ok a next
    | .fail _ stuck => .fail true stuck

/-- Tries a second rule where the first fails uncommitted; the failure is then the second one's. -/
def orElse (p q : Rule α) : Rule α :=
  fun c =>
    match p c with
    | .ok a next => .ok a next
    | .fail true stuck => .fail true stuck
    | .fail false _ => q c

/-- The first rule of a list that does not fail uncommitted. -/
def oneOf : List (Rule α) → Rule α
  | [] => refuse
  | [p] => p
  | p :: rest => p.orElse (oneOf rest)

/-- A rule or nothing; a committed failure remains one. -/
def optional (p : Rule α) : Rule (Option α) :=
  fun c =>
    match p c with
    | .ok a next => .ok (some a) next
    | .fail true stuck => .fail true stuck
    | .fail false _ => .ok none c

/-- Whether a rule applies; reads it if it does, and never fails. -/
def attempt (p : Rule α) : Rule (Option α) :=
  fun c =>
    match p c with
    | .ok a next => .ok (some a) next
    | .fail _ _ => .ok none c

/-- Looks whether a rule applies, and reads nothing. -/
def lookAhead (p : Rule α) : Rule α :=
  fun c =>
    match p c with
    | .ok a _ => .ok a c
    | .fail committed stuck => .fail committed stuck

/-- Succeeds, and reads nothing, where a rule fails. -/
def notFollowedBy (p : Rule α) : Rule Unit :=
  fun c =>
    match p c with
    | .ok _ _ => .fail false ⟨c, []⟩
    | .fail true stuck => .fail true stuck
    | .fail false _ => .ok () c

/-- Refuses values that do not pass a test. -/
def satisfying (p : Rule α) (test : α → Bool) : Rule α :=
  fun c =>
    match p c with
    | .ok a next => if test a then .ok a next else .fail false ⟨c, []⟩
    | .fail committed stuck => .fail committed stuck

/-! ## Places -/

def here : Rule Cursor :=
  fun c => .ok c c

def offset : Rule Nat :=
  fun c => .ok c.offset c

/-! ## Characters -/

def char (expected : Char) : Rule Unit :=
  fun c =>
    match c.rest with
    | [] => .fail false ⟨c, [.char expected]⟩
    | x :: rest =>
        if x = expected then .ok () ⟨rest, c.offset + x.utf8Size⟩
        else .fail false ⟨c, [.char expected]⟩

def word (text : String) : Rule Unit :=
  fun c =>
    match Cursor.skip? text.toList c with
    | some next => .ok () next
    | none => .fail false ⟨c, []⟩

/-- The longest run of characters of a class, possibly empty. -/
def takeWhile (keep : Char → Bool) : Rule (List Char) :=
  fun c =>
    let taken := c.rest.takeWhile keep
    .ok taken ⟨c.rest.dropWhile keep, c.offset + Text.utf8Length taken⟩

/-- The longest run of characters of a class, of one character at least. -/
def takeWhile1 (keep : Char → Bool) : Rule (List Char) :=
  fun c =>
    if c.rest.takeWhile keep = [] then .fail false ⟨c, []⟩
    else takeWhile keep c

def layout : Rule Unit := do
  let _ ← takeWhile Text.isLayout

def layout1 : Rule Unit := do
  let _ ← takeWhile1 Text.isLayout

def spacedChar (c : Char) : Rule Unit := do
  layout
  char c
  layout

/-- Layout that does not end the line, possibly none. -/
def inlineLayout : Rule Unit := do
  let _ ← takeWhile Text.isInlineLayout

def atEnd : Rule Unit :=
  fun c => if c.rest = [] then .ok () c else .fail false ⟨c, []⟩

def complete (p : Rule α) : Rule α := do
  let a ← p
  atEnd
  return a

def padded (p : Rule α) : Rule α := do
  layout
  let a ← p
  layout
  return a

/-! ## Repetition -/

/-- A rule as often as it applies, at most `left` times. -/
def manyWithin (p : Rule α) : Nat → Rule (List α)
  | 0 => return []
  | left + 1 => do
      match ← p.optional with
      | none => return []
      | some a =>
          let more ← manyWithin p left
          return a :: more

/-- A rule as often as it applies; the rule reads a character each time. -/
def many (p : Rule α) : Rule (List α) :=
  fun c => manyWithin p c.rest.length c

def separated1 (sep : Rule β) (item : Rule α) : Rule (List α) := do
  let first ← item
  let more ← many (do let _ ← sep; item)
  return first :: more

/-- Items with a separator between, possibly none. -/
def separated (sep : Rule β) (item : Rule α) : Rule (List α) := do
  match ← (separated1 sep item).optional with
  | some items => return items
  | none => return []

/-! ## Lists -/

/-- Reads items up to a closing character; `left` bounds their number. -/
def itemsUpTo (close : Char) (closing : String) (item : Rule α) : Nat → Rule (List α)
  | 0 => refuse
  | left + 1 => do
      match ← (char close).attempt with
      | some _ => return []
      | none =>
          let a ← item
          layout
          match ← (char ',').attempt with
          | some _ =>
              layout
              let more ← itemsUpTo close closing item left
              return a :: more
          | none =>
              committed (expecting closing (char close))
              return [a]

/--
Items between an opening and a closing character, separated by commas, with one
comma allowed behind the last.  Each round reads a comma, so that the number of
characters bounds the rounds.
-/
def bracketed (opening close : Char) (closing : String) (item : Rule α) : Rule (List α) := do
  char opening
  layout
  let start ← here
  itemsUpTo close closing item (start.rest.length + 1)

end Rule

end Grammar
end ViewModifiers
