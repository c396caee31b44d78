import ViewModifiers.Text.Blank

/-!
# Places in a text

A place is an offset in UTF-8 bytes from the start of the text.  People are told
a line and a column instead; both start at one, and columns count characters.
-/

namespace ViewModifiers
namespace Text

structure Span where
  start : Nat
  stop : Nat
deriving DecidableEq

def Span.shift (s : Span) (n : Nat) : Span :=
  ⟨s.start + n, s.stop + n⟩

structure LineColumn where
  line : Nat
  column : Nat
deriving DecidableEq

def LineColumn.advance (p : LineColumn) (c : Char) : LineColumn :=
  if c == '\n' then ⟨p.line + 1, 1⟩ else ⟨p.line, p.column + 1⟩

/-- Walks over the characters that start before the byte offset `target`. -/
def walkTo (target : Nat) : List Char → Nat → LineColumn → LineColumn
  | [], _, place => place
  | c :: rest, offset, place =>
      if target ≤ offset then place
      else walkTo target rest (offset + c.utf8Size) (place.advance c)

def lineColumn (source : String) (offset : Nat) : LineColumn :=
  walkTo offset source.toList 0 ⟨1, 1⟩

structure Extent where
  start : LineColumn
  stop : LineColumn
deriving DecidableEq

def Extent.ofOffsets (source : String) (start stop : Nat) : Extent :=
  ⟨lineColumn source start, lineColumn source stop⟩

def Extent.ofLine (line : Nat) : Extent :=
  ⟨⟨line, 1⟩, ⟨line, 1⟩⟩

/-- The characters from one byte offset up to another, both on character boundaries. -/
def sliceChars : List Char → Nat → Nat → List Char
  | [], _, _ => []
  | c :: rest, start, stop =>
      if stop = 0 then []
      else if start = 0 then c :: sliceChars rest 0 (stop - c.utf8Size)
      else sliceChars rest (start - c.utf8Size) (stop - c.utf8Size)

def slice (source : String) (span : Span) : String :=
  String.ofList (sliceChars source.toList span.start span.stop)

end Text
end ViewModifiers
