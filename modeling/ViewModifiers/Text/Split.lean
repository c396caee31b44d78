import ViewModifiers.Text.Blank

/-!
# Splitting texts

A text is split at each occurrence of a separator; the pieces joined with the
separator give the text back.  Lines and blank-separated words have rules of
their own.
-/

namespace ViewModifiers
namespace Text

def consFirst (c : Char) : List (List Char) → List (List Char)
  | [] => [[c]]
  | piece :: pieces => (c :: piece) :: pieces

def splitAt (sep : Char) : List Char → List (List Char)
  | [] => [[]]
  | c :: rest => if c = sep then [] :: splitAt sep rest else consFirst c (splitAt sep rest)

def splitAtPair (sep : Char) : List Char → List (List Char)
  | [] => [[]]
  | [c] => [[c]]
  | c :: d :: rest =>
      if c = sep ∧ d = sep then [] :: splitAtPair sep rest
      else consFirst c (splitAtPair sep (d :: rest))

def joinWith (sep : List Char) : List (List Char) → List Char
  | [] => []
  | [piece] => piece
  | piece :: pieces => piece ++ sep ++ joinWith sep pieces

/-- The lines of a text: a line break ends a line, and may have a carriage return before it. -/
def lines (s : String) : List String :=
  let pieces := splitAt '\n' s.toList
  let withoutLast :=
    match pieces.getLast? with
    | some [] => pieces.dropLast
    | _ => pieces
  let broken := pieces.length - 1
  (withoutLast.zipIdx.map fun (line, i) =>
    if i < broken ∧ line.getLast? = some '\r' then line.dropLast else line).map String.ofList

def words (cs : List Char) : List (List Char) :=
  (cs.foldr
    (fun c (acc : List (List Char)) =>
      if isBlank c then [] :: acc else consFirst c acc) [[]]).filter (· ≠ [])

def dropPrefix? : List Char → List Char → Option (List Char)
  | [], cs => some cs
  | p :: start, c :: cs => if c = p then dropPrefix? start cs else none
  | _ :: _, [] => none

def startsWith (start cs : List Char) : Bool :=
  (dropPrefix? start cs).isSome

def containsPiece (piece : List Char) : List Char → Bool
  | [] => piece.isEmpty
  | c :: cs => startsWith piece (c :: cs) || containsPiece piece cs

/-! ## Beginnings -/

theorem dropPrefix?_eq_some_iff {start cs rest : List Char} :
    dropPrefix? start cs = some rest ↔ cs = start ++ rest := by
  induction start generalizing cs with
  | nil => simp [dropPrefix?, eq_comm]
  | cons p start ih =>
      cases cs with
      | nil => simp [dropPrefix?]
      | cons c cs =>
          by_cases h : c = p
          · simp [dropPrefix?, h, ih]
          · simp [dropPrefix?, h]

theorem startsWith_iff {start cs : List Char} :
    startsWith start cs = true ↔ start <+: cs := by
  rw [startsWith, Option.isSome_iff_exists]
  exact exists_congr fun rest => dropPrefix?_eq_some_iff.trans eq_comm

/-! ## Pieces and joined texts -/

theorem splitAt_ne_nil (sep : Char) (cs : List Char) :
    splitAt sep cs ≠ [] := by
  cases cs with
  | nil => simp [splitAt]
  | cons c rest =>
      simp only [splitAt]
      split
      · simp
      · cases splitAt sep rest <;> simp [consFirst]

theorem joinWith_splitAt (sep : Char) (cs : List Char) :
    joinWith [sep] (splitAt sep cs) = cs := by
  induction cs with
  | nil => rfl
  | cons c rest ih =>
      simp only [splitAt]
      have hne := splitAt_ne_nil sep rest
      split
      · rename_i hc
        cases hp : splitAt sep rest with
        | nil => exact absurd hp hne
        | cons piece pieces =>
            rw [hp] at ih
            simp [joinWith, ih, hc]
      · cases hp : splitAt sep rest with
        | nil => exact absurd hp hne
        | cons piece pieces =>
            rw [hp] at ih
            cases pieces with
            | nil => simpa [consFirst, joinWith] using ih
            | cons next more => simpa [consFirst, joinWith] using ih

end Text
end ViewModifiers
