import Mathlib.Data.List.DropRight
import ViewModifiers.Text.Place

/-!
# Lines and columns

The line of a place is told by the line breaks in front of it, the column by the
characters behind the last of them.  A place that is further on in the text comes
later in reading order, and so no two places have the same line and column.
-/

namespace ViewModifiers
namespace Text

def LineColumn.behind (front : List Char) : LineColumn :=
  ⟨1 + front.count '\n', 1 + (front.rtakeWhile (· ≠ '\n')).length⟩

/-- In reading order the first place comes before the second one. -/
def LineColumn.Precedes (p q : LineColumn) : Prop :=
  p.line < q.line ∨ p.line = q.line ∧ p.column < q.column

/-!
## Walking over a text
-/

section
variable {front rest : List Char} {p q r : LineColumn}

theorem walkTo_append (front rest : List Char) (offset : Nat) (p : LineColumn) :
    walkTo (offset + utf8Length front) (front ++ rest) offset p =
      front.foldl LineColumn.advance p := by
  induction front generalizing offset p with
  | nil =>
      cases rest with
      | nil => rfl
      | cons c rest =>
          rw [List.nil_append, utf8Length_nil, Nat.add_zero, walkTo,
            if_pos (Nat.le_refl _)]
          rfl
  | cons c front ih =>
      have hsize := c.utf8Size_pos
      rw [List.cons_append, walkTo, utf8Length_cons, if_neg (by omega), ← Nat.add_assoc, ih]
      rfl

theorem foldl_advance_start (front : List Char) :
    front.foldl LineColumn.advance ⟨1, 1⟩ = .behind front := by
  induction front using List.reverseRecOn with
  | nil => rfl
  | append_singleton front c ih =>
      rw [List.foldl_append, ih, List.foldl_cons, List.foldl_nil, LineColumn.advance]
      by_cases hc : c = '\n'
      · subst hc
        simp [LineColumn.behind, Nat.add_assoc]
      · have hcount : (front ++ [c]).count '\n' = front.count '\n' := by
          simp [List.count_append, hc]
        rw [if_neg (by simpa using hc), LineColumn.behind, LineColumn.behind, hcount,
          List.rtakeWhile_concat_pos _ _ _ (by simpa using hc), List.length_append]
        rfl

theorem lineColumn_of_append {source : String} (h : source.toList = front ++ rest) :
    lineColumn source (utf8Length front) = .behind front := by
  have hwalk := walkTo_append front rest 0 ⟨1, 1⟩
  rw [Nat.zero_add, ← h] at hwalk
  rw [lineColumn, hwalk, foldl_advance_start]

/-!
## Reading order
-/

theorem LineColumn.Precedes.trans (h : p.Precedes q) (h' : q.Precedes r) : p.Precedes r := by
  unfold Precedes at *
  omega

theorem LineColumn.Precedes.ne (h : p.Precedes q) : p ≠ q := by
  rintro rfl
  unfold Precedes at h
  omega

theorem LineColumn.precedes_advance (p : LineColumn) (c : Char) : p.Precedes (p.advance c) := by
  unfold advance
  split
  · exact Or.inl (Nat.lt_succ_self _)
  · exact Or.inr ⟨rfl, Nat.lt_succ_self _⟩

theorem LineColumn.precedes_foldl_advance (p : LineColumn) {more : List Char} (h : more ≠ []) :
    p.Precedes (more.foldl advance p) := by
  induction more generalizing p with
  | nil => exact absurd rfl h
  | cons c more ih =>
      rw [List.foldl_cons]
      cases more with
      | nil => exact p.precedes_advance c
      | cons d more => exact (p.precedes_advance c).trans (ih _ (List.cons_ne_nil d more))

theorem utf8Length_pos {more : List Char} (h : more ≠ []) : 0 < utf8Length more := by
  rcases List.exists_cons_of_ne_nil h with ⟨c, more, rfl⟩
  exact Nat.lt_of_lt_of_le c.utf8Size_pos (Nat.le_add_right _ _)

/-- A beginning of a text that has no more bytes is a beginning of the other one. -/
theorem prefix_of_utf8Length_le {text front' : List Char} (hfront : front <+: text)
    (hfront' : front' <+: text) (h : utf8Length front ≤ utf8Length front') : front <+: front' := by
  rcases List.prefix_or_prefix_of_prefix hfront hfront' with hprefix | ⟨more, rfl⟩
  · exact hprefix
  · rw [utf8Length_append] at h
    by_cases hmore : more = []
    · have hsame : front' ++ more = front' := by rw [hmore, List.append_nil]
      exact ⟨[], (List.append_nil _).trans hsame⟩
    · have hpos := utf8Length_pos hmore
      omega

theorem eq_of_utf8Length_eq {text front' : List Char} (hfront : front <+: text)
    (hfront' : front' <+: text) (h : utf8Length front = utf8Length front') : front = front' := by
  rcases prefix_of_utf8Length_le hfront hfront' (Nat.le_of_eq h) with ⟨more, rfl⟩
  by_cases hmore : more = []
  · rw [hmore, List.append_nil]
  · have hpos := utf8Length_pos hmore
    rw [utf8Length_append] at h
    omega

variable {source : String} {front' : List Char}

theorem precedes_of_lt (hfront : front <+: source.toList) (hfront' : front' <+: source.toList)
    (h : utf8Length front < utf8Length front') :
    (lineColumn source (utf8Length front)).Precedes (lineColumn source (utf8Length front')) := by
  rcases prefix_of_utf8Length_le hfront hfront' (Nat.le_of_lt h) with ⟨more, rfl⟩
  have hmore : more ≠ [] := by
    rintro rfl
    rw [List.append_nil] at h
    exact Nat.lt_irrefl _ h
  rcases hfront with ⟨rest, hsource⟩
  rcases hfront' with ⟨rest', hsource'⟩
  rw [lineColumn_of_append hsource.symm, lineColumn_of_append hsource'.symm,
    ← foldl_advance_start, ← foldl_advance_start, List.foldl_append]
  exact LineColumn.precedes_foldl_advance _ hmore

theorem precedes_iff_lt (hfront : front <+: source.toList) (hfront' : front' <+: source.toList) :
    (lineColumn source (utf8Length front)).Precedes (lineColumn source (utf8Length front')) ↔
      utf8Length front < utf8Length front' := by
  refine ⟨fun h => ?_, precedes_of_lt hfront hfront'⟩
  rcases Nat.lt_trichotomy (utf8Length front) (utf8Length front') with hlt | heq | hgt
  · exact hlt
  · rw [heq] at h
    exact absurd rfl h.ne
  · exact absurd rfl (h.trans (precedes_of_lt hfront' hfront hgt)).ne

theorem lineColumn_inj (hfront : front <+: source.toList) (hfront' : front' <+: source.toList) :
    lineColumn source (utf8Length front) = lineColumn source (utf8Length front') ↔
      utf8Length front = utf8Length front' := by
  refine ⟨fun h => ?_, fun h => congrArg _ h⟩
  rcases Nat.lt_trichotomy (utf8Length front) (utf8Length front') with hlt | heq | hgt
  · exact absurd h (precedes_of_lt hfront hfront' hlt).ne
  · exact heq
  · exact absurd h.symm (precedes_of_lt hfront' hfront hgt).ne

/-- Neither lines nor columns go further than the characters of the text. -/
theorem behind_le (hfront : front <+: source.toList) :
    (LineColumn.behind front).line ≤ 1 + source.length ∧
      (LineColumn.behind front).column ≤ 1 + source.length := by
  have hlength : front.length ≤ source.length := String.length_toList ▸ hfront.length_le
  have hcount : front.count '\n' ≤ front.length := List.count_le_length
  have htake : (front.rtakeWhile (· ≠ '\n')).length ≤ front.length :=
    (List.rtakeWhile_suffix _ _).length_le
  unfold LineColumn.behind
  constructor <;> dsimp only <;> omega

end

end Text
end ViewModifiers
