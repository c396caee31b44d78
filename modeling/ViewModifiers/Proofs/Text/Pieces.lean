import Mathlib.Data.List.DropRight
import ViewModifiers.Text.Split

/-!
# Pieces and blanks

A text that is joined from pieces is split into them again, and trimming drops
the blanks at its two ends.
-/

namespace ViewModifiers
namespace Text

/-!
## Joined texts
-/

theorem joinWith_cons (sep piece : List Char) {pieces : List (List Char)} (h : pieces ≠ []) :
    joinWith sep (piece :: pieces) = piece ++ sep ++ joinWith sep pieces := by
  cases pieces with
  | nil => exact absurd rfl h
  | cons next more => rfl

theorem joinWith_append (sep : List Char) {pieces more : List (List Char)} (hpieces : pieces ≠ [])
    (hmore : more ≠ []) :
    joinWith sep (pieces ++ more) = joinWith sep pieces ++ sep ++ joinWith sep more := by
  induction pieces with
  | nil => exact absurd rfl hpieces
  | cons piece rest ih =>
      cases rest with
      | nil => exact joinWith_cons sep piece hmore
      | cons next others =>
          rw [List.cons_append, joinWith_cons sep piece (by simp), ih (by simp),
            joinWith_cons sep piece (by simp)]
          simp only [List.append_assoc]

theorem joinWith_append_cons (sep front piece : List Char) (pieces : List (List Char)) :
    joinWith sep ((front ++ piece) :: pieces) = front ++ joinWith sep (piece :: pieces) := by
  by_cases h : pieces = []
  · rw [h]
    rfl
  · rw [joinWith_cons _ _ h, joinWith_cons _ _ h, List.append_assoc, List.append_assoc,
      List.append_assoc]

theorem splitAt_of_notMem {sep : Char} {piece : List Char} (h : sep ∉ piece) :
    splitAt sep piece = [piece] := by
  induction piece with
  | nil => rfl
  | cons c rest ih =>
      rw [List.mem_cons, not_or] at h
      rw [splitAt, if_neg (Ne.symm h.1), ih h.2]
      rfl

theorem splitAt_append_cons {sep : Char} {piece : List Char} (h : sep ∉ piece) (rest : List Char) :
    splitAt sep (piece ++ sep :: rest) = piece :: splitAt sep rest := by
  induction piece with
  | nil => rw [List.nil_append, splitAt, if_pos rfl]
  | cons c more ih =>
      rw [List.mem_cons, not_or] at h
      rw [List.cons_append, splitAt, if_neg (Ne.symm h.1), ih h.2]
      rfl

theorem splitAt_joinWith {sep : Char} {pieces : List (List Char)} (hpieces : pieces ≠ [])
    (h : ∀ piece ∈ pieces, sep ∉ piece) : splitAt sep (joinWith [sep] pieces) = pieces := by
  induction pieces with
  | nil => exact absurd rfl hpieces
  | cons piece rest ih =>
      have hpiece := h piece List.mem_cons_self
      cases rest with
      | nil => exact splitAt_of_notMem hpiece
      | cons next more =>
          have hrest := ih (List.cons_ne_nil _ _) fun p hp => h p (List.mem_cons_of_mem piece hp)
          rw [joinWith, List.append_assoc, List.singleton_append, splitAt_append_cons hpiece, hrest]
          exact List.cons_ne_nil _ _

theorem mem_joinWith {sep c : Char} {pieces : List (List Char)} (h : c ∈ joinWith [sep] pieces) :
    c = sep ∨ ∃ piece ∈ pieces, c ∈ piece := by
  induction pieces with
  | nil => cases h
  | cons piece rest ih =>
      cases rest with
      | nil => exact .inr ⟨piece, List.mem_cons_self, h⟩
      | cons next more =>
          rw [joinWith, List.append_assoc] at h
          · rcases List.mem_append.mp h with hpiece | h
            · exact .inr ⟨piece, List.mem_cons_self, hpiece⟩
            · rcases List.mem_cons.mp h with hsep | hmore
              · exact .inl hsep
              · rcases ih hmore with hsep | ⟨p, hp, hc⟩
                · exact .inl hsep
                · exact .inr ⟨p, List.mem_cons_of_mem piece hp, hc⟩
          · exact List.cons_ne_nil _ _

/-!
## Blanks at the ends
-/

theorem dropBlanks_append_of_blank {blanks : List Char} (h : ∀ c ∈ blanks, isBlank c = true)
    (rest : List Char) : dropBlanks (blanks ++ rest) = dropBlanks rest :=
  List.dropWhile_append_of_pos h

theorem dropBlanks_cons_of_not_blank {c : Char} (h : isBlank c = false) (rest : List Char) :
    dropBlanks (c :: rest) = c :: rest :=
  List.dropWhile_cons_of_neg (Bool.not_eq_true _ ▸ h)

theorem dropBlanks_append_cons {c : Char} (h : isBlank c = false) (front rest : List Char) :
    dropBlanks (front ++ c :: rest) = dropBlanks front ++ c :: rest := by
  have hstop : (c :: rest).dropWhile isBlank = c :: rest := dropBlanks_cons_of_not_blank h rest
  unfold dropBlanks
  rw [List.dropWhile_append, hstop]
  split
  · next hempty => rw [List.isEmpty_iff.mp hempty, List.nil_append]
  · rfl

theorem dropBlanksEnd_append_cons {c : Char} (h : isBlank c = false) (front rest : List Char) :
    dropBlanksEnd (front ++ c :: rest) = front ++ c :: dropBlanksEnd rest := by
  have hreverse : (front ++ c :: rest).reverse = rest.reverse ++ c :: front.reverse := by simp
  unfold dropBlanksEnd
  rw [hreverse, ← dropBlanks, dropBlanks_append_cons h]
  simp [dropBlanks]

theorem joinWith_dropBlanks (sep piece : List Char) (pieces : List (List Char)) :
    joinWith sep (piece :: pieces) =
      piece.takeWhile isBlank ++ joinWith sep (dropBlanks piece :: pieces) := by
  rw [← joinWith_append_cons, dropBlanks, List.takeWhile_append_dropWhile]

theorem joinWith_space (line next : List Char) (more : List (List Char)) :
    joinWith [' '] (line :: next :: more) =
      line ++ (' ' :: next.takeWhile isBlank) ++ joinWith [' '] (dropBlanks next :: more) := by
  rw [joinWith_cons _ _ (List.cons_ne_nil _ _), joinWith_dropBlanks]
  simp

theorem isBlank_of_mem_space {next : List Char} :
    ∀ c ∈ ' ' :: next.takeWhile isBlank, isBlank c = true :=
  List.forall_mem_cons.mpr ⟨rfl, fun _ => List.mem_takeWhile_imp⟩

theorem exists_reverse_dropWhile (p : Char → Bool) (cs : List Char) :
    ∃ ds, cs = (cs.reverse.dropWhile p).reverse ++ ds ∧ ∀ d ∈ ds, p d = true :=
  ⟨cs.rtakeWhile p, List.rdropWhile_append_rtakeWhile.symm, fun _ => List.mem_rtakeWhile_imp⟩

theorem dropBlanksEnd_append_of_blank {blanks : List Char} (h : ∀ c ∈ blanks, isBlank c = true)
    (cs : List Char) : dropBlanksEnd (cs ++ blanks) = dropBlanksEnd cs := by
  unfold dropBlanksEnd
  rw [List.reverse_append, List.dropWhile_append_of_pos]
  exact fun c hc => h c (List.mem_reverse.mp hc)

theorem trimChars_append_of_blank {cs blanks : List Char} (h : ∀ c ∈ blanks, isBlank c = true) :
    trimChars (cs ++ blanks) = trimChars cs := by
  have hdrop : dropBlanks blanks = [] := List.dropWhile_eq_nil_iff.mpr h
  unfold trimChars dropBlanks
  rw [List.dropWhile_append]
  split
  · next hcs => rw [List.isEmpty_iff.mp hcs, ← dropBlanks, hdrop]
  · exact dropBlanksEnd_append_of_blank h _

/-- Trimming takes blanks from the end, once those in front are gone. -/
theorem exists_trimChars_append (cs : List Char) :
    ∃ blanks, dropBlanks cs = trimChars cs ++ blanks ∧ ∀ c ∈ blanks, isBlank c = true :=
  exists_reverse_dropWhile isBlank (dropBlanks cs)

end Text
end ViewModifiers
