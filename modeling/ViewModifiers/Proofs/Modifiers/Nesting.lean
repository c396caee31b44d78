import ViewModifiers.Expression.Reading
import Mathlib.Data.List.TakeWhile

/-!
# Scanning for separators

The scan that divides a list of modifiers keeps track of strings and brackets.
A separator divides only where the scan is in its start state, and so the scan
of the text behind a separator starts afresh: a text falls into its first piece,
a separator, and the pieces of what follows.
-/

namespace ViewModifiers
namespace Nesting

def after (state : Nesting) (text : List Char) : Nesting :=
  text.foldl step state

/-- No character of the text is a separator outside brackets and strings. -/
def Undivided : Nesting → List Char → Prop
  | _, [] => True
  | state, c :: rest => state.separates c = false ∧ (state.step c).Undivided rest

@[simp] theorem after_nil (state : Nesting) : state.after [] = state := rfl

@[simp] theorem after_cons (state : Nesting) (c : Char) (rest : List Char) :
    state.after (c :: rest) = (state.step c).after rest := rfl

theorem after_append (state : Nesting) (front back : List Char) :
    state.after (front ++ back) = (state.after front).after back :=
  List.foldl_append

theorem separates_iff {state : Nesting} {c : Char} :
    state.separates c = true ↔ state = .start ∧ (c = ';' ∨ c = '\n') := by
  cases state with
  | mk quoting depth =>
      simp only [separates, start, Bool.and_eq_true, Bool.or_eq_true, decide_eq_true_eq,
        Nesting.mk.injEq]

theorem undivided_append {state : Nesting} {front back : List Char} :
    state.Undivided (front ++ back) ↔
      state.Undivided front ∧ (state.after front).Undivided back := by
  induction front generalizing state with
  | nil => exact ⟨fun h => ⟨trivial, h⟩, fun h => h.2⟩
  | cons c front ih =>
      rw [List.cons_append, Undivided, Undivided, ih, after_cons, and_assoc]

theorem undivided_of_notMem {text : List Char} (hsemicolon : ';' ∉ text) (hbreak : '\n' ∉ text)
    (state : Nesting) : state.Undivided text := by
  induction text generalizing state with
  | nil => exact trivial
  | cons c rest ih =>
      rw [List.mem_cons, not_or] at hsemicolon hbreak
      refine ⟨?_, ih hsemicolon.2 hbreak.2 (state.step c)⟩
      rw [Bool.eq_false_iff]
      intro hsep
      rcases (separates_iff.mp hsep).2 with heq | heq
      · exact hsemicolon.1 heq.symm
      · exact hbreak.1 heq.symm

/-!
## Plain characters
-/

def marks : List Char := ['"', '(', '[', ')', ']']

theorem step_of_notMem_marks {c : Char} (h : c ∉ marks) (depth : Nat) :
    (⟨.outside, depth⟩ : Nesting).step c = ⟨.outside, depth⟩ := by
  simp only [marks, List.mem_cons, List.not_mem_nil, or_false, not_or] at h
  rw [step, Text.Quoting.step, if_neg h.1, if_pos rfl, depthBehind,
    if_neg (not_or.mpr ⟨h.2.1, h.2.2.1⟩), if_neg (not_or.mpr ⟨h.2.2.2.1, h.2.2.2.2⟩)]

/-- The characters of a class that holds no mark leave a scan outside strings where it is. -/
theorem step_of_class {keep : Char → Bool} (h : marks.any keep = false) {c : Char}
    (hc : keep c = true) (depth : Nat) :
    (⟨.outside, depth⟩ : Nesting).step c = ⟨.outside, depth⟩ := by
  apply step_of_notMem_marks
  intro hmark
  exact List.any_eq_false.mp h c hmark hc

theorem after_of_class {keep : Char → Bool} (h : marks.any keep = false)
    {text : List Char} (htext : ∀ c ∈ text, keep c = true) (depth : Nat) :
    (⟨.outside, depth⟩ : Nesting).after text = ⟨.outside, depth⟩ := by
  induction text with
  | nil => rfl
  | cons c rest ih =>
      rw [after_cons, step_of_class h (htext c List.mem_cons_self)]
      exact ih fun x hx => htext x (List.mem_cons_of_mem c hx)

theorem after_dropWhile_isLayout (text : List Char) :
    start.after (text.dropWhile Text.isLayout) = start.after text := by
  have hfront : start.after (text.takeWhile Text.isLayout) = start :=
    after_of_class (by decide) (fun x hx => List.mem_takeWhile_imp hx) 0
  have hsplit : text.takeWhile Text.isLayout ++ text.dropWhile Text.isLayout = text :=
    List.takeWhile_append_dropWhile
  calc start.after (text.dropWhile Text.isLayout)
      = (start.after (text.takeWhile Text.isLayout)).after (text.dropWhile Text.isLayout) := by
        rw [hfront]
    _ = start.after text := by
        rw [← after_append, hsplit]

end Nesting

open Nesting

/-!
## The pieces of a text
-/

theorem modifierPieces_of_undivided {state : Nesting} {text : List Char}
    (h : state.Undivided text) : modifierPieces state text = [text] := by
  induction text generalizing state with
  | nil => rfl
  | cons c rest ih =>
      rw [modifierPieces, if_neg (by rw [h.1]; exact Bool.false_ne_true), ih h.2]

theorem modifierPieces_append {state : Nesting} {piece rest : List Char} {c : Char}
    (h : state.Undivided piece) (hc : (state.after piece).separates c = true) :
    modifierPieces state (piece ++ c :: rest) =
      piece :: modifierPieces (state.after piece) rest := by
  induction piece generalizing state with
  | nil =>
      rw [after_nil] at hc ⊢
      rw [List.nil_append, modifierPieces, if_pos hc]
  | cons x piece ih =>
      rw [List.cons_append, modifierPieces,
        if_neg (by rw [h.1]; exact Bool.false_ne_true), ih h.2 hc]
      rfl

theorem undivided_or_exists_piece (state : Nesting) (text : List Char) :
    state.Undivided text ∨
      ∃ piece c rest, text = piece ++ c :: rest ∧ state.Undivided piece ∧
        (state.after piece).separates c = true := by
  induction text generalizing state with
  | nil => exact Or.inl trivial
  | cons x text ih =>
      cases hx : state.separates x with
      | true => exact Or.inr ⟨[], x, text, rfl, trivial, hx⟩
      | false =>
          rcases ih (state.step x) with h | ⟨piece, c, rest, rfl, hpiece, hc⟩
          · exact Or.inl ⟨hx, h⟩
          · exact Or.inr ⟨x :: piece, c, rest, rfl, ⟨hx, hpiece⟩, hc⟩

end ViewModifiers
