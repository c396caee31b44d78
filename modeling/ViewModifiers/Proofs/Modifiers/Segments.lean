import ViewModifiers.Proofs.Modifiers.Forms
import ViewModifiers.Text.Place

/-!
# Modifier lists by pieces

The reader of a list runs on all of the text that is left, and only afterwards
compares the place it has reached with the end of the piece.  Its outcome is the
one it has on the text of the piece alone, moved to the place of the piece.  A
list is therefore read piece by piece, and no piece sees another one.
-/

namespace ViewModifiers

open Grammar (Cursor Reply Rule)
open Expression.Grammar
open Text (Span utf8Length allBlank sliceChars slice)

/-!
## Slices
-/

namespace Text

theorem sliceChars_zero (text : List Char) (back : List Char) :
    sliceChars (text ++ back) 0 (utf8Length text) = text := by
  induction text with
  | nil =>
      cases back with
      | nil => rfl
      | cons c back => rw [List.nil_append, utf8Length_nil, sliceChars, if_pos rfl]
  | cons c text ih =>
      have hsize := c.utf8Size_pos
      rw [List.cons_append, utf8Length_cons, sliceChars, if_neg (by omega), if_pos rfl,
        Nat.add_sub_cancel_left, ih]

theorem sliceChars_append (front text back : List Char) :
    sliceChars (front ++ (text ++ back)) (utf8Length front)
      (utf8Length front + utf8Length text) = text := by
  induction front with
  | nil => rw [List.nil_append, utf8Length_nil, Nat.zero_add, sliceChars_zero]
  | cons c front ih =>
      have hsize := c.utf8Size_pos
      rw [List.cons_append, utf8Length_cons, sliceChars, if_neg (by omega), if_neg (by omega),
        Nat.add_sub_cancel_left, Nat.add_assoc, Nat.add_sub_cancel_left, ih]

end Text

def Grammar.Cursor.ofOffset (source : String) (offset : Nat) : Cursor :=
  ⟨sliceChars source.toList offset (utf8Length source.toList), offset⟩

theorem Grammar.Cursor.ofOffset_append {source : String} {front rest : List Char}
    (h : source.toList = front ++ rest) :
    Cursor.ofOffset source (utf8Length front) = ⟨rest, utf8Length front⟩ := by
  have hslice := Text.sliceChars_append front rest []
  rw [List.append_nil] at hslice
  rw [Cursor.ofOffset, h, Text.utf8Length_append, hslice]

/-!
## Pieces and their places
-/

/-- A piece as it stands in a text: nothing or a separator is behind it. -/
structure IsPiece (piece tail : List Char) : Prop where
  undivided : Nesting.start.Undivided piece
  ends : ∀ {x : Char} {rest : List Char}, tail = x :: rest →
    (Nesting.start.after piece).separates x = true

theorem IsPiece.after_eq {piece rest : List Char} {x : Char} (h : IsPiece piece (x :: rest)) :
    Nesting.start.after piece = .start :=
  (Nesting.separates_iff.mp (h.ends rfl)).1

theorem isPiece_of_undivided {text : List Char} (h : Nesting.start.Undivided text) :
    IsPiece text [] :=
  ⟨h, nofun⟩

theorem pieces_induction {motive : List Char → Prop}
    (last : ∀ piece, Nesting.start.Undivided piece → motive piece)
    (more : ∀ piece x rest, IsPiece piece (x :: rest) → motive rest → motive (piece ++ x :: rest))
    (text : List Char) : motive text := by
  induction hlength : text.length using Nat.strongRecOn generalizing text with
  | ind length ih =>
      rcases undivided_or_exists_piece .start text with h | ⟨piece, x, rest, htext, hpiece, hx⟩
      · exact last text h
      · have hshorter : rest.length < length := by
          rw [← hlength, htext, List.length_append, List.length_cons]
          omega
        rw [htext]
        apply more piece x rest
        · refine ⟨hpiece, ?_⟩
          intro y rest' h
          cases h
          exact hx
        · exact ih rest.length hshorter rest rfl

theorem modifierPieces_of_isPiece {piece rest : List Char} {x : Char}
    (h : IsPiece piece (x :: rest)) :
    modifierPieces .start (piece ++ x :: rest) = piece :: modifierPieces .start rest := by
  rw [modifierPieces_append h.undivided (h.ends rfl), h.after_eq]

def pieceSpans : Nat → List (List Char) → List Span
  | _, [] => []
  | start, piece :: pieces =>
      ⟨start, start + utf8Length piece⟩ :: pieceSpans (start + utf8Length piece + 1) pieces

def modifierSpans (source : String) : List Span :=
  pieceSpans 0 (modifierPieces .start source.toList)

theorem utf8Size_of_separates {state : Nesting} {x : Char} (h : state.separates x = true) :
    x.utf8Size = 1 := by
  rcases (Nesting.separates_iff.mp h).2 with rfl | rfl <;> rfl

theorem utf8Length_piece (front piece : List Char) {x : Char} {rest : List Char}
    (h : IsPiece piece (x :: rest)) :
    utf8Length (front ++ (piece ++ [x])) = utf8Length front + utf8Length piece + 1 := by
  rw [Text.utf8Length_append, Text.utf8Length_append, Text.utf8Length_cons, Text.utf8Length_nil,
    utf8Size_of_separates (h.ends rfl), Nat.add_assoc]

theorem exists_of_mem_pieceSpans (front : List Char) {text : List Char} {r : Span}
    (h : r ∈ pieceSpans (utf8Length front) (modifierPieces .start text)) :
    ∃ front' piece tail, front ++ text = front' ++ (piece ++ tail) ∧
      r = ⟨utf8Length front', utf8Length front' + utf8Length piece⟩ ∧ IsPiece piece tail := by
  induction text using pieces_induction generalizing front with
  | last piece hpiece =>
      rw [modifierPieces_of_undivided hpiece, pieceSpans, pieceSpans, List.mem_singleton] at h
      exact ⟨front, piece, [], by rw [List.append_nil], h, isPiece_of_undivided hpiece⟩
  | more piece x rest hpiece ih =>
      rw [modifierPieces_of_isPiece hpiece, pieceSpans, List.mem_cons] at h
      rcases h with h | h
      · exact ⟨front, piece, x :: rest, rfl, h, hpiece⟩
      · rw [← utf8Length_piece front piece hpiece] at h
        rcases ih _ h with ⟨front', piece', tail, htext, hr, hpiece'⟩
        refine ⟨front', piece', tail, ?_, hr, hpiece'⟩
        rw [← htext]
        simp only [List.append_assoc, List.cons_append, List.nil_append]

theorem exists_of_mem_modifierSpans {source : String} {r : Span} (h : r ∈ modifierSpans source) :
    ∃ front piece tail, source.toList = front ++ (piece ++ tail) ∧
      r = ⟨utf8Length front, utf8Length front + utf8Length piece⟩ ∧ IsPiece piece tail := by
  have hfront := exists_of_mem_pieceSpans [] h
  rwa [List.nil_append] at hfront

/-!
## One piece

Within the piece, the cursor and the text in front of it add up to the piece.
-/

/-- What is known within a piece of `total` bytes with `tail` behind it. -/
structure Known (tail : List Char) (total : Nat) (state : Nesting) (c : Cursor) : Prop where
  bytes : c.offset + utf8Length c.rest = total
  closes : tail = [] ∨ state.after c.rest = .start

theorem IsPiece.scan {piece tail : List Char} (h : IsPiece piece tail) (total : Nat) :
    Scan tail (Known tail total) := by
  refine ⟨?_, ?_, ?_⟩
  · intro state x rest offset hknown
    refine ⟨?_, hknown.closes⟩
    have hbytes := hknown.bytes
    rw [Text.utf8Length_cons] at hbytes
    rw [← hbytes]
    exact Nat.add_assoc _ _ _
  · intro state offset hknown hstate
    exact hknown.closes.resolve_right hstate
  · intro x rest htail
    exact (Nesting.separates_iff.mp (h.ends htail)).2

theorem IsPiece.known {piece tail : List Char} (h : IsPiece piece tail) :
    Known tail (utf8Length piece) .start ⟨piece, 0⟩ := by
  refine ⟨Nat.zero_add _, ?_⟩
  cases htail : tail with
  | nil => exact Or.inl rfl
  | cons x rest =>
      subst htail
      exact Or.inr h.after_eq

section
variable {piece tail : List Char}

/-- Where a modifier starts at once, it is read within the piece. -/
theorem modifierCall_agrees (h : IsPiece piece tail) (hfirst : piece = [] → tail = []) (n : Nat) :
    Reply.Agrees n (fun a b => b = a.shift n)
      (Beside n tail (Known tail (utf8Length piece)) (piece.length + 1) .start)
      (modifierCall ⟨piece, 0⟩) (modifierCall ⟨piece ++ tail, n⟩) := by
  apply agree_modifierCall (h.scan _)
  exact ⟨⟨rfl, (Nat.zero_add n).symm, Nat.lt_succ_self _, h.known⟩, hfirst⟩

/-- A text that is not blank has a character that is no layout. -/
theorem dropWhile_isLayout_ne_nil (h : allBlank piece = false) :
    piece.dropWhile Text.isLayout ≠ [] := by
  intro hnil
  rw [List.dropWhile_eq_nil_iff] at hnil
  have hall : allBlank piece = true := by
    rw [allBlank, List.all_eq_true]
    intro x hx
    exact Text.isBlank_of_isLayout (hnil x hx)
  rw [hall] at h
  cases h

theorem layout_modifierCall_agrees (h : IsPiece piece tail) (hblank : allBlank piece = false)
    (n : Nat) :
    Reply.Agrees n (fun a b => b = a.shift n)
      (Beside n tail (Known tail (utf8Length piece)) (piece.length + 1) .start)
      ((do Rule.layout; modifierCall : Rule ModifierCall) ⟨piece, 0⟩)
      ((do Rule.layout; modifierCall : Rule ModifierCall) ⟨piece ++ tail, n⟩) := by
  have hbody := dropWhile_isLayout_ne_nil hblank
  have hsplit : piece.takeWhile Text.isLayout ++ piece.dropWhile Text.isLayout = piece :=
    List.takeWhile_append_dropWhile
  have htake : (piece ++ tail).takeWhile Text.isLayout = piece.takeWhile Text.isLayout := by
    rw [List.takeWhile_append, if_neg]
    intro hlength
    apply hbody
    rw [← List.length_eq_zero_iff]
    have htotal := congrArg List.length hsplit
    rw [List.length_append] at htotal
    omega
  have hdrop : (piece ++ tail).dropWhile Text.isLayout = piece.dropWhile Text.isLayout ++ tail := by
    rw [List.dropWhile_append, if_neg]
    intro hempty
    exact hbody (List.isEmpty_iff.mp hempty)
  have hknown : Known tail (utf8Length piece) .start
      ⟨piece.dropWhile Text.isLayout, 0 + utf8Length (piece.takeWhile Text.isLayout)⟩ := by
    constructor
    · rw [Nat.zero_add, ← Text.utf8Length_append, hsplit]
    · apply h.known.closes.imp_right
      intro hcloses
      exact (Nesting.after_dropWhile_isLayout piece).trans hcloses
  have hlayout : ∀ c : Cursor, (do Rule.layout; modifierCall : Rule ModifierCall) c =
      modifierCall ⟨c.rest.dropWhile Text.isLayout,
        c.offset + utf8Length (c.rest.takeWhile Text.isLayout)⟩ := fun _ => rfl
  rw [hlayout, hlayout, htake, hdrop]
  apply agree_modifierCall (h.scan _)
  refine ⟨⟨rfl, ?_, ?_, hknown⟩, fun hnil => absurd hnil hbody⟩
  · rw [Nat.zero_add, Nat.add_comm]
  · exact Nat.lt_succ_of_le (List.dropWhile_suffix _).length_le

theorem offset_le_of_agrees {n bound : Nat} {V : ModifierCall → ModifierCall → Prop}
    {r : Reply ModifierCall} {call : ModifierCall} {next : Cursor}
    (h : Reply.Agrees n V (Beside n tail (Known tail (utf8Length piece)) bound .start) r
      (.ok call next)) : next.offset ≤ n + utf8Length piece := by
  cases h with
  | ok hcall hnext =>
      have hbytes := hnext.scanned.bytes
      rw [hnext.offset_eq]
      omega

theorem modifierCall_separator {x : Char} {rest : List Char} {n : Nat}
    (hx : x = ';' ∨ x = '\n') : ∃ s, modifierCall ⟨x :: rest, n⟩ = .fail false s := by
  rcases hx with rfl | rfl
  · exact ⟨_, rfl⟩
  · exact ⟨_, rfl⟩

theorem modifierCall_offset_le (h : IsPiece piece tail) {n : Nat} {call : ModifierCall}
    {next : Cursor} (hcall : modifierCall ⟨piece ++ tail, n⟩ = .ok call next) :
    next.offset ≤ n + utf8Length piece := by
  by_cases hfirst : piece = [] → tail = []
  · have hagrees := modifierCall_agrees h hfirst n
    rw [hcall] at hagrees
    exact offset_le_of_agrees hagrees
  · obtain ⟨hpiece, htail⟩ := Classical.not_imp.mp hfirst
    exfalso
    cases tail with
    | nil => exact htail rfl
    | cons x rest =>
        subst hpiece
        cases modifierCall_separator (Nesting.separates_iff.mp (h.ends rfl)).2 with
        | intro s hs =>
            rw [List.nil_append, hs] at hcall
            cases hcall

theorem layout_modifierCall_offset_le (h : IsPiece piece tail) (hblank : allBlank piece = false)
    {n : Nat} {call : ModifierCall} {next : Cursor}
    (hcall : (do Rule.layout; modifierCall : Rule ModifierCall) ⟨piece ++ tail, n⟩ =
      .ok call next) : next.offset ≤ n + utf8Length piece := by
  have hagrees := layout_modifierCall_agrees h hblank n
  rw [hcall] at hagrees
  exact offset_le_of_agrees hagrees

end

/-!
## The outcomes of a list
-/

namespace ModifierCall

/-- The outcome of a piece, in a text with `n` more bytes in front. -/
def shiftOutcome (n : Nat) : Except ReadError ModifierCall → Except ReadError ModifierCall
  | .ok call => .ok (call.shift n)
  | .error e => .error (e.shift n)

theorem shift_ofStuck {n : Nat} {s t : Grammar.Stuck} (h : s.Matches n t) :
    ReadError.ofStuck t = (ReadError.ofStuck s).shift n := by
  rw [ReadError.ofStuck, ReadError.ofStuck, ReadError.shift, h.1.1, h.1.2, h.2]

theorem readPiece_append {piece tail : List Char} (h : IsPiece piece tail)
    (hblank : allBlank piece = false) (n : Nat) :
    readPiece ⟨piece ++ tail, n⟩ piece = shiftOutcome n (readPiece ⟨piece, 0⟩ piece) := by
  rw [readPiece, readPiece]
  rcases (layout_modifierCall_agrees h hblank n).cases with
    ⟨call, call', next, next', hc, hd, hcall, hnext⟩ | ⟨x, s, t, hc, hd, hs⟩
  · subst hcall
    have hleft : next'.rest.take (next'.rest.length - ((piece ++ tail).length - piece.length)) =
        next.rest.take (next.rest.length - (piece.length - piece.length)) := by
      rw [hnext.rest_eq, List.length_append, List.length_append, Nat.add_sub_cancel_left,
        Nat.add_sub_cancel, Nat.sub_self, Nat.sub_zero, List.take_left', List.take_length]
      rfl
    rw [hc, hd]
    dsimp only
    rw [hleft, hnext.offset_eq, Nat.zero_add]
    by_cases hstop : next.offset > utf8Length piece
    · rw [if_pos hstop, if_pos (by omega), shiftOutcome, ReadError.shift, Nat.add_comm]
    · rw [if_neg hstop, if_neg (by omega)]
      split
      · rfl
      · rw [shiftOutcome, ReadError.shift, Nat.add_right_comm]
  · rw [hc, hd]
    exact congrArg Except.error (shift_ofStuck hs)

theorem readList_of_undivided {piece : List Char} (h : Nesting.start.Undivided piece) :
    readList (String.ofList piece) =
      if allBlank piece then [] else [readPiece ⟨piece, 0⟩ piece] := by
  rw [readList, Cursor.ofString, String.toList_ofList, modifierPieces_of_undivided h, readPieces,
    readPieces]

theorem readPieces_cons {piece tail : List Char} (h : IsPiece piece tail) (n : Nat)
    (pieces : List (List Char)) :
    readPieces ⟨piece ++ tail, n⟩ (piece :: pieces) =
      (readList (String.ofList piece)).map (shiftOutcome n) ++
        readPieces ⟨(piece ++ tail).drop (piece.length + 1),
          n + utf8Length ((piece ++ tail).take (piece.length + 1))⟩ pieces := by
  rw [readPieces, readList_of_undivided h.undivided]
  cases hblank : allBlank piece with
  | true => rfl
  | false =>
      rw [if_neg Bool.false_ne_true, if_neg Bool.false_ne_true, readPiece_append h hblank]
      rfl

theorem readPieces_of_undivided {piece : List Char} (h : Nesting.start.Undivided piece) (n : Nat) :
    readPieces ⟨piece, n⟩ (modifierPieces .start piece) =
      (readList (String.ofList piece)).map (shiftOutcome n) := by
  have hpieces := readPieces_cons (isPiece_of_undivided h) n []
  rw [List.append_nil, readPieces, List.append_nil] at hpieces
  rw [modifierPieces_of_undivided h, hpieces]

theorem readPieces_of_isPiece {piece rest : List Char} {x : Char} (h : IsPiece piece (x :: rest))
    (n : Nat) :
    readPieces ⟨piece ++ x :: rest, n⟩ (modifierPieces .start (piece ++ x :: rest)) =
      (readList (String.ofList piece)).map (shiftOutcome n) ++
        readPieces ⟨rest, n + utf8Length piece + 1⟩ (modifierPieces .start rest) := by
  have htake : (piece ++ x :: rest).take (piece.length + 1) = piece ++ [x] := by
    rw [List.take_append, List.take_of_length_le (Nat.le_succ _), Nat.add_sub_cancel_left]
    rfl
  have hdrop : (piece ++ x :: rest).drop (piece.length + 1) = rest := by
    rw [List.drop_append, List.drop_of_length_le (Nat.le_succ _), Nat.add_sub_cancel_left]
    rfl
  rw [modifierPieces_of_isPiece h, readPieces_cons h, htake, hdrop, Text.utf8Length_append,
    Text.utf8Length_cons, utf8Size_of_separates (h.ends rfl), Text.utf8Length_nil, Nat.add_assoc]

theorem readPieces_eq_flatMap (front text : List Char) :
    readPieces ⟨text, utf8Length front⟩ (modifierPieces .start text) =
      (pieceSpans (utf8Length front) (modifierPieces .start text)).flatMap fun r =>
        (readList (String.ofList (sliceChars (front ++ text) r.start r.stop))).map
          (shiftOutcome r.start) := by
  induction text using pieces_induction generalizing front with
  | last piece hpiece =>
      have hslice := Text.sliceChars_append front piece []
      rw [List.append_nil] at hslice
      rw [readPieces_of_undivided hpiece, modifierPieces_of_undivided hpiece, pieceSpans,
        pieceSpans, List.flatMap_singleton, hslice]
  | more piece x rest hpiece ih =>
      have hslice := Text.sliceChars_append front piece (x :: rest)
      have hfront : front ++ (piece ++ x :: rest) = front ++ (piece ++ [x]) ++ rest := by
        simp only [List.append_assoc, List.cons_append, List.nil_append]
      rw [readPieces_of_isPiece hpiece, modifierPieces_of_isPiece hpiece, pieceSpans,
        List.flatMap_cons, hslice, ← utf8Length_piece front piece hpiece, ih, hfront]

/--
A list is read piece by piece.  A modifier at the start of a piece ends within
it, also with layout in front unless the piece is blank; and the outcomes of the
list are those of the texts of the pieces, moved to where the pieces start.
-/
theorem readList_eq_flatMap_slice (source : String) :
    (∀ r ∈ modifierSpans source, ∀ call next,
        modifierCall (Cursor.ofOffset source r.start) = .ok call next → next.offset ≤ r.stop) ∧
      (∀ r ∈ modifierSpans source, allBlank (slice source r).toList = false →
        ∀ call next, (do Rule.layout; modifierCall : Rule ModifierCall)
            (Cursor.ofOffset source r.start) = .ok call next →
          next.offset ≤ r.stop) ∧
      readList source = (modifierSpans source).flatMap fun r =>
        (readList (slice source r)).map (shiftOutcome r.start) := by
  refine ⟨?_, ?_, ?_⟩
  · intro r hr call next hcall
    rcases exists_of_mem_modifierSpans hr with ⟨front, piece, tail, htext, rfl, hpiece⟩
    rw [Cursor.ofOffset_append htext] at hcall
    exact modifierCall_offset_le hpiece hcall
  · intro r hr hblank call next hcall
    rcases exists_of_mem_modifierSpans hr with ⟨front, piece, tail, htext, rfl, hpiece⟩
    rw [slice, htext, Text.sliceChars_append, String.toList_ofList] at hblank
    rw [Cursor.ofOffset_append htext] at hcall
    exact layout_modifierCall_offset_le hpiece hblank hcall
  · exact readPieces_eq_flatMap [] source.toList

end ModifierCall
end ViewModifiers
