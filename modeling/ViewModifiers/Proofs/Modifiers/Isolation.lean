import ViewModifiers.Proofs.Expression.Boundaries
import ViewModifiers.Proofs.Modifiers.Segments

/-!
# Isolation of modifiers

A modifier that is read on its own closes its brackets and strings, and so the
scan is back in its start state behind it.  Text that cannot be read need not
close them.  If it does not, the separator behind it separates nothing, and the
modifiers behind it disappear in its piece; otherwise they are read as before.
-/

namespace ViewModifiers

open Grammar (Cursor Reply Rule)
open Expression.Grammar
open Text (utf8Length allBlank)

namespace ModifierCall

/-!
## Modifiers on their own
-/

theorem isBlank_of_isLetter {x : Char} (h : isLetter x = true) : Text.isBlank x = false := by
  have hcode := Syntax.toNat_of_isLetter h
  simp only [Text.isBlank, Bool.or_eq_false_iff, Bool.and_eq_false_iff, decide_eq_false_iff_not,
    beq_eq_false_iff_ne]
  omega

theorem allBlank_eq_false_of_mem {x : Char} {text : List Char} (h : x ∈ text)
    (hx : Text.isBlank x = false) : allBlank text = false := by
  rw [Bool.eq_false_iff, allBlank, Ne, List.all_eq_true]
  intro hall
  have hblank := hall x h
  rw [hx] at hblank
  cases hblank

theorem start_of_modifierCall {c next : Cursor} {call : ModifierCall}
    (h : modifierCall c = .ok call next) :
    call.span.start = c.offset ∧ ∃ x rest, c.rest = x :: rest ∧ isLetter x = true := by
  rcases Rule.exists_of_bind_ok h with ⟨⟨⟨name, arguments⟩, span⟩, mid, hparts, hcall⟩
  cases hcall
  rcases Rule.exists_of_bind_ok hparts with ⟨start, _, hstart, hparts⟩
  cases hstart
  rcases Rule.exists_of_bind_ok hparts with ⟨_, _, hname, hparts⟩
  rcases Rule.exists_of_bind_ok hparts with ⟨stop, _, _, hspan⟩
  cases hspan
  rcases Rule.exists_of_bind_ok hname with ⟨name', _, hidentifier, _⟩
  refine ⟨rfl, ?_⟩
  rw [Rule.expecting, identifier] at hidentifier
  cases hrest : c.rest with
  | nil =>
      rw [hrest] at hidentifier
      cases hidentifier
  | cons x rest =>
      refine ⟨x, rest, rfl, ?_⟩
      by_contra hx
      rw [hrest] at hidentifier
      dsimp only at hidentifier
      rw [if_neg hx] at hidentifier
      cases hidentifier

theorem exists_of_read {source : String} {call : ModifierCall} (h : read source = .ok call) :
    ∃ next, modifierCall ⟨source.toList.dropWhile Text.isLayout,
          0 + utf8Length (source.toList.takeWhile Text.isLayout)⟩ = .ok call next ∧
      next.rest.dropWhile Text.isLayout = [] := by
  rw [read, Rule.read] at h
  cases hrun : (Rule.padded modifierCall).complete (Cursor.ofString source) with
  | fail x s =>
      rw [hrun] at h
      cases h
  | ok call' last =>
      rw [hrun] at h
      cases h
      rcases Rule.exists_of_bind_ok hrun with ⟨call', behind, hpadded, hend⟩
      rcases Rule.exists_of_bind_ok hend with ⟨_, _, hatEnd, hcall⟩
      cases hcall
      rcases Rule.exists_of_bind_ok hpadded with ⟨_, _, hlayout, hpadded⟩
      cases hlayout
      rcases Rule.exists_of_bind_ok hpadded with ⟨call'', next, hread, hbehind⟩
      cases hbehind
      refine ⟨next, hread, ?_⟩
      rw [Rule.atEnd] at hatEnd
      by_contra hne
      rw [if_neg hne] at hatEnd
      cases hatEnd

/-- The state behind a whole text is known throughout, and nothing is behind the text. -/
theorem scan_after (behind : Nesting) :
    Scan [] fun state c => state.after c.rest = behind :=
  ⟨fun h => h, fun _ _ => rfl, nofun⟩

theorem after_eq_of_read {source : String} {call : ModifierCall} (h : read source = .ok call) :
    Nesting.start.after source.toList = .start := by
  rcases exists_of_read h with ⟨next, hread, hrest⟩
  have hagrees : Reply.Agrees 0 (fun a b => b = a.shift 0)
      (Beside 0 [] (fun state c => state.after c.rest = Nesting.start.after source.toList)
        ((source.toList.dropWhile Text.isLayout).length + 1) .start)
      (.ok call next) (.ok call next) := by
    rw [← hread]
    apply agree_modifierCall (scan_after _)
    refine ⟨⟨(List.append_nil _).symm, rfl, Nat.lt_succ_self _, ?_⟩, fun _ => rfl⟩
    exact Nesting.after_dropWhile_isLayout source.toList
  cases hagrees with
  | ok hcall hnext =>
      rw [← hnext.scanned, ← Nesting.after_dropWhile_isLayout, hrest]
      rfl

theorem not_allBlank_of_read {source : String} {call : ModifierCall}
    (h : read source = .ok call) : allBlank source.toList = false := by
  rcases exists_of_read h with ⟨next, hread, hrest⟩
  rcases (start_of_modifierCall hread).2 with ⟨x, rest, htext, hx⟩
  have hmem : x ∈ source.toList := by
    apply (List.dropWhile_suffix Text.isLayout).subset
    have hbody : source.toList.dropWhile Text.isLayout = x :: rest := htext
    rw [hbody]
    exact List.mem_cons_self
  exact allBlank_eq_false_of_mem hmem (isBlank_of_isLetter hx)

theorem readList_of_read {source : String} {call : ModifierCall} (h : read source = .ok call)
    (hundivided : Nesting.start.Undivided source.toList) : readList source = [.ok call] := by
  have hblank := not_allBlank_of_read h
  rcases exists_of_read h with ⟨next, hread, hrest⟩
  have hrun : (do Rule.layout; modifierCall : Rule ModifierCall) ⟨source.toList, 0⟩ =
      .ok call next := hread
  have hstop : next.offset ≤ 0 + utf8Length source.toList := by
    apply layout_modifierCall_offset_le (isPiece_of_undivided hundivided) hblank
    rw [List.append_nil]
    exact hrun
  have hleft : allBlank (next.rest.take
      (next.rest.length - (source.toList.length - source.toList.length))) = true := by
    rw [Nat.sub_self, Nat.sub_zero, List.take_length, allBlank, List.all_eq_true]
    intro x hx
    exact Text.isBlank_of_isLayout (List.dropWhile_eq_nil_iff.mp hrest x hx)
  have hlist := readList_of_undivided hundivided
  rw [String.ofList_toList, hblank, if_neg Bool.false_ne_true, readPiece, hrun] at hlist
  rw [hlist]
  dsimp only
  rw [if_neg (Nat.not_lt.mpr hstop), if_pos hleft]

theorem span_start_of_read {source : String} {call : ModifierCall} (h : read source = .ok call) :
    call.span.start = utf8Length (source.toList.takeWhile Text.isLayout) := by
  rcases exists_of_read h with ⟨next, hread, _⟩
  rw [(start_of_modifierCall hread).1]
  exact Nat.zero_add _

/-!
## Places of outcomes
-/

theorem readPiece_eq_ok {c : Cursor} {piece : List Char} {call : ModifierCall}
    (h : readPiece c piece = .ok call) :
    ∃ next, (do Rule.layout; modifierCall : Rule ModifierCall) c = .ok call next ∧
      next.offset ≤ c.offset + utf8Length piece ∧
      allBlank (next.rest.take (next.rest.length - (c.rest.length - piece.length))) = true := by
  cases hrun : (do Rule.layout; modifierCall : Rule ModifierCall) c with
  | fail x s =>
      rw [readPiece, hrun] at h
      cases h
  | ok call' next =>
      rw [readPiece, hrun] at h
      dsimp only at h
      split at h
      · cases h
      · next hstop =>
          split at h
          · next hblank =>
              cases h
              exact ⟨next, rfl, Nat.not_lt.mp hstop, hblank⟩
          · cases h

theorem start_le_of_readPiece {c : Cursor} {piece : List Char} {call : ModifierCall}
    (h : readPiece c piece = .ok call) : c.offset ≤ call.span.start := by
  rcases readPiece_eq_ok h with ⟨next, hrun, _⟩
  have hstart : call.span.start = c.offset + utf8Length (c.rest.takeWhile Text.isLayout) :=
    (start_of_modifierCall hrun).1
  rw [hstart]
  exact Nat.le_add_right _ _

theorem start_le_of_mem_readPieces {c : Cursor} {pieces : List (List Char)} {call : ModifierCall}
    (h : .ok call ∈ readPieces c pieces) : c.offset ≤ call.span.start := by
  induction pieces generalizing c with
  | nil =>
      unfold readPieces at h
      cases h
  | cons piece pieces ih =>
      unfold readPieces at h
      split at h
      · exact Nat.le_trans (Nat.le_add_right _ _) (ih h)
      · rcases List.mem_cons.mp h with h | h
        · exact start_le_of_readPiece h.symm
        · exact Nat.le_trans (Nat.le_add_right _ _) (ih h)

/-- In a text that is one piece, layout in front ends before each semicolon and line break. -/
theorem utf8Length_takeWhile_le {front rest : List Char} {x : Char} (hx : x = ';' ∨ x = '\n')
    (h : Nesting.start.Undivided (front ++ x :: rest)) :
    utf8Length ((front ++ x :: rest).takeWhile Text.isLayout) ≤ utf8Length front := by
  have hsplit : front.takeWhile Text.isLayout ++ front.dropWhile Text.isLayout = front :=
    List.takeWhile_append_dropWhile
  rw [List.takeWhile_append]
  split
  · next hall =>
      exfalso
      have hdrop : front.dropWhile Text.isLayout = [] := by
        have htotal := congrArg List.length hsplit
        rw [List.length_append] at htotal
        exact List.eq_nil_of_length_eq_zero (by omega)
      have hafter := Nesting.after_dropWhile_isLayout front
      rw [hdrop, Nesting.after_nil] at hafter
      have hfirst := (Nesting.undivided_append.mp h).2
      rw [← hafter] at hfirst
      have hseparates : Nesting.start.separates x = true := Nesting.separates_iff.mpr ⟨rfl, hx⟩
      rw [hfirst.1] at hseparates
      cases hseparates
  · have htotal := congrArg utf8Length hsplit
    rw [Text.utf8Length_append] at htotal
    omega

/-!
## A modifier behind arbitrary text
-/

section
variable {b : List Char} {c : String} {call : ModifierCall}

theorem exists_readList_eq_singleton (hb : Nesting.start.Undivided b)
    (hblank : allBlank b = false) : ∃ slot, readList (String.ofList b) = [slot] := by
  rw [readList_of_undivided hb, hblank]
  exact ⟨_, rfl⟩

theorem length_readList_le_one (hb : Nesting.start.Undivided b) :
    (readList (String.ofList b)).length ≤ 1 := by
  rw [readList_of_undivided hb]
  split
  · exact Nat.zero_le 1
  · exact Nat.le_refl 1

theorem readPieces_of_closed (hsemicolon : ';' ∉ b) (hbreak : '\n' ∉ b)
    (hblank : allBlank b = false) (hread : read c = .ok call)
    (hc : Nesting.start.Undivided c.toList) (hclosed : Nesting.start.after b = .start) (n : Nat) :
    ∃ slot, readPieces ⟨b ++ ';' :: c.toList, n⟩ (modifierPieces .start (b ++ ';' :: c.toList)) =
      [slot, .ok (call.shift (n + utf8Length b + 1))] := by
  have hpiece : IsPiece b (';' :: c.toList) := by
    refine ⟨Nesting.undivided_of_notMem hsemicolon hbreak .start, ?_⟩
    intro x rest htail
    cases htail
    rw [hclosed]
    rfl
  cases exists_readList_eq_singleton hpiece.undivided hblank with
  | intro slot hslot =>
      refine ⟨shiftOutcome n slot, ?_⟩
      rw [readPieces_of_isPiece hpiece, hslot, readPieces_of_undivided hc, String.ofList_toList,
        readList_of_read hread hc]
      rfl

/-- The first piece behind text that leaves something open goes on into the text behind it. -/
theorem exists_of_piece_eq (hsemicolon : ';' ∉ b) (hbreak : '\n' ∉ b)
    (hopen : Nesting.start.after b ≠ .start) {piece rest back : List Char} {x : Char}
    (htext : b ++ ';' :: back = piece ++ x :: rest)
    (hx : (Nesting.start.after piece).separates x = true) :
    ∃ front, piece = b ++ ';' :: front ∧ back = front ++ x :: rest := by
  have hsame : ∀ piece : List Char, (Nesting.start.after piece).separates x = true →
      piece ≠ b := by
    intro piece hx heq
    subst heq
    exact hopen (Nesting.separates_iff.mp hx).1
  rcases List.append_eq_append_iff.mp htext with ⟨m, hpiece, hrest⟩ | ⟨m, hpiece, hrest⟩
  · cases m with
    | nil => exact absurd (hpiece.trans (List.append_nil b)) (hsame piece hx)
    | cons y front =>
        cases hrest
        exact ⟨front, hpiece, rfl⟩
  · cases m with
    | nil => exact absurd (hpiece.trans (List.append_nil piece)).symm (hsame piece hx)
    | cons y front =>
        cases hrest
        have hmem : x ∈ b := by
          rw [hpiece]
          exact List.mem_append_right piece List.mem_cons_self
        rcases (Nesting.separates_iff.mp hx).2 with hx | hx
        · exact absurd (hx ▸ hmem) hsemicolon
        · exact absurd (hx ▸ hmem) hbreak

/-- Behind text that leaves something open, the modifier has no outcome of its own. -/
theorem closed_of_readPieces (hsemicolon : ';' ∉ b) (hbreak : '\n' ∉ b)
    (hread : read c = .ok call) (hc : Nesting.start.Undivided c.toList) {n : Nat}
    {slot : Except ReadError ModifierCall}
    (h : readPieces ⟨b ++ ';' :: c.toList, n⟩ (modifierPieces .start (b ++ ';' :: c.toList)) =
      [slot, .ok (call.shift (n + utf8Length b + 1))]) : Nesting.start.after b = .start := by
  by_contra hopen
  rcases undivided_or_exists_piece .start (b ++ ';' :: c.toList) with
    hwhole | ⟨piece, x, rest, htext, hpiece, hx⟩
  · have hlength := length_readList_le_one hwhole
    have htwo := congrArg List.length h
    rw [readPieces_of_undivided hwhole, List.length_map] at htwo
    rw [htwo] at hlength
    exact absurd hlength (Nat.not_succ_le_self 1)
  · rcases exists_of_piece_eq hsemicolon hbreak hopen htext hx with ⟨front, hfront, hback⟩
    have hisPiece : IsPiece piece (x :: rest) := by
      refine ⟨hpiece, ?_⟩
      intro y rest' htail
      cases htail
      exact hx
    -- The first piece has one outcome at most, so the modifier would have to be found behind
    -- the separator that ends it; but this separator stands within the modifier.
    have hlast : .ok (call.shift (n + utf8Length b + 1)) ∈
        readPieces ⟨rest, n + utf8Length piece + 1⟩ (modifierPieces .start rest) := by
      rw [htext, readPieces_of_isPiece hisPiece] at h
      have hlength := length_readList_le_one hisPiece.undivided
      cases hfirst : readList (String.ofList piece) with
      | nil =>
          rw [hfirst, List.map_nil, List.nil_append] at h
          rw [h]
          exact List.mem_cons_of_mem _ List.mem_cons_self
      | cons outcome more =>
          rw [hfirst, List.length_cons] at hlength
          have hmore : more = [] := List.eq_nil_of_length_eq_zero (by omega)
          rw [hfirst, hmore, List.map_cons, List.map_nil, List.cons_append, List.nil_append] at h
          rw [(List.cons.inj h).2]
          exact List.mem_cons_self
    have hstart := start_le_of_mem_readPieces hlast
    have hlayout : call.span.start ≤ utf8Length front := by
      rw [span_start_of_read hread, hback]
      rw [hback] at hc
      exact utf8Length_takeWhile_le (Nesting.separates_iff.mp hx).2 hc
    have hbytes : utf8Length piece = utf8Length b + (1 + utf8Length front) := by
      rw [hfront, Text.utf8Length_append, Text.utf8Length_cons]
      rfl
    have hshift : (call.shift (n + utf8Length b + 1)).span.start =
        call.span.start + (n + utf8Length b + 1) := rfl
    rw [hshift] at hstart
    dsimp only at hstart
    omega

end

/--
Two modifiers that are read on their own are found at the ends of a list with
arbitrary text between them, with one outcome for the text, if and only if the
text closes all brackets and strings that it opens.
-/
theorem readList_eq_iff_closed {a b c : String} {callA callC : ModifierCall}
    (ha : read a = .ok callA) (hc : read c = .ok callC)
    (haWhole : Nesting.start.Undivided a.toList) (hcWhole : Nesting.start.Undivided c.toList)
    (hsemicolon : ';' ∉ b.toList) (hbreak : '\n' ∉ b.toList)
    (hblank : allBlank b.toList = false) :
    (∃ slot, readList (a ++ ";" ++ b ++ ";" ++ c) =
        [.ok callA, slot, .ok (callC.shift (utf8Length (a ++ ";" ++ b ++ ";").toList))]) ↔
      Nesting.start.after b.toList = .start := by
  have htext : (a ++ ";" ++ b ++ ";" ++ c).toList =
      a.toList ++ ';' :: (b.toList ++ ';' :: c.toList) := by
    simp [String.toList_append]
  have hbytes : utf8Length (a ++ ";" ++ b ++ ";").toList =
      0 + utf8Length a.toList + 1 + utf8Length b.toList + 1 := by
    have hseparator : utf8Length ";".toList = 1 := rfl
    simp only [String.toList_append, Text.utf8Length_append, hseparator, Nat.zero_add]
  have hpiece : IsPiece a.toList (';' :: (b.toList ++ ';' :: c.toList)) := by
    refine ⟨haWhole, ?_⟩
    intro x rest htail
    cases htail
    rw [after_eq_of_read ha]
    rfl
  have hlist : readList (a ++ ";" ++ b ++ ";" ++ c) = .ok callA ::
      readPieces ⟨b.toList ++ ';' :: c.toList, 0 + utf8Length a.toList + 1⟩
        (modifierPieces .start (b.toList ++ ';' :: c.toList)) := by
    rw [readList, Cursor.ofString, htext, readPieces_of_isPiece hpiece, String.ofList_toList,
      readList_of_read ha haWhole, List.map_singleton, shiftOutcome, shift_zero]
    rfl
  rw [hlist, hbytes]
  constructor
  · intro h
    cases h with
    | intro slot h => exact closed_of_readPieces hsemicolon hbreak hc hcWhole (List.cons.inj h).2
  · intro hclosed
    cases readPieces_of_closed hsemicolon hbreak hblank hc hcWhole hclosed
      (0 + utf8Length a.toList + 1) with
    | intro slot h => exact ⟨slot, congrArg (.ok callA :: ·) h⟩

theorem read_eq_of_any {source name : String} {span : Text.Span}
    (h : (read source).toOption.any (fun call =>
      decide (call.name = name ∧ call.arguments = [] ∧ call.span = span)) = true) :
    read source = .ok ⟨name, [], span⟩ := by
  rcases exists_eq_ok_of_any h with ⟨⟨name, arguments, span⟩, hread, htest⟩
  rcases of_decide_eq_true htest with ⟨rfl, rfl, rfl⟩
  exact hread

theorem read_bold : read "bold()" = .ok ⟨"bold", [], ⟨0, 6⟩⟩ :=
  read_eq_of_any (by decide +kernel)

theorem read_italic : read "italic()" = .ok ⟨"italic", [], ⟨0, 8⟩⟩ :=
  read_eq_of_any (by decide +kernel)

/-- Text that leaves a parenthesis open between two modifiers. -/
theorem readList_eq_iff_closed_padding :
    read "bold()" = .ok ⟨"bold", [], ⟨0, 6⟩⟩ ∧ read "italic()" = .ok ⟨"italic", [], ⟨0, 8⟩⟩ ∧
      ((∃ slot, readList ("bold()" ++ ";" ++ "padding(" ++ ";" ++ "italic()") =
          [.ok ⟨"bold", [], ⟨0, 6⟩⟩, slot, .ok ((ModifierCall.mk "italic" [] ⟨0, 8⟩).shift
            (utf8Length ("bold()" ++ ";" ++ "padding(" ++ ";").toList))]) ↔
        Nesting.start.after "padding(".toList = .start) := by
  refine ⟨read_bold, read_italic, readList_eq_iff_closed read_bold read_italic ?_ ?_ ?_ ?_ ?_⟩
  · exact Nesting.undivided_of_notMem (by decide) (by decide) .start
  · exact Nesting.undivided_of_notMem (by decide) (by decide) .start
  · decide
  · decide
  · decide

/-- An open parenthesis between two modifiers takes the second one with it. -/
theorem not_isolated_behind_open_parenthesis :
    ¬ ∀ (a b c : String) (callA callC : ModifierCall),
      read a = .ok callA → read c = .ok callC →
      Nesting.start.Undivided a.toList → Nesting.start.Undivided c.toList →
      ';' ∉ b.toList → '\n' ∉ b.toList → allBlank b.toList = false →
      ∃ slot, readList (a ++ ";" ++ b ++ ";" ++ c) =
        [.ok callA, slot, .ok (callC.shift (utf8Length (a ++ ";" ++ b ++ ";").toList))] := by
  intro h
  have hthree := h "bold()" "padding(" "italic()" ⟨"bold", [], ⟨0, 6⟩⟩ ⟨"italic", [], ⟨0, 8⟩⟩
    read_bold read_italic (Nesting.undivided_of_notMem (by decide) (by decide) .start)
    (Nesting.undivided_of_notMem (by decide) (by decide) .start) (by decide) (by decide)
    (by decide)
  have htwo : (readList ("bold()" ++ ";" ++ "padding(" ++ ";" ++ "italic()")).length = 2 := by
    decide +kernel
  cases hthree with
  | intro slot hslot =>
      rw [hslot] at htwo
      cases htwo

end ModifierCall
end ViewModifiers
