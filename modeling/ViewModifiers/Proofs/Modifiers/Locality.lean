import ViewModifiers.Proofs.Expression.Shift
import ViewModifiers.Proofs.Grammar.Agreement
import ViewModifiers.Proofs.Modifiers.Nesting

/-!
# Reading within a piece

A modifier that is read at the start of a piece of a list sees all of the text
behind the piece.  It is read in the same way from the piece alone: between the
parentheses of its arguments the scan for separators is never in its start
state, and therefore no rule gets to the end of the piece while the text goes on.

The scan enters as a property of the text which is still to be read, kept by
each character.  The argument needs of it only that the text does not end within
brackets or a string unless there is nothing behind.
-/

namespace ViewModifiers
namespace Expression
namespace Grammar

open ViewModifiers.Grammar
open ViewModifiers.Grammar.Rule

/-- What a scan knows of the text before `tail`. -/
structure Scan (tail : List Char) (known : Nesting → Cursor → Prop) : Prop where
  /-- The knowledge is kept by each character. -/
  step : ∀ {state : Nesting} {x : Char} {rest : List Char} {offset : Nat},
    known state ⟨x :: rest, offset⟩ → known (state.step x) ⟨rest, offset + x.utf8Size⟩
  /-- Within brackets or a string the text ends only where nothing is behind it. -/
  stop : ∀ {state : Nesting} {offset : Nat}, known state ⟨[], offset⟩ → state ≠ .start → tail = []
  /-- What is behind starts with a separator. -/
  separator : ∀ {x : Char} {rest : List Char}, tail = x :: rest → x = ';' ∨ x = '\n'

/--
One cursor is in a text with fewer than `bound` characters left, where the scan
is in a state; the other one is in the same text with `n` bytes in front of it
and `tail` behind.
-/
structure Beside (n : Nat) (tail : List Char) (known : Nesting → Cursor → Prop)
    (bound : Nat) (state : Nesting) (c d : Cursor) : Prop where
  rest_eq : d.rest = c.rest ++ tail
  offset_eq : d.offset = c.offset + n
  length_lt : c.rest.length < bound
  scanned : known state c

/-- The two cursors stand before the same character, or at the end of both texts. -/
structure Facing (n : Nat) (tail : List Char) (known : Nesting → Cursor → Prop)
    (bound : Nat) (state : Nesting) (c d : Cursor) : Prop
    extends Beside n tail known bound state c d where
  solid : c.rest = [] → tail = []

section
variable {n : Nat} {tail : List Char} {known : Nesting → Cursor → Prop}
variable {bound : Nat} {state : Nesting} {c d : Cursor}

theorem Beside.mono {bound' : Nat} (h : Beside n tail known bound state c d)
    (hbound : bound ≤ bound') : Beside n tail known bound' state c d :=
  ⟨h.rest_eq, h.offset_eq, Nat.lt_of_lt_of_le h.length_lt hbound, h.scanned⟩

theorem Facing.matches (h : Facing n tail known bound state c d) : c.Matches n d := by
  refine ⟨h.offset_eq, ?_⟩
  rw [h.rest_eq]
  cases hrest : c.rest with
  | nil => rw [h.solid hrest, List.nil_append]
  | cons x rest => rfl

abbrev within (k : Nat) : Nesting :=
  ⟨.outside, k + 1⟩

theorem within_ne_start (k : Nat) : within k ≠ .start := by
  intro h
  cases h

theorem Beside.facing (hscan : Scan tail known) (hstate : state ≠ .start)
    (h : Beside n tail known bound state c d) : Facing n tail known bound state c d := by
  refine ⟨h, ?_⟩
  intro hrest
  have hknown := h.scanned
  cases c with
  | mk rest offset =>
      cases hrest
      exact hscan.stop hknown hstate

theorem Beside.tight (h : Beside n tail known bound state c d) :
    Beside n tail known (c.rest.length + 1) state c d :=
  ⟨h.rest_eq, h.offset_eq, Nat.lt_succ_self _, h.scanned⟩

abbrev Inside (n : Nat) (tail : List Char) (known : Nesting → Cursor → Prop) (bound k : Nat)
    (V : α → β → Prop) (p : Rule α) (q : Rule β) : Prop :=
  Agree n (Beside n tail known bound (within k)) (Beside n tail known bound (within k)) V p q

theorem agree_widen {P : Cursor → Cursor → Prop} {bound' : Nat} {V : α → β → Prop}
    {p : Rule α} {q : Rule β} (hbound : bound' ≤ bound)
    (h : Agree n P (Beside n tail known bound' state) V p q) :
    Agree n P (Beside n tail known bound state) V p q := by
  apply h.weaken
  · exact fun _ _ h => h
  · exact fun _ _ h => h.mono hbound
  · exact fun _ _ h => h

/-- Between brackets the cursors stand before the same character. -/
theorem agree_of_facing (hscan : Scan tail known) {bound' k : Nat} {V : α → β → Prop}
    {p : Rule α} {q : Rule β} (hbound : bound' ≤ bound)
    (h : Agree n (Facing n tail known bound (within k)) (Beside n tail known bound' state)
      V p q) :
    Agree n (Beside n tail known bound (within k)) (Beside n tail known bound state) V p q := by
  apply (agree_widen hbound h).weaken
  · exact fun _ _ h => h.facing hscan (within_ne_start k)
  · exact fun _ _ h => h
  · exact fun _ _ h => h

theorem agree_of_length {state' : Nesting} {V : α → β → Prop} (p : Nat → Rule α)
    (q : Nat → Rule β)
    (h : ∀ length length', length < bound → length ≤ length' →
      Agree n (Beside n tail known (length + 1) state) (Beside n tail known (length + 1) state') V
        (p length) (q length')) :
    Agree n (Beside n tail known bound state) (Beside n tail known bound state') V
      (fun c => p c.rest.length c) (fun d => q d.rest.length d) := by
  intro c d hcd
  have hlength : c.rest.length ≤ d.rest.length := by
    rw [hcd.rest_eq, List.length_append]
    exact Nat.le_add_right _ _
  have htight := h c.rest.length d.rest.length hcd.length_lt hlength
  exact agree_widen (Nat.succ_le_of_lt hcd.length_lt) htight c d hcd.tight

/-!
## Characters
-/

theorem agree_char (hscan : Scan tail known) (x : Char) :
    Agree n (Facing n tail known bound state) (Beside n tail known (bound - 1) (state.step x))
      (fun _ _ => True) (char x) (char x) := by
  intro c d h
  have hknown := h.scanned
  have hlength := h.length_lt
  cases c with
  | mk rest offset =>
      rw [char, char]
      cases rest with
      | nil =>
          rw [h.rest_eq, h.solid rfl]
          exact .fail ⟨h.matches, rfl⟩
      | cons y rest =>
          rw [h.rest_eq, List.cons_append]
          by_cases hy : y = x
          · subst hy
            simp only [if_pos]
            refine .ok trivial ⟨rfl, ?_, ?_, hscan.step hknown⟩
            · simp only [h.offset_eq]
              omega
            · exact Nat.lt_sub_of_add_lt hlength
          · simp only [if_neg hy]
            exact .fail ⟨h.matches, rfl⟩

/-- A class of characters that a scan passes without a change, and that ends before separators. -/
structure Passes (keep : Char → Bool) (state : Nesting) : Prop where
  step_eq : ∀ {c : Char}, keep c = true → state.step c = state
  before_separator : state = .start → keep ';' = false ∧ keep '\n' = false

/-- Behind a run of a class that the scan passes, nothing has changed. -/
theorem takeWhile_append_tail (hscan : Scan tail known) {keep : Char → Bool}
    (hkeep : Passes keep state) {rest : List Char} {offset : Nat} (h : known state ⟨rest, offset⟩) :
    (rest ++ tail).takeWhile keep = rest.takeWhile keep ∧
      (rest ++ tail).dropWhile keep = rest.dropWhile keep ++ tail ∧
      known state ⟨rest.dropWhile keep, offset + Text.utf8Length (rest.takeWhile keep)⟩ := by
  induction rest generalizing offset with
  | nil =>
      refine ⟨?_, ?_, h⟩ <;>
      · cases htail : tail with
        | nil => rfl
        | cons x more =>
            have hx : keep x = false := by
              have hstart : state = .start := by
                by_contra hne
                rw [hscan.stop h hne] at htail
                cases htail
              have hends := hkeep.before_separator hstart
              rcases hscan.separator htail with rfl | rfl
              · exact hends.1
              · exact hends.2
            simp [hx]
  | cons x rest ih =>
      by_cases hx : keep x = true
      · have hknown := hscan.step h
        rw [hkeep.step_eq hx] at hknown
        rcases ih hknown with ⟨htake, hdrop, hstill⟩
        simp only [List.cons_append, List.takeWhile_cons, List.dropWhile_cons, hx, if_true,
          Text.utf8Length_cons, ← Nat.add_assoc]
        exact ⟨congrArg (x :: ·) htake, hdrop, hstill⟩
      · simp only [List.cons_append, List.takeWhile_cons, List.dropWhile_cons, hx]
        exact ⟨rfl, rfl, h⟩

theorem agree_takeWhile (hscan : Scan tail known) {keep : Char → Bool}
    (hkeep : Passes keep state) :
    Agree n (Beside n tail known bound state) (Beside n tail known bound state) Eq
      (takeWhile keep) (takeWhile keep) := by
  intro c d h
  rcases takeWhile_append_tail hscan hkeep h.scanned with ⟨htake, hdrop, hknown⟩
  rw [takeWhile, takeWhile, h.rest_eq, h.offset_eq, htake, hdrop]
  refine .ok rfl ⟨rfl, ?_, ?_, hknown⟩
  · exact Nat.add_right_comm _ _ _
  · exact Nat.lt_of_le_of_lt (List.dropWhile_suffix keep).length_le h.length_lt

theorem agree_takeWhile1 (hscan : Scan tail known) {keep : Char → Bool}
    (hkeep : Passes keep state) :
    Agree n (Facing n tail known bound state) (Beside n tail known bound state) Eq
      (takeWhile1 keep) (takeWhile1 keep) := by
  intro c d h
  have htake := (takeWhile_append_tail hscan hkeep h.scanned).1
  rw [takeWhile1, takeWhile1, h.rest_eq, htake]
  by_cases hnone : c.rest.takeWhile keep = []
  · rw [if_pos hnone, if_pos hnone]
    exact .fail ⟨h.matches, rfl⟩
  · rw [if_neg hnone, if_neg hnone]
    exact agree_takeWhile hscan hkeep c d h.toBeside

theorem passes_within {keep : Char → Bool} (hmarks : Nesting.marks.any keep = false)
    (k : Nat) : Passes keep (within k) :=
  ⟨fun hc => Nesting.step_of_class hmarks hc (k + 1), fun h => absurd h (within_ne_start k)⟩

theorem passes_outside {keep : Char → Bool} (hmarks : Nesting.marks.any keep = false)
    (hsemicolon : keep ';' = false) (hbreak : keep '\n' = false) (depth : Nat) :
    Passes keep ⟨.outside, depth⟩ :=
  ⟨fun hc => Nesting.step_of_class hmarks hc depth, fun _ => ⟨hsemicolon, hbreak⟩⟩

/-!
## Names, layout and operators
-/

theorem agree_identifier (hscan : Scan tail known) (depth : Nat) :
    Agree n (Facing n tail known bound ⟨.outside, depth⟩)
      (Beside n tail known bound ⟨.outside, depth⟩) Eq identifier identifier := by
  have hkeep : Passes isLetterOrDigit ⟨.outside, depth⟩ :=
    passes_outside (by decide) (by decide) (by decide) depth
  intro c d h
  rw [identifier, identifier]
  cases hrest : c.rest with
  | nil =>
      rw [h.rest_eq, hrest, h.solid hrest]
      exact .fail ⟨h.matches, rfl⟩
  | cons x rest =>
      rw [h.rest_eq, hrest, List.cons_append]
      dsimp only
      by_cases hx : isLetter x = true
      · rw [if_pos hx, if_pos hx]
        rcases (agree_takeWhile hscan hkeep c d h.toBeside).cases with
          ⟨a, b, c', d', hc, hd, rfl, hcd⟩ | ⟨_, _, _, hc, hd, hs⟩
        · rw [run, run, hc, hd]
          exact .ok rfl hcd
        · rw [run, run, hc, hd]
          exact .fail hs
      · rw [if_neg hx, if_neg hx]
        exact .fail ⟨h.matches, rfl⟩

theorem agree_layout (hscan : Scan tail known) (k : Nat) :
    Inside n tail known bound k (fun _ _ => True) layout layout := by
  apply (agree_takeWhile hscan (passes_within (by decide) k)).andThen
  exact .pure trivial

theorem agree_inlineLayout (hscan : Scan tail known) (depth : Nat) :
    Agree n (Beside n tail known bound ⟨.outside, depth⟩)
      (Beside n tail known bound ⟨.outside, depth⟩) (fun _ _ => True)
      inlineLayout inlineLayout := by
  apply (agree_takeWhile hscan (passes_outside (by decide) (by decide) (by decide) depth)).andThen
  exact .pure trivial

theorem agree_plainChar (hscan : Scan tail known) {x : Char} (hx : x ∉ Nesting.marks) (k : Nat) :
    Agree n (Beside n tail known bound (within k)) (Beside n tail known (bound - 1) (within k))
      (fun _ _ => True) (char x) (char x) := by
  have hchar : Agree n (Facing n tail known bound (within k))
      (Beside n tail known (bound - 1) ((within k).step x)) (fun _ _ => True)
      (char x) (char x) := agree_char hscan x
  rw [Nesting.step_of_notMem_marks hx] at hchar
  exact hchar.weaken (fun _ _ h => h.facing hscan (within_ne_start k)) (fun _ _ h => h)
    (fun _ _ h => h)

theorem inside_plainChar (hscan : Scan tail known) {x : Char} (hx : x ∉ Nesting.marks) (k : Nat) :
    Inside n tail known bound k (fun _ _ => True) (char x) (char x) :=
  agree_widen (Nat.sub_le bound 1) (agree_plainChar hscan hx k)

/-- The rest behind a word is found at both places, or at none. -/
theorem skip?_agrees (hscan : Scan tail known) {k : Nat} {word : List Char}
    (hword : word.any (fun x => Nesting.marks.contains x) = false) {c d : Cursor}
    (h : Beside n tail known bound (within k) c d) :
    (∃ c' d', Cursor.skip? word c = some c' ∧ Cursor.skip? word d = some d' ∧
        Beside n tail known bound (within k) c' d') ∨
      Cursor.skip? word c = none ∧ Cursor.skip? word d = none := by
  induction word generalizing c d with
  | nil => exact Or.inl ⟨c, d, by rw [Cursor.skip?], by rw [Cursor.skip?], h⟩
  | cons w word ih =>
      have hsolid := (h.facing hscan (within_ne_start k)).solid
      have hrestEq := h.rest_eq
      have hlength := h.length_lt
      have hknown := h.scanned
      have hoffset := h.offset_eq
      rcases c with ⟨rest, offset⟩
      rcases d with ⟨rest', offset'⟩
      dsimp only at hsolid hrestEq hlength hknown hoffset
      subst hrestEq
      cases rest with
      | nil =>
          rw [hsolid rfl, List.nil_append, Cursor.skip?, Cursor.skip?]
          exact Or.inr ⟨rfl, rfl⟩
      | cons x rest =>
          rw [List.cons_append, Cursor.skip?, Cursor.skip?]
          by_cases hx : x = w
          · rw [if_pos hx, if_pos hx]
            rw [List.any_cons, Bool.or_eq_false_iff, ← hx] at hword
            have hplain : x ∉ Nesting.marks := by
              intro hmark
              rw [List.contains_iff_mem.mpr hmark] at hword
              exact Bool.false_ne_true hword.1.symm
            have hstep := hscan.step hknown
            rw [Nesting.step_of_notMem_marks hplain] at hstep
            rw [List.length_cons] at hlength
            refine ih hword.2 ⟨rfl, ?_, ?_, hstep⟩
            · dsimp only
              omega
            · exact Nat.lt_of_succ_lt hlength
          · rw [if_neg hx, if_neg hx]
            exact Or.inr ⟨rfl, rfl⟩

theorem agree_word (hscan : Scan tail known) {text : String}
    (htext : text.toList.any (fun x => Nesting.marks.contains x) = false) (k : Nat) :
    Inside n tail known bound k (fun _ _ => True) (word text) (word text) := by
  intro c d h
  rw [word, word]
  rcases skip?_agrees hscan htext h with ⟨c', d', hc, hd, hcd⟩ | ⟨hc, hd⟩
  · rw [hc, hd]
    exact .ok trivial hcd
  · rw [hc, hd]
    exact .fail ⟨(h.facing hscan (within_ne_start k)).matches, rfl⟩

theorem agree_rangeOperator (hscan : Scan tail known) (k : Nat) :
    Inside n tail known bound k Eq rangeOperator rangeOperator := by
  have hoperator : ∀ (text : String) (closed : Bool),
      text.toList.any (fun x => Nesting.marks.contains x) = false →
      Inside n tail known bound k Eq (do word text; return closed)
        (do word text; return closed) := by
    intro text closed htext
    apply (agree_word hscan htext k).andThen
    exact .pure rfl
  apply Agree.oneOf fun _ _ h => (h.facing hscan (within_ne_start k)).matches
  exact .cons (hoperator "..." true (by decide)) (.cons (hoperator "..<" false (by decide))
    (.cons (hoperator ".." false (by decide)) .nil))

/-!
## Literals
-/

theorem stringBody_cons {c : Char} (hquote : c ≠ '"') (hbackslash : c ≠ '\\') (rest : List Char)
    (offset : Nat) :
    stringBody (c :: rest) offset = (stringBody rest (offset + c.utf8Size)).map (c :: ·) := by
  rw [stringBody]
  · exact hquote
  · exact fun h _ => hbackslash h
  · exact fun _ _ h _ => hbackslash h

theorem stringBody_agrees (hscan : Scan tail known) {depth : Nat} {rest : List Char}
    {offset : Nat} (hlength : rest.length < bound)
    (hknown : known ⟨.inside false, depth⟩ ⟨rest, offset⟩) :
    Reply.Agrees n Eq (Beside n tail known bound ⟨.outside, depth⟩) (stringBody rest offset)
      (stringBody (rest ++ tail) (offset + n)) := by
  have hinside : ∀ escaped : Bool, (⟨.inside escaped, depth⟩ : Nesting) ≠ .start := by
    intro escaped h
    cases h
  induction rest, offset using stringBody.induct with
  | case1 offset =>
      rw [hscan.stop hknown (hinside false), List.append_nil, stringBody, stringBody]
      exact .fail ⟨⟨rfl, rfl⟩, rfl⟩
  | case2 rest offset =>
      rw [List.cons_append, stringBody, stringBody]
      refine .ok rfl ⟨rfl, ?_, ?_, hscan.step hknown⟩
      · exact Nat.add_right_comm _ _ _
      · exact Nat.lt_of_succ_lt hlength
  | case3 offset =>
      have htail := hscan.stop (hscan.step hknown) (hinside true)
      rw [htail, List.append_nil, stringBody, stringBody]
      exact .fail ⟨⟨Nat.add_right_comm _ _ _, rfl⟩, rfl⟩
  | case4 c rest offset ih =>
      rw [List.cons_append, List.cons_append, stringBody, stringBody]
      rw [List.length_cons, List.length_cons] at hlength
      have hrest := ih (by omega) (hscan.step (hscan.step hknown))
      rw [show offset + n + 1 + c.utf8Size = offset + 1 + c.utf8Size + n by omega]
      exact hrest.map fun _ _ h => congrArg (unescape c :: ·) h
  | case5 c rest offset hquote hend hescape ih =>
      have hbackslash : c ≠ '\\' := by
        rintro rfl
        cases rest with
        | nil => exact hend rfl rfl
        | cons x rest => exact hescape x rest rfl rfl
      have hstep := hscan.step hknown
      rw [Nesting.step, Text.Quoting.step, if_neg hbackslash, if_neg hquote,
        if_neg (by intro h; cases h)] at hstep
      have hrest := ih (Nat.lt_of_succ_lt hlength) hstep
      rw [List.cons_append, stringBody_cons hquote hbackslash, stringBody_cons hquote hbackslash,
        Nat.add_right_comm offset n]
      exact hrest.map fun _ _ h => congrArg (c :: ·) h

theorem agree_stringLiteral (hscan : Scan tail known) (k : Nat) :
    Inside n tail known bound k Eq stringLiteral stringLiteral := by
  have hquote : Agree n (Beside n tail known bound (within k))
      (Beside n tail known bound ⟨.inside false, k + 1⟩) (fun _ _ => True)
      (char '"') (char '"') :=
    agree_of_facing hscan (Nat.sub_le bound 1) (agree_char hscan '"')
  apply hquote.andThen
  have hbody : Agree n (Beside n tail known bound ⟨.inside false, k + 1⟩)
      (Beside n tail known bound (within k)) Eq
      (fun c => stringBody c.rest c.offset) (fun c => stringBody c.rest c.offset) := by
    intro c d h
    dsimp only
    rw [h.rest_eq, h.offset_eq]
    exact stringBody_agrees hscan h.length_lt h.scanned
  apply hbody.bind_eq
  intro body
  exact .pure rfl

theorem agree_number (hscan : Scan tail known) (k : Nat) :
    Inside n tail known bound k Eq number number := by
  have hdigits : Inside n tail known bound k Eq
      (takeWhile1 Char.isDigit) (takeWhile1 Char.isDigit) :=
    agree_of_facing hscan (Nat.le_refl bound)
      (agree_takeWhile1 hscan (passes_within (by decide) k))
  have hfraction : Inside n tail known bound k Eq fractionPart fractionPart := by
    apply (inside_plainChar hscan (by decide) k).andThen
    exact hdigits
  apply Agree.here_bind
  intro c d hcd
  have hplace := (hcd.facing hscan (within_ne_start k)).matches
  apply (inside_plainChar hscan (by decide) k).optional.bind
  intro sign sign' hsign
  obtain rfl : sign = sign' := by
    cases hsign <;> rfl
  apply hdigits.bind_eq
  intro whole
  apply hfraction.optional_bind
  · rintro fraction _ rfl
    exact .pure rfl
  · exact .ite (.pure rfl) (.stuckAt hplace _)

end

end Grammar
end Expression
end ViewModifiers
