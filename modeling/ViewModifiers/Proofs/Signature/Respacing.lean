import ViewModifiers.Proofs.Signature.PlainText
import ViewModifiers.Proofs.Text.Literals
import ViewModifiers.Proofs.Text.Pieces

/-!
# Lines that are joined again

A text is broken into lines at some of its blanks, each line is trimmed, and the
lines are joined.  The blanks around a break are one line break then, and all the
rest is as before.  If the text is plain and holds no string literal, this is
another layout of it.
-/

namespace ViewModifiers

open Text (isLayout isBlank Quoting StringLiteral OutsideLiterals dropBlanks dropBlanksEnd joinWith)

namespace TypeExpr.Grammar

/-!
## Texts without literals
-/

/-- No part of the text is a string literal. -/
def NoLiteral (text : List Char) : Prop :=
  ∀ literal, StringLiteral literal → ¬ literal <:+: text

section
variable {text part inner : List Char}

theorem NoLiteral.of_infix (h : NoLiteral text) (hpart : part <:+: text) : NoLiteral part :=
  fun literal hliteral hwithin => h literal hliteral (hwithin.trans hpart)

theorem noLiteral_of_not_mem (h : '"' ∉ text) : NoLiteral text := by
  rintro _ ⟨_, _⟩ hwithin
  exact h (hwithin.subset List.mem_cons_self)

theorem OutsideLiterals.not_mem_quote (h : OutsideLiterals text) (hno : NoLiteral text) :
    '"' ∉ text := by
  induction h with
  | nil => exact List.not_mem_nil
  | plain hc _ ih =>
      rw [List.mem_cons, not_or]
      exact ⟨hc.symm, ih (hno.of_infix (List.suffix_cons _ _).isInfix)⟩
  | literal hliteral _ _ => exact absurd (List.prefix_append _ _).isInfix (hno _ hliteral)

theorem after_of_closeParens {q : Quoting} {depth : Nat} {cs rest : List Char}
    (h : closeParens q depth cs = some (inner, rest)) : q.after inner = .outside := by
  induction cs generalizing q depth inner with
  | nil => cases h
  | cons c cs ih =>
      rcases closeParens_cons_cases h with ⟨rfl, -, -, rfl, -⟩ | ⟨depth', within, rfl, -, hclose⟩
      · rfl
      · rw [Quoting.after_cons]
        exact ih hclose

theorem Enclosed.not_mem_quote (h : Enclosed inner) (hno : NoLiteral inner) : '"' ∉ inner :=
  OutsideLiterals.not_mem_quote (Text.outsideLiterals_iff.mpr (after_of_closeParens (h []))) hno

theorem Plain.not_mem_quote (h : Plain text) (hno : NoLiteral text) : '"' ∉ text := by
  induction h with
  | nil => exact List.not_mem_nil
  | @char c text hc _ ih =>
      rw [List.mem_cons, not_or]
      exact ⟨(ne_of_isPlain hc).2.2.1.symm, ih (hno.of_infix (List.suffix_cons _ _).isInfix)⟩
  | @parens inner text _ _ ihinner ih =>
      have hinner := ihinner (hno.of_infix ⟨['('], ')' :: text, by simp⟩)
      have htext := ih (hno.of_infix ⟨'(' :: (inner ++ [')']), [], by simp⟩)
      simp [hinner, htext]
  | @arguments c inner text hc _ hinner _ ih =>
      have hinner := hinner.not_mem_quote (hno.of_infix ⟨[c, '('], ')' :: text, by simp⟩)
      have htext := ih (hno.of_infix ⟨c :: '(' :: (inner ++ [')']), [], by simp⟩)
      simp [hinner, htext, (ne_of_isPlain hc).2.2.1.symm]

theorem Plain.not_mem_close (h : Plain text) (hopen : '(' ∉ text) : ')' ∉ text := by
  induction h with
  | nil => exact List.not_mem_nil
  | char hc _ ih =>
      rw [List.mem_cons, not_or] at hopen ⊢
      exact ⟨(ne_of_isPlain hc).2.1.symm, ih hopen.2⟩
  | parens => exact absurd List.mem_cons_self hopen
  | arguments => exact absurd (List.mem_cons_of_mem _ List.mem_cons_self) hopen

/-- Where parentheses around others close, the inner ones have closed before. -/
theorem exists_of_closeParens_add {q : Quoting} {k depth : Nat} {cs rest : List Char}
    (h : closeParens q (k + (depth + 1)) cs = some (inner, rest)) :
    ∃ front back behind, closeParens q k cs = some (front, behind) ∧
      closeParens .outside depth behind = some (back, rest) ∧ inner = front ++ ')' :: back := by
  induction cs generalizing q k inner with
  | nil => cases h
  | cons c cs ih =>
      rcases closeParens_cons_cases h with
        ⟨-, -, hzero, -, -⟩ | ⟨depth', within, rfl, hcounts, hclose⟩
      · exact absurd hzero (Nat.succ_ne_zero _)
      · have hfurther : ∀ {k'}, Counts q c k k' → depth' = k' + (depth + 1) →
            ∃ front back behind, closeParens q k (c :: cs) = some (front, behind) ∧
              closeParens .outside depth behind = some (back, rest) ∧
              c :: within = front ++ ')' :: back := by
          intro k' hinner hdepth
          rcases ih (hdepth ▸ hclose) with ⟨front, back, behind, hfront, hback, rfl⟩
          refine ⟨c :: front, back, behind, ?_, hback, rfl⟩
          rw [hinner.closeParens_eq, hfront]
          rfl
        cases hcounts with
        | opening => exact hfurther .opening (Nat.add_right_comm k (depth + 1) 1)
        | closing =>
            cases k with
            | zero =>
                change closeParens .outside (0 + depth) cs = _ at hclose
                rw [Nat.zero_add] at hclose
                exact ⟨[], within, cs, rfl, hclose, rfl⟩
            | succ k => exact hfurther .closing (Nat.succ_add k depth)
        | other hother => exact hfurther (.other hother) rfl

theorem matched_of_closeParens {cs rest : List Char}
    (h : closeParens .outside 0 cs = some (inner, rest)) (hquote : '"' ∉ inner) :
    Matched inner := by
  induction hlength : inner.length using Nat.strong_induction_on generalizing inner cs rest with
  | _ n ih =>
      cases cs with
      | nil => cases h
      | cons c cs =>
          rcases closeParens_cons_cases h with
            ⟨-, -, -, rfl, -⟩ | ⟨depth', within, rfl, hcounts, hclose⟩
          · exact .nil
          · rw [List.mem_cons, not_or] at hquote
            rw [List.length_cons] at hlength
            have hstep := Quoting.step_outside (Ne.symm hquote.1)
            rw [hstep] at hclose
            generalize hdepth : 0 = depth at hcounts
            cases hcounts with
            | opening =>
                subst hdepth
                rcases @exists_of_closeParens_add _ _ 0 0 _ _ hclose with
                  ⟨front, back, behind, hfront, hback, rfl⟩
                simp only [List.mem_append, List.mem_cons, not_or, List.length_append,
                  List.length_cons] at hquote hlength
                exact .parens (ih front.length (by omega) hfront hquote.2.1 rfl)
                  (ih back.length (by omega) hback hquote.2.2.2 rfl)
            | closing => cases hdepth
            | other hother =>
                subst hdepth
                exact .char (hother rfl).1 (hother rfl).2 (Ne.symm hquote.1)
                  (ih within.length (by omega) hclose hquote.2 rfl)

theorem Plain.matched (h : Plain text) (hquote : '"' ∉ text) : Matched text := by
  induction h with
  | nil => exact .nil
  | char hc _ ih =>
      rcases ne_of_isPlain hc with ⟨hopening, hclosing, hne, -⟩
      rw [List.mem_cons, not_or] at hquote
      exact .char hopening hclosing hne (ih hquote.2)
  | parens _ _ ihinner ih =>
      simp only [List.mem_append, List.mem_cons, not_or] at hquote
      exact .parens (ihinner hquote.2.1) (ih hquote.2.2.2)
  | arguments hc _ hinner _ ih =>
      rcases ne_of_isPlain hc with ⟨hopening, hclosing, hne, -⟩
      simp only [List.mem_append, List.mem_cons, not_or] at hquote
      exact .char hopening hclosing hne
        (.parens (matched_of_closeParens (hinner []) hquote.2.2.1) (ih hquote.2.2.2.2))

end

/-!
## Texts with other blanks
-/

/-- The second text has runs of layout in place of some runs of blanks. -/
inductive Respaced : List Char → List Char → Prop where
  | nil : Respaced [] []
  | char {c : Char} {s t : List Char} : Respaced s t → Respaced (c :: s) (c :: t)
  | gap {w v s t : List Char} : w ≠ [] → v ≠ [] → (∀ c ∈ w, isBlank c = true) →
      (∀ c ∈ v, isLayout c = true) → Respaced s t → Respaced (w ++ s) (v ++ t)

section
variable {s t : List Char}

theorem Respaced.prepend (h : Respaced s t) (front : List Char) :
    Respaced (front ++ s) (front ++ t) := by
  induction front with
  | nil => exact h
  | cons c front ih => exact .char ih

theorem Respaced.refl (s : List Char) : Respaced s s := by
  have h := Respaced.nil.prepend s
  rwa [List.append_nil] at h

theorem Respaced.exists_behind {c : Char} (h : Respaced (c :: s) t) (hc : isBlank c = false) :
    ∃ t', t = c :: t' ∧ Respaced s t' := by
  generalize hs : c :: s = text at h
  cases h with
  | nil => cases hs
  | char h =>
      cases hs
      exact ⟨_, rfl, h⟩
  | @gap w _ _ _ hw _ hblank _ _ =>
      cases w with
      | nil => exact absurd rfl hw
      | cons x w =>
          cases hs
          rw [hblank c List.mem_cons_self] at hc
          cases hc

/-- A character that is not blank is where it was. -/
theorem Respaced.exists_split {front back : List Char} {c : Char}
    (h : Respaced (front ++ c :: back) t) (hc : isBlank c = false) :
    ∃ front' back', t = front' ++ c :: back' ∧ Respaced front front' ∧ Respaced back back' := by
  generalize hs : front ++ c :: back = text at h
  induction h generalizing front with
  | nil => simp at hs
  | @char d s t h ih =>
      cases front with
      | nil =>
          cases hs
          exact ⟨[], t, rfl, .nil, h⟩
      | cons x front =>
          cases hs
          rcases ih rfl with ⟨front', back', rfl, hfront, hback⟩
          exact ⟨_ :: front', back', rfl, .char hfront, hback⟩
  | @gap w v s t hw hv hblank hlayout h ih =>
      rcases List.append_eq_append_iff.mp hs with ⟨a, rfl, hrest⟩ | ⟨a, rfl, rfl⟩
      · cases a with
        | nil =>
            rcases @ih [] hrest with ⟨front', back', rfl, hfront, hback⟩
            refine ⟨v ++ front', back', by simp, ?_, hback⟩
            have hgap := Respaced.gap hw hv hblank hlayout hfront
            rwa [List.append_nil, List.append_nil] at hgap
        | cons x a =>
            cases hrest
            rw [hblank c (by simp)] at hc
            cases hc
      · rcases ih rfl with ⟨front', back', rfl, hfront, hback⟩
        exact ⟨v ++ front', back', by simp, .gap hw hv hblank hlayout hfront, hback⟩

theorem Matched.of_blanks_append {w : List Char} (h : Matched (w ++ s))
    (hw : ∀ c ∈ w, isBlank c = true) : Matched s := by
  induction w with
  | nil => exact h
  | cons c w ih =>
      rcases List.forall_mem_cons.mp hw with ⟨hc, hw⟩
      rw [List.cons_append] at h
      generalize htext : c :: (w ++ s) = text at h
      cases h with
      | nil => cases htext
      | char _ _ _ h =>
          cases htext
          exact ih h hw
      | parens =>
          cases (List.cons.inj htext).1
          cases hc

theorem Plain.of_blanks_append {w : List Char} (h : Plain (w ++ s))
    (hw : ∀ c ∈ w, isBlank c = true) : (∀ c ∈ w, isLayout c = true) ∧ Plain s := by
  induction w with
  | nil => exact ⟨nofun, h⟩
  | cons c w ih =>
      rcases List.forall_mem_cons.mp hw with ⟨hc, hw⟩
      rw [List.cons_append] at h
      generalize htext : c :: (w ++ s) = text at h
      cases h with
      | nil => cases htext
      | char hplain h =>
          cases htext
          rcases ih h hw with ⟨hlayout, hs⟩
          simp only [isPlain, hc, Bool.and_eq_true, Bool.not_true, Bool.false_or] at hplain
          exact ⟨List.forall_mem_cons.mpr ⟨hplain.2, hlayout⟩, hs⟩
      | parens =>
          cases (List.cons.inj htext).1
          cases hc
      | arguments _ hends =>
          cases (List.cons.inj htext).1
          simp only [endsName, Bool.or_eq_true, beq_iff_eq] at hends
          rcases hends with hname | rfl
          · rw [isBlank_eq_false hname] at hc
            cases hc
          · cases hc

theorem Matched.respaced (h : Matched s) (hspaced : Respaced s t) : Matched t := by
  induction hlength : s.length using Nat.strong_induction_on generalizing s t with
  | _ n ih =>
      cases hspaced with
      | nil => exact .nil
      | char hspaced =>
          cases h with
          | char hopen hclose hquote h =>
              exact .char hopen hclose hquote (ih _ (by simp [← hlength]) h hspaced rfl)
          | @parens inner text hinner htext =>
              simp only [List.length_cons, List.length_append] at hlength
              rcases hspaced.exists_split (by decide) with ⟨inner', text', rfl, hfront, hback⟩
              exact .parens (ih inner.length (by omega) hinner hfront rfl)
                (ih text.length (by omega) htext hback rfl)
      | @gap w v s t hw _ hblank hlayout hspaced =>
          have hpos := List.length_pos_of_ne_nil hw
          rw [List.length_append] at hlength
          exact (matched_of_isLayout hlayout).append
            (ih s.length (by omega) (h.of_blanks_append hblank) hspaced rfl)

theorem relaid_of_respaced {bound : Nat} (h : Plain s) (hquote : '"' ∉ s) (hspaced : Respaced s t)
    {u v : List Char} (hbound : (s ++ u).length ≤ bound) (hrest : ∀ named, Relaid bound named u v)
    (named : Bool) : Relaid bound named (s ++ u) (t ++ v) := by
  induction hlength : s.length using Nat.strong_induction_on generalizing s t u v named with
  | _ n ih =>
      cases hspaced with
      | nil => exact hrest named
      | @char c s t hspaced =>
          generalize htext : c :: s = text at h
          cases h with
          | nil => cases htext
          | char hplain h =>
              cases htext
              rcases ne_of_isPlain hplain with ⟨-, -, hne, hequals⟩
              rw [List.mem_cons, not_or] at hquote
              refine .char hne hequals ?_
              exact ih s.length (by simp [← hlength]) h hquote.2 hspaced (Nat.le_of_succ_le hbound)
                hrest _ rfl
          | @parens inner text hinner h =>
              cases htext
              simp only [List.mem_cons, List.mem_append, not_or] at hquote
              simp only [List.length_cons, List.length_append] at hlength hbound
              rcases hspaced.exists_split (by decide) with ⟨inner', text', rfl, hfront, hback⟩
              have htail : ∀ named,
                  Relaid bound named (')' :: (text ++ u)) (')' :: (text' ++ v)) := by
                intro named
                refine .char (by decide) (by decide) ?_
                exact ih text.length (by omega) h hquote.2.2.2 hback
                  (by rw [List.length_append]; omega) hrest _ rfl
              have hwhole := ih inner.length (by omega) hinner hquote.2.1 hfront
                (by simp only [List.length_append, List.length_cons]; omega) htail false rfl
              rw [List.cons_append, List.cons_append, List.append_assoc, List.append_assoc]
              exact .char (by decide) (by decide) hwhole
          | @arguments _ inner text hplain hends hinner h =>
              cases htext
              rcases ne_of_isPlain hplain with ⟨-, -, hne, hequals⟩
              simp only [List.mem_cons, List.mem_append, not_or] at hquote
              simp only [List.length_cons, List.length_append] at hlength hbound
              rcases hspaced.exists_behind (by decide) with ⟨_, rfl, hbehind⟩
              rcases hbehind.exists_split (by decide) with ⟨inner', text', rfl, hfront, hback⟩
              have hmatched := matched_of_closeParens (hinner []) hquote.2.2.1
              have htail := ih text.length (by omega) h hquote.2.2.2.2 hback
                (by rw [List.length_append]; omega) hrest false rfl
              simp only [List.cons_append, List.append_assoc]
              refine .char hne hequals ?_
              rw [hends]
              exact .arguments hmatched (hmatched.respaced hfront)
                (by simp only [List.length_append, List.length_cons]; omega) htail
      | @gap w w' s t hw hw' hblank hlayout hspaced =>
          rcases h.of_blanks_append hblank with ⟨hlayout', h⟩
          have hpos := List.length_pos_of_ne_nil hw
          simp only [List.mem_append, not_or] at hquote
          simp only [List.length_append] at hlength hbound
          rw [List.append_assoc, List.append_assoc]
          refine .gap hw hw' hlayout' hlayout ?_
          exact ih s.length (by omega) h hquote.2 hspaced (by rw [List.length_append]; omega) hrest
            false rfl

end

/-!
## Lines
-/

/-- Trimmed lines, joined with line breaks: blanks are kept in front of the first line and behind
the last one. -/
def glued : List Char → List (List Char) → List Char
  | line, [] => line
  | line, next :: more => dropBlanksEnd line ++ '\n' :: glued (dropBlanks next) more

def gluedLines (tail : List Char) : List Char → List (List Char) → List (List Char)
  | line, [] => [line ++ tail]
  | line, next :: more => dropBlanksEnd line :: gluedLines tail (dropBlanks next) more

/-- A text that is broken at blanks has other blanks when its lines are joined again. -/
theorem respaced_glued (line : List Char) (more : List (List Char)) :
    Respaced (joinWith [' '] (line :: more)) (glued line more) := by
  induction more generalizing line with
  | nil => exact .refl line
  | cons next more ih =>
      rcases Text.exists_reverse_dropWhile isBlank line with ⟨blanks, hline, hblanks⟩
      have hjoined : joinWith [' '] (line :: next :: more) =
          dropBlanksEnd line ++ ((blanks ++ ' ' :: next.takeWhile isBlank) ++
            joinWith [' '] (dropBlanks next :: more)) := by
        rw [Text.joinWith_space]
        conv_lhs => rw [hline]
        simp [dropBlanksEnd]
      rw [hjoined, glued]
      have hlayout : ∀ c ∈ ['\n'], isLayout c = true := List.forall_mem_singleton.mpr rfl
      refine Respaced.prepend (.gap (by simp) (List.cons_ne_nil _ _) ?_ hlayout (ih _)) _
      intro c hc
      rcases List.mem_append.mp hc with hc | hc
      · exact hblanks c hc
      · exact Text.isBlank_of_mem_space c hc

def indented (line : Nat × List Char) : List Char :=
  List.replicate line.1 ' ' ++ line.2

/-- The second text has line breaks, each with a number of spaces behind it, in place of some of
the spaces. -/
inductive Broken : List Char → List Char → Prop where
  | nil : Broken [] []
  | char {c : Char} {s t : List Char} : Broken s t → Broken (c :: s) (c :: t)
  | space {s t : List Char} (n : Nat) :
      Broken s t → Broken (' ' :: s) ('\n' :: (List.replicate n ' ' ++ t))

theorem Broken.exists_lines {s t : List Char} (h : Broken s t) :
    ∃ (first : List Char) (more : List (Nat × List Char)),
      s = joinWith [' '] (first :: more.map Prod.snd) ∧
      t = joinWith ['\n'] (first :: more.map indented) := by
  induction h with
  | nil => exact ⟨[], [], rfl, rfl⟩
  | @char c s t _ ih =>
      rcases ih with ⟨first, more, rfl, rfl⟩
      exact ⟨[c] ++ first, more, (Text.joinWith_append_cons _ [c] _ _).symm,
        (Text.joinWith_append_cons _ [c] _ _).symm⟩
  | @space s t n _ ih =>
      rcases ih with ⟨first, more, rfl, rfl⟩
      refine ⟨[], (n, first) :: more, rfl, ?_⟩
      rw [← Text.joinWith_append_cons]
      rfl

theorem Broken.prepend {s t : List Char} (h : Broken s t) (front : List Char) :
    Broken (front ++ s) (front ++ t) := by
  induction front with
  | nil => exact h
  | cons c front ih => exact .char ih

theorem broken_lines (first : List Char) (more : List (Nat × List Char)) :
    Broken (joinWith [' '] (first :: more.map Prod.snd))
      (joinWith ['\n'] (first :: more.map indented)) := by
  induction more generalizing first with
  | nil =>
      have h := Broken.nil.prepend first
      rwa [List.append_nil] at h
  | cons next more ih =>
      rw [List.map_cons, List.map_cons, Text.joinWith_cons _ _ (List.cons_ne_nil _ _),
        Text.joinWith_cons _ _ (List.cons_ne_nil _ _), List.append_assoc, List.append_assoc]
      apply Broken.prepend
      rw [indented, Text.joinWith_append_cons]
      exact .space next.1 (ih next.2)

def rawLines (tail : List Char) : List Char → List (List Char) → List (List Char)
  | line, [] => [line ++ tail]
  | line, next :: more => line :: rawLines tail next more

section
variable {tail : List Char}

theorem rawLines_ne_nil (line : List Char) (more : List (List Char)) :
    rawLines tail line more ≠ [] := by
  cases more <;> exact List.cons_ne_nil _ _

theorem joinWith_rawLines (line : List Char) (more : List (List Char)) :
    joinWith ['\n'] (rawLines tail line more) = joinWith ['\n'] (line :: more) ++ tail := by
  induction more generalizing line with
  | nil => rfl
  | cons next more ih =>
      rw [rawLines, Text.joinWith_cons _ _ (rawLines_ne_nil next more), ih,
        Text.joinWith_cons _ _ (List.cons_ne_nil _ _)]
      simp only [List.append_assoc]

theorem dropBlanks_indented (line : Nat × List Char) :
    dropBlanks (indented line) = dropBlanks line.2 := by
  apply Text.dropBlanks_append_of_blank
  intro c hc
  rw [List.eq_of_mem_replicate hc]
  rfl

/-- The indentation of a line does not matter once it is trimmed. -/
theorem map_trimChars_rawLines (line : List Char) (more : List (Nat × List Char)) :
    (rawLines (')' :: tail) line (more.map indented)).map Text.trimChars =
      gluedLines (')' :: dropBlanksEnd tail) (dropBlanks line) (more.map Prod.snd) := by
  induction more generalizing line with
  | nil =>
      show [dropBlanksEnd (dropBlanks (line ++ ')' :: tail))] = _
      rw [Text.dropBlanks_append_cons rfl, Text.dropBlanksEnd_append_cons rfl]
      rfl
  | cons next more ih =>
      rw [List.map_cons, rawLines, List.map_cons, ih, dropBlanks_indented]
      rfl

theorem exists_of_mem_rawLines {line : Nat × List Char} {more : List (Nat × List Char)}
    {piece : List Char} (h : piece ∈ rawLines tail (indented line) (more.map indented)) :
    ∃ part : Nat × List Char, piece = indented part ∧
      part.2 <:+: joinWith [' '] (line.2 :: more.map Prod.snd) ++ tail := by
  induction more generalizing line with
  | nil =>
      refine ⟨(line.1, line.2 ++ tail), ?_, List.infix_refl _⟩
      rw [List.mem_singleton.mp h]
      exact List.append_assoc _ _ _
  | cons next more ih =>
      rw [List.map_cons, Text.joinWith_cons _ _ (List.cons_ne_nil _ _)]
      rcases List.mem_cons.mp h with rfl | h
      · refine ⟨line, rfl, ?_⟩
        simp only [List.append_assoc]
        exact (List.prefix_append _ _).isInfix
      · rcases ih h with ⟨part, hpiece, hpart⟩
        refine ⟨part, hpiece, hpart.trans ?_⟩
        rw [List.append_assoc (line.2 ++ [' '])]
        exact (List.suffix_append _ _).isInfix

theorem getLast?_rawLines (htail : tail ≠ []) (line : List Char) (more : List (List Char)) :
    (rawLines tail line more).getLast? ≠ some [] := by
  induction more generalizing line with
  | nil => simp [rawLines, htail]
  | cons next more ih =>
      rw [rawLines, List.getLast?_cons_of_ne_nil (rawLines_ne_nil next more)]
      exact ih next

end

end TypeExpr.Grammar

end ViewModifiers
