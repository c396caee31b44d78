import ViewModifiers.Interface.Line
import ViewModifiers.Proofs.Grammar.Continuation
import ViewModifiers.Signature.TypeGrammar

/-!
# Attributes of joined lines

The attributes that stand in front of a declaration are read from one text, made
of the attribute lines and the declaration.  Each attribute ends with its line,
so that those of the text are those of the lines, one line after the other.
-/

namespace ViewModifiers

open Grammar Grammar.Rule
open Text (Quoting isLayout)

namespace TypeExpr.Grammar

/-!
## Where an attribute ends
-/

def EndsLine (tail : List Char) : Prop :=
  ∀ c, tail.head? = some c → c = '\n'

theorem endsLine_nil : EndsLine [] :=
  nofun

theorem endsLine_cons (rest : List Char) : EndsLine ('\n' :: rest) := by
  intro c hc
  exact (Option.some.inj hc).symm

section
variable {tail : List Char}

theorem EndsLine.head?_ne (h : EndsLine tail) {x : Char} (hx : x ≠ '\n') : tail.head? ≠ some x :=
  fun heq => hx (h x heq)

theorem carries_plainName (h : EndsLine tail) {extra : List Char}
    (hextra : isNameStart extra '\n' = false) :
    Carries tail (plainName extra) (plainName extra) := by
  intro text i j
  cases text with
  | nil =>
      have hdeclines : ∃ s, plainName extra ⟨tail, j⟩ = .fail false s := by
        cases tail with
        | nil => exact ⟨_, rfl⟩
        | cons c rest =>
            cases h c rfl
            unfold plainName
            simp [hextra]
      rcases hdeclines with ⟨s, hs⟩
      rw [List.nil_append, hs]
      exact .declined
  | cons x rest =>
      have hpart : Carries tail (takeWhile isNamePart) (takeWhile isNamePart) := by
        apply carries_takeWhile
        intro c hc
        rw [h c hc]
        rfl
      unfold plainName
      by_cases hx : isNameStart extra x = true
      · simp only [List.cons_append, hx, if_true]
        exact (hpart rest _ _).map fun cs => String.ofList (x :: cs)
      · simp only [List.cons_append, hx]
        exact .declined

theorem carries_identifier (h : EndsLine tail) : Carries tail identifier identifier := by
  have hmark : Carries tail (char graveMark) (char graveMark) :=
    carries_char (h.head?_ne (by decide))
  apply Carries.orElse
  · apply hmark.bind
    intro _
    apply (carries_plainName h (by decide)).bind
    intro name
    apply hmark.bind
    intro _
    exact .pure name
  · exact carries_plainName h (by decide)

theorem closeParens_cons (q : Quoting) (depth : Nat) (c : Char) :
    (∀ rest, closeParens q depth (c :: rest) = some ([], rest)) ∨
      ∃ depth', ∀ rest, closeParens q depth (c :: rest) =
        (closeParens (q.step c) depth' rest).map fun r => (c :: r.1, r.2) := by
  by_cases hclosing : q = .outside ∧ c = ')'
  · cases depth with
    | zero =>
        left
        intro rest
        rw [closeParens, if_pos hclosing]
    | succ depth =>
        right
        refine ⟨depth, ?_⟩
        intro rest
        rw [closeParens, if_pos hclosing]
  · right
    by_cases hopening : q = .outside ∧ c = '('
    · refine ⟨depth + 1, ?_⟩
      intro rest
      exact (if_neg hclosing).trans (if_pos hopening)
    · refine ⟨depth, ?_⟩
      intro rest
      exact (if_neg hclosing).trans (if_neg hopening)

theorem exists_of_closeParens {q : Quoting} {depth : Nat} {cs inner rest : List Char}
    (h : closeParens q depth cs = some (inner, rest)) :
    ∃ taken, cs = taken ++ rest ∧
      ∀ rest', closeParens q depth (taken ++ rest') = some (inner, rest') := by
  induction cs generalizing q depth inner with
  | nil => cases h
  | cons c cs ih =>
      rcases closeParens_cons q depth c with hcloses | ⟨depth', hfurther⟩
      · rw [hcloses] at h
        cases h
        exact ⟨[c], rfl, hcloses⟩
      · rw [hfurther, Option.map_eq_some_iff] at h
        rcases h with ⟨⟨within, behind⟩, hclose, heq⟩
        cases heq
        rcases ih hclose with ⟨taken, rfl, hany⟩
        refine ⟨c :: taken, rfl, ?_⟩
        intro rest'
        rw [List.cons_append, hfurther, hany]
        rfl

theorem carries_balancedParens (h : EndsLine tail) :
    Carries tail balancedParens balancedParens := by
  apply Carries.here_bind
  intro c d
  apply (carries_char (h.head?_ne (by decide))).bind
  intro _ text i j
  dsimp only
  cases hclose : closeParens .outside 0 text with
  | some parts =>
      rcases parts with ⟨inner, rest⟩
      rcases exists_of_closeParens hclose with ⟨taken, rfl, hany⟩
      rw [List.append_assoc, hany]
      exact .ok
  | none =>
      apply Reply.Carries.committed
      intro htail
      rw [htail, List.append_nil, hclose]
      exact ⟨_, rfl⟩

theorem reads_plainName (extra : List Char) : Reads (plainName extra) fun _ _ => True := by
  intro c a next hrun
  unfold plainName at hrun
  split at hrun
  · next x rest hrest =>
      split at hrun
      · cases hrun
        refine ⟨x :: rest.takeWhile isNamePart, ?_, trivial⟩
        rw [hrest, List.cons_append, List.takeWhile_append_dropWhile]
      · cases hrun
  · cases hrun

theorem reads_identifier : Reads identifier fun _ _ => True := by
  apply Reads.orElse
  · apply (reads_char graveMark).bind
    intro _ _ _
    apply (reads_plainName ['_']).bind
    intro _ name _
    apply (reads_char graveMark).bind
    intro _ _ _
    exact Reads.pure trivial
  · exact reads_plainName _

def furtherName : Rule String := do
  char '.'
  identifier

theorem reads_furtherName : Reads furtherName fun text _ => text ≠ [] := by
  apply (reads_char '.').bind
  intro text _ htext
  exact reads_identifier.mono fun _ _ _ => by simp [htext]

theorem reads_qualifiedName : Reads qualifiedName fun _ _ => True := by
  have hmore : Reads (many furtherName) fun _ _ => True :=
    reads_many (reads_furtherName.mono fun _ _ _ => trivial)
  have hparts : Reads (separated1 (char '.') identifier) fun _ _ => True :=
    reads_identifier.bind fun _ _ _ => hmore.bind fun _ _ _ => Reads.pure trivial
  exact hparts.bind fun _ _ _ => Reads.pure trivial

theorem carries_qualifiedName (h : EndsLine tail) : Carries tail qualifiedName qualifiedName := by
  have hpoint : Carries tail (char '.') (char '.') := carries_char (h.head?_ne (by decide))
  have hfurther : Carries tail furtherName furtherName :=
    hpoint.bind fun _ => carries_identifier h
  have hmany : Carries tail (many furtherName) (many furtherName) :=
    hfurther.many reads_furtherName fun i => ⟨_, rfl⟩
  have hparts : Carries tail (separated1 (char '.') identifier)
      (separated1 (char '.') identifier) :=
    (carries_identifier h).bind fun first => hmany.bind fun more => .pure (first :: more)
  exact hparts.bind fun parts => .pure (String.intercalate "." parts)

theorem carries_decoration (h : EndsLine tail) : Carries tail decoration decoration := by
  have hat : Carries tail (char '@') (char '@') := carries_char (h.head?_ne (by decide))
  apply hat.bind
  intro _
  apply (carries_qualifiedName h).bind
  intro name
  refine Carries.bind (carries_balancedParens h).optional ?_
  intro arguments
  exact .pure _

theorem reads_balancedParens : Reads balancedParens fun _ _ => True := by
  apply reads_here.silent_bind
  intro start
  apply (reads_char '(').bind
  intro _ _ _ c a next hrun
  dsimp only at hrun
  split at hrun
  · next inner rest hclose =>
      cases hrun
      rcases exists_of_closeParens hclose with ⟨taken, htext, -⟩
      exact ⟨taken, htext, trivial⟩
  · cases hrun

theorem reads_decoration : Reads decoration fun text _ => text ≠ [] := by
  apply (reads_char '@').bind
  intro text _ htext
  apply reads_qualifiedName.bind
  intro _ name _
  apply reads_balancedParens.optional_bind
  · intro _ arguments _
    exact Reads.pure (by simp [htext])
  · exact Reads.pure (by simp [htext])

end

/-!
## Attributes of a text
-/

def spacedDecoration : Rule Decoration := do
  layout
  decoration

/-- The attributes that a text starts with; none if the last of them does not end. -/
def attributes? (text : List Char) : Option (List Decoration) :=
  (decorations ⟨text, 0⟩).value?

theorem reads_spacedDecoration : Reads spacedDecoration fun text _ => text ≠ [] := by
  apply reads_layout.bind
  intro text _ _
  exact reads_decoration.mono fun _ _ h => List.append_ne_nil_of_right_ne_nil text h

theorem spacedDecoration_nil (i : Nat) : ∃ s, spacedDecoration ⟨[], i⟩ = .fail false s :=
  ⟨_, rfl⟩

theorem carries_nil_spacedDecoration : Carries [] spacedDecoration spacedDecoration := by
  have hlayout : Carries [] (takeWhile isLayout) (takeWhile isLayout) := carries_takeWhile nofun
  exact (hlayout.bind fun _ => .pure ()).bind fun _ => carries_decoration endsLine_nil

theorem carries_dropWhile (text : List Char) (i j : Nat) :
    Reply.Carries [] (decoration ⟨text.dropWhile isLayout, j⟩) (spacedDecoration ⟨text, i⟩) := by
  have h := carries_decoration endsLine_nil (text.dropWhile isLayout) j
    (i + Text.utf8Length (text.takeWhile isLayout))
  rw [List.append_nil] at h
  exact h

section
variable {text rest : List Char} {a : Decoration} {s : Stuck} {i j : Nat}

theorem attributes?_of_ok (h : decoration ⟨text.dropWhile isLayout, j⟩ = .ok a ⟨rest, i⟩) :
    attributes? text = (attributes? rest).map (a :: ·) := by
  have hcarries := carries_dropWhile text 0 j
  rw [h] at hcarries
  rcases hcarries.cases with ⟨b, behind, k, l, hb, hspaced⟩ | ⟨_, _, hb, _⟩ | ⟨_, hb, _⟩
  · cases hb
    rw [List.append_nil] at hspaced
    rcases many_of_ok reads_spacedDecoration hspaced with ⟨n, hn, hmany⟩
    have hvalue := value?_manyWithin carries_nil_spacedDecoration reads_spacedDecoration
      spacedDecoration_nil hn l 0
    show (many spacedDecoration ⟨text, 0⟩).value? =
      (many spacedDecoration ⟨rest, 0⟩).value?.map (a :: ·)
    rw [hmany, value?_bind_pure, hvalue]
  · cases hb
  · cases hb

theorem attributes?_of_declined (h : decoration ⟨text.dropWhile isLayout, j⟩ = .fail false s) :
    attributes? text = some [] := by
  have hcarries := carries_dropWhile text 0 j
  rw [h] at hcarries
  rcases hcarries.cases with ⟨_, _, _, _, hb, _⟩ | ⟨_, t, _, hspaced⟩ | ⟨_, hb, _⟩
  · cases hb
  · show (many spacedDecoration ⟨text, 0⟩).value? = some []
    rw [many, manyWithin_of_declined hspaced]
    rfl
  · cases hb

theorem attributes?_of_committed (h : decoration ⟨text.dropWhile isLayout, j⟩ = .fail true s) :
    attributes? text = none := by
  have hcarries := carries_dropWhile text 0 j
  rw [h] at hcarries
  rcases hcarries.cases with ⟨_, _, _, _, hb, _⟩ | ⟨_, _, hb, _⟩ | ⟨_, _, hempty⟩
  · cases hb
  · cases hb
  · rcases hempty rfl with ⟨t, ht⟩
    show (many spacedDecoration ⟨text, 0⟩).value? = none
    rw [many_of_committed spacedDecoration_nil ht]
    rfl

end

theorem attributes?_congr {text text' : List Char}
    (h : text.dropWhile isLayout = text'.dropWhile isLayout) :
    attributes? text = attributes? text' := by
  cases hfirst : decoration ⟨text.dropWhile isLayout, 0⟩ with
  | ok a next =>
      rw [attributes?_of_ok hfirst]
      rw [h] at hfirst
      rw [attributes?_of_ok hfirst]
  | fail committed s =>
      cases committed with
      | true =>
          rw [attributes?_of_committed hfirst]
          rw [h] at hfirst
          rw [attributes?_of_committed hfirst]
      | false =>
          rw [attributes?_of_declined hfirst]
          rw [h] at hfirst
          rw [attributes?_of_declined hfirst]

/-!
## Lines of attributes
-/

inductive Consists : List Char → List Decoration → Prop where
  | nil {text : List Char} : (∀ c ∈ text, isLayout c = true) → Consists text []
  | cons {text rest : List Char} {a : Decoration} {more : List Decoration} {i j : Nat} :
      decoration ⟨text.dropWhile isLayout, j⟩ = .ok a ⟨rest, i⟩ → Consists rest more →
      Consists text (a :: more)

theorem dropWhile_append_of_ne_nil {text : List Char} (h : text.dropWhile isLayout ≠ [])
    (tail : List Char) :
    (text ++ tail).dropWhile isLayout = text.dropWhile isLayout ++ tail := by
  rw [List.dropWhile_append, if_neg]
  simpa using h

theorem ne_nil_of_decoration {text : List Char} {j : Nat} {a : Decoration} {next : Cursor}
    (h : decoration ⟨text, j⟩ = .ok a next) : text ≠ [] := by
  rintro rfl
  cases h

/-- Behind attributes that end with their line come those of the text behind the line. -/
theorem Consists.attributes?_append {text : List Char} {ds : List Decoration}
    (h : Consists text ds) (rest : List Char) :
    attributes? (text ++ '\n' :: rest) = (attributes? rest).map (ds ++ ·) := by
  induction h with
  | nil hlayout =>
      next text =>
      have hbreak : (text ++ '\n' :: rest).dropWhile isLayout = rest.dropWhile isLayout := by
        rw [List.dropWhile_append_of_pos hlayout]
        exact List.dropWhile_cons_of_pos rfl
      rw [attributes?_congr hbreak]
      exact Option.map_id'.symm
  | cons hfirst _ ih =>
      next text behind a more i j hmore =>
      have hdrop := dropWhile_append_of_ne_nil (ne_nil_of_decoration hfirst) ('\n' :: rest)
      have hcarries := carries_decoration (endsLine_cons rest) (text.dropWhile isLayout) j j
      rw [hfirst, ← hdrop] at hcarries
      rcases hcarries.cases with ⟨b, last, k, l, hb, hok⟩ | ⟨_, _, hb, _⟩ | ⟨_, hb, _⟩
      · cases hb
        rw [attributes?_of_ok hok, ih, Option.map_map]
        rfl
      · cases hb
      · cases hb

/-- Where reading ends in front of layout only, the text consists of what was read. -/
theorem consists_of_manyWithin {n : Nat} {text left : List Char} {ds : List Decoration}
    {i k : Nat} (h : manyWithin spacedDecoration n ⟨text, i⟩ = .ok ds ⟨left, k⟩)
    (hleft : ∀ c ∈ left, isLayout c = true) : Consists text ds := by
  induction n generalizing text ds i with
  | zero =>
      cases h
      exact .nil hleft
  | succ n ih =>
      cases hfirst : spacedDecoration ⟨text, i⟩ with
      | ok a next =>
          rw [manyWithin_of_ok hfirst] at h
          rcases exists_of_bind_ok h with ⟨more, last, hmore, hpure⟩
          cases hpure
          exact .cons hfirst (ih hmore)
      | fail committed s =>
          cases committed with
          | true =>
              rw [manyWithin_of_committed hfirst] at h
              cases h
          | false =>
              rw [manyWithin_of_declined hfirst] at h
              cases h
              exact .nil hleft

/-- The attributes that a text starts with, or none. -/
def headAttributes (text : List Char) : List Decoration :=
  (attributes? text).getD []

theorem consists_of_isDecorationLine {line : List Char}
    (h : Interface.isDecorationLine line = true) : Consists line (headAttributes line) := by
  unfold Interface.isDecorationLine at h
  have hread := (Bool.and_eq_true_iff.mp h).2
  split at hread
  · next _ last hrun =>
      rcases exists_of_bind_ok hrun with ⟨ds, next, hds, hlayout⟩
      cases hlayout
      have hhead : headAttributes line = ds := by
        rw [headAttributes, attributes?, hds]
        rfl
      rw [hhead]
      apply consists_of_manyWithin hds
      exact List.dropWhile_eq_nil_iff.mp (List.isEmpty_iff.mp hread)
  · cases hread

theorem attributes?_foldr {lines : List (List Char)}
    (h : ∀ line ∈ lines, Interface.isDecorationLine line = true) (rest : List Char) :
    attributes? (lines.foldr (fun line rest => line ++ '\n' :: rest) rest) =
      (attributes? rest).map (lines.flatMap headAttributes ++ ·) := by
  induction lines with
  | nil => exact Option.map_id'.symm
  | cons line more ih =>
      rcases List.forall_mem_cons.mp h with ⟨hline, hmore⟩
      rw [List.foldr_cons, (consists_of_isDecorationLine hline).attributes?_append, ih hmore,
        Option.map_map, List.flatMap_cons]
      congr 1
      funext ds
      exact (List.append_assoc _ _ _).symm

end TypeExpr.Grammar
end ViewModifiers
