import ViewModifiers.Interface.Scanner
import ViewModifiers.Proofs.Text.Literals

/-!
# String literals in declarations

Comments and keywords are looked for outside string literals, but every double
quote is taken to open or close one, also a quote that a backslash escapes.  Main
statement: a comment or a keyword is found where the literals say if and only if
no place up to there has an odd number of escaped quotes in front of it.  The
scanners for parentheses, braces and default values pass over literals as they
are.
-/

namespace ViewModifiers
namespace Interface

open Text (Quoting StringLiteral OutsideLiterals escapedQuotes)

/-!
## First places
-/

/-- No place that passes a test comes before a given one. -/
def NoneBefore (P : List Char → List Char → Prop) (line front : List Char) : Prop :=
  ∀ front' back', line = front' ++ back' → P front' back' → front.length ≤ front'.length

def FirstPlace (P : List Char → List Char → Prop) (line : List Char) :
    Option (List Char × List Char) → Prop
  | some (front, back) => line = front ++ back ∧ P front back ∧ NoneBefore P line front
  | none => ∀ front back, line = front ++ back → ¬ P front back

section
variable {P : List Char → List Char → Prop} {line : List Char}
variable {place place' : Option (List Char × List Char)}

theorem FirstPlace.unique (h : FirstPlace P line place) (h' : FirstPlace P line place') :
    place = place' := by
  cases place with
  | none =>
      cases place' with
      | none => rfl
      | some found => exact absurd h'.2.1 (h _ _ h'.1)
  | some found =>
      cases place' with
      | none => exact absurd h.2.1 (h' _ _ h.1)
      | some found' =>
          have hlength : found.1.length = found'.1.length :=
            Nat.le_antisymm (h.2.2 _ _ h'.1 h'.2.1) (h'.2.2 _ _ h.1 h.2.1)
          rcases List.append_inj (h.1.symm.trans h'.1) hlength with ⟨hfront, hback⟩
          rw [← Prod.eta found, ← Prod.eta found', hfront, hback]

/-- A search from a place on, where none has passed before. -/
def firstFrom (P : List Char → List Char → Prop) [∀ front back, Decidable (P front back)]
    (front : List Char) : List Char → Option (List Char × List Char)
  | [] => none
  | c :: rest =>
      if P front (c :: rest) then some (front, c :: rest) else firstFrom P (front ++ [c]) rest

theorem firstPlace_firstFrom [∀ front back, Decidable (P front back)]
    (hend : ∀ front, ¬ P front []) (front back : List Char)
    (hbefore : NoneBefore P (front ++ back) front) :
    FirstPlace P (front ++ back) (firstFrom P front back) := by
  induction back generalizing front with
  | nil =>
      intro front' back' heq hpasses
      have hlength := hbefore front' back' heq hpasses
      have hsum := congrArg List.length heq
      rw [List.append_nil, List.length_append] at hsum
      have hback : back' = [] := List.eq_nil_of_length_eq_zero (by omega)
      exact hend front' (hback ▸ hpasses)
  | cons c rest ih =>
      rw [firstFrom]
      split
      · next hpasses => exact ⟨rfl, hpasses, hbefore⟩
      · next hfails =>
          rw [List.append_cons] at hbefore ⊢
          apply ih
          intro front' back' heq hpasses
          have hlength := hbefore front' back' heq hpasses
          rw [List.length_append]
          rcases Nat.eq_or_lt_of_le hlength with heqlength | hlt
          · rw [List.append_assoc] at heq
            rcases List.append_inj heq heqlength with ⟨rfl, rfl⟩
            exact absurd hpasses hfails
          · exact hlt

theorem firstPlace_firstFrom_nil [∀ front back, Decidable (P front back)]
    (hend : ∀ front, ¬ P front []) (line : List Char) :
    FirstPlace P line (firstFrom P [] line) :=
  firstPlace_firstFrom hend [] line fun _ _ _ _ => Nat.zero_le _

theorem FirstPlace.exists (hend : ∀ front, ¬ P front []) (line : List Char) :
    ∃ place, FirstPlace P line place := by
  classical
  exact ⟨_, firstPlace_firstFrom_nil hend line⟩

def Under (A : List Char → Prop) (T : List Char → List Char → Prop) (front back : List Char) :
    Prop :=
  T front back ∧ A front

instance {A : List Char → Prop} {T : List Char → List Char → Prop} (front back : List Char)
    [Decidable (T front back)] [Decidable (A front)] : Decidable (Under A T front back) :=
  inferInstanceAs (Decidable (_ ∧ _))

variable {A B : List Char → Prop} {T : List Char → List Char → Prop}

/-- Under two conditions a test finds the same first place if and only if the conditions agree where
it passes, up to the second of the places. -/
theorem FirstPlace.eq_iff (h : FirstPlace (Under A T) line place)
    (h' : FirstPlace (Under B T) line place') :
    place = place' ↔ ∀ front back, line = front ++ back → T front back →
      NoneBefore (Under B T) line front → (A front ↔ B front) := by
  constructor
  · intro heq front back hsplit hT hbefore
    subst heq
    cases place with
    | none =>
        exact iff_of_false (fun hA => h front back hsplit ⟨hT, hA⟩)
          fun hB => h' front back hsplit ⟨hT, hB⟩
    | some found =>
        rcases Nat.eq_or_lt_of_le (hbefore _ _ h'.1 h'.2.1) with heq | hlt
        · rcases List.append_inj (hsplit.symm.trans h.1) heq with ⟨rfl, -⟩
          exact iff_of_true h.2.1.2 h'.2.1.2
        · exact iff_of_false
            (fun hA => Nat.not_le_of_lt hlt (h.2.2 front back hsplit ⟨hT, hA⟩))
            fun hB => Nat.not_le_of_lt hlt (h'.2.2 front back hsplit ⟨hT, hB⟩)
  · intro hagree
    have hsame : ∀ front back, line = front ++ back → NoneBefore (Under B T) line front →
        (Under A T front back ↔ Under B T front back) := by
      intro front back hsplit hbefore
      exact and_congr_right fun hT => hagree front back hsplit hT hbefore
    have hmoved : FirstPlace (Under A T) line place' := by
      cases place' with
      | none =>
          intro front back hsplit hA
          have hnone : NoneBefore (Under B T) line front :=
            fun front' back' hsplit' hB => absurd hB (h' front' back' hsplit')
          exact h' front back hsplit ((hsame front back hsplit hnone).mp hA)
      | some found =>
          refine ⟨h'.1, (hsame _ _ h'.1 h'.2.2).mpr h'.2.1, ?_⟩
          intro front back hsplit hA
          by_contra hlt
          have hbefore : NoneBefore (Under B T) line front := by
            intro front' back' hsplit' hB
            exact Nat.le_trans (by omega) (h'.2.2 front' back' hsplit' hB)
          exact hlt (h'.2.2 front back hsplit ((hsame front back hsplit hbefore).mp hA))
    exact h.unique hmoved

end

def EvenQuotes (front : List Char) : Prop :=
  Even (front.count '"')

instance (front : List Char) : Decidable (EvenQuotes front) :=
  inferInstanceAs (Decidable (Even _))

theorem evenQuotes_concat (front : List Char) (c : Char) :
    EvenQuotes (front ++ [c]) ↔ (c = '"' ↔ ¬ EvenQuotes front) := by
  unfold EvenQuotes
  by_cases hc : c = '"'
  · simp [hc, List.count_append, Nat.even_add_one]
  · simp [hc, List.count_append]

/-- A search by a count of quotes ends where one by literals does if and only if no place up to
there has an odd number of escaped quotes in front of it. -/
theorem FirstPlace.counted_eq_iff {T : List Char → List Char → Prop} {line : List Char}
    {place place' : Option (List Char × List Char)}
    (h : FirstPlace (Under EvenQuotes T) line place)
    (h' : FirstPlace (Under OutsideLiterals T) line place') :
    place = place' ↔ ∀ front back, line = front ++ back → T front back →
      NoneBefore (Under OutsideLiterals T) line front →
        Even (escapedQuotes .outside front) := by
  rw [h.eq_iff h']
  simp only [EvenQuotes, Text.even_count_iff_outsideLiterals]

/-!
## Comments
-/

def CommentMark (_ back : List Char) : Prop :=
  ['/', '/'] <+: back

instance (front back : List Char) : Decidable (CommentMark front back) :=
  inferInstanceAs (Decidable (_ <+: _))

/-- The text is the line up to the first comment mark outside literals, or the whole line. -/
def CutsComment (line text : List Char) : Prop :=
  ∃ place, FirstPlace (Under OutsideLiterals CommentMark) line place ∧
    text = (place.map Prod.fst).getD line

theorem not_commentMark_nil {A : List Char → Prop} (front : List Char) :
    ¬ Under A CommentMark front [] := by
  intro h
  cases List.prefix_nil.mp h.1

theorem commentMark_cons {front rest : List Char} {c : Char} :
    CommentMark front (c :: rest) ↔ c = '/' ∧ rest.head? = some '/' := by
  rw [CommentMark, List.cons_prefix_cons]
  cases rest with
  | nil => simp
  | cons d rest => simp [eq_comm]

/-- A line is cut at the first comment mark with an even number of quotes in front of it. -/
theorem beforeComment_eq {quoted : Bool} (front back : List Char)
    (hquoted : quoted = false ↔ EvenQuotes front) :
    front ++ beforeComment quoted back =
      ((firstFrom (Under EvenQuotes CommentMark) front back).map Prod.fst).getD
        (front ++ back) := by
  induction back generalizing front quoted with
  | nil => rfl
  | cons c rest ih =>
      have hnext := evenQuotes_concat front c
      have hrest : ∀ quoted', (quoted' = false ↔ EvenQuotes (front ++ [c])) →
          front ++ c :: beforeComment quoted' rest =
            ((firstFrom (Under EvenQuotes CommentMark) (front ++ [c]) rest).map
              Prod.fst).getD (front ++ c :: rest) := by
        intro quoted' hquoted'
        simpa only [List.append_assoc, List.singleton_append] using ih _ hquoted'
      rw [beforeComment, firstFrom]
      by_cases hc : c = '"'
      · have hno : ¬ Under EvenQuotes CommentMark front (c :: rest) := by
          simp [Under, commentMark_cons, hc]
        rw [if_pos hc, if_neg hno]
        apply hrest
        rw [hnext, ← hquoted]
        simp [hc]
      · have hstop : ((!quoted) = true ∧ c = '/' ∧ rest.head? = some '/') ↔
            Under EvenQuotes CommentMark front (c :: rest) := by
          rw [Under, commentMark_cons, ← hquoted, and_comm]
          simp
        rw [if_neg hc, if_congr hstop rfl rfl]
        by_cases hcut : Under EvenQuotes CommentMark front (c :: rest)
        · rw [if_pos hcut, if_pos hcut, List.append_nil]
          rfl
        · rw [if_neg hcut, if_neg hcut]
          apply hrest
          rw [hnext, ← hquoted]
          simp [hc]

theorem fst_injective_of_firstPlace {A B : List Char → Prop} {line : List Char}
    {place place' : Option (List Char × List Char)}
    (h : FirstPlace (Under A CommentMark) line place)
    (h' : FirstPlace (Under B CommentMark) line place') :
    (place.map Prod.fst).getD line = (place'.map Prod.fst).getD line ↔ place = place' := by
  refine ⟨fun heq => ?_, fun heq => heq ▸ rfl⟩
  have hshorter : ∀ {A : List Char → Prop} {found : List Char × List Char},
      FirstPlace (Under A CommentMark) line (some found) → found.1 ≠ line := by
    intro A found hfound hwhole
    have hback : found.2 = [] := List.append_right_eq_self.mp (hfound.1.symm.trans hwhole.symm)
    exact not_commentMark_nil found.1 (hback ▸ hfound.2.1)
  cases place with
  | none =>
      cases place' with
      | none => rfl
      | some found' => exact absurd heq.symm (hshorter h')
  | some found =>
      cases place' with
      | none => exact absurd heq (hshorter h)
      | some found' =>
          have hfront : found.1 = found'.1 := heq
          have hback := (List.append_inj (h.1.symm.trans h'.1) (congrArg _ hfront)).2
          exact congrArg some (Prod.ext hfront hback)

theorem evenQuotes_beforeComment {line : List Char} (h : beforeComment false line ≠ line) :
    EvenQuotes (beforeComment false line) := by
  have hcounted : FirstPlace (Under EvenQuotes CommentMark) line
      (firstFrom (Under EvenQuotes CommentMark) [] line) :=
    firstPlace_firstFrom_nil not_commentMark_nil line
  have hvalue : beforeComment false line = _ :=
    beforeComment_eq [] line (by simp [EvenQuotes])
  rw [hvalue] at h ⊢
  cases hplace : firstFrom (Under EvenQuotes CommentMark) [] line with
  | none =>
      rw [hplace] at h
      exact absurd rfl h
  | some found =>
      rw [hplace] at hcounted
      exact hcounted.2.1.2

theorem cutsComment_iff (line : List Char) :
    CutsComment line (beforeComment false line) ↔
      ∀ front back, line = front ++ back → CommentMark front back →
        NoneBefore (Under OutsideLiterals CommentMark) line front →
          Even (escapedQuotes .outside front) := by
  have hcounted : FirstPlace (Under EvenQuotes CommentMark) line
      (firstFrom (Under EvenQuotes CommentMark) [] line) :=
    firstPlace_firstFrom_nil not_commentMark_nil line
  have hvalue : beforeComment false line = _ :=
    beforeComment_eq [] line (by simp [EvenQuotes])
  rcases FirstPlace.exists (P := Under OutsideLiterals CommentMark) not_commentMark_nil line with
    ⟨place, hplace⟩
  rw [← hcounted.counted_eq_iff hplace, ← fst_injective_of_firstPlace hcounted hplace, hvalue]
  constructor
  · rintro ⟨found, hfound, heq⟩
    rw [hfound.unique hplace] at heq
    exact heq
  · intro heq
    exact ⟨place, hplace, heq⟩

/-!
## Keywords
-/

/-- A word that no word part precedes or follows; a quote belongs to its literal. -/
def WholeWord (word front back : List Char) : Prop :=
  back.head?.any (· ≠ '"') = true ∧ front.getLast?.any isWordPart = false ∧
    startsWithWord word back = true

instance (word front back : List Char) : Decidable (WholeWord word front back) :=
  inferInstanceAs (Decidable (_ ∧ _ ∧ _))

/-- What is found is the line from the first whole word outside literals on. -/
def FindsWord (word line : List Char) (found : Option (List Char)) : Prop :=
  ∃ place, FirstPlace (Under OutsideLiterals (WholeWord word)) line place ∧
    found = place.map Prod.snd

theorem not_wholeWord_nil {A : List Char → Prop} {word : List Char} (front : List Char) :
    ¬ Under A (WholeWord word) front [] := by
  intro h
  cases h.1.1

/-- A word is found at the first whole word with an even number of quotes in front of it. -/
theorem fromWord_eq {word : List Char} {quoted : Bool} (front back : List Char)
    (hquoted : quoted = false ↔ EvenQuotes front) :
    fromWord word front.getLast? quoted back =
      (firstFrom (Under EvenQuotes (WholeWord word)) front back).map Prod.snd := by
  induction back generalizing front quoted with
  | nil => rfl
  | cons c rest ih =>
      have hnext := evenQuotes_concat front c
      have hlast : (front ++ [c]).getLast? = some c := List.getLast?_concat
      rw [fromWord, firstFrom]
      by_cases hc : c = '"'
      · have hno : ¬ Under EvenQuotes (WholeWord word) front (c :: rest) := by
          simp [Under, WholeWord, hc]
        rw [if_pos hc, if_neg hno, ← hlast]
        apply ih
        rw [hnext, ← hquoted]
        simp [hc]
      · have hstop : ((!quoted) = true ∧ (!(front.getLast?.any isWordPart)) = true ∧
            startsWithWord word (c :: rest) = true) ↔
              Under EvenQuotes (WholeWord word) front (c :: rest) := by
          rw [Under, WholeWord, ← hquoted, and_comm]
          simp [hc]
        rw [if_neg hc, if_congr hstop rfl rfl]
        by_cases hfound : Under EvenQuotes (WholeWord word) front (c :: rest)
        · rw [if_pos hfound, if_pos hfound]
          rfl
        · rw [if_neg hfound, if_neg hfound, ← hlast]
          apply ih
          rw [hnext, ← hquoted]
          simp [hc]

theorem snd_injective_of_firstPlace {P P' : List Char → List Char → Prop} {line : List Char}
    {place place' : Option (List Char × List Char)} (h : FirstPlace P line place)
    (h' : FirstPlace P' line place') :
    place.map Prod.snd = place'.map Prod.snd ↔ place = place' := by
  refine ⟨fun heq => ?_, fun heq => heq ▸ rfl⟩
  cases place with
  | none =>
      cases place' with
      | none => rfl
      | some found' => cases heq
  | some found =>
      cases place' with
      | none => cases heq
      | some found' =>
          have hback : found.2 = found'.2 := Option.some.inj heq
          have hfront := (List.append_inj' (h.1.symm.trans h'.1) (congrArg _ hback)).1
          exact congrArg some (Prod.ext hfront hback)

theorem findsWord_iff (word line : List Char) :
    FindsWord word line (fromWord word none false line) ↔
      ∀ front back, line = front ++ back → WholeWord word front back →
        NoneBefore (Under OutsideLiterals (WholeWord word)) line front →
          Even (escapedQuotes .outside front) := by
  have hcounted : FirstPlace (Under EvenQuotes (WholeWord word)) line
      (firstFrom (Under EvenQuotes (WholeWord word)) [] line) :=
    firstPlace_firstFrom_nil not_wholeWord_nil line
  have hvalue : fromWord word none false line = _ :=
    fromWord_eq [] line (by simp [EvenQuotes])
  rcases FirstPlace.exists (P := Under OutsideLiterals (WholeWord word)) not_wholeWord_nil line
    with ⟨place, hplace⟩
  rw [← hcounted.counted_eq_iff hplace, ← snd_injective_of_firstPlace hcounted hplace, hvalue]
  constructor
  · rintro ⟨found, hfound, heq⟩
    rw [hfound.unique hplace] at heq
    exact heq
  · intro heq
    exact ⟨place, hplace, heq⟩

/-!
## Parentheses, braces and default values
-/

section
variable {text : List Char}

theorem Parens.scan_literal (h : StringLiteral text) {p : Parens} (hopen : p.closed = false)
    (rest : List Char) : p.scan .outside (text ++ rest) = p.scan .outside rest := by
  have hpass := h.foldr_of_scan p.scan (fun _ => id) ?_ ?_ rest
  · rw [hpass, List.foldr_const, Function.iterate_id, id]
  · intro q c rest hq
    rw [Parens.scan, if_neg hq, id]
  · intro rest
    have hstep : p.step '"' = p := rfl
    rw [Parens.scan, if_pos rfl, hstep, if_neg (by simp [hopen])]
    rfl

theorem Scanner.braces_literal (h : StringLiteral text) (first : Option Scope)
    (scopes : List Scope) (rest : List Char) :
    braces first .outside scopes (text ++ rest) = braces first .outside scopes rest := by
  have hpass := h.foldr_of_scan (fun q cs => braces first q scopes cs) (fun _ => id) ?_ ?_ rest
  · rw [hpass, List.foldr_const, Function.iterate_id, id]
  · intro q c rest hq
    rw [braces, if_neg fun h => hq h.1, if_neg fun h => hq h.1, id]
  · intro rest
    rfl

open TypeExpr.Grammar (closeParens) in
theorem closeParens_literal (h : StringLiteral text) (depth : Nat) (rest : List Char) :
    closeParens .outside depth (text ++ rest) =
      (closeParens .outside depth rest).map fun found => (text ++ found.1, found.2) := by
  have hpass := h.foldr_of_scan (fun q cs => closeParens q depth cs)
    (fun c next => next.map fun found => (c :: found.1, found.2)) ?_ ?_ rest
  · have hfold : ∀ (cs : List Char) (found? : Option (List Char × List Char)),
        cs.foldr (fun c next => next.map fun found => (c :: found.1, found.2)) found? =
          found?.map fun found => (cs ++ found.1, found.2) := by
      intro cs found?
      induction cs with
      | nil => exact Option.map_id'.symm
      | cons c cs ih =>
          rw [List.foldr_cons, ih, Option.map_map]
          rfl
    rw [hpass, hfold]
  · intro q c rest hq
    simp [closeParens, hq]
  · intro rest
    simp [closeParens, Quoting.step]

open Signature.Grammar (defaultExtent) in
theorem defaultExtent_literal (h : StringLiteral text) (depth : Nat) (rest : List Char) :
    defaultExtent .outside depth (text ++ rest) = text ++ defaultExtent .outside depth rest := by
  have hpass := h.foldr_of_scan (fun q cs => defaultExtent q depth cs) List.cons ?_ ?_ rest
  · rw [hpass, List.foldr_cons_eq_append']
  · intro q c rest hq
    simp [defaultExtent, hq]
  · intro rest
    simp [defaultExtent, Quoting.step]

end

/-!
## Where the scanners agree
-/

/--
A line is cut at its first comment outside literals, or not at all, if and only if
no comment mark up to there has an odd number of escaped quotes in front of it;
the same holds of the first whole word outside literals.  A line that is cut is cut
outside literals if and only if the number of escaped quotes in front of the cut is
even.  So without escaped quotes the scanners for comments and keywords agree with
those for parentheses, braces, arguments of attributes and default values, which
always pass over literals.
-/
theorem literals_agree_iff (line : List Char) (keyword : String) :
    (CutsComment line (beforeComment false line) ↔
        ∀ front back, line = front ++ back → CommentMark front back →
          NoneBefore (Under OutsideLiterals CommentMark) line front →
            Even (escapedQuotes .outside front)) ∧
      (FindsWord keyword.toList line (fromKeyword? keyword line) ↔
        ∀ front back, line = front ++ back → WholeWord keyword.toList front back →
          NoneBefore (Under OutsideLiterals (WholeWord keyword.toList)) line front →
            Even (escapedQuotes .outside front)) ∧
      (beforeComment false line ≠ line →
        (OutsideLiterals (beforeComment false line) ↔
          Even (escapedQuotes .outside (beforeComment false line)))) ∧
      (escapedQuotes .outside line = 0 →
        CutsComment line (beforeComment false line) ∧
          FindsWord keyword.toList line (fromKeyword? keyword line)) ∧
      ∀ text rest, StringLiteral text →
        (∀ p : Parens, p.closed = false →
          p.scan .outside (text ++ rest) = p.scan .outside rest) ∧
        (∀ first scopes, Scanner.braces first .outside scopes (text ++ rest) =
          Scanner.braces first .outside scopes rest) ∧
        (∀ depth, TypeExpr.Grammar.closeParens .outside depth (text ++ rest) =
          (TypeExpr.Grammar.closeParens .outside depth rest).map
            fun found => (text ++ found.1, found.2)) ∧
        ∀ depth, Signature.Grammar.defaultExtent .outside depth (text ++ rest) =
          text ++ Signature.Grammar.defaultExtent .outside depth rest := by
  have hnone : escapedQuotes .outside line = 0 → ∀ front back, line = front ++ back →
      Even (escapedQuotes .outside front) := by
    intro hzero front back hsplit
    rw [hsplit, Text.escapedQuotes_append] at hzero
    rw [(Nat.add_eq_zero_iff.mp hzero).1]
    exact Even.zero
  refine ⟨cutsComment_iff line, findsWord_iff keyword.toList line, ?_, ?_, ?_⟩
  · intro hcut
    have heven := evenQuotes_beforeComment hcut
    rw [← Text.even_count_iff_outsideLiterals]
    exact ⟨fun h => iff_of_true heven h, fun h => h.mp heven⟩
  · intro hzero
    exact ⟨(cutsComment_iff line).mpr fun front back hsplit _ _ => hnone hzero front back hsplit,
      (findsWord_iff _ line).mpr fun front back hsplit _ _ => hnone hzero front back hsplit⟩
  · intro text rest h
    exact ⟨fun p hopen => Parens.scan_literal h hopen rest,
      fun first scopes => Scanner.braces_literal h first scopes rest,
      fun depth => closeParens_literal h depth rest,
      fun depth => defaultExtent_literal h depth rest⟩

theorem noneBefore_of_forall_lt {P T : List Char → List Char → Prop} {line front : List Char}
    (hP : ∀ front back, P front back → T front back)
    (h : ∀ n < front.length, ¬ T (line.take n) (line.drop n)) : NoneBefore P line front := by
  intro front' back' hsplit hpasses
  by_contra hlt
  apply h front'.length (Nat.lt_of_not_le hlt)
  rw [hsplit, List.take_left, List.drop_left]
  exact hP front' back' hpasses

/-- An attribute whose literal holds an escaped quote, a keyword and two slashes. -/
def notedLine : List Char :=
  "@note(\"\\\"func//\") func f()".toList

/-- The line has no comment and one keyword, but it is cut within the literal, and the keyword in
the literal is found. -/
theorem not_agree_behind_escapedQuote :
    ¬ CutsComment notedLine (beforeComment false notedLine) ∧
      ¬ FindsWord "func".toList notedLine (fromKeyword? "func" notedLine) ∧
        ¬ OutsideLiterals (beforeComment false notedLine) := by
  refine ⟨?_, ?_, ?_⟩
  · intro h
    have heven := (cutsComment_iff notedLine).mp h (notedLine.take 13) (notedLine.drop 13)
      (List.take_append_drop 13 notedLine).symm (by decide +kernel)
      (noneBefore_of_forall_lt (fun _ _ h => h.1) (by decide +kernel))
    exact absurd heven (by decide +kernel)
  · intro h
    have heven := (findsWord_iff "func".toList notedLine).mp h (notedLine.take 9)
      (notedLine.drop 9) (List.take_append_drop 9 notedLine).symm (by decide +kernel)
      (noneBefore_of_forall_lt (fun _ _ h => h.1) (by decide +kernel))
    exact absurd heven (by decide +kernel)
  · rw [Text.outsideLiterals_iff]
    decide +kernel

end Interface
end ViewModifiers
