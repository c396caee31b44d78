import Mathlib.Algebra.Ring.Parity
import Mathlib.Data.List.Induction
import ViewModifiers.Text.Quoting

/-!
# String literals

A string literal runs from a double quote to the next one that does not have an
odd number of backslashes in front of it.  Main statements: the quoting state
behind a text is outside if and only if the text is made of literals and of
characters that are no quotes, and a count of all double quotes is off exactly by
those that are escaped.
-/

namespace ViewModifiers
namespace Text

def backslashesAtEnd (text : List Char) : Nat :=
  (text.reverse.takeWhile (· == '\\')).length

def QuotesEscaped (text : List Char) : Prop :=
  ∀ front back, text = front ++ '"' :: back → Odd (backslashesAtEnd front)

/-- The closing quote is the first one that is not escaped. -/
inductive StringLiteral : List Char → Prop where
  | quoted {body : List Char} : QuotesEscaped body → Even (backslashesAtEnd body) →
      StringLiteral ('"' :: (body ++ ['"']))

/-- A text of literals and of characters that are no quotes: no literal is open behind it. -/
inductive OutsideLiterals : List Char → Prop where
  | nil : OutsideLiterals []
  | plain {c : Char} {rest : List Char} : c ≠ '"' → OutsideLiterals rest →
      OutsideLiterals (c :: rest)
  | literal {text rest : List Char} : StringLiteral text → OutsideLiterals rest →
      OutsideLiterals (text ++ rest)

/-!
## Bodies of literals
-/

section
variable {body text : List Char} {c : Char}

theorem backslashesAtEnd_concat (body : List Char) (c : Char) :
    backslashesAtEnd (body ++ [c]) = if c = '\\' then backslashesAtEnd body + 1 else 0 := by
  by_cases hc : c = '\\'
  · simp [backslashesAtEnd, hc]
  · simp [backslashesAtEnd, hc]

theorem QuotesEscaped.front {front back : List Char} (h : QuotesEscaped (front ++ back)) :
    QuotesEscaped front := by
  intro before behind heq
  apply h before (behind ++ back)
  rw [heq, List.append_assoc, List.cons_append]

theorem QuotesEscaped.concat (h : QuotesEscaped body)
    (hc : c = '"' → Odd (backslashesAtEnd body)) : QuotesEscaped (body ++ [c]) := by
  intro front back heq
  rcases List.eq_nil_or_concat back with rfl | ⟨more, last, rfl⟩
  · rcases List.append_inj' heq rfl with ⟨rfl, hlast⟩
    exact hc (List.cons.inj hlast).1
  · have hbody : body ++ [c] = (front ++ '"' :: more) ++ [last] := by
      rw [heq]
      simp
    exact h front more (List.append_inj' hbody rfl).1

theorem after_of_quotesEscaped (h : QuotesEscaped body) :
    Quoting.after (.inside false) body = .inside (decide (Odd (backslashesAtEnd body))) := by
  induction body using List.reverseRecOn with
  | nil => rfl
  | append_singleton body c ih =>
      rw [Quoting.after_append, ih h.front, backslashesAtEnd_concat]
      by_cases hslash : c = '\\'
      · by_cases hodd : Odd (backslashesAtEnd body)
        · simp [Quoting.step, hslash, hodd]
        · simp [Quoting.step, hslash, hodd, Nat.odd_add_one]
      · by_cases hodd : Odd (backslashesAtEnd body)
        · simp [Quoting.step, hslash, hodd]
        · have hquote : c ≠ '"' := by
            rintro rfl
            exact hodd (h body [] rfl)
          simp [Quoting.step, hslash, hodd, hquote]

/-- From within a literal, the text does not leave it. -/
def StaysInside : Quoting → List Char → Prop
  | q, [] => q ≠ .outside
  | q, c :: rest => q ≠ .outside ∧ StaysInside (q.step c) rest

theorem staysInside_concat {q : Quoting} :
    StaysInside q (body ++ [c]) ↔ StaysInside q body ∧ (q.after body).step c ≠ .outside := by
  induction body generalizing q with
  | nil => rfl
  | cons d body ih =>
      rw [List.cons_append, StaysInside, StaysInside, ih, and_assoc]
      rfl

theorem QuotesEscaped.staysInside (h : QuotesEscaped body) : StaysInside (.inside false) body := by
  induction body using List.reverseRecOn with
  | nil => exact nofun
  | append_singleton body c ih =>
      refine staysInside_concat.mpr ⟨ih h.front, ?_⟩
      have hafter := after_of_quotesEscaped h
      rw [Quoting.after_append] at hafter
      change (Quoting.after (.inside false) body).step c = _ at hafter
      rw [hafter]
      exact nofun

/-- A text that does not leave the literal has no quote that could close it. -/
theorem quotesEscaped_of_staysInside (h : StaysInside (.inside false) body) :
    QuotesEscaped body := by
  induction body using List.reverseRecOn with
  | nil =>
      intro front back heq
      cases front <;> cases heq
  | append_singleton body c ih =>
      rcases staysInside_concat.mp h with ⟨hinside, hlast⟩
      have hbody := ih hinside
      apply hbody.concat
      rintro rfl
      by_contra hodd
      apply hlast
      rw [after_of_quotesEscaped hbody]
      simp [Quoting.step, hodd]

theorem exists_close_of_after {q : Quoting} (hq : q ≠ .outside) (h : q.after text = .outside) :
    ∃ body rest, text = body ++ '"' :: rest ∧ q.after body = .inside false ∧
      StaysInside q body ∧ Quoting.outside.after rest = .outside := by
  induction text generalizing q with
  | nil => exact absurd h hq
  | cons c text ih =>
      rw [Quoting.after_cons] at h
      by_cases hstep : q.step c = .outside
      · have hclose : q = .inside false ∧ c = '"' := by
          cases q with
          | outside => exact absurd rfl hq
          | inside escaped =>
              cases escaped with
              | true => cases hstep
              | false =>
                  refine ⟨rfl, ?_⟩
                  by_contra hc
                  by_cases hslash : c = '\\' <;> simp [Quoting.step, hc, hslash] at hstep
        rcases hclose with ⟨rfl, rfl⟩
        exact ⟨[], text, rfl, rfl, hq, h⟩
      · rcases ih hstep h with ⟨body, rest, rfl, hbody, hinside, hrest⟩
        exact ⟨c :: body, rest, rfl, hbody, ⟨hq, hinside⟩, hrest⟩

end

/-!
## Texts with literals
-/

theorem StringLiteral.after {text : List Char} (h : StringLiteral text) :
    Quoting.outside.after text = .outside := by
  rcases h with ⟨hbody, heven⟩
  rw [Quoting.after_cons, Quoting.after_append]
  change ((Quoting.inside false).after _).after ['"'] = _
  rw [after_of_quotesEscaped hbody, decide_eq_false (Nat.not_odd_iff_even.mpr heven)]
  rfl

theorem StringLiteral.foldr_of_scan {text : List Char} (h : StringLiteral text)
    (scan : Quoting → List Char → β) (pass : Char → β → β)
    (hinside : ∀ q c rest, q ≠ .outside → scan q (c :: rest) = pass c (scan (q.step c) rest))
    (hquote : ∀ rest, scan .outside ('"' :: rest) = pass '"' (scan (.inside false) rest))
    (rest : List Char) : scan .outside (text ++ rest) = text.foldr pass (scan .outside rest) := by
  rcases h with @⟨body, hbody, heven⟩
  have hfold : ∀ {q : Quoting} {body : List Char}, StaysInside q body → ∀ rest,
      scan q (body ++ rest) = body.foldr pass (scan (q.after body) rest) := by
    intro q body hstays
    induction body generalizing q with
    | nil => exact fun _ => rfl
    | cons c body ih =>
        intro rest
        rw [List.cons_append, hinside q c _ hstays.1, ih hstays.2]
        rfl
  have hclose : scan (.inside false) ('"' :: rest) = pass '"' (scan .outside rest) :=
    hinside _ _ _ nofun
  have hafter : Quoting.after (.inside false) body = .inside false := by
    rw [after_of_quotesEscaped hbody, decide_eq_false (Nat.not_odd_iff_even.mpr heven)]
  rw [List.cons_append, List.append_assoc, List.singleton_append, hquote,
    hfold hbody.staysInside, hafter, hclose]
  simp

/-- No literal is open behind a text if and only if a scan of it ends outside. -/
theorem outsideLiterals_iff {text : List Char} :
    OutsideLiterals text ↔ Quoting.outside.after text = .outside := by
  constructor
  · intro h
    induction h with
    | nil => rfl
    | plain hc _ ih =>
        rw [Quoting.after_cons, Quoting.step, if_neg hc]
        exact ih
    | literal hliteral _ ih => rw [Quoting.after_append, hliteral.after, ih]
  · intro h
    induction hlength : text.length using Nat.strong_induction_on generalizing text with
    | _ n ih =>
        cases text with
        | nil => exact .nil
        | cons c rest =>
            rw [List.length_cons] at hlength
            by_cases hc : c = '"'
            · subst hc
              rcases exists_close_of_after (q := .inside false) nofun h with
                ⟨body, rest, rfl, hbody, hinside, hrest⟩
              have hescaped := quotesEscaped_of_staysInside hinside
              have heven : Even (backslashesAtEnd body) := by
                rw [after_of_quotesEscaped hescaped] at hbody
                simpa using hbody
              have houtside : OutsideLiterals rest := by
                refine ih rest.length ?_ hrest rfl
                rw [List.length_append, List.length_cons] at hlength
                omega
              have hwhole := OutsideLiterals.literal (.quoted hescaped heven) houtside
              simpa using hwhole
            · rw [Quoting.after_cons, Quoting.step, if_neg hc] at h
              exact .plain hc (ih rest.length (by omega) h rfl)

def escapedQuotes : Quoting → List Char → Nat
  | _, [] => 0
  | q, c :: rest =>
      (if q = .inside true ∧ c = '"' then 1 else 0) + escapedQuotes (q.step c) rest

theorem escapedQuotes_append (q : Quoting) (front back : List Char) :
    escapedQuotes q (front ++ back) =
      escapedQuotes q front + escapedQuotes (q.after front) back := by
  induction front generalizing q with
  | nil => simp [escapedQuotes]
  | cons c front ih => simp [escapedQuotes, ih, Nat.add_assoc]

/-- A literal is open behind a text if and only if the other quotes are odd in number. -/
theorem after_eq_outside_iff (text : List Char) :
    Quoting.outside.after text = .outside ↔
      Even (text.count '"' + escapedQuotes .outside text) := by
  induction text using List.reverseRecOn with
  | nil => simp [escapedQuotes]
  | append_singleton text c ih =>
      rw [Quoting.after_append, escapedQuotes_append, List.count_append]
      rw [Nat.even_iff] at ih ⊢
      generalize Quoting.outside.after text = q at ih ⊢
      by_cases hc : c = '"'
      · subst hc
        cases q with
        | outside =>
            simp [Quoting.step, escapedQuotes] at ih ⊢
            omega
        | inside escaped =>
            cases escaped with
            | true =>
                simp [Quoting.step, escapedQuotes] at ih ⊢
                omega
            | false =>
                simp [Quoting.step, escapedQuotes] at ih ⊢
                omega
      · have hcount : List.count '"' [c] = 0 := by simp [hc]
        have hescaped : escapedQuotes q [c] = 0 := by simp [escapedQuotes, hc]
        rw [hcount, hescaped, Nat.add_zero, Nat.add_zero, ← ih]
        cases q with
        | outside => simp [Quoting.step, hc]
        | inside escaped =>
            cases escaped with
            | true => simp [Quoting.step]
            | false => by_cases hslash : c = '\\' <;> simp [Quoting.step, hc, hslash]

/-- A count of all quotes tells whether a literal is open, unless it is off by an odd number. -/
theorem even_count_iff_outsideLiterals {text : List Char} :
    (Even (text.count '"') ↔ OutsideLiterals text) ↔ Even (escapedQuotes .outside text) := by
  rw [outsideLiterals_iff, after_eq_outside_iff, Nat.even_add]
  tauto

end Text
end ViewModifiers
