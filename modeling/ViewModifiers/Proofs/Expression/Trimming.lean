import ViewModifiers.Proofs.Expression.Acceptance
import ViewModifiers.Proofs.Platform.Conditions
import ViewModifiers.Proofs.Signature.RoundTrip

/-!
# Blanks around expressions

Trimming takes all blanks from the ends of a text, and layout is a part of them.
No expression starts or ends with a blank.  So trimming leaves the expression of
a text that is read, and that is read as the same tree, up to spans.
-/

namespace ViewModifiers
namespace Syntax

open Expression.Grammar
open TypeExpr.Grammar (EndsTight endsTight_concat trim_eq_self)

/-!
## The ends of expressions
-/

section
variable {longest : Bool} {text : List Char} {phrase : Phrase} {x : Char}

theorem isBlank_of_isLetterOrDigit (h : isLetterOrDigit x = true) : Text.isBlank x = false :=
  TypeExpr.Grammar.isBlank_eq_false (Or.inl h)

theorem isBlank_of_isOpening (h : isOpening x = true) : Text.isBlank x = false := by
  rw [isOpening, Bool.or_eq_true] at h
  rcases h with hword | hmark
  · exact isBlank_of_isLetterOrDigit hword
  · simp only [List.contains_eq_mem, List.mem_cons, List.not_mem_nil, or_false,
      decide_eq_true_eq] at hmark
    rcases hmark with rfl | rfl | rfl | rfl | rfl | rfl <;> decide

theorem endsTight_of_word (hne : text ≠ []) (h : ∀ x ∈ text, isLetterOrDigit x = true) :
    EndsTight text := by
  rcases List.eq_nil_or_concat' text with hnil | ⟨front, x, rfl⟩
  · exact absurd hnil hne
  · exact endsTight_concat front (isBlank_of_isLetterOrDigit (h x List.mem_concat_self))

theorem IsDigits.endsTight (h : IsDigits text) : EndsTight text :=
  endsTight_of_word h.1 fun x hx => isLetterOrDigit_of_isDigit (h.2 x hx)

theorem IsName.endsTight (h : IsName text) : EndsTight text := by
  rcases h.exists_first with ⟨x, more, rfl, _⟩
  exact endsTight_of_word (List.cons_ne_nil x more) h.isLetterOrDigit

theorem Numeral.endsTight {l : Literal} (h : Numeral text l) : EndsTight text := by
  cases h with
  | integer negative hdigits => exact hdigits.endsTight.append _
  | float negative _ hfraction => exact ((hfraction.endsTight.cons '.').append _).append _

theorem Derives.endsTight_suffix {name : List Char} {arguments : Option (List Argument)}
    (hname : IsName name) (h : Derives longest text (.suffix arguments)) :
    EndsTight (name ++ text) := by
  cases h with
  | noArguments =>
      rw [List.append_nil]
      exact hname.endsTight
  | @arguments w text _ _ _ _ _ _ =>
      have hclose : EndsTight ('(' :: (w ++ (text ++ [')']))) :=
        (((endsTight_concat [] rfl).append text).append w).cons '('
      exact hclose.append name

theorem Derives.endsTight (h : Derives longest text phrase) (hphrase : phrase.IsExpression) :
    EndsTight text := by
  induction h with
  | chain _ ih => exact ih trivial
  | range _ _ _ _ _ _ _ ihUpper =>
      exact ((((ihUpper trivial).append _).append _).append _).append _
  | primary _ ih => exact ih trivial
  | member _ hname hbehind _ _ => exact ((hbehind.endsTight_suffix hname).cons '.').append _
  | array _ _ _ _ _ => exact (((endsTight_concat [] rfl).append _).append _).cons '['
  | string _ => exact ((endsTight_concat [] rfl).append _).cons '"'
  | number hnumeral => exact hnumeral.endsTight
  | parenthesised _ _ _ _ =>
      exact ((((endsTight_concat [] rfl).append _).append _).append _).cons '('
  | implicitMember hname hbehind _ => exact (hbehind.endsTight_suffix hname).cons '.'
  | atom hname => exact (IsName.endsTight hname).cons ':'
  | name hname hbehind _ => exact hbehind.endsTight_suffix hname
  | noArguments => exact hphrase.elim
  | arguments _ _ _ _ _ => exact hphrase.elim
  | unlabelled _ _ => exact hphrase.elim
  | labelled _ _ _ _ _ => exact hphrase.elim

/-!
## Trimmed texts
-/

theorem IsLayout.isBlank {w : List Char} (h : IsLayout w) : ∀ c ∈ w, Text.isBlank c = true :=
  fun c hc => Text.isBlank_of_isLayout (h c hc)

/-- Trimming takes the layout around an expression and nothing else. -/
theorem Derives.trimChars_eq {w w' : List Char} {e : Expression}
    (h : Derives longest text (.expression e)) (hw : IsLayout w) (hw' : IsLayout w') :
    Text.trimChars (w ++ (text ++ w')) = text := by
  rcases h.opens trivial with ⟨x, more, hfirst, hx⟩
  have hend : EndsTight (String.ofList text).toList := by
    rw [String.toList_ofList]
    exact h.endsTight trivial
  have hself : Text.trim (String.ofList text) = String.ofList text :=
    trim_eq_self (String.toList_ofList.trans hfirst) (isBlank_of_isOpening hx) hend
  rw [Text.trim, String.toList_ofList] at hself
  calc Text.trimChars (w ++ (text ++ w'))
      = Text.trimChars (text ++ w') := by
        rw [Text.trimChars, Text.dropBlanks_append_of_blank hw.isBlank, Text.trimChars]
    _ = Text.trimChars text := Text.trimChars_append_of_blank hw'.isBlank
    _ = text := String.ofList_injective hself

end

end Syntax

namespace Expression

open Syntax

theorem exists_longest_of_read {source : String} {e : Expression} (h : read source = .ok e) :
    ∃ e', Sentence true source e' ∧ Permitted e' ∧ e.shape = e'.shape := by
  rcases (sentence_of_read h).longest with ⟨e', he', _⟩
  have hpermitted := permitted_of_read h he'
  rcases read_of_sentence he' hpermitted with ⟨e'', hread, hshape⟩
  cases h.symm.trans hread
  exact ⟨e', he', hpermitted, hshape⟩

theorem read_of_derives {text : List Char} {e : Expression}
    (h : Derives true text (.expression e)) (he : Permitted e) :
    ∃ e', read (String.ofList text) = .ok e' ∧ e'.shape = e.shape := by
  refine read_of_sentence ⟨[], text, [], ?_, isLayout_nil, isLayout_nil, h⟩ he
  rw [String.toList_ofList, List.nil_append, List.append_nil]

theorem read_trim {source : String} {e : Expression} (h : read source = .ok e) :
    ∃ e', read (Text.trim source) = .ok e' ∧ e'.shape = e.shape := by
  rcases exists_longest_of_read h with ⟨e', hsentence, he', hshape⟩
  rcases hsentence with ⟨w, text, w', hsource, hw, hw', hderives⟩
  rcases read_of_derives hderives he' with ⟨e'', hread, htrimmed⟩
  rw [Text.trim, hsource, hderives.trimChars_eq hw hw']
  exact ⟨e'', hread, htrimmed.trans hshape.symm⟩

end Expression
end ViewModifiers
