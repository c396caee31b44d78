import ViewModifiers.Proofs.Expression.Trimming
import ViewModifiers.Proofs.Table.EntryPoints
import ViewModifiers.Proofs.Value.Conformance

/-!
# Texts of attributes

An attribute may hold an expression, which is decoded as an argument is.  The
shortcuts of attributes, for blanks around the text and for bare names of cases,
take nothing from the expressions that a kind accepts.  Main statements: an
attribute with the text of an expression means what the expression means; and a
reference to an attribute may stand for a value if and only if some text is one.
-/

namespace ViewModifiers
namespace ValueKind

open Syntax
open Text (Span)

/-- What an attribute names a case by: its text without blanks around it and a point in front. -/
def bareName (source : String) : String :=
  let trimmed := Text.trimChars source.toList
  String.ofList ((Text.dropPrefix? ['.'] trimmed).getD trimmed)

section
variable {k : ValueKind} {source : String} {text : List Char} {e e' : Expression} {v : Value}

/-!
## Texts of expressions
-/

theorem decodeConstant_eq_ok_iff (h : e.shape = e'.shape) :
    k.decodeConstant e = .ok v ↔ k.decodeConstant e' = .ok v := by
  have hshape : ∀ e : Expression,
      k.decodeConstant e.shape = .ok v ↔ k.decodeConstant e = .ok v := by
    intro e
    rw [decodeConstant_shape]
    cases k.decodeConstant e with
    | error cause => exact ⟨nofun, nofun⟩
    | ok w => exact Iff.rfl
  rw [← hshape e, h, hshape e']

theorem decodeSource_eq_ok_iff (hread : Expression.read source = .ok e) :
    k.decodeSource source = .ok v ↔ k.decodeConstant e = .ok v := by
  unfold decodeSource
  rw [hread]
  dsimp only
  cases k.decodeConstant e with
  | error cause => exact ⟨nofun, nofun⟩
  | ok w => simp

theorem decodeSource_trim_eq_ok_iff (hread : Expression.read source = .ok e) :
    k.decodeSource (Text.trim source) = .ok v ↔ k.decodeConstant e = .ok v := by
  rcases Expression.read_trim hread with ⟨e', hread', hshape⟩
  rw [decodeSource_eq_ok_iff hread', decodeConstant_eq_ok_iff hshape]

theorem shape_eq_of_trimChars (hread : Expression.read source = .ok e)
    (htrim : Text.trimChars source.toList = text) (h : Derives true text (.expression e'))
    (he' : Permitted e') : e.shape = e'.shape := by
  rcases Expression.read_trim hread with ⟨f, hf, hfshape⟩
  rcases Expression.read_of_derives h he' with ⟨g, hg, hgshape⟩
  rw [Text.trim, htrim, hg] at hf
  cases hf
  exact hfshape.symm.trans hgshape

/-!
## Names of cases
-/

variable {name case : String} {cases : List String} {isOptionSet : Bool} {span : Span}

theorem decodeConstant_implicitMember (h : case ∈ cases) :
    (enumeration name cases isOptionSet).decodeConstant (.implicitMember case none span) =
      .ok (if isOptionSet then .optionSet name [case] else .enumCase name case) := by
  cases isOptionSet with
  | true => simp [decodeConstant, firstForm, optionSetForms, implicitCase?, known?, h]
  | false => simp [decodeConstant, firstForm, enumerationForms, implicitCase?, known?, h]

/-- A bare name is no case of an enumeration where expressions are written. -/
theorem decodeConstant_nameForm_ne_ok :
    (enumeration name cases isOptionSet).decodeConstant (nameForm case none span) ≠ .ok v := by
  have hforms : ∀ e, StandsFor case span none e →
      (enumeration name cases isOptionSet).decodeConstant e ≠ .ok v := by
    intro e he
    cases isOptionSet with
    | true =>
        cases he with
        | _ => simp [decodeConstant, firstForm, optionSetForms, implicitCase?, qualifiedCase?,
            caseArray?, Expression.string?]
    | false =>
        cases he with
        | _ => simp [decodeConstant, firstForm, enumerationForms, implicitCase?, qualifiedCase?,
            Expression.string?]
  exact hforms _ (standsFor_nameForm case none span)

theorem permitted_nameForm_none : Permitted (nameForm case none span) := by
  have hforms : ∀ e, StandsFor case span none e → Permitted e := by
    intro e he
    cases he with
    | isTrue => exact permitted_literal.mpr trivial
    | isFalse => exact permitted_literal.mpr trivial
    | isNil => exact permitted_literal.mpr trivial
    | identifier => exact permitted_identifier
  exact hforms _ (standsFor_nameForm case none span)

theorem decodeText_enumeration (source : String) :
    (enumeration name cases isOptionSet).decodeText source =
      if cases.contains (bareName source) then
        .ok (if isOptionSet then .optionSet name [bareName source]
          else .enumCase name (bareName source))
      else (enumeration name cases isOptionSet).decodeSource (Text.trim source) := by
  rw [decodeText]
  rfl

theorem trimChars_eq_or (source : String) :
    Text.trimChars source.toList = '.' :: (bareName source).toList ∨
      Text.trimChars source.toList = (bareName source).toList := by
  unfold bareName
  rw [String.toList_ofList]
  cases hdrop : Text.dropPrefix? ['.'] (Text.trimChars source.toList) with
  | none => exact Or.inr rfl
  | some rest => exact Or.inl (Text.dropPrefix?_eq_some_iff.mp hdrop)

/-- Where an attribute names a case, an expression with its text is the same case. -/
theorem eq_of_bareName (hidentifier : IsIdentifier (bareName source))
    (hcase : bareName source ∈ cases) (hread : Expression.read source = .ok e)
    (h : (enumeration name cases isOptionSet).decodeConstant e = .ok v) :
    v = if isOptionSet then .optionSet name [bareName source]
      else .enumCase name (bareName source) := by
  rcases trimChars_eq_or source with hpoint | hname
  · have hderives : Derives true ('.' :: ((bareName source).toList ++ []))
        (.expression (.implicitMember (bareName source) none .nowhere)) :=
      .chain (.primary (.implicitMember hidentifier .noArguments))
    rw [List.append_nil] at hderives
    have hpermitted : Permitted (.implicitMember (bareName source) none .nowhere) :=
      permitted_implicitMember.mpr (List.forall_mem_nil _)
    have hshape := shape_eq_of_trimChars hread hpoint hderives hpermitted
    rw [decodeConstant_eq_ok_iff hshape, decodeConstant_implicitMember hcase] at h
    exact (Except.ok.inj h).symm
  · have hderives : Derives true (bareName source).toList
        (.expression (nameForm (bareName source) none .nowhere)) :=
      .chain (.primary (derives_bareName _ hidentifier rfl))
    have hshape := shape_eq_of_trimChars hread hname hderives permitted_nameForm_none
    exact absurd ((decodeConstant_eq_ok_iff hshape).mp h) decodeConstant_nameForm_ne_ok

theorem decodeText_of_decodeConstant (hcases : ∀ case ∈ cases, isIdentifier case = true)
    (hread : Expression.read source = .ok e)
    (h : (enumeration name cases isOptionSet).decodeConstant e = .ok v) :
    (enumeration name cases isOptionSet).decodeText source = .ok v := by
  rw [decodeText_enumeration]
  by_cases hcase : bareName source ∈ cases
  · have hidentifier := isIdentifier_iff.mp (hcases _ hcase)
    rw [if_pos (List.contains_iff_mem.mpr hcase), eq_of_bareName hidentifier hcase hread h]
  · rw [if_neg (mt List.contains_iff_mem.mp hcase)]
    exact (decodeSource_trim_eq_ok_iff hread).mpr h

end

/--
An attribute with the text of an expression means what the expression means.
For an array or a range it holds a value if and only if the expression is one;
where the cases of an enumeration are identifiers, it holds the cases that the
expression names.
-/
theorem decodeRaw_agrees_with_expression {source : String} {e : Expression}
    (hread : Expression.read source = .ok e) :
    (∀ element v, (array element).decodeRaw (.text source) = .ok v ↔
        (array element).decodeConstant e = .ok v) ∧
      (∀ bound v, (range bound).decodeRaw (.text source) = .ok v ↔
        (range bound).decodeConstant e = .ok v) ∧
      ∀ name cases isOptionSet, (∀ case ∈ cases, isIdentifier case = true) → ∀ v,
        (enumeration name cases isOptionSet).decodeConstant e = .ok v →
          (enumeration name cases isOptionSet).decodeRaw (.text source) = .ok v := by
  refine ⟨?_, ?_, ?_⟩
  · intro element v
    rw [decodeRaw, decodeText]
    exact decodeSource_trim_eq_ok_iff hread
  · intro bound v
    rw [decodeRaw, decodeText]
    exact decodeSource_trim_eq_ok_iff hread
  · intro name cases isOptionSet hcases v h
    rw [decodeRaw]
    exact decodeText_of_decodeConstant hcases hread h

def isEdgeItems : Expression → Bool
  | .array [.implicitMember first none _, .implicitMember second none _] _ =>
      decide (first = "top" ∧ second = "bottom")
  | _ => false

theorem decodeConstant_edgeItems {e : Expression} (h : isEdgeItems e = true) :
    (array (enumeration "Edge" ["top", "bottom"] false)).decodeConstant e =
        .ok (.array [.enumCase "Edge" "top", .enumCase "Edge" "bottom"]) ∧
      (enumeration "Edge" ["top", "bottom"] true).decodeConstant e =
        .ok (.optionSet "Edge" ["top", "bottom"]) := by
  unfold isEdgeItems at h
  split at h
  · rcases of_decide_eq_true h with ⟨rfl, rfl⟩
    exact ⟨rfl, rfl⟩
  · cases h

/-- A list of cases with blanks around it, as an array and as an option set. -/
theorem decodeRaw_agrees_with_expression_edges :
    let source := " [.top, .bottom]\n"
    let cases := ["top", "bottom"]
    ∃ e, Expression.read source = .ok e ∧ (∀ case ∈ cases, isIdentifier case = true) ∧
      (array (enumeration "Edge" cases false)).decodeRaw (.text source) =
        .ok (.array [.enumCase "Edge" "top", .enumCase "Edge" "bottom"]) ∧
      (enumeration "Edge" cases true).decodeRaw (.text source) = .ok (.optionSet "Edge" cases) := by
  intro source cases
  have hcases : ∀ case ∈ cases, isIdentifier case = true := by
    intro case hcase
    simp only [cases, List.mem_cons, List.not_mem_nil, or_false] at hcase
    rcases hcase with rfl | rfl
    · decide
    · decide
  have h : (Expression.read source).toOption.any isEdgeItems = true := by decide +kernel
  rcases exists_eq_ok_of_any h with ⟨e, hread, htest⟩
  rcases decodeConstant_edgeItems htest with ⟨harray, hset⟩
  have hagrees := decodeRaw_agrees_with_expression hread
  exact ⟨e, hread, hcases, (hagrees.1 _ _).mpr harray, hagrees.2.2 _ _ _ hcases _ hset⟩

/-!
## Kinds with texts
-/

def HasText (k : ValueKind) (text : List Char) : Prop :=
  ∃ e v, Derives true text (.expression e) ∧ Permitted e ∧ k.decodeConstant e = .ok v

/-- No layer of the kind is optional. -/
def isOptionalFree : ValueKind → Bool
  | optional _ => false
  | array k | range k | binding k => k.isOptionalFree
  | _ => true

section
variable {k : ValueKind} {text : List Char} {l : Literal} {v : Value}

theorem hasText_primary {e : Expression} (h : Derives true text (.primary e)) (he : Permitted e)
    (hdecode : k.decodeConstant e = .ok v) : k.HasText text :=
  ⟨e, v, .chain (.primary h), he, hdecode⟩

theorem hasText_literal (hfree : Expression.IsFloatFree (.literal l .nowhere))
    (hpermitted : IsPermitted (.literal l .nowhere))
    (hdecode : k.decodeConstant (.literal l .nowhere) = .ok v) :
    k.HasText (Expression.literal l .nowhere).render.toList :=
  hasText_primary (derives_literal hfree) (permitted_literal.mpr hpermitted) hdecode

theorem hasText_emptyArray (hdecode : k.decodeConstant (.array [] .nowhere) = .ok v) :
    k.HasText ['[', ']'] := by
  have hderives : Derives true ('[' :: ([] ++ ([] ++ [']']))) (.primary (.array [] .nowhere)) :=
    .array isLayout_nil .nil rfl nofun
  exact hasText_primary hderives (permitted_array.mpr nofun) hdecode

theorem HasText.range (h : k.HasText text) : ∃ longer, (range k).HasText longer := by
  rcases h with ⟨e, v, hderives, he, hdecode⟩
  have hbound : Derives true ('(' :: ([] ++ (text ++ ([] ++ [')'])))) (.chain e) :=
    .primary (.parenthesised isLayout_nil hderives isLayout_nil)
  have hrange : Derives true _ (.expression (.range e e true .nowhere)) :=
    .range hbound isLayout_nil .closed isLayout_nil hbound fun _ hshort => absurd hshort (by decide)
  refine ⟨_, .range e e true .nowhere, .range v v true, hrange, permitted_range.mpr ⟨he, he⟩, ?_⟩
  simp [decodeConstant, hdecode, bind, Except.bind, pure, Except.pure]

theorem HasText.binding (h : k.HasText text) : ∃ longer, (binding k).HasText longer := by
  rcases h with ⟨e, v, hderives, he, hdecode⟩
  let a : Argument := ⟨none, e, .nowhere⟩
  have hlisted : Listed [text] (text ++ []) := .last isLayout_nil
  have hargument : ∀ x ∈ [text].zip [a], Derives true x.1 (.argument x.2) := by
    intro x hx
    rw [List.mem_singleton.mp hx]
    exact .unlabelled hderives
  have hname : IsIdentifier "constant" := isIdentifier_of_check rfl rfl rfl
  have hcall : Derives true _ (.primary (.implicitMember "constant" (some [a]) .nowhere)) :=
    .implicitMember hname (.arguments isLayout_nil hlisted rfl hargument)
  have hpermitted : Permitted (.implicitMember "constant" (some [a]) .nowhere) := by
    rw [permitted_implicitMember]
    intro b hb
    rw [List.mem_singleton.mp hb]
    exact he
  refine ⟨_, hasText_primary (v := v) hcall hpermitted ?_⟩
  simp [decodeConstant, firstForm, constantArgument?, hdecode, a, Except.toOption]

theorem exists_hasText (h : k.acceptsAttribute = true) : ∃ text, k.HasText text := by
  induction k with
  | bool => exact ⟨_, hasText_literal (l := .boolean true) trivial trivial rfl⟩
  | int => exact ⟨_, hasText_literal (l := .integer 0) trivial rfl rfl⟩
  | float => exact ⟨_, hasText_literal (l := .integer 0) trivial rfl rfl⟩
  | string => exact ⟨_, hasText_literal (l := .string "") trivial trivial rfl⟩
  | text => exact ⟨_, hasText_literal (l := .string "") trivial trivial rfl⟩
  | structural name => exact ⟨_, hasText_literal (l := .nil) trivial trivial rfl⟩
  | array element => exact ⟨_, hasText_emptyArray rfl⟩
  | enumeration name cases isOptionSet =>
      cases isOptionSet with
      | true => exact ⟨_, hasText_emptyArray rfl⟩
      | false =>
          cases cases with
          | nil => cases h
          | cons case rest =>
              refine ⟨_, hasText_literal (l := .string case) (v := .enumCase name case) trivial
                trivial ?_⟩
              simp [decodeConstant, firstForm, enumerationForms, implicitCase?, qualifiedCase?,
                known?, Expression.string?]
  | optional inner ih =>
      rcases ih h with ⟨text, e, v, hderives, he, hdecode⟩
      by_cases hnil : e.isNil = true
      · exact ⟨text, e, .nil, hderives, he, by simp [decodeConstant, hnil]⟩
      · exact ⟨text, e, v, hderives, he, by simp [decodeConstant, hnil, hdecode]⟩
  | range bound ih =>
      rcases ih h with ⟨text, hbound⟩
      exact hbound.range
  | binding inner ih =>
      rcases ih h with ⟨text, hinner⟩
      exact hinner.binding
  | view => cases h
  | event => cases h

theorem exists_decodeSource (h : k.acceptsAttribute = true) :
    ∃ source v, k.decodeSource (Text.trim source) = .ok v := by
  rcases exists_hasText h with ⟨text, e, v, hderives, he, hdecode⟩
  rcases Expression.read_of_derives hderives he with ⟨e', hread, hshape⟩
  have hsame := (decodeConstant_eq_ok_iff hshape).mpr hdecode
  exact ⟨String.ofList text, v, (decodeSource_trim_eq_ok_iff hread).mpr hsame⟩

theorem exists_decodeText (h : k.acceptsAttribute = true) :
    ∃ source v, k.decodeText source = .ok v := by
  induction k with
  | bool => exact ⟨"true", .bool true, rfl⟩
  | int => exact ⟨"0", .int 0, rfl⟩
  | float => exact ⟨"0", _, rfl⟩
  | string => exact ⟨"", .string "", rfl⟩
  | text => exact ⟨"", .text "", rfl⟩
  | structural name => exact ⟨"", .structural "", rfl⟩
  | array element =>
      rcases exists_decodeSource h with ⟨source, v, hv⟩
      exact ⟨source, v, by rw [decodeText, hv]⟩
  | range bound _ =>
      rcases exists_decodeSource h with ⟨source, v, hv⟩
      exact ⟨source, v, by rw [decodeText, hv]⟩
  | enumeration name cases isOptionSet =>
      rcases exists_decodeSource h with ⟨source, v, hv⟩
      refine ⟨source, ?_⟩
      rw [decodeText_enumeration]
      split
      · exact ⟨_, rfl⟩
      · exact ⟨v, hv⟩
  | optional inner ih =>
      rcases ih h with ⟨source, v, hv⟩
      refine ⟨source, ?_⟩
      rw [decodeText]
      split
      · exact ⟨.nil, rfl⟩
      · exact ⟨v, hv⟩
  | binding inner ih =>
      rcases ih h with ⟨source, v, hv⟩
      exact ⟨source, v, by rw [decodeText, hv]⟩
  | view => cases h
  | event => cases h

/-!
## Kinds without values
-/

/-- Without layers that are optional, a kind that refuses attributes has no values at all. -/
theorem not_conforms (h : k.acceptsAttribute = false) (hfree : k.isOptionalFree = true) :
    ¬ k.Conforms v := by
  induction k generalizing v with
  | view => nofun
  | event => nofun
  | enumeration name cases isOptionSet =>
      rw [acceptsAttribute, Bool.or_eq_false_iff] at h
      rcases h with ⟨rfl, hempty⟩
      have hnil : cases = [] := by simpa using hempty
      subst hnil
      intro hv
      cases hv with
      | enumCase hcase => cases hcase
  | range bound ih =>
      intro hv
      cases hv with
      | range hlower _ => exact ih h hfree hlower
  | binding inner ih =>
      intro hv
      cases hv with
      | binding hinner => exact ih h hfree hinner
  | optional inner => cases hfree
  | _ => cases h

end

/--
A kind says exactly whether an attribute can hold a value of it.  If references
to attributes may stand for a value, some text decodes; if they may not, neither a
text nor the mere presence of an attribute does.  Layers that are optional are
left out, since `nil` is a text of each of them.
-/
theorem acceptsAttribute_exact (k : ValueKind) :
    (k.acceptsAttribute = true → ∃ source v, k.decodeRaw (.text source) = .ok v) ∧
      (k.acceptsAttribute = false → k.isOptionalFree = true →
        ∀ raw, ∃ cause, k.decodeRaw raw = .error cause) := by
  constructor
  · intro h
    exact exists_decodeText h
  · intro h hfree raw
    cases hdecode : k.decodeRaw raw with
    | ok v => exact absurd (decodeRaw_conforms hdecode) (not_conforms h hfree)
    | error cause => exact ⟨cause, rfl⟩

/-- Bindings and ranges are as their parts, and a case need not be an identifier. -/
theorem acceptsAttribute_exact_ranges :
    let sizes := range (binding (enumeration "Size" ["extra large"] false))
    let nothing := binding (range (enumeration "Nothing" [] false))
    sizes.acceptsAttribute = true ∧ (∃ source v, sizes.decodeRaw (.text source) = .ok v) ∧
      nothing.acceptsAttribute = false ∧ nothing.isOptionalFree = true ∧
      ∀ raw, ∃ cause, nothing.decodeRaw raw = .error cause := by
  intro sizes nothing
  exact ⟨rfl, (acceptsAttribute_exact sizes).1 rfl, rfl, rfl,
    (acceptsAttribute_exact nothing).2 rfl rfl⟩

/-- Where a kind is optional, `nil` is a text of it although references are refused. -/
example : (optional view).acceptsAttribute = false ∧
    (optional view).decodeRaw (.text "nil") = .ok .nil := ⟨rfl, rfl⟩

end ValueKind
end ViewModifiers
