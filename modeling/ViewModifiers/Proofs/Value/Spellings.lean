import ViewModifiers.Proofs.Value.AttributeTexts

/-!
# Spellings of cases

A case of an enumeration is written with a point, as a string, or behind the name
of its type, which may be qualified further.  Each spelling is read as another
node: an implicit member, a literal, or a chain of members of which only the text
is compared.  The forms of enumerations, of option sets and of the items of an
option set are three lists, which accept the same nodes.  Main statement: these
spellings mean the same case, alone and as the item of an array, while an atom
means no case at all.
-/

namespace ViewModifiers
namespace ValueKind

open Syntax
open Text (Span)

/-!
## Nodes
-/

inductive Names (typeName case : String) : Expression → Prop where
  | implicit {span : Span} : Names typeName case (.implicitMember case none span)
  | qualified {base : Expression} {span : Span} :
      namesType typeName base.render = true → Names typeName case (.member base case none span)
  | quoted {span : Span} : Names typeName case (.literal (.string case) span)

section
variable {name case : String} {cases : List String} {isOptionSet : Bool} {e : Expression}
  {span : Span}

theorem known?_of_mem (h : case ∈ cases) : known? cases case = some case := by
  rw [known?, if_pos (List.contains_iff_mem.mpr h)]

theorem itemCase?_of_names (h : Names name case e) : itemCase? name e = some case := by
  cases h with
  | implicit => rfl
  | qualified hbase => simp [itemCase?, implicitCase?, qualifiedCase?, hbase]
  | quoted => rfl

theorem decodeConstant_of_names (h : Names name case e) (hcase : case ∈ cases) :
    (enumeration name cases isOptionSet).decodeConstant e =
      .ok (if isOptionSet then .optionSet name [case] else .enumCase name case) := by
  have hknown := known?_of_mem hcase
  cases h with
  | implicit => exact decodeConstant_implicitMember hcase
  | qualified hbase =>
      cases isOptionSet with
      | true =>
          simp [decodeConstant, firstForm, optionSetForms, implicitCase?, qualifiedCase?, hbase,
            hknown]
      | false =>
          simp [decodeConstant, firstForm, enumerationForms, implicitCase?, qualifiedCase?, hbase,
            hknown]
  | quoted =>
      cases isOptionSet with
      | true =>
          simp [decodeConstant, firstForm, optionSetForms, implicitCase?, qualifiedCase?,
            caseArray?, Expression.string?, hknown]
      | false =>
          simp [decodeConstant, firstForm, enumerationForms, implicitCase?, qualifiedCase?,
            Expression.string?, hknown]

theorem decodeConstant_array_of_names (h : Names name case e) (hcase : case ∈ cases) :
    (enumeration name cases true).decodeConstant (.array [e] span) =
      .ok (.optionSet name [case]) := by
  have hitem : (itemCase? name e).bind (known? cases) = some case := by
    rw [itemCase?_of_names h, Option.bind_some, known?_of_mem hcase]
  simp [decodeConstant, firstForm, optionSetForms, implicitCase?, qualifiedCase?, caseArray?,
    hitem, addCase]

theorem decodeConstant_atom :
    ∃ cause, (enumeration name cases isOptionSet).decodeConstant (.atom case span) =
      .error cause := by
  cases isOptionSet with
  | true => exact ⟨_, rfl⟩
  | false => exact ⟨_, rfl⟩

theorem decodeConstant_array_atom {span' : Span} :
    ∃ cause, (enumeration name cases true).decodeConstant (.array [.atom case span] span') =
      .error cause :=
  ⟨_, rfl⟩

theorem exists_error_of_shape {k : ValueKind} {e' : Expression} (h : e.shape = e'.shape)
    (he' : ∃ cause, k.decodeConstant e' = .error cause) :
    ∃ cause, k.decodeConstant e = .error cause := by
  rcases he' with ⟨cause, he'⟩
  cases hdecode : k.decodeConstant e with
  | error cause => exact ⟨cause, rfl⟩
  | ok v => cases he'.symm.trans ((decodeConstant_eq_ok_iff h).mp hdecode)

end

/-!
## Texts
-/

/-- Identifiers with points between them. -/
inductive DottedPath : List Char → Prop where
  | name {name : String} : IsIdentifier name → DottedPath name.toList
  | member {text : List Char} {name : String} :
      DottedPath text → IsIdentifier name → DottedPath (text ++ '.' :: name.toList)

inductive Spells (typeName case : String) : List Char → Prop where
  | implicit : Spells typeName case ('.' :: case.toList)
  | qualified : Spells typeName case (typeName.toList ++ '.' :: case.toList)
  | further {path : List Char} : DottedPath path →
      Spells typeName case (path ++ '.' :: (typeName.toList ++ '.' :: case.toList))
  | quoted : Spells typeName case ('"' :: (case.toList ++ ['"']))

section
variable {name case : String} {cases : List String} {path text : List Char} {e : Expression}

theorem DottedPath.append {path' : List Char} (h : DottedPath path) (h' : DottedPath path') :
    DottedPath (path ++ '.' :: path') := by
  induction h' with
  | name hname => exact .member h hname
  | @member text name _ hname ih =>
      have hlonger := DottedPath.member ih hname
      rwa [List.append_assoc, List.cons_append] at hlonger

theorem DottedPath.exists_derives (h : DottedPath path) :
    ∃ e, Derives true path (.chain e) ∧ Permitted e ∧ e.render.toList = path := by
  induction h with
  | @name name hname =>
      refine ⟨nameForm name none .nowhere, .primary (derives_bareName name hname rfl),
        permitted_nameForm_none, ?_⟩
      have hrender : ∀ e, StandsFor name .nowhere none e → e.render.toList = name.toList := by
        intro e he
        cases he with
        | isTrue hword => rw [hword]; rfl
        | isFalse hword => rw [hword]; rfl
        | isNil hword => rw [hword]; rfl
        | identifier => rw [Expression.render]
      exact hrender _ (standsFor_nameForm name none .nowhere)
  | @member text name _ hname ih =>
      rcases ih with ⟨e, hderives, hpermitted, hrender⟩
      refine ⟨.member e name none .nowhere, ?_, ?_, ?_⟩
      · have hmember : Derives true (text ++ '.' :: (name.toList ++ []))
            (.chain (.member e name none .nowhere)) :=
          .member hderives hname .noArguments
        rwa [List.append_nil] at hmember
      · exact permitted_member.mpr ⟨hpermitted, List.forall_mem_nil _⟩
      · rw [Expression.toList_render_member, hrender, Expression.suffixText, List.append_nil]

theorem namesType_self (name : String) : namesType name name = true := by
  simp [namesType]

theorem namesType_of_qualified {source : String} (h : source.toList = path ++ '.' :: name.toList) :
    namesType name source = true := by
  rw [namesType, Bool.or_eq_true, Text.startsWith_iff, h]
  right
  exact ⟨path.reverse, by simp⟩

theorem DottedPath.exists_names (hpath : DottedPath path) (hcase : IsIdentifier case)
    (htype : ∀ source : String, source.toList = path → namesType name source = true) :
    ∃ e, Derives true (path ++ '.' :: case.toList) (.expression e) ∧ Permitted e ∧
      Names name case e := by
  rcases hpath.exists_derives with ⟨base, hderives, hpermitted, hrender⟩
  have hmember : Derives true (path ++ '.' :: (case.toList ++ []))
      (.expression (.member base case none .nowhere)) :=
    .chain (.member hderives hcase .noArguments)
  rw [List.append_nil] at hmember
  exact ⟨_, hmember, permitted_member.mpr ⟨hpermitted, List.forall_mem_nil _⟩,
    .qualified (htype _ hrender)⟩

theorem stringBody_of_isIdentifier (h : IsIdentifier case) :
    StringBody case.toList case.toList := by
  have hplain : ∀ text : List Char,
      (∀ c ∈ text, Expression.Grammar.isLetterOrDigit c = true) → StringBody text text := by
    intro text htext
    induction text with
    | nil => exact .nil
    | cons c text ih =>
        rcases List.forall_mem_cons.mp htext with ⟨hc, hrest⟩
        refine .plain ?_ ?_ (ih hrest)
        · rintro rfl
          cases hc
        · rintro rfl
          cases hc
  exact hplain _ h.isLetterOrDigit

theorem Spells.exists_names (h : Spells name case text) (hname : DottedPath name.toList)
    (hcase : IsIdentifier case) :
    ∃ e, Derives true text (.expression e) ∧ Permitted e ∧ Names name case e := by
  cases h with
  | implicit =>
      have hderives : Derives true ('.' :: (case.toList ++ []))
          (.expression (.implicitMember case none .nowhere)) :=
        .chain (.primary (.implicitMember hcase .noArguments))
      rw [List.append_nil] at hderives
      exact ⟨_, hderives, permitted_implicitMember.mpr (List.forall_mem_nil _), .implicit⟩
  | qualified =>
      refine hname.exists_names hcase ?_
      intro source hsource
      rw [String.toList_injective hsource]
      exact namesType_self name
  | @further path hpath =>
      have hsource : ∀ source : String, source.toList = path ++ '.' :: name.toList →
          namesType name source = true := fun _ => namesType_of_qualified
      rcases (hpath.append hname).exists_names hcase hsource with ⟨e, hderives, hnames⟩
      rw [List.append_assoc, List.cons_append] at hderives
      exact ⟨e, hderives, hnames⟩
  | quoted =>
      refine ⟨.literal (.string case) .nowhere, ?_, permitted_literal.mpr trivial, .quoted⟩
      have hstring : Derives true ('"' :: (case.toList ++ ['"']))
          (.primary (.literal (.string (String.ofList case.toList)) .nowhere)) :=
        .string (stringBody_of_isIdentifier hcase)
      rw [String.ofList_toList] at hstring
      exact .chain (.primary hstring)

theorem exists_read_array (h : Derives true text (.expression e)) (he : Permitted e) :
    ∃ e', Expression.read (String.ofList ('[' :: (text ++ [']']))) = .ok e' ∧
      e'.shape = (Expression.array [e] .nowhere).shape := by
  have harray : Derives true ('[' :: ([] ++ ((text ++ []) ++ [']'])))
      (.expression (.array [e] .nowhere)) := by
    refine .chain (.primary (.array isLayout_nil (.last isLayout_nil) rfl ?_))
    intro x hx
    rw [List.mem_singleton.mp hx]
    exact h
  rw [List.append_nil, List.nil_append] at harray
  refine Expression.read_of_derives harray (permitted_array.mpr ?_)
  intro item hitem
  rwa [List.mem_singleton.mp hitem]

end

/--
All accepted spellings of a case are read, and each of them means the case; for an
option set so does the array of one spelling.  An atom with the name of a case is
read as well, but neither an enumeration nor an option set has a value for it.
-/
theorem spellings_agree {name case : String} {cases : List String}
    (hname : DottedPath name.toList) (hcase : IsIdentifier case) (hmem : case ∈ cases) :
    (∀ text, Spells name case text →
      (∃ e, Expression.read (String.ofList text) = .ok e ∧ ∀ isOptionSet,
        (enumeration name cases isOptionSet).decodeConstant e =
          .ok (if isOptionSet then .optionSet name [case] else .enumCase name case)) ∧
      ∃ e, Expression.read (String.ofList ('[' :: (text ++ [']']))) = .ok e ∧
        (enumeration name cases true).decodeConstant e = .ok (.optionSet name [case])) ∧
    (∃ e, Expression.read (String.ofList (':' :: case.toList)) = .ok e ∧ ∀ isOptionSet,
      ∃ cause, (enumeration name cases isOptionSet).decodeConstant e = .error cause) ∧
    ∃ e, Expression.read (String.ofList ('[' :: (':' :: case.toList ++ [']']))) = .ok e ∧
      ∃ cause, (enumeration name cases true).decodeConstant e = .error cause := by
  have hatom : Derives true (':' :: case.toList) (.expression (.atom case .nowhere)) :=
    .chain (.primary (.atom hcase))
  refine ⟨?_, ?_, ?_⟩
  · intro text hspells
    rcases hspells.exists_names hname hcase with ⟨e, hderives, hpermitted, hnames⟩
    constructor
    · rcases Expression.read_of_derives hderives hpermitted with ⟨e', hread, hshape⟩
      refine ⟨e', hread, ?_⟩
      intro isOptionSet
      exact (decodeConstant_eq_ok_iff hshape).mpr (decodeConstant_of_names hnames hmem)
    · rcases exists_read_array hderives hpermitted with ⟨e', hread, hshape⟩
      exact ⟨e', hread,
        (decodeConstant_eq_ok_iff hshape).mpr (decodeConstant_array_of_names hnames hmem)⟩
  · rcases Expression.read_of_derives hatom permitted_atom with ⟨e, hread, hshape⟩
    refine ⟨e, hread, ?_⟩
    intro isOptionSet
    exact exists_error_of_shape hshape decodeConstant_atom
  · rcases exists_read_array hatom permitted_atom with ⟨e, hread, hshape⟩
    exact ⟨e, hread, exists_error_of_shape hshape decodeConstant_array_atom⟩

/-- An option set with a path for its name, and a text that qualifies the path further. -/
theorem spellings_agree_edge :
    let name := "Edge.Set"
    let cases := ["top", "bottom"]
    let text := "Layout.Edge.Set.bottom".toList
    DottedPath name.toList ∧ IsIdentifier "bottom" ∧ "bottom" ∈ cases ∧
      Spells name "bottom" text ∧
      (∃ e, Expression.read (String.ofList ('[' :: (text ++ [']']))) = .ok e ∧
        (enumeration name cases true).decodeConstant e = .ok (.optionSet name ["bottom"])) ∧
      ∃ e, Expression.read (String.ofList (':' :: "bottom".toList)) = .ok e ∧ ∀ isOptionSet,
        ∃ cause, (enumeration name cases isOptionSet).decodeConstant e = .error cause := by
  intro name cases text
  have hlayout : DottedPath "Layout".toList := .name (isIdentifier_of_check rfl rfl rfl)
  have hedge : DottedPath "Edge".toList := .name (isIdentifier_of_check rfl rfl rfl)
  have hset : IsIdentifier "Set" := isIdentifier_of_check rfl rfl rfl
  have hname : DottedPath name.toList := by
    rw [show name.toList = "Edge".toList ++ '.' :: "Set".toList by decide]
    exact .member hedge hset
  have hcase : IsIdentifier "bottom" := isIdentifier_of_check rfl rfl rfl
  have hmem : "bottom" ∈ cases := List.mem_cons_of_mem _ List.mem_cons_self
  have hspells : Spells name "bottom" text := by
    rw [show text = "Layout".toList ++ '.' :: (name.toList ++ '.' :: "bottom".toList) by decide]
    exact .further hlayout
  have hagree := spellings_agree hname hcase hmem
  exact ⟨hname, hcase, hmem, hspells, (hagree.1 text hspells).2, hagree.2.1⟩

/-- The atom of a case is read, and refused where the same case with a point is accepted. -/
theorem not_atom_as_implicitMember :
    let alignment := enumeration "Alignment" ["leading"] false
    (∃ e, Expression.read ".leading" = .ok e ∧
      alignment.decodeConstant e = .ok (.enumCase "Alignment" "leading")) ∧
    ∃ e, Expression.read ":leading" = .ok e ∧
      ∀ v, alignment.decodeConstant e ≠ .ok v := by
  intro alignment
  constructor
  · have h : (Expression.read ".leading").toOption.any (fun e =>
        decide (implicitCase? e = some "leading")) = true := by decide +kernel
    rcases exists_eq_ok_of_any h with ⟨e, hread, htest⟩
    refine ⟨e, hread, ?_⟩
    simp [alignment, decodeConstant, firstForm, enumerationForms, of_decide_eq_true htest, known?]
  · have h : (Expression.read ":leading").toOption.any (fun e =>
        !(alignment.decodeConstant e).isOk) = true := by decide +kernel
    rcases exists_eq_ok_of_any h with ⟨e, hread, htest⟩
    refine ⟨e, hread, ?_⟩
    intro v hdecode
    rw [hdecode] at htest
    cases htest

end ValueKind
end ViewModifiers
