import ViewModifiers.Proofs.Table.Blocks
import ViewModifiers.Proofs.Value.Conformance

/-!
# References inside arguments

A constant is decoded once, so that a reference inside its expression would never
be looked at again.  Nearly all forms of constants leave no room for one.  The
exception is the qualifier of a case: only its text is compared with the name of
the enumeration, and any expression may stand in front of that name.  Main
statement: an expression that decodes contains a reference if and only if it
spells a case behind such a qualifier, and this can happen to a kind if and only
if it names a case.
-/

namespace ViewModifiers
namespace ValueKind

/--
Read as a value of the kind, the expression spells a known case behind a
qualifier that names the enumeration and contains a reference.
-/
inductive HidesReference : ValueKind → Expression → Prop where
  | qualifier {name case : String} {cases : List String} {isOptionSet : Bool} {base : Expression}
      {span : Text.Span} : case ∈ cases → namesType name base.render = true →
      base.containsReference = true →
      HidesReference (.enumeration name cases isOptionSet) (.member base case none span)
  | item {name case : String} {cases : List String} {base : Expression} {items : List Expression}
      {span within : Text.Span} : .member base case none span ∈ items → case ∈ cases →
      namesType name base.render = true → base.containsReference = true →
      HidesReference (.enumeration name cases true) (.array items within)
  | present {inner : ValueKind} {e : Expression} : HidesReference inner e →
      HidesReference (.optional inner) e
  | element {element : ValueKind} {items : List Expression} {e : Expression} {span : Text.Span} :
      e ∈ items → HidesReference element e → HidesReference (.array element) (.array items span)
  | lower {bound : ValueKind} {lower upper : Expression} {closed : Bool} {span : Text.Span} :
      HidesReference bound lower → HidesReference (.range bound) (.range lower upper closed span)
  | upper {bound : ValueKind} {lower upper : Expression} {closed : Bool} {span : Text.Span} :
      HidesReference bound upper → HidesReference (.range bound) (.range lower upper closed span)
  | constant {inner : ValueKind} {e value : Expression} : constantArgument? e = some value →
      HidesReference inner value → HidesReference (.binding inner) e

/-- Some value of the kind is, or contains, a case of an enumeration. -/
def namesCase : ValueKind → Bool
  | enumeration _ cases _ => !cases.isEmpty
  | optional inner | binding inner => inner.namesCase
  | array element => element.namesCase
  | range bound => bound.namesCase
  | bool | int | float | string | text | view | event | structural _ => false

/-!
## Expressions without references
-/

theorem containsReference_of_string? {e : Expression} {s : String} (h : e.string? = some s) :
    e.containsReference = false := by
  cases e with
  | literal l span => rfl
  | _ => cases h

theorem containsReference_of_isNil {e : Expression} (h : e.isNil = true) :
    e.containsReference = false := by
  cases e with
  | literal l span => rfl
  | _ => cases h

theorem containsReference_of_atom? {e : Expression} {name : String} (h : e.atom? = some name) :
    e.containsReference = false := by
  cases e with
  | atom name span => rfl
  | _ => cases h

theorem containsReference_of_textCall? {e : Expression} {s : String} (h : textCall? e = some s) :
    e.containsReference = false := by
  unfold textCall? at h
  split at h
  · simp [Expression.containsReference, Argument.anyReference, containsReference_of_string? h]
  · simp [Expression.containsReference, Argument.anyReference, containsReference_of_string? h]
  · cases h

theorem containsReference_of_constantArgument? {e value : Expression}
    (h : constantArgument? e = some value) :
    e.containsReference = value.containsReference := by
  unfold constantArgument? at h
  split at h
  · cases h
    simp [Expression.containsReference, Argument.anyReference]
  · cases h

theorem containsReference_of_textForms {f : Form} {e : Expression} {v : Value}
    (hf : f ∈ textForms) (h : f.decode e = some v) : e.containsReference = false := by
  simp only [textForms, List.mem_cons, List.not_mem_nil, or_false] at hf
  rcases hf with rfl | rfl
  · rcases Option.map_eq_some_iff.mp h with ⟨s, hs, _⟩
    exact containsReference_of_textCall? hs
  · rcases Option.map_eq_some_iff.mp h with ⟨s, hs, _⟩
    exact containsReference_of_string? hs

/-!
## Where a reference can be
-/

theorem containsReference_array_iff {items : List Expression} {span : Text.Span} :
    (Expression.array items span).containsReference = true ↔
      ∃ item ∈ items, item.containsReference = true := by
  rw [Expression.containsReference, Expression.anyReference_eq_any, List.any_eq_true]

theorem HidesReference.containsReference {k : ValueKind} {e : Expression}
    (h : k.HidesReference e) : e.containsReference = true := by
  induction h with
  | qualifier _ _ hlive => exact hlive
  | item hitem _ _ hlive => exact containsReference_array_iff.mpr ⟨_, hitem, hlive⟩
  | present _ ih => exact ih
  | element hitem _ ih => exact containsReference_array_iff.mpr ⟨_, hitem, ih⟩
  | lower _ ih => rw [Expression.containsReference, ih, Bool.true_or]
  | upper _ ih => rw [Expression.containsReference, ih, Bool.or_true]
  | constant hvalue _ ih => rw [containsReference_of_constantArgument? hvalue, ih]

theorem HidesReference.namesCase {k : ValueKind} {e : Expression} (h : k.HidesReference e) :
    k.namesCase = true := by
  induction h with
  | qualifier hcase => simpa [ValueKind.namesCase] using List.ne_nil_of_mem hcase
  | item _ hcase => simpa [ValueKind.namesCase] using List.ne_nil_of_mem hcase
  | present _ ih => exact ih
  | element _ _ ih => exact ih
  | lower _ ih => exact ih
  | upper _ ih => exact ih
  | constant _ _ ih => exact ih

/-!
## Cases
-/

/-- Of the spellings of a case, only the qualified one leaves room for a reference. -/
theorem exists_qualifier_of_spelled {name case : String} {e : Expression}
    (h : implicitCase? e = some case ∨ qualifiedCase? name e = some case ∨ e.string? = some case)
    (hlive : e.containsReference = true) :
    ∃ base span, e = .member base case none span ∧ namesType name base.render = true ∧
      base.containsReference = true := by
  rcases h with h | h | h
  · unfold implicitCase? at h
    split at h
    · cases hlive
    · cases h
  · unfold qualifiedCase? at h
    split at h
    · split at h
      · next hnames =>
          cases h
          exact ⟨_, _, rfl, hnames, hlive⟩
      · cases h
    · cases h
  · rw [containsReference_of_string? h] at hlive
    cases hlive

theorem spelled_of_itemCase? {name case : String} {e : Expression}
    (h : itemCase? name e = some case) :
    implicitCase? e = some case ∨ qualifiedCase? name e = some case ∨ e.string? = some case := by
  unfold itemCase? at h
  cases himplicit : implicitCase? e with
  | some written =>
      rw [himplicit] at h
      exact Or.inl h
  | none =>
      rw [himplicit] at h
      cases hqualified : qualifiedCase? name e with
      | some written =>
          rw [hqualified] at h
          exact Or.inr (Or.inl h)
      | none =>
          rw [hqualified] at h
          exact Or.inr (Or.inr h)

theorem eq_some_of_known? {cases : List String} {case? : Option String} {case : String}
    (h : case?.bind (known? cases) = some case) : case? = some case ∧ case ∈ cases := by
  rcases Option.bind_eq_some_iff.mp h with ⟨written, hwritten, hknown⟩
  unfold known? at hknown
  split at hknown
  · next hmem =>
      cases hknown
      exact ⟨hwritten, List.contains_iff_mem.mp hmem⟩
  · cases hknown

theorem hidesReference_of_spelled {name : String} {cases : List String} {isOptionSet : Bool}
    {case? : Option String} {build : String → Value} {e : Expression} {v : Value}
    (hspelling : ∀ case, case? = some case →
      implicitCase? e = some case ∨ qualifiedCase? name e = some case ∨ e.string? = some case)
    (h : (case?.bind (known? cases)).map build = some v) (hlive : e.containsReference = true) :
    (enumeration name cases isOptionSet).HidesReference e := by
  rcases Option.map_eq_some_iff.mp h with ⟨case, hknown, _⟩
  rcases eq_some_of_known? hknown with ⟨hcase, hmem⟩
  rcases exists_qualifier_of_spelled (hspelling case hcase) hlive with
    ⟨base, span, rfl, hnames, hbase⟩
  exact .qualifier hmem hnames hbase

theorem hidesReference_of_caseArray? {name : String} {cases found : List String} {e : Expression}
    (h : caseArray? name cases e = some found) (hlive : e.containsReference = true) :
    (enumeration name cases true).HidesReference e := by
  cases e with
  | array items span =>
      rcases Option.bind_eq_some_iff.mp h with ⟨named, hnamed, _⟩
      rcases containsReference_array_iff.mp hlive with ⟨item, hitem, hlive⟩
      rcases exists_of_mem_left (forall₂_of_mapM_some hnamed) item hitem with ⟨case, _, hknown⟩
      rcases eq_some_of_known? hknown with ⟨hcase, hmem⟩
      rcases exists_qualifier_of_spelled (spelled_of_itemCase? hcase) hlive with
        ⟨base, within, rfl, hnames, hbase⟩
      exact .item hitem hmem hnames hbase
  | _ => cases h

theorem hidesReference_of_enumerationForms {name : String} {cases : List String} {f : Form}
    {e : Expression} {v : Value} (hf : f ∈ enumerationForms name cases)
    (h : f.decode e = some v) (hlive : e.containsReference = true) :
    (enumeration name cases false).HidesReference e := by
  simp only [enumerationForms, List.mem_cons, List.not_mem_nil, or_false] at hf
  rcases hf with rfl | rfl | rfl
  · exact hidesReference_of_spelled (fun _ => Or.inl) h hlive
  · exact hidesReference_of_spelled (fun _ hcase => Or.inr (Or.inl hcase)) h hlive
  · exact hidesReference_of_spelled (fun _ hcase => Or.inr (Or.inr hcase)) h hlive

theorem hidesReference_of_optionSetForms {name : String} {cases : List String} {f : Form}
    {e : Expression} {v : Value} (hf : f ∈ optionSetForms name cases)
    (h : f.decode e = some v) (hlive : e.containsReference = true) :
    (enumeration name cases true).HidesReference e := by
  simp only [optionSetForms, List.mem_cons, List.not_mem_nil, or_false] at hf
  rcases hf with rfl | rfl | rfl | rfl
  · exact hidesReference_of_spelled (fun _ => Or.inl) h hlive
  · exact hidesReference_of_spelled (fun _ hcase => Or.inr (Or.inl hcase)) h hlive
  · rcases Option.map_eq_some_iff.mp h with ⟨found, hfound, _⟩
    exact hidesReference_of_caseArray? hfound hlive
  · exact hidesReference_of_spelled (fun _ hcase => Or.inr (Or.inr hcase)) h hlive

/-!
## Constants
-/

theorem hidesReference_of_decodeConstant {k : ValueKind} {e : Expression} {v : Value}
    (h : k.decodeConstant e = .ok v) (hlive : e.containsReference = true) :
    k.HidesReference e := by
  induction k generalizing e v with
  | bool =>
      rcases exists_of_singleForm h with ⟨b, hb, _⟩
      cases e with
      | literal l span => cases hlive
      | _ => cases hb
  | int =>
      rcases exists_of_singleForm h with ⟨n, hn, _⟩
      cases e with
      | literal l span => cases hlive
      | _ => cases hn
  | float =>
      rcases exists_of_singleForm h with ⟨x, hx, _⟩
      cases e with
      | literal l span => cases hlive
      | _ => cases hx
  | string =>
      rcases exists_of_singleForm h with ⟨s, hs, _⟩
      rw [containsReference_of_string? hs] at hlive
      cases hlive
  | text =>
      rcases exists_of_firstForm h with ⟨f, hf, hv⟩
      rw [containsReference_of_textForms hf hv] at hlive
      cases hlive
  | enumeration name cases isOptionSet =>
      cases isOptionSet with
      | true =>
          rcases exists_of_firstForm h with ⟨f, hf, hv⟩
          exact hidesReference_of_optionSetForms hf hv hlive
      | false =>
          rcases exists_of_firstForm h with ⟨f, hf, hv⟩
          exact hidesReference_of_enumerationForms hf hv hlive
  | optional inner ih =>
      unfold decodeConstant at h
      split at h
      · next hnil =>
          rw [containsReference_of_isNil hnil] at hlive
          cases hlive
      · exact .present (ih h hlive)
  | array element ih =>
      cases e with
      | array items span =>
          unfold decodeConstant at h
          rcases exists_of_map_eq_ok h with ⟨vs, hitems, _⟩
          rcases containsReference_array_iff.mp hlive with ⟨item, hitem, hlive⟩
          rcases exists_of_mem_left (forall₂_of_mapM_ok hitems) item hitem with ⟨w, _, hw⟩
          exact .element hitem (ih hw hlive)
      | _ => cases h
  | range bound ih =>
      cases e with
      | range lower upper closed span =>
          unfold decodeConstant at h
          rcases exists_of_bind_eq_ok h with ⟨l, hlower, h⟩
          rcases exists_of_bind_eq_ok h with ⟨u, hupper, h⟩
          rw [Expression.containsReference, Bool.or_eq_true] at hlive
          rcases hlive with hlive | hlive
          · exact .lower (ih hlower hlive)
          · exact .upper (ih hupper hlive)
      | _ => cases h
  | binding inner ih =>
      rcases exists_of_firstForm h with ⟨f, hf, hv⟩
      rw [List.mem_singleton] at hf
      subst hf
      rcases Option.bind_eq_some_iff.mp hv with ⟨value, hargument, hvalue⟩
      cases hinner : inner.decodeConstant value with
      | error cause =>
          rw [hinner] at hvalue
          cases hvalue
      | ok w =>
          rw [containsReference_of_constantArgument? hargument] at hlive
          exact .constant hargument (ih hinner hlive)
  | view => cases h
  | event => cases h
  | structural name =>
      unfold decodeConstant at h
      rw [if_pos hlive] at h
      cases h

theorem containsReference_iff_hidesReference {k : ValueKind} {e : Expression} {v : Value}
    (h : k.decodeConstant e = .ok v) : e.containsReference = true ↔ k.HidesReference e :=
  ⟨hidesReference_of_decodeConstant h, HidesReference.containsReference⟩

/-!
## Kinds that hide references
-/

theorem namesType_member (name : String) (base : Expression) (span : Text.Span) :
    namesType name (Expression.member base name none span).render = true := by
  rw [namesType, Bool.or_eq_true, Text.startsWith_iff, Expression.render]
  right
  refine ⟨base.render.toList.reverse, ?_⟩
  simp

theorem exists_decodeConstant_enumeration {name case : String} {cases : List String}
    (isOptionSet : Bool) (hcase : case ∈ cases) :
    ∃ e v, (enumeration name cases isOptionSet).decodeConstant e = .ok v ∧
      e.containsReference = true := by
  let base : Expression := .member (.attributeRef name ⟨0, 0⟩) name none ⟨0, 0⟩
  have hnames : namesType name base.render = true := namesType_member name _ _
  have hknown : known? cases case = some case := by
    rw [known?, if_pos (List.contains_iff_mem.mpr hcase)]
  refine ⟨.member base case none ⟨0, 0⟩, ?_⟩
  cases isOptionSet with
  | true =>
      refine ⟨.optionSet name [case], ?_, rfl⟩
      simp [decodeConstant, firstForm, optionSetForms, implicitCase?, qualifiedCase?, hnames,
        hknown]
  | false =>
      refine ⟨.enumCase name case, ?_, rfl⟩
      simp [decodeConstant, firstForm, enumerationForms, implicitCase?, qualifiedCase?, hnames,
        hknown]

theorem exists_of_namesCase {k : ValueKind} (h : k.namesCase = true) :
    ∃ e v, k.decodeConstant e = .ok v ∧ e.containsReference = true := by
  induction k with
  | enumeration name cases isOptionSet =>
      cases cases with
      | nil => cases h
      | cons case cases => exact exists_decodeConstant_enumeration isOptionSet List.mem_cons_self
  | optional inner ih =>
      rcases ih h with ⟨e, v, hdecode, hlive⟩
      refine ⟨e, v, ?_, hlive⟩
      have hnil : ¬ e.isNil = true := by
        intro hnil
        rw [containsReference_of_isNil hnil] at hlive
        cases hlive
      show (if e.isNil = true then Except.ok Value.nil else inner.decodeConstant e) = .ok v
      rw [if_neg hnil, hdecode]
  | array element ih =>
      rcases ih h with ⟨e, v, hdecode, hlive⟩
      refine ⟨.array [e] ⟨0, 0⟩, .array [v], ?_, ?_⟩
      · simp [decodeConstant, hdecode, Except.map]
      · exact containsReference_array_iff.mpr ⟨e, List.mem_cons_self, hlive⟩
  | range bound ih =>
      rcases ih h with ⟨e, v, hdecode, hlive⟩
      refine ⟨.range e e true ⟨0, 0⟩, .range v v true, ?_, ?_⟩
      · simp [decodeConstant, hdecode, bind, Except.bind, pure, Except.pure]
      · simp [Expression.containsReference, hlive]
  | binding inner ih =>
      rcases ih h with ⟨e, v, hdecode, hlive⟩
      refine ⟨.implicitMember "constant" (some [⟨none, e, ⟨0, 0⟩⟩]) ⟨0, 0⟩, v, ?_, ?_⟩
      · simp [decodeConstant, firstForm, constantArgument?, hdecode, Except.toOption]
      · simp [Expression.containsReference, Argument.anyReference, hlive]
  | _ => cases h

/-!
## Arguments
-/

theorem constant_or_atom_of_decodeLiteral {k : ValueKind} {e : Expression} {r : Reference}
    (h : k.decodeLiteral e = .ok r) : (∃ v, r = .constant v) ∨ ∃ name, e.atom? = some name := by
  have hmap : ∀ s : Except DecodeError Value, s.map Reference.constant = .ok r →
      ∃ v, r = .constant v := by
    intro s hs
    rcases exists_of_map_eq_ok hs with ⟨v, _, hr⟩
    exact ⟨v, hr.symm⟩
  induction k with
  | optional inner ih =>
      unfold decodeLiteral at h
      split at h
      · cases h
        exact Or.inl ⟨.nil, rfl⟩
      · exact ih h
  | view =>
      unfold decodeLiteral at h
      split at h
      · next name hatom => exact Or.inr ⟨name, hatom⟩
      · cases h
  | event =>
      unfold decodeLiteral at h
      split at h
      · next name hatom => exact Or.inr ⟨name, hatom⟩
      · cases h
  | _ => exact Or.inl (hmap _ h)

theorem containsReference_iff_of_decodeLiteral {k : ValueKind} {e : Expression} {r : Reference}
    (h : k.decodeLiteral e = .ok r) : e.containsReference = true ↔ k.HidesReference e := by
  rcases constant_or_atom_of_decodeLiteral h with ⟨v, rfl⟩ | ⟨name, hatom⟩
  · exact containsReference_iff_hidesReference (decodeLiteral_eq_constant_iff.mp h)
  · constructor
    · intro hlive
      rw [containsReference_of_atom? hatom] at hlive
      cases hlive
    · exact HidesReference.containsReference

end ValueKind

namespace ParameterDecoder

/-- An argument that is a reference is bound as this reference; another one may only hide some. -/
inductive KeepsReference (p : ParameterDecoder) (a : Argument) : Reference → Prop where
  | attribute {name : String} {span : Text.Span} : a.value = .attributeRef name span →
      KeepsReference p a ((p.kind.attributeReference name).withDefault p.default)
  | event {name : String} {span : Text.Span} : a.value = .eventRef name span →
      KeepsReference p a (.event name)
  | other {r : Reference} : ¬ ValueKind.IsReference a.value →
      (a.value.containsReference = true ↔ p.kind.HidesReference a.value) → KeepsReference p a r

theorem keepsReference_of_decodeArgument {p : ParameterDecoder} {a : Argument} {r : Reference}
    (h : p.kind.decodeArgument a.value = .ok r) :
    p.KeepsReference a (r.withDefault p.default) := by
  cases hvalue : a.value with
  | attributeRef name span =>
      rw [hvalue, ValueKind.decodeArgument] at h
      split at h
      · cases h
        exact .attribute hvalue
      · cases h
  | eventRef name span =>
      rw [hvalue, ValueKind.decodeArgument] at h
      split at h
      · cases h
        exact .event hvalue
      · cases h
  | _ =>
      refine .other ?_ ?_
      · rw [hvalue]
        intro hreference
        cases hreference
      · rw [hvalue] at h ⊢
        exact ValueKind.containsReference_iff_of_decodeLiteral h

theorem keepsReference_of_fits {p : ParameterDecoder} {block : List Argument} {r : Reference}
    (h : p.Fits block r) : ∀ a ∈ block, p.KeepsReference a r := by
  cases h with
  | fallback => exact nofun
  | argument _ _ hdecode =>
      intro a ha
      rw [List.mem_singleton.mp ha]
      exact keepsReference_of_decodeArgument hdecode
  | items _ _ hitems =>
      intro a ha
      rcases ValueKind.exists_of_mem_left hitems a ha with ⟨v, _, hdecode⟩
      refine .other ?_ (ValueKind.containsReference_iff_hidesReference hdecode)
      intro hreference
      exact ValueKind.decodeConstant_ne_ok_of_isReference hreference p.kind v hdecode

theorem Assigns.keepsReference {left : List Argument} {ps : List ParameterDecoder}
    {blocks : List (List Argument)} {bound : List BoundArgument}
    (h : Assigns left ps blocks bound) {i : Nat} {p : ParameterDecoder} {block : List Argument}
    {entry : BoundArgument} (hp : ps[i]? = some p) (hblock : blocks[i]? = some block)
    (hentry : bound[i]? = some entry) : ∀ a ∈ block, p.KeepsReference a entry.reference := by
  induction h generalizing i with
  | nil => cases hp
  | cons hfits _ _ ih =>
      cases i with
      | zero =>
          cases hp
          cases hblock
          cases hentry
          exact keepsReference_of_fits hfits
      | succ i => exact ih hp hblock hentry

end ParameterDecoder

/--
References and decoding.  An expression that decodes as a constant of a kind
contains a reference if and only if the kind hides it behind the name of an
enumeration; some expression does so if and only if the kind names a case.  Of
the arguments that an overload binds, one that is a reference is bound as this
reference, and any other one contains a reference only where its kind hides it.
-/
theorem Overload.keepsReferences_or_hides (k : ValueKind) (o : Overload) :
    (∀ e v, k.decodeConstant e = .ok v →
        (e.containsReference = true ↔ k.HidesReference e)) ∧
      ((∀ e v, k.decodeConstant e = .ok v → e.containsReference = false) ↔
        k.namesCase = false) ∧
      ∀ arguments bound, o.bind arguments = .ok bound →
        ∃ blocks, blocks.flatten = arguments ∧
          ParameterDecoder.Assigns [] o.parameters blocks bound ∧
          ∀ (i : Nat) p block entry, o.parameters[i]? = some p → blocks[i]? = some block →
            bound[i]? = some entry → ∀ a ∈ block, p.KeepsReference a entry.reference := by
  refine ⟨?_, ?_, ?_⟩
  · intro e v h
    exact ValueKind.containsReference_iff_hidesReference h
  · constructor
    · intro hkeeps
      rw [Bool.eq_false_iff]
      intro hnames
      rcases ValueKind.exists_of_namesCase hnames with ⟨e, v, hdecode, hlive⟩
      rw [hkeeps e v hdecode] at hlive
      cases hlive
    · intro hnames e v h
      rw [Bool.eq_false_iff]
      intro hlive
      have hcase := (ValueKind.hidesReference_of_decodeConstant h hlive).namesCase
      rw [hnames] at hcase
      cases hcase
  · intro arguments bound h
    rcases ParameterDecoder.bindAll_eq_ok_iff.mp h with ⟨blocks, hblocks, hassigns⟩
    refine ⟨blocks, hblocks, hassigns, ?_⟩
    intro i p block entry hp hblock hentry
    exact hassigns.keepsReference hp hblock hentry

/-- An item of an option set hides the attribute in front of its type. -/
theorem ValueKind.hidesReference_of_qualified_item :
    ∃ e v, Expression.read "[attr(\"x\").Edge.top, .bottom]" = .ok e ∧
      (ValueKind.enumeration "Edge" ["top", "bottom"] true).decodeConstant e = .ok v ∧
      (ValueKind.enumeration "Edge" ["top", "bottom"] true).HidesReference e := by
  let k : ValueKind := .enumeration "Edge" ["top", "bottom"] true
  let o : Overload := ⟨0, "edges(_:)", [⟨"edges", none, k, "Edge.Set", none, false⟩], .always, 1⟩
  have h : (Expression.read "[attr(\"x\").Edge.top, .bottom]").toOption.any (fun e =>
      e.containsReference && (k.decodeConstant e).isOk) = true := by decide +kernel
  rcases exists_eq_ok_of_any h with ⟨e, hread, htest⟩
  rcases Bool.and_eq_true_iff.mp htest with ⟨hcontains, hokay⟩
  rcases exists_eq_ok_of_isOk hokay with ⟨v, hdecode⟩
  exact ⟨e, v, hread, hdecode,
    ((Overload.keepsReferences_or_hides k o).1 e v hdecode).mp hcontains⟩

/-- An attribute in front of the name of an enumeration is dropped with the name. -/
theorem ValueKind.not_referenceFree_behind_attribute :
    ∃ e, Expression.read "attr(\"x\").Alignment.leading" = .ok e ∧
      (ValueKind.enumeration "Alignment" ["leading"] false).decodeConstant e =
        .ok (.enumCase "Alignment" "leading") ∧
      e.containsReference = true := by
  have h : (Expression.read "attr(\"x\").Alignment.leading").toOption.any (fun e =>
      decide (implicitCase? e = none ∧ qualifiedCase? "Alignment" e = some "leading" ∧
        e.containsReference = true)) = true := by decide +kernel
  rcases exists_eq_ok_of_any h with ⟨e, hread, htest⟩
  rcases of_decide_eq_true htest with ⟨himplicit, hqualified, hcontains⟩
  refine ⟨e, hread, ?_, hcontains⟩
  simp [decodeConstant, firstForm, enumerationForms, himplicit, hqualified, known?]

end ViewModifiers
