import ViewModifiers.Configuration.Builtin
import ViewModifiers.Proofs.Configuration.Aliases
import ViewModifiers.Value.Mapping

/-!
# Kinds of aliased names

A type that is named by an alias has the kind of the canonical name that the aliases
lead to, wherever the type stands.  The names of canonical kinds are all that is
known of that name: where the catalog has an enumeration of it, or a module in front
qualifies it, the type with the alias has no decoder although the type with the
canonical name has one.
-/

namespace ViewModifiers

theorem TypeExpr.unqualifiedName_named (path : List String) (generics : List TypeExpr) :
    (named path generics).unqualifiedName = (named path []).unqualifiedName := by
  rw [unqualifiedName, unqualifiedName]

namespace ValueKind

open TypeExpr

variable {c : Configuration} {s : Signature}

/-!
## Types inside of types
-/

def wrapper? (name : String) : Option (ValueKind → ValueKind) :=
  if name = "Optional" then some optional
  else if name = "Array" then some array
  else if name = "Binding" then some binding
  else if name ∈ rangeTypes then some range
  else none

/--
A place inside of optionals, arrays, bindings and ranges, so many around one another,
with what they make of the kind of the type at the place.
-/
inductive Surrounds (s : Signature) :
    Nat → (TypeExpr → TypeExpr) → (ValueKind → ValueKind) → Prop where
  | none : Surrounds s 0 id id
  | optional {depth : Nat} {place : TypeExpr → TypeExpr} {around : ValueKind → ValueKind} :
      Surrounds s depth place around →
      Surrounds s (depth + 1) (fun t => .optional (place t)) fun k => .optional (around k)
  | array {depth : Nat} {place : TypeExpr → TypeExpr} {around : ValueKind → ValueKind} :
      Surrounds s depth place around →
      Surrounds s (depth + 1) (fun t => .array (place t)) fun k => .array (around k)
  | generic {depth : Nat} {place : TypeExpr → TypeExpr} {around : ValueKind → ValueKind}
      {path : List String} {wrapper : ValueKind → ValueKind} :
      s.isGeneric (named path []).unqualifiedName = false →
      wrapper? (named path []).unqualifiedName = some wrapper → Surrounds s depth place around →
      Surrounds s (depth + 1) (fun t => .named path [place t]) fun k => wrapper (around k)

section
variable {path : List String} {depth : Nat} {place : TypeExpr → TypeExpr}
  {around wrapper : ValueKind → ValueKind}

theorem wrapper?_cases {name : String} (h : wrapper? name = some wrapper) :
    (name = "Optional" ∧ wrapper = optional) ∨ (name = "Array" ∧ wrapper = array) ∨
      (name = "Binding" ∧ wrapper = binding) ∨ name ∈ rangeTypes ∧ wrapper = range := by
  unfold wrapper? at h
  split_ifs at h with hoptional harray hbinding hrange
  · exact .inl ⟨hoptional, (Option.some.inj h).symm⟩
  · exact .inr (.inl ⟨harray, (Option.some.inj h).symm⟩)
  · exact .inr (.inr (.inl ⟨hbinding, (Option.some.inj h).symm⟩))
  · exact .inr (.inr (.inr ⟨hrange, (Option.some.inj h).symm⟩))

theorem injective_of_wrapper? {name : String} (h : wrapper? name = some wrapper) {k k' : ValueKind}
    (heq : wrapper k = wrapper k') : k = k' := by
  rcases wrapper?_cases h with ⟨-, rfl⟩ | ⟨-, rfl⟩ | ⟨-, rfl⟩ | ⟨-, rfl⟩
  all_goals
    injection heq

theorem ofNamed_of_wrapper? {inner : TypeExpr → ValueKind} {t : TypeExpr}
    (h : wrapper? (named path []).unqualifiedName = some wrapper) :
    ofNamed inner c (named path [t]) (named path []).unqualifiedName = wrapper (inner t) := by
  have hwrapped : (named path [t]).optionalInner? =
      if (named path []).unqualifiedName = "Optional" then some t else none := by
    rw [optionalInner?, unqualifiedName_named]
  unfold ofNamed
  rw [hwrapped]
  rcases wrapper?_cases h with ⟨hname, rfl⟩ | ⟨hname, rfl⟩ | ⟨hname, rfl⟩ | ⟨hname, rfl⟩
  · rw [if_pos hname]
  · rw [hname]
    rfl
  · rw [hname]
    rfl
  · simp only [rangeTypes, List.mem_cons, List.not_mem_nil, or_false] at hname
    rcases hname with hname | hname | hname | hname
    all_goals
      rw [hname]
      rfl

theorem Surrounds.ofTypeWithin_eq (h : Surrounds s depth place around) (more : Nat)
    (t : TypeExpr) :
    ofTypeWithin c s (more + depth) (place t) = around (ofTypeWithin c s more t) := by
  induction h with
  | none => rfl
  | optional _ ih => exact congrArg ValueKind.optional ih
  | array _ ih => exact congrArg ValueKind.array ih
  | @generic depth place around path wrapper hname hwrapper _ ih =>
      rw [← Nat.add_assoc, ofTypeWithin, ofTypeForm, unqualifiedName_named,
        hname, if_neg Bool.false_ne_true, ofNamed_of_wrapper? hwrapper, ih]

theorem Surrounds.around_inj (h : Surrounds s depth place around) {k k' : ValueKind} :
    around k = around k' ↔ k = k' := by
  refine ⟨fun heq => ?_, congrArg around⟩
  induction h with
  | none => exact heq
  | optional _ ih => exact ih (ValueKind.optional.inj heq)
  | array _ ih => exact ih (ValueKind.array.inj heq)
  | generic _ hwrapper _ ih => exact ih (injective_of_wrapper? hwrapper heq)

theorem Surrounds.exists_outer (h : Surrounds s depth place around) {n : Nat} (hn : n ≤ depth) :
    ∃ (outer inner : TypeExpr → TypeExpr) (outerAround : ValueKind → ValueKind),
      Surrounds s n outer outerAround ∧ ∀ t, place t = outer (inner t) := by
  induction h generalizing n with
  | none =>
      rw [Nat.le_zero.mp hn]
      exact ⟨id, id, id, .none, fun _ => rfl⟩
  | @optional depth place around h ih =>
      cases n with
      | zero => exact ⟨id, _, id, .none, fun _ => rfl⟩
      | succ n =>
          rcases ih (Nat.le_of_succ_le_succ hn) with ⟨outer, inner, outerAround, houter, hsplit⟩
          exact ⟨_, inner, _, houter.optional, fun t => congrArg TypeExpr.optional (hsplit t)⟩
  | @array depth place around h ih =>
      cases n with
      | zero => exact ⟨id, _, id, .none, fun _ => rfl⟩
      | succ n =>
          rcases ih (Nat.le_of_succ_le_succ hn) with ⟨outer, inner, outerAround, houter, hsplit⟩
          exact ⟨_, inner, _, houter.array, fun t => congrArg TypeExpr.array (hsplit t)⟩
  | @generic depth place around path wrapper hname hwrapper h ih =>
      cases n with
      | zero => exact ⟨id, _, id, .none, fun _ => rfl⟩
      | succ n =>
          rcases ih (Nat.le_of_succ_le_succ hn) with ⟨outer, inner, outerAround, houter, hsplit⟩
          refine ⟨_, inner, _, houter.generic hname hwrapper, ?_⟩
          intro t
          show named path [place t] = named path [outer (inner t)]
          rw [hsplit t]

theorem Surrounds.ofType_deep (h : Surrounds s depth place around) (hdepth : 9 ≤ depth) :
    ∃ (outer inner : TypeExpr → TypeExpr) (outerAround : ValueKind → ValueKind),
      Surrounds s 9 outer outerAround ∧
        ∀ t, ofType c s (place t) = outerAround (unmapped (inner t)) := by
  rcases h.exists_outer hdepth with ⟨outer, inner, outerAround, houter, hsplit⟩
  refine ⟨outer, inner, outerAround, houter, ?_⟩
  intro t
  rw [hsplit t]
  exact houter.ofTypeWithin_eq 0 (inner t)

/-!
## Names
-/

/-- The kind of a name without arguments that is no generic parameter. -/
theorem ofTypeWithin_name (more : Nat)
    (h : s.isGeneric (named path []).unqualifiedName = false) :
    ofTypeWithin c s (more + 1) (named path []) =
      ofName c (named path []) (named path []).unqualifiedName := by
  rw [ofTypeWithin, ofTypeForm, h, if_neg Bool.false_ne_true]
  rfl

theorem ofName_of_find?_none {t : TypeExpr} {name : String}
    (h : c.enumerations.find? name = none) :
    ofName c t name = (ofCanonicalName? (c.resolveAlias name)).getD (unmapped t) := by
  rw [ofName, h]

def canonicalKinds : List (String × ValueKind) :=
  [("Bool", bool), ("Int", int), ("Double", float), ("String", string), ("Text", text),
    ("View", view)]

theorem mem_canonicalKinds {name : String} {k : ValueKind} (h : ofCanonicalName? name = some k) :
    (name, k) ∈ canonicalKinds := by
  unfold ofCanonicalName? at h
  split_ifs at h with hname hname hname hname hname hname
  all_goals
    rw [← Option.some.inj h, hname]
    simp [canonicalKinds]

theorem unqualifiedName_of_canonical {name : String} {k : ValueKind}
    (h : ofCanonicalName? name = some k) : (ofPath name []).unqualifiedName = name := by
  have hplain : ∀ e ∈ canonicalKinds, (ofPath e.1 []).unqualifiedName = e.1 := by
    decide +kernel
  exact hplain (name, k) (mem_canonicalKinds h)

theorem ne_enumeration_of_canonical {name catalogued : String} {k : ValueKind}
    {cases : List String} {isOptionSet : Bool} (h : ofCanonicalName? name = some k) :
    k ≠ enumeration catalogued cases isOptionSet := by
  have hmem := mem_canonicalKinds h
  rintro rfl
  simp [canonicalKinds] at hmem

/--
The canonical kind of a name is the kind of the type with this name if and only if the
catalog has no enumeration of the name and no module qualifies it.
-/
theorem getD_canonical_eq_iff {canonical : String} {t : TypeExpr}
    (halias : c.aliases.find? canonical = none)
    (hplain : s.isGeneric (ofPath canonical []).unqualifiedName = false)
    (hkind : (ofType c s (ofPath canonical [])).isStructural = false) :
    (ofCanonicalName? canonical).getD (unmapped t) = ofType c s (ofPath canonical []) ↔
      c.enumerations.find? canonical = none ∧
        (ofPath canonical []).unqualifiedName = canonical := by
  have hname : ofType c s (ofPath canonical []) =
      ofName c (ofPath canonical []) (ofPath canonical []).unqualifiedName :=
    ofTypeWithin_name 8 hplain
  constructor
  · intro heq
    cases hk : ofCanonicalName? canonical with
    | none =>
        rw [hk, Option.getD_none] at heq
        rw [← heq] at hkind
        cases hkind
    | some k =>
        have hunqualified := unqualifiedName_of_canonical hk
        refine ⟨?_, hunqualified⟩
        cases hfind : c.enumerations.find? canonical with
        | none => rfl
        | some e =>
            rw [hk, Option.getD_some, hname, hunqualified, ofName, hfind] at heq
            exact absurd heq (ne_enumeration_of_canonical hk)
  · rintro ⟨hfind, hunqualified⟩
    have hself : ofType c s (ofPath canonical []) =
        (ofCanonicalName? canonical).getD (unmapped (ofPath canonical [])) := by
      rw [hname, hunqualified, ofName_of_find?_none hfind, Configuration.resolveAlias,
        Configuration.followAliases_of_find?_none _ halias]
    rw [hself] at hkind ⊢
    cases hk : ofCanonicalName? canonical with
    | none =>
        rw [hk] at hkind
        cases hkind
    | some k => rfl

/--
A type whose name is no generic parameter and not in the catalog has the canonical kind
that the aliases of its name lead to, or no decoder, at every place that the kinds of
types are looked for.  That is the kind of the type with the canonical name, where this
type has a decoder, if and only if the catalog has no enumeration of the canonical name
and no module qualifies it.  At deeper places no type has a decoder.
-/
theorem ofType_alias_eq_iff {canonical : String} (hvalid : c.error? = none)
    (hplace : Surrounds s depth place around)
    (hplain : s.isGeneric (named path []).unqualifiedName = false)
    (hcatalog : c.enumerations.find? (named path []).unqualifiedName = none)
    (hcanonical : c.resolveAlias (named path []).unqualifiedName = canonical) :
    (depth < 9 →
      ofType c s (place (named path [])) =
          around ((ofCanonicalName? canonical).getD (unmapped (named path []))) ∧
        (s.isGeneric (ofPath canonical []).unqualifiedName = false →
          (ofType c s (ofPath canonical [])).isStructural = false →
          (ofType c s (place (named path [])) = ofType c s (place (ofPath canonical [])) ↔
            c.enumerations.find? canonical = none ∧
              (ofPath canonical []).unqualifiedName = canonical))) ∧
      (9 ≤ depth →
        ∃ (outer inner : TypeExpr → TypeExpr) (outerAround : ValueKind → ValueKind),
          Surrounds s 9 outer outerAround ∧
            ∀ t, ofType c s (place t) = outerAround (unmapped (inner t))) := by
  refine ⟨fun hdepth => ?_, fun hdepth => hplace.ofType_deep hdepth⟩
  have hmore : 9 = (8 - depth) + 1 + depth := by omega
  have hown : ofType c s (place (named path [])) =
      around ((ofCanonicalName? canonical).getD (unmapped (named path []))) := by
    rw [ofType, hmore, hplace.ofTypeWithin_eq, ofTypeWithin_name _ hplain,
      ofName_of_find?_none hcatalog, hcanonical]
  refine ⟨hown, fun hgeneric hkind => ?_⟩
  have hother : ofType c s (place (ofPath canonical [])) =
      around (ofType c s (ofPath canonical [])) := by
    rw [ofType, hmore, hplace.ofTypeWithin_eq]
    have hmoreName := ofTypeWithin_name (c := c) (8 - depth) hgeneric
    exact congrArg around (hmoreName.trans (ofTypeWithin_name 8 hgeneric).symm)
  have halias : c.aliases.find? canonical = none :=
    hcanonical ▸ Configuration.find?_resolveAlias hvalid _
  rw [hown, hother, hplace.around_inj]
  exact getD_canonical_eq_iff halias hgeneric hkind

/-- A binding of time intervals, some of them missing, is one of floating-point numbers. -/
theorem ofType_alias_eq_iff_timeInterval :
    let s : Signature := ⟨"delay", [], [], .always, none, 1⟩
    let place : TypeExpr → TypeExpr := fun t => named ["SwiftUI", "Binding"] [.array (.optional t)]
    Configuration.builtin.error? = none ∧
      Configuration.builtin.resolveAlias "TimeInterval" = "Double" ∧
      ofType .builtin s (place (named ["Foundation", "TimeInterval"] [])) =
        binding (array (optional float)) ∧
      ofType .builtin s (place (named ["Foundation", "TimeInterval"] [])) =
        ofType .builtin s (place (ofPath "Double" [])) := by
  intro s place
  have hvalid : Configuration.builtin.error? = none := by decide +kernel
  have hcanonical : Configuration.builtin.resolveAlias "TimeInterval" = "Double" := by
    decide +kernel
  have hplace : Surrounds s 3 place fun k => binding (array (optional k)) :=
    .generic rfl rfl (.array (.optional .none))
  have hcatalog : Configuration.builtin.enumerations.find?
      (named ["Foundation", "TimeInterval"] []).unqualifiedName = none := by
    decide +kernel
  have hkind := (ofType_alias_eq_iff hvalid hplace rfl hcatalog hcanonical).1 (by decide)
  refine ⟨hvalid, hcanonical, hkind.1.trans ?_, (hkind.2 rfl (by decide +kernel)).mpr ?_⟩
  · decide +kernel
  · constructor <;> decide +kernel

/-- An alias of an enumeration of the catalog does not name the enumeration. -/
theorem ofType_ne_of_catalogued :
    let c : Configuration :=
      ⟨"1", false, .empty, ["View"], .ofList [("HAlign", "Alignment")],
        .ofList [("Alignment", ⟨["center", "leading"], false⟩)]⟩
    c.error? = none ∧ c.enumerations.find? "HAlign" = none ∧
      c.resolveAlias "HAlign" = "Alignment" ∧
      ofType c ⟨"frame", [], [], .always, none, 1⟩ (ofPath "Alignment" []) =
        enumeration "Alignment" ["center", "leading"] false ∧
      ofType c ⟨"frame", [], [], .always, none, 1⟩ (ofPath "HAlign" []) = structural "HAlign" := by
  decide +kernel

end

end ValueKind
end ViewModifiers
