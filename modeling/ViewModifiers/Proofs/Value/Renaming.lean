import ViewModifiers.Value.Decoding
import ViewModifiers.Value.Mapping

/-!
# Names of types without a decoder

A type without a decoder of its own gives its name to its kind.  The name is there
for messages: under another one the kind accepts the same expressions, as the same
constants, and the references to attributes differ in nothing but the name.
-/

namespace ViewModifiers

section
variable {ε α β : Type}

theorem toOption_map (g : α → β) (x : Except ε α) : (x.map g).toOption = x.toOption.map g := by
  cases x with
  | error cause => rfl
  | ok a => rfl

theorem toOption_bind (x : Except ε α) (g : α → Except ε β) :
    (x >>= g).toOption = x.toOption.bind fun a => (g a).toOption := by
  cases x with
  | error cause => rfl
  | ok a => rfl

theorem toOption_mapM (g : α → Except ε β) (as : List α) :
    (as.mapM g).toOption = as.mapM fun a => (g a).toOption := by
  induction as with
  | nil => rfl
  | cons a rest ih =>
      simp only [List.mapM_cons, toOption_bind, ih]
      rfl

theorem ok_or_error_of_toOption_map_eq {g : α → β} {x y : Except ε α}
    (h : x.toOption.map g = y.toOption.map g) :
    (∃ a b, x = .ok a ∧ y = .ok b ∧ g a = g b) ∨
      ∃ cause cause', x = .error cause ∧ y = .error cause' := by
  cases x with
  | error cause =>
      cases y with
      | error cause' => exact .inr ⟨cause, cause', rfl, rfl⟩
      | ok b => cases h
  | ok a =>
      cases y with
      | error cause => cases h
      | ok b => exact .inl ⟨a, b, rfl, rfl, Option.some.inj h⟩

end

namespace ValueKind

/-!
## Kinds under other names
-/

/-- Other names for the types without a decoder of their own. -/
def rename (f : String → String) : ValueKind → ValueKind
  | structural name => structural (f name)
  | optional inner => optional (inner.rename f)
  | array element => array (element.rename f)
  | range bound => range (bound.rename f)
  | binding inner => binding (inner.rename f)
  | k => k

variable (f : String → String)

@[simp] theorem rename_id (k : ValueKind) : k.rename id = k := by
  induction k with
  | optional inner ih => rw [rename, ih]
  | array element ih => rw [rename, ih]
  | range bound ih => rw [rename, ih]
  | binding inner ih => rw [rename, ih]
  | _ => rfl

theorem base_rename (k : ValueKind) : (k.rename f).base = k.base.rename f := by
  induction k with
  | optional inner ih => rw [rename, base, base, ih]
  | _ => rfl

theorem acceptsAttribute_rename (k : ValueKind) :
    (k.rename f).acceptsAttribute = k.acceptsAttribute := by
  induction k with
  | optional inner ih => rw [rename, acceptsAttribute, acceptsAttribute, ih]
  | range bound ih => rw [rename, acceptsAttribute, acceptsAttribute, ih]
  | binding inner ih => rw [rename, acceptsAttribute, acceptsAttribute, ih]
  | _ => rfl

theorem rename_eq_event_iff {k : ValueKind} : k.rename f = event ↔ k = event := by
  cases k with
  | event => simp [rename]
  | _ => simp [rename]

/-!
## Decoding under other names
-/

theorem decodeConstant_rename (k : ValueKind) (e : Expression) :
    ((k.rename f).decodeConstant e).toOption = (k.decodeConstant e).toOption := by
  induction k generalizing e with
  | optional inner ih =>
      simp only [rename, decodeConstant]
      split
      · rfl
      · exact ih e
  | array element ih =>
      cases e with
      | array items span => simp only [rename, decodeConstant, toOption_map, toOption_mapM, ih]
      | _ => rfl
  | range bound ih =>
      cases e with
      | range lower upper closed span =>
          simp only [rename, decodeConstant, toOption_bind, ih]
      | _ => rfl
  | binding inner ih => simp only [rename, decodeConstant, ih]
  | _ => rfl

end ValueKind

/-- A reference with other names for the types without a decoder of their own. -/
def Reference.rename (f : String → String) : Reference → Reference
  | attributeValue name decoder default => attributeValue name (decoder.rename f) default
  | tracked name decoder => tracked name (decoder.rename f)
  | r => r

namespace Reference

variable (f : String → String)

@[simp] theorem rename_id (r : Reference) : r.rename id = r := by
  cases r <;> simp [rename]

theorem constant?_rename (r : Reference) : (r.rename f).constant? = r.constant? := by
  cases r with
  | _ => rfl

theorem rename_withDefault (default : Option Value) (r : Reference) :
    (r.withDefault default).rename f = (r.rename f).withDefault default := by
  cases r with
  | attributeValue name decoder own =>
      cases own with
      | none => rfl
      | some v => rfl
  | _ => rfl

end Reference

namespace ValueKind

variable (f : String → String)

theorem attributeReference_rename (k : ValueKind) (name : String) :
    (k.rename f).attributeReference name = (k.attributeReference name).rename f := by
  rw [attributeReference, attributeReference, base_rename]
  cases k.base with
  | binding inner => rfl
  | _ => rfl

theorem decodeLiteral_rename (k : ValueKind) (e : Expression) :
    ((k.rename f).decodeLiteral e).toOption =
      (k.decodeLiteral e).toOption.map (Reference.rename f) := by
  have hconstant (k : ValueKind) :
      (((k.rename f).decodeConstant e).map Reference.constant).toOption =
        (((k.decodeConstant e).map Reference.constant).toOption).map (Reference.rename f) := by
    rw [toOption_map, toOption_map, decodeConstant_rename, Option.map_map]
    rfl
  induction k with
  | optional inner ih =>
      simp only [rename, decodeLiteral]
      split
      · rfl
      · exact ih
  | view =>
      simp only [rename, decodeLiteral]
      split
      · rfl
      · rfl
  | event =>
      simp only [rename, decodeLiteral]
      split
      · rfl
      · rfl
  | array element => exact hconstant (array element)
  | range bound => exact hconstant (range bound)
  | binding inner => exact hconstant (binding inner)
  | structural name => exact hconstant (structural name)
  | enumeration name cases isOptionSet => exact hconstant (enumeration name cases isOptionSet)
  | bool => exact hconstant bool
  | int => exact hconstant int
  | float => exact hconstant float
  | string => exact hconstant string
  | text => exact hconstant text

theorem decodeArgument_rename (k : ValueKind) (e : Expression) :
    ((k.rename f).decodeArgument e).toOption =
      (k.decodeArgument e).toOption.map (Reference.rename f) := by
  cases e with
  | attributeRef name span =>
      simp only [decodeArgument, acceptsAttribute_rename, attributeReference_rename]
      split
      · rfl
      · rfl
  | eventRef name span =>
      simp only [decodeArgument, base_rename, rename_eq_event_iff]
      split
      · rfl
      · rfl
  | _ => exact decodeLiteral_rename f k _

theorem constant?_of_outcome (outcome : Except DecodeError Reference) :
    (match outcome with
      | .ok r => r.constant?
      | .error _ => none) = outcome.toOption.bind Reference.constant? := by
  cases outcome with
  | ok r => rfl
  | error cause => rfl

theorem decodeDefault_rename (k : ValueKind) (source : String) :
    (k.rename f).decodeDefault source = k.decodeDefault source := by
  unfold decodeDefault
  generalize Expression.read source = outcome
  cases outcome with
  | error cause => rfl
  | ok e =>
      show (match (k.rename f).decodeArgument e with
        | .ok r => r.constant?
        | .error _ => none) = match k.decodeArgument e with
        | .ok r => r.constant?
        | .error _ => none
      rw [constant?_of_outcome, constant?_of_outcome, decodeArgument_rename, Option.bind_map]
      congr
      funext r
      exact Reference.constant?_rename f r

end ValueKind

/-!
## Types with modules in front
-/

inductive TypeExpr.SameUpToModules : TypeExpr → TypeExpr → Prop where
  | refl {t : TypeExpr} : SameUpToModules t t
  | qualified {path path' : List String} {generics : List TypeExpr} :
      unqualifiedPath path = unqualifiedPath path' →
      SameUpToModules (named path generics) (named path' generics)

namespace TypeExpr.SameUpToModules

variable {t u : TypeExpr}

theorem optionalInner?_eq (h : t.SameUpToModules u) : t.optionalInner? = u.optionalInner? := by
  cases h with
  | refl => rfl
  | @qualified path path' generics hpath =>
      rcases generics with _ | ⟨g, _ | ⟨g', more⟩⟩
      · rfl
      · simp only [optionalInner?, unqualifiedName, hpath]
        rfl
      · rfl

end TypeExpr.SameUpToModules

namespace ValueKind

variable {c : Configuration} {s s' : Signature} {t u : TypeExpr}

/-- All types without a decoder of their own under one name. -/
def erase : ValueKind → ValueKind :=
  rename fun _ => ""

theorem erase_ofName {name : String} : (ofName c t name).erase = (ofName c u name).erase := by
  unfold ofName
  split
  · rfl
  · cases ofCanonicalName? (c.resolveAlias name) with
    | none => rfl
    | some k => rfl

theorem erase_ofNamed {inner : TypeExpr → ValueKind} {name : String}
    (hinner : t.optionalInner? = u.optionalInner?)
    (hgenerics : t.genericArguments = u.genericArguments) :
    (ofNamed inner c t name).erase = (ofNamed inner c u name).erase := by
  unfold ofNamed
  rw [hinner, hgenerics]
  split
  · rfl
  · split
    · split
      · rfl
      · split
        · rfl
        · split
          · rfl
          · exact erase_ofName
    · exact erase_ofName

/-- Modules in front of a type make no difference to its kind but for the name. -/
theorem erase_ofType (h : t.SameUpToModules u) :
    (ofType c s t).erase = (ofType c s u).erase := by
  have hoptional := h.optionalInner?_eq
  cases h with
  | refl => rfl
  | @qualified path path' generics hpath =>
      have hname : (TypeExpr.named path generics).unqualifiedName =
          (TypeExpr.named path' generics).unqualifiedName := by
        rw [TypeExpr.unqualifiedName, TypeExpr.unqualifiedName, hpath]
      rw [ofType, ofType, ofTypeWithin]
      simp only [ofTypeForm, hname]
      split
      · split
        · rfl
        · rfl
      · exact erase_ofNamed hoptional rfl

/-- The kind of a type depends on nothing of the signature but its generic parameters. -/
theorem ofTypeWithin_congr (h : s.generics = s'.generics) (depth : Nat) :
    ofTypeWithin c s depth = ofTypeWithin c s' depth := by
  have hgeneric : s.isGeneric = s'.isGeneric := by
    funext name
    rw [Signature.isGeneric, Signature.isGeneric, h]
  have hconstraint : s.constraintOf? = s'.constraintOf? := by
    funext name
    rw [Signature.constraintOf?, Signature.constraintOf?, h]
  induction depth with
  | zero => rfl
  | succ depth ih =>
      funext t
      rw [ofTypeWithin, ofTypeWithin, ih]
      unfold ofTypeForm
      rw [hgeneric, hconstraint]

theorem erase_ofParameter {p q : Parameter} (hgenerics : s.generics = s'.generics)
    (hbuilder : p.isContentBuilder = q.isContentBuilder) (htype : p.type.SameUpToModules q.type) :
    (ofParameter c s p).erase = (ofParameter c s' q).erase := by
  unfold ofParameter
  rw [hbuilder, htype.optionalInner?_eq]
  split
  · rfl
  · rw [ofType, ofType, ← ofTypeWithin_congr hgenerics]
    exact erase_ofType htype

end ValueKind
end ViewModifiers
