import ViewModifiers.Proofs.Signature.Names
import ViewModifiers.Signature.Declaration

/-!
# Types that are read

Every type that the grammar reads is well-formed: it is made of names, and a list
of one type in parentheses is no tuple.
-/

namespace ViewModifiers

open TypeExpr.Grammar (IsName)

namespace TypeExpr

/-!
## Well-formed types
-/

inductive WellFormed : TypeExpr → Prop where
  | named {name : String} {path : List String} {generics : List TypeExpr} :
      (∀ part ∈ name :: path, IsName part) → (∀ t ∈ generics, WellFormed t) →
        WellFormed (.named (name :: path) generics)
  | optional {t : TypeExpr} : WellFormed t → WellFormed (.optional t)
  | array {t : TypeExpr} : WellFormed t → WellFormed (.array t)
  | dictionary {key value : TypeExpr} : WellFormed key → WellFormed value →
      WellFormed (.dictionary key value)
  | tuple {items : List TypeExpr} : items.length ≠ 1 → (∀ t ∈ items, WellFormed t) →
      WellFormed (.tuple items)
  | function {parameters : List TypeExpr} {result : TypeExpr} {isAsync throws : Bool} :
      (∀ t ∈ parameters, WellFormed t) → WellFormed result →
        WellFormed (.function parameters result isAsync throws)
  | someOf {t : TypeExpr} : WellFormed t → WellFormed (.someOf t)
  | anyOf {t : TypeExpr} : WellFormed t → WellFormed (.anyOf t)
  | inoutOf {t : TypeExpr} : WellFormed t → WellFormed (.inoutOf t)

namespace Grammar

open ViewModifiers.Grammar ViewModifiers.Grammar.Rule

def Primary.WellFormed : Primary → Prop
  | list items => ∀ t ∈ items, t.WellFormed
  | type t => t.WellFormed

theorem Primary.WellFormed.toType {p : Primary} (h : p.WellFormed) : p.toType.WellFormed := by
  cases p with
  | type t => exact h
  | list items =>
      cases items with
      | nil => exact .tuple (by simp) nofun
      | cons t items =>
          cases items with
          | nil => exact h t List.mem_cons_self
          | cons u items => exact .tuple (by simp) h

theorem Primary.WellFormed.parameters {p : Primary} (h : p.WellFormed) :
    ∀ t ∈ p.parameters, t.WellFormed := by
  cases p with
  | type t => exact List.forall_mem_singleton.mpr h
  | list items => exact h

theorem Primary.WellFormed.applyMarks {p : Primary} (h : p.WellFormed) (marks : Nat) :
    (applyMarks p marks).WellFormed := by
  induction marks generalizing p with
  | zero => exact h
  | succ marks ih => exact ih (p := .type (.optional p.toType)) h.toType.optional

section
variable {inner : Rule TypeExpr} (hinner : Ensures inner TypeExpr.WellFormed)
include hinner

theorem ensures_worded {build : TypeExpr → TypeExpr} (text : String)
    (hbuild : ∀ t : TypeExpr, t.WellFormed → (build t).WellFormed) :
    Ensures (worded inner text build) TypeExpr.WellFormed := by
  refine Ensures.bind fun _ => ?_
  refine Ensures.bind fun _ => ?_
  refine hinner.followed fun t ht => ?_
  exact Ensures.pure (hbuild t ht)

theorem ensures_tupleItems : Ensures (tupleItems inner) fun ts => ∀ t ∈ ts, t.WellFormed := by
  have helement : Ensures (tupleElement inner) TypeExpr.WellFormed := by
    refine Ensures.bind fun _ => ?_
    refine hinner.followed fun t ht => ?_
    refine Ensures.bind fun _ => ?_
    exact Ensures.pure ht
  refine Ensures.bind fun _ => ?_
  refine Ensures.bind fun _ => ?_
  refine helement.separated.followed fun items hitems => ?_
  refine Ensures.bind fun _ => ?_
  refine Ensures.bind fun _ => ?_
  exact Ensures.pure hitems

theorem ensures_collection : Ensures (collection inner) TypeExpr.WellFormed := by
  have hbehind : Ensures (do spacedChar ':'; inner) TypeExpr.WellFormed :=
    Ensures.bind fun _ => hinner
  refine Ensures.bind fun _ => ?_
  refine Ensures.bind fun _ => ?_
  refine hinner.followed fun key hkey => ?_
  refine hbehind.optional.followed fun value hvalue => ?_
  refine Ensures.bind fun _ => ?_
  refine Ensures.bind fun _ => ?_
  cases value with
  | none => exact Ensures.pure hkey.array
  | some value => exact Ensures.pure (hkey.dictionary (hvalue value rfl))

theorem ensures_genericArguments :
    Ensures (genericArguments inner) fun ts => ∀ t ∈ ts, t.WellFormed := by
  have hargument : Ensures (do layout; inner) TypeExpr.WellFormed := Ensures.bind fun _ => hinner
  refine Ensures.bind fun _ => ?_
  refine hargument.separated1.followed fun arguments harguments => ?_
  refine Ensures.bind fun _ => ?_
  refine Ensures.bind fun _ => ?_
  exact Ensures.pure harguments

theorem ensures_nameStep : Ensures (nameStep inner) fun step =>
    IsName step.1 ∧ ∀ ts ∈ step.2, ∀ t ∈ ts, t.WellFormed := by
  have hname : Ensures (do char '.'; identifier) IsName := Ensures.bind fun _ => ensures_identifier
  refine hname.attempt.followed fun name hname => ?_
  cases name with
  | none => exact ensures_refuse
  | some name =>
      refine (ensures_genericArguments hinner).optional.followed fun arguments harguments => ?_
      exact Ensures.pure ⟨hname name rfl, harguments⟩

end

theorem wellFormed_of_mem_lastArguments {first : Option (List TypeExpr)}
    {steps : List (String × Option (List TypeExpr))}
    (hfirst : ∀ ts ∈ first, ∀ t ∈ ts, t.WellFormed)
    (hsteps : ∀ step ∈ steps, ∀ ts ∈ step.2, ∀ t ∈ ts, t.WellFormed) :
    ∀ t ∈ lastArguments first steps, t.WellFormed := by
  unfold lastArguments
  induction steps generalizing first with
  | nil =>
      cases first with
      | none => nofun
      | some ts => exact hfirst ts rfl
  | cons step steps ih =>
      rw [List.foldl_cons]
      apply ih
      · intro ts hts
        cases hstep : step.2 with
        | none =>
            rw [hstep] at hts
            exact hfirst ts hts
        | some found =>
            rw [hstep] at hts
            cases hts
            exact hsteps step List.mem_cons_self ts hstep
      · exact fun later hlater => hsteps later (List.mem_cons_of_mem step hlater)

section
variable {inner : Rule TypeExpr} (hinner : Ensures inner TypeExpr.WellFormed)
include hinner

theorem ensures_namedType : Ensures (namedType inner) TypeExpr.WellFormed := by
  refine ensures_identifier.followed fun first hfirst => ?_
  refine (ensures_genericArguments hinner).optional.followed fun arguments harguments => ?_
  refine (ensures_nameStep hinner).many.followed fun steps hsteps => ?_
  apply Ensures.pure
  apply TypeExpr.WellFormed.named
  · rw [List.forall_mem_cons]
    refine ⟨hfirst, ?_⟩
    intro part hpart
    rcases List.mem_map.mp hpart with ⟨step, hstep, rfl⟩
    exact (hsteps step hstep).1
  · exact wellFormed_of_mem_lastArguments harguments fun step hstep => (hsteps step hstep).2

theorem ensures_postfixForm : Ensures (postfixForm inner) Primary.WellFormed := by
  have hprimary : Ensures (primary inner) Primary.WellFormed := by
    apply Ensures.oneOf
    intro p hp
    simp only [List.mem_cons, List.not_mem_nil, or_false] at hp
    rcases hp with rfl | rfl | rfl
    · exact (ensures_tupleItems hinner).followed fun items hitems => Ensures.pure hitems
    · exact (ensures_collection hinner).followed fun t ht => Ensures.pure ht
    · exact (ensures_namedType hinner).followed fun t ht => Ensures.pure ht
  refine hprimary.followed fun base hbase => ?_
  refine Ensures.bind fun marks => ?_
  exact Ensures.pure (hbase.applyMarks marks.length)

theorem ensures_functionForm : Ensures (functionForm inner) TypeExpr.WellFormed := by
  have harrow : Ensures (arrow inner) fun found => found.2.WellFormed := by
    refine Ensures.bind fun _ => ?_
    refine Ensures.bind fun _ => ?_
    refine Ensures.bind fun _ => ?_
    refine Ensures.bind fun _ => ?_
    refine hinner.committed.followed fun result hresult => ?_
    exact Ensures.pure hresult
  refine (ensures_postfixForm hinner).followed fun base hbase => ?_
  refine harrow.optional.followed fun found hfound => ?_
  cases found with
  | none => exact Ensures.pure hbase.toType
  | some found =>
      have hresult := hfound found rfl
      exact Ensures.pure (.function hbase.parameters hresult)

theorem ensures_typeForm : Ensures (typeForm inner) TypeExpr.WellFormed := by
  apply Ensures.oneOf
  intro p hp
  simp only [List.mem_cons, List.not_mem_nil, or_false] at hp
  rcases hp with rfl | rfl | rfl | rfl
  · exact ensures_worded hinner "some" fun t ht => ht.someOf
  · exact ensures_worded hinner "any" fun t ht => ht.anyOf
  · exact ensures_worded hinner "inout" fun t ht => ht.inoutOf
  · exact Ensures.bind fun _ => ensures_functionForm hinner

end

theorem ensures_typeWithin (depth : Nat) : Ensures (typeWithin depth) TypeExpr.WellFormed := by
  induction depth with
  | zero => exact ensures_refuse
  | succ depth ih => exact ensures_typeForm ih

end Grammar

theorem wellFormed_of_parse {source : String} {t : TypeExpr} (h : parse source = .ok t) :
    t.WellFormed := by
  unfold parse at h
  split at h
  · next read next hrun =>
      split at h
      · cases h
        rcases Grammar.Rule.exists_of_bind_ok hrun with ⟨t, behind, ht, hrest⟩
        rcases Grammar.Rule.exists_of_bind_ok hrest with ⟨_, _, _, hpure⟩
        cases hpure
        exact Grammar.ensures_typeWithin _ _ _ _ ht
      · cases h
  · cases h

end TypeExpr
end ViewModifiers
