import ViewModifiers.Proofs.Live.Rerun
import ViewModifiers.Proofs.Value.Conformance

/-!
# Modifiers that fail halfway

The arguments of a modifier are resolved in order.  Where one of them fails, the
bindings in front of it have been resolved already, and each of them whose
attribute had no cell has made one.  Main statement: a failed modifier leaves
these cells and no other trace, and a later one reads them.
-/

namespace ViewModifiers

/-!
## Cells that arguments make
-/

/-- The cell that a reference makes of an attribute where there is none. -/
def Reference.cell? (e : Element) (name : String) : Reference → Option Cell
  | .tracked other k =>
      if other = name then (e.attributeOfKind name k).toOption.map .fresh else none
  | _ => none

def firstCell? (e : Element) (name : String) (bound : List BoundArgument) : Option Cell :=
  bound.findSome? fun a => a.reference.cell? e name

/-- Behind some arguments, a store has the cells that they made besides its own. -/
structure CellStore.Gains (cells behind : CellStore) (e : Element) (bound : List BoundArgument) :
    Prop where
  outbox_eq : behind.outbox = cells.outbox
  find?_self : ∀ name, behind.find? ⟨e.id, name⟩ =
    (cells.find? ⟨e.id, name⟩).or (firstCell? e name bound)
  find?_other : ∀ id : CellId, id.element ≠ e.id → behind.find? id = cells.find? id

section
variable {e : Element} {cells between behind : CellStore} {a : BoundArgument} {v : Value}
  {bound more : List BoundArgument} {cause : ModifierError}

namespace CellStore

theorem gains_nil (cells : CellStore) (e : Element) : cells.Gains cells e [] :=
  ⟨rfl, fun _ => Option.or_none.symm, fun _ _ => rfl⟩

theorem Gains.trans (h : cells.Gains between e bound) (h' : between.Gains behind e more) :
    cells.Gains behind e (bound ++ more) := by
  refine ⟨h'.outbox_eq.trans h.outbox_eq, fun name => ?_, fun id hid => ?_⟩
  · rw [h'.find?_self, h.find?_self, Option.or_assoc, firstCell?, firstCell?, firstCell?,
      List.findSome?_append]
  · rw [h'.find?_other id hid, h.find?_other id hid]

theorem gains_self (h : ∀ name, cells.find? ⟨e.id, name⟩ = none →
    a.reference.cell? e name = none) : cells.Gains cells e [a] := by
  refine ⟨rfl, fun name => ?_, fun _ _ => rfl⟩
  cases hfind : cells.find? ⟨e.id, name⟩ with
  | some c => rfl
  | none => rw [Option.none_or, firstCell?, List.findSome?_singleton, h name hfind]

theorem gains_add {name : String} {k : ValueKind} {initial : Value}
    (hfind : cells.find? ⟨e.id, name⟩ = none) (ha : a.reference = .tracked name k)
    (hvalue : e.attributeOfKind name k = .ok initial) :
    cells.Gains (cells.add ⟨e.id, name⟩ (.fresh initial) hfind) e [a] := by
  refine ⟨rfl, fun other => ?_, fun id hid => ?_⟩
  · rw [find?_add, firstCell?, List.findSome?_singleton, ha, Reference.cell?]
    by_cases hname : other = name
    · subst hname
      rw [if_pos rfl, if_pos rfl, hfind, hvalue]
      rfl
    · rw [if_neg (fun h => hname (CellId.mk.inj h).2), if_neg (Ne.symm hname), Option.or_none]
  · rw [find?_add, if_neg]
    rintro rfl
    exact hid rfl

theorem gains_of_resolve (h : a.reference.resolve e cells = (.ok v, behind)) :
    cells.Gains behind e [a] := by
  cases ha : a.reference with
  | tracked name k =>
      rw [ha, Reference.resolve] at h
      cases hfind : cells.find? ⟨e.id, name⟩ with
      | some c =>
          rw [getOrCreate_of_some hfind] at h
          cases h
          refine gains_self fun other hother => ?_
          rw [ha, Reference.cell?, if_neg]
          rintro rfl
          rw [hfind] at hother
          cases hother
      | none =>
          rw [getOrCreate_of_none hfind] at h
          cases hvalue : e.attributeOfKind name k with
          | error cause =>
              rw [hvalue] at h
              cases h
          | ok initial =>
              rw [hvalue] at h
              cases h
              exact gains_add hfind ha hvalue
  | _ =>
      simp only [ha, Reference.resolve, Prod.mk.injEq] at h
      rw [← h.2]
      exact gains_self fun _ _ => by rw [ha]; rfl

end CellStore

/-!
## Arguments up to the first failure
-/

theorem Reference.eq_of_resolve_error {r : Reference}
    (h : r.resolve e cells = (.error cause, behind)) : behind = cells := by
  cases r with
  | tracked name k =>
      have hnone := (eq_error_of_tracked h).2
      rw [resolve] at h
      cases hfind : cells.find? ⟨e.id, name⟩ with
      | some c =>
          rw [CellStore.getOrCreate_of_some hfind] at h
          cases h
      | none =>
          rw [CellStore.getOrCreate_of_none hfind] at h
          cases hvalue : e.attributeOfKind name k with
          | ok initial =>
              rw [hvalue] at h
              cases h
          | error found =>
              rw [hvalue] at h
              exact (Prod.mk.inj h).2.symm
  | _ =>
      simp only [resolve, Prod.mk.injEq] at h
      exact h.2.symm

/-- A reference whose attribute has a cell, if it is a binding, leaves the store as it is. -/
theorem Reference.resolve_of_bound {r : Reference}
    (h : ∀ name k, r = .tracked name k → cells.find? ⟨e.id, name⟩ ≠ none) :
    (r.resolve e cells).2 = cells := by
  cases r with
  | tracked name k =>
      rcases Option.ne_none_iff_exists'.mp (h name k rfl) with ⟨c, hc⟩
      rw [resolve, CellStore.getOrCreate_of_some hc]
  | _ => rfl

theorem resolveArguments_of_bound
    (h : ∀ a ∈ bound, ∀ name k, a.reference = .tracked name k →
      cells.find? ⟨e.id, name⟩ ≠ none) :
    (resolveArguments e cells bound).2 = cells := by
  induction bound with
  | nil => rfl
  | cons a rest ih =>
      have hfirst := Reference.resolve_of_bound (h a List.mem_cons_self)
      cases hresolve : a.reference.resolve e cells with
      | mk result between =>
          rw [hresolve] at hfirst
          subst hfirst
          cases result with
          | error cause => rw [resolveArguments_cons_of_error hresolve]
          | ok v =>
              rw [resolveArguments_cons_of_ok hresolve]
              exact ih fun b hb => h b (List.mem_cons_of_mem a hb)

/-- A binding that resolves without changing the store has a cell there. -/
theorem Reference.find?_of_resolve {name : String} {k : ValueKind}
    (h : (Reference.tracked name k).resolve e cells = (.ok v, cells)) :
    ∃ c, cells.find? ⟨e.id, name⟩ = some c ∧ v = .binding ⟨e.id, name⟩ c.read := by
  rw [resolve] at h
  cases hfind : cells.find? ⟨e.id, name⟩ with
  | some c =>
      rw [CellStore.getOrCreate_of_some hfind] at h
      cases h
      exact ⟨c, rfl, rfl⟩
  | none =>
      rw [CellStore.getOrCreate_of_none hfind] at h
      cases hvalue : e.attributeOfKind name k with
      | error cause =>
          rw [hvalue] at h
          cases h
      | ok initial =>
          rw [hvalue] at h
          have hadd := CellStore.find?_add cells ⟨e.id, name⟩ ⟨e.id, name⟩ (.fresh initial) hfind
          rw [(Prod.mk.inj h).2, if_pos rfl, hfind] at hadd
          cases hadd

theorem exists_of_resolveArguments_cons {values : List ResolvedArgument}
    (h : resolveArguments e cells (a :: bound) = (.ok values, behind)) :
    ∃ v between rest, a.reference.resolve e cells = (.ok v, between) ∧
      resolveArguments e between bound = (.ok rest, behind) ∧
        values = ⟨a.name, a.label, v⟩ :: rest := by
  cases hresolve : a.reference.resolve e cells with
  | mk result between =>
      cases result with
      | error cause =>
          rw [resolveArguments_cons_of_error hresolve] at h
          cases h
      | ok v =>
          rw [resolveArguments_cons_of_ok hresolve] at h
          cases hrest : resolveArguments e between bound with
          | mk result last =>
              rw [hrest] at h
              cases result with
              | error cause => cases h
              | ok rest =>
                  cases h
                  exact ⟨v, between, rest, rfl, hrest, rfl⟩

theorem CellStore.gains_of_resolveArguments {values : List ResolvedArgument}
    (h : resolveArguments e cells bound = (.ok values, behind)) : cells.Gains behind e bound := by
  induction bound generalizing cells values with
  | nil =>
      cases h
      exact gains_nil _ e
  | cons a rest ih =>
      rcases exists_of_resolveArguments_cons h with ⟨v, between, values, hfirst, hrest, _⟩
      exact (gains_of_resolve hfirst).trans (ih hrest)

theorem forall₂_of_resolveArguments {values : List ResolvedArgument}
    (h : resolveArguments e cells bound = (.ok values, behind)) :
    List.Forall₂ (fun a r => a.reference.resolve e behind = (.ok r.value, behind)) bound
      values := by
  induction bound generalizing cells values with
  | nil =>
      cases h
      exact .nil
  | cons a rest ih =>
      rcases exists_of_resolveArguments_cons h with ⟨v, between, values, hfirst, hrest, rfl⟩
      have hgrown := extends_resolveArguments e between rest
      rw [hrest] at hgrown
      exact .cons (Reference.resolve_of_extends hfirst hgrown) (ih hrest)

theorem exists_of_resolveArguments_error
    (h : resolveArguments e cells bound = (.error cause, behind)) :
    ∃ before a after values, bound = before ++ a :: after ∧
      resolveArguments e cells before = (.ok values, behind) ∧
        a.reference.resolve e behind = (.error cause, behind) := by
  induction bound generalizing cells with
  | nil => cases h
  | cons a rest ih =>
      cases hresolve : a.reference.resolve e cells with
      | mk result between =>
          cases result with
          | error found =>
              rw [resolveArguments_cons_of_error hresolve] at h
              cases h
              have hsame := Reference.eq_of_resolve_error hresolve
              subst hsame
              exact ⟨[], a, rest, [], rfl, rfl, hresolve⟩
          | ok v =>
              rw [resolveArguments_cons_of_ok hresolve] at h
              cases hrest : resolveArguments e between rest with
              | mk result last =>
                  rw [hrest] at h
                  cases result with
                  | ok values => cases h
                  | error found =>
                      cases h
                      rcases ih hrest with ⟨before, b, after, values, hsplit, hbefore, hb⟩
                      refine ⟨a :: before, b, after, ⟨a.name, a.label, v⟩ :: values, ?_, ?_, hb⟩
                      · rw [hsplit, List.cons_append]
                      · rw [resolveArguments_cons_of_ok hresolve, hbefore]
                        rfl

end

/-!
## Modifiers
-/

/--
What an argument is, where it is resolved on a store together with others.  A
binding has the value of its cell, which is made of the attribute where there is
none; every other argument does not depend on the store.
-/
def Reference.IsSeenAs (e : Element) (cells : CellStore) (bound : List BoundArgument) :
    Reference → Value → Prop
  | .tracked name _, v =>
      ∃ c, (cells.find? ⟨e.id, name⟩).or (firstCell? e name bound) = some c ∧
        v = .binding ⟨e.id, name⟩ c.read
  | r, v => ∀ store, (r.resolve e store).1 = .ok v

section
variable {e : Element} {cells behind : CellStore}

theorem isSeenAs_of_resolveArguments {bound : List BoundArgument}
    {values : List ResolvedArgument}
    (h : resolveArguments e cells bound = (.ok values, behind)) :
    List.Forall₂ (fun a r => a.reference.IsSeenAs e cells bound r.value) bound values := by
  have hgains := CellStore.gains_of_resolveArguments h
  refine (forall₂_of_resolveArguments h).imp ?_
  intro a r hresolve
  cases ha : a.reference with
  | tracked name k =>
      rw [ha] at hresolve
      rcases Reference.find?_of_resolve hresolve with ⟨c, hc, hvalue⟩
      rw [hgains.find?_self] at hc
      exact ⟨c, hc, hvalue⟩
  | _ =>
      rw [ha] at hresolve
      intro store
      exact congrArg Prod.fst hresolve

theorem Invocation.resolveArguments_of_resolve_error {v : Invocation} {cause : ModifierError}
    (h : v.resolve e cells = (.error cause, behind)) :
    resolveArguments e cells v.arguments = (.error cause, behind) := by
  rw [v.resolve_eq] at h
  cases hresult : resolveArguments e cells v.arguments with
  | mk result last =>
      rw [hresult] at h
      cases result with
      | ok values => cases h
      | error found =>
          cases h
          rfl

theorem Invocation.resolveArguments_of_resolve_ok {v : Invocation} {m : ResolvedModifier}
    (h : v.resolve e cells = (.ok m, behind)) :
    resolveArguments e cells v.arguments = (.ok m.arguments, behind) := by
  rw [v.resolve_eq] at h
  cases hresult : resolveArguments e cells v.arguments with
  | mk result last =>
      rw [hresult] at h
      cases result with
      | error cause => cases h
      | ok values =>
          cases h
          rfl

/--
A modifier fails at one of its arguments, by which the store stays as it is.  The
bindings in front of it made the cells that were missing, and nothing else
happened to the store; if none was missing, it is the store from before.  Where
the modifier succeeds later, its bindings read the cells that there are.
-/
theorem Invocation.exists_of_resolve_error {v : Invocation} {cause : ModifierError}
    (h : v.resolve e cells = (.error cause, behind)) :
    ∃ before a after, v.arguments = before ++ a :: after ∧
      a.reference.resolve e behind = (.error cause, behind) ∧
      cells.Gains behind e before ∧
      (behind = cells ↔ ∀ b ∈ before, ∀ name k, b.reference = .tracked name k →
        cells.find? ⟨e.id, name⟩ ≠ none) ∧
      ∀ later m last, v.resolve later behind = (.ok m, last) →
        behind.Gains last later v.arguments ∧
          List.Forall₂ (fun b r => b.reference.IsSeenAs later behind v.arguments r.value)
            v.arguments m.arguments := by
  rcases exists_of_resolveArguments_error (resolveArguments_of_resolve_error h) with
    ⟨before, a, after, values, hsplit, hbefore, ha⟩
  refine ⟨before, a, after, hsplit, ha, CellStore.gains_of_resolveArguments hbefore, ?_, ?_⟩
  · constructor
    · rintro rfl b hb name k hreference
      rcases ValueKind.exists_of_mem_left (forall₂_of_resolveArguments hbefore) b hb with ⟨r, _, hr⟩
      rw [hreference] at hr
      rcases Reference.find?_of_resolve hr with ⟨c, hc, _⟩
      rw [hc]
      exact Option.some_ne_none c
    · intro hbound
      have hkept := resolveArguments_of_bound hbound
      rw [hbefore] at hkept
      exact hkept
  · intro later m last hlater
    have hvalues := resolveArguments_of_resolve_ok hlater
    exact ⟨CellStore.gains_of_resolveArguments hvalues, isSeenAs_of_resolveArguments hvalues⟩

end

/-!
## A switch without its count
-/

def countedSwitch : Invocation :=
  ⟨"counted", 0, "counted(isOn:count:)",
    [⟨"isOn", some "isOn", .tracked "isOn" .bool⟩,
      ⟨"count", some "count", .attributeValue "count" .int none⟩], .always⟩

def toggle (attributes : List (String × RawValue)) : Element :=
  ⟨⟨1⟩, "Toggle", .ofList attributes, []⟩

/-- The count is missing, and the binding in front of it has made a cell. -/
theorem Invocation.exists_of_resolve_error_counted :
    let s : CellStore := .empty (.ofSettings {})
    let off := toggle [("isOn", .text "false")]
    let behind := (countedSwitch.resolve off s).2
    countedSwitch.resolve off s = (.error (.missingAttribute "count"), behind) ∧
      behind.size = 1 ∧
      ∃ before a after, countedSwitch.arguments = before ++ a :: after ∧
        s.Gains behind off before ∧
          ∃ b ∈ before, ∃ name k, b.reference = .tracked name k ∧
            s.find? ⟨off.id, name⟩ = none := by
  intro s off behind
  have hfailed : countedSwitch.resolve off s = (.error (.missingAttribute "count"), behind) := rfl
  have hsize : behind.size = 1 := rfl
  rcases exists_of_resolve_error hfailed with ⟨before, a, after, hsplit, _, hgains, hsame, _⟩
  refine ⟨hfailed, hsize, before, a, after, hsplit, hgains, ?_⟩
  by_contra hbound
  have heq : behind = s := hsame.mpr fun b hb name k hreference hnone =>
    hbound ⟨b, hb, name, k, hreference, hnone⟩
  rw [heq] at hsize
  cases hsize

/--
The first attempt fails for want of a count, but it has made a cell of the
switch; so the second one, with all attributes there, shows the switch as it was.
-/
theorem Invocation.not_traceless_without_count :
    let s : CellStore := .empty (.ofSettings {})
    let first := countedSwitch.resolve (toggle [("isOn", .text "false")]) s
    let on := toggle [("isOn", .text "true"), ("count", .text "1")]
    first.1 = .error (.missingAttribute "count") ∧ first.2 ≠ s ∧
      (countedSwitch.resolve on s).1.toOption.map (fun m => m.argument? "isOn") =
        some (some (.binding ⟨⟨1⟩, "isOn"⟩ (.bool true))) ∧
      (countedSwitch.resolve on first.2).1.toOption.map (fun m => m.argument? "isOn") =
        some (some (.binding ⟨⟨1⟩, "isOn"⟩ (.bool false))) := by
  refine ⟨rfl, ?_, rfl, rfl⟩
  intro hsame
  have hsize := congrArg CellStore.size hsame
  cases hsize

end ViewModifiers
