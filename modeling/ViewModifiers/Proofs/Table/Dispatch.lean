import ViewModifiers.Artifact.RustSource
import ViewModifiers.Proofs.Overload.Grouping
import ViewModifiers.Proofs.Table.Blocks
import ViewModifiers.Proofs.Table.Typing

/-!
# Dispatch

In a compiled table each operation stands under its own name, has an overload at
least, and its overloads know their places.  Main statement: the outcomes of a
list of modifiers are those of an ordered choice.  A modifier names the first
overload that binds its arguments and is refused, with one attempt for each
overload, if and only if none does.
-/

namespace ViewModifiers

/-!
## Ordered choice
-/

def Overload.Refuses (o : Overload) (arguments : List Argument) : Prop :=
  ∃ cause, o.bind arguments = .error cause

namespace Operation

/-- The attempts of overloads none of which binds the arguments, in order. -/
def RefusesAll (overloads : List Overload) (arguments : List Argument)
    (attempts : List (String × BindError)) : Prop :=
  List.Forall₂ (fun o attempt => attempt.1 = o.selector ∧ o.bind arguments = .error attempt.2)
    overloads attempts

/-- The overload at the place binds the arguments, and those in front of it refuse them. -/
structure FirstBinds (overloads : List Overload) (arguments : List Argument) (i : Nat)
    (o : Overload) (bound : List BoundArgument) : Prop where
  found : overloads[i]? = some o
  binds : o.bind arguments = .ok bound
  earlier : ∀ j < i, ∀ before ∈ overloads[j]?, before.Refuses arguments

section
variable {o first : Overload} {rest overloads : List Overload} {arguments : List Argument}
  {bound : List BoundArgument} {cause : BindError}

theorem choose_cons_of_ok (h : first.bind arguments = .ok bound) (rest : List Overload) :
    choose (first :: rest) arguments = .ok (first, bound) := by
  unfold choose
  rw [h]

theorem choose_cons_of_error (h : first.bind arguments = .error cause) (rest : List Overload) :
    choose (first :: rest) arguments =
      (choose rest arguments).mapError ((first.selector, cause) :: ·) := by
  rw [choose, h]

theorem choose_eq_error_iff {attempts : List (String × BindError)} :
    choose overloads arguments = .error attempts ↔ RefusesAll overloads arguments attempts := by
  induction overloads generalizing attempts with
  | nil =>
      constructor
      · intro h
        cases h
        exact .nil
      · intro h
        cases h
        rfl
  | cons first rest ih =>
      constructor
      · intro h
        cases hbind : first.bind arguments with
        | ok bound =>
            rw [choose_cons_of_ok hbind] at h
            cases h
        | error cause =>
            rw [choose_cons_of_error hbind] at h
            cases hrest : choose rest arguments with
            | ok chosen =>
                rw [hrest] at h
                cases h
            | error more =>
                rw [hrest] at h
                cases h
                exact .cons ⟨rfl, hbind⟩ (ih.mp hrest)
      · intro h
        cases h with
        | cons hfirst hmore =>
            next attempt more =>
            rw [choose_cons_of_error hfirst.2, ih.mpr hmore, ← hfirst.1]
            rfl

theorem firstBinds_zero (h : first.bind arguments = .ok bound) (rest : List Overload) :
    FirstBinds (first :: rest) arguments 0 first bound := by
  refine ⟨rfl, h, ?_⟩
  intro j hj
  exact absurd hj (Nat.not_lt_zero j)

theorem FirstBinds.succ {i : Nat} (h : FirstBinds rest arguments i o bound)
    (hfirst : first.Refuses arguments) :
    FirstBinds (first :: rest) arguments (i + 1) o bound := by
  refine ⟨h.found, h.binds, ?_⟩
  intro j hj before hmem
  cases j with
  | zero =>
      cases hmem
      exact hfirst
  | succ j => exact h.earlier j (Nat.lt_of_succ_lt_succ hj) before hmem

theorem FirstBinds.tail {i : Nat} (h : FirstBinds (first :: rest) arguments (i + 1) o bound) :
    first.Refuses arguments ∧ FirstBinds rest arguments i o bound := by
  refine ⟨h.earlier 0 (Nat.succ_pos i) first rfl, h.found, h.binds, ?_⟩
  intro j hj
  exact h.earlier (j + 1) (Nat.succ_lt_succ hj)

theorem exists_firstBinds_of_choose (h : choose overloads arguments = .ok (o, bound)) :
    ∃ i, FirstBinds overloads arguments i o bound := by
  induction overloads with
  | nil => cases h
  | cons first rest ih =>
      cases hbind : first.bind arguments with
      | ok found =>
          rw [choose_cons_of_ok hbind] at h
          cases h
          exact ⟨0, firstBinds_zero hbind rest⟩
      | error cause =>
          rw [choose_cons_of_error hbind] at h
          cases hrest : choose rest arguments with
          | ok chosen =>
              rw [hrest] at h
              cases h
              rcases ih hrest with ⟨i, hi⟩
              exact ⟨i + 1, hi.succ ⟨cause, hbind⟩⟩
          | error attempts =>
              rw [hrest] at h
              cases h

theorem choose_of_firstBinds {i : Nat} (h : FirstBinds overloads arguments i o bound) :
    choose overloads arguments = .ok (o, bound) := by
  induction overloads generalizing i with
  | nil => cases h.found
  | cons first rest ih =>
      cases i with
      | zero =>
          cases h.found
          exact choose_cons_of_ok h.binds rest
      | succ i =>
          rcases h.tail with ⟨⟨cause, hcause⟩, hrest⟩
          rw [choose_cons_of_error hcause, ih hrest]
          rfl

end

theorem exists_refusesAll_iff {overloads : List Overload} {arguments : List Argument} :
    (∃ attempts, RefusesAll overloads arguments attempts) ↔
      ∀ o ∈ overloads, o.Refuses arguments := by
  constructor
  · intro h o ho
    rcases h with ⟨attempts, hattempts⟩
    rcases ValueKind.exists_of_mem_left hattempts o ho with ⟨attempt, _, _, hcause⟩
    exact ⟨attempt.2, hcause⟩
  · intro h
    induction overloads with
    | nil => exact ⟨[], .nil⟩
    | cons o rest ih =>
        rcases h o List.mem_cons_self with ⟨cause, hcause⟩
        rcases ih fun p hp => h p (List.mem_cons_of_mem o hp) with ⟨attempts, hattempts⟩
        exact ⟨(o.selector, cause) :: attempts, .cons ⟨rfl, hcause⟩ hattempts⟩

end Operation

/-!
## Decoded modifiers
-/

namespace RustSource

theorem length_fieldNames (o : Overload) : (fieldNames o).length = o.parameters.length := by
  have hfold : ∀ (names fields : List String),
      (names.foldl addField fields).length = fields.length + names.length := by
    intro names
    induction names with
    | nil => simp
    | cons name names ih =>
        intro fields
        rw [List.foldl_cons, ih, addField]
        simp only [List.length_append, List.length_cons, List.length_nil]
        omega
  unfold fieldNames
  rw [hfold]
  simp

end RustSource

namespace Operation

def IsIndexed (op : Operation) : Prop :=
  ∀ (i : Nat) (o : Overload), op.overloads[i]? = some o → o.index = i

/-- The modifier names the first overload that binds the arguments, and has what it binds. -/
structure Chooses (op : Operation) (arguments : List Argument) (m : Invocation) (o : Overload) :
    Prop where
  operation_eq : m.operation = op.name
  first : FirstBinds op.overloads arguments m.index o m.arguments
  selector_eq : m.selector = o.selector
  availability_eq : m.availability = o.availability
  /-- There is an argument for each parameter, at its position. -/
  names_eq : (m.arguments.map fun a => (a.name, a.label)) =
    o.parameters.map fun p => (p.name, p.label)
  /-- There is an argument at each position that the emitted conversion reads. -/
  fields_eq : (RustSource.fieldNames o).length = m.arguments.length

theorem decode_eq_ok_iff {op : Operation} (hindexed : op.IsIndexed) {arguments : List Argument}
    {m : Invocation} : op.decode arguments = .ok m ↔ ∃ o, op.Chooses arguments m o := by
  unfold decode
  constructor
  · intro h
    split at h
    · next o bound hchoose =>
        cases h
        rcases exists_firstBinds_of_choose hchoose with ⟨i, hfirst⟩
        rcases ParameterDecoder.bindAll_eq_ok_iff.mp hfirst.binds with ⟨blocks, _, hassigns⟩
        have hlength := congrArg List.length hassigns.names_eq
        rw [List.length_map, List.length_map] at hlength
        refine ⟨o, rfl, ?_, rfl, rfl, hassigns.names_eq, ?_⟩
        · rw [hindexed i o hfirst.found]
          exact hfirst
        · rw [RustSource.length_fieldNames, hlength]
    · cases h
  · intro h
    rcases h with ⟨o, hchooses⟩
    rw [choose_of_firstBinds hchooses.first]
    show Except.ok (⟨op.name, o.index, o.selector, m.arguments, o.availability⟩ : Invocation) =
      Except.ok m
    rw [hindexed _ o hchooses.first.found, ← hchooses.operation_eq, ← hchooses.selector_eq,
      ← hchooses.availability_eq]

theorem decode_eq_noOverload_iff {op : Operation} {arguments : List Argument} {name : String}
    {attempts : List (String × BindError)} :
    op.decode arguments = .error (.noOverload name attempts) ↔
      name = op.name ∧ RefusesAll op.overloads arguments attempts := by
  rw [← choose_eq_error_iff]
  unfold decode
  cases choose op.overloads arguments with
  | ok chosen => exact ⟨nofun, nofun⟩
  | error found =>
      constructor
      · intro h
        cases h
        exact ⟨rfl, rfl⟩
      · intro h
        rcases h with ⟨rfl, h⟩
        cases h
        rfl

theorem decode_eq_or (op : Operation) (arguments : List Argument) :
    (∃ m, op.decode arguments = .ok m) ∨
      ∃ attempts, op.decode arguments = .error (.noOverload op.name attempts) := by
  unfold decode
  cases choose op.overloads arguments with
  | ok chosen => exact Or.inl ⟨_, rfl⟩
  | error attempts => exact Or.inr ⟨attempts, rfl⟩

theorem isIndexed_ofSet (c : Configuration) (set : OverloadSet) : (ofSet c set).IsIndexed := by
  intro i o h
  unfold ofSet at h
  dsimp only at h
  rw [List.getElem?_map, List.getElem?_zipIdx] at h
  rcases Option.map_eq_some_iff.mp h with ⟨⟨s, place⟩, hpair, rfl⟩
  rcases Option.map_eq_some_iff.mp hpair with ⟨signature, _, heq⟩
  cases heq
  exact Nat.zero_add i

theorem overloads_ofSet_ne_nil (c : Configuration) {set : OverloadSet}
    (h : set.signatures ≠ []) : (ofSet c set).overloads ≠ [] := by
  intro hnil
  have hlength := congrArg List.length hnil
  unfold ofSet at hlength
  dsimp only at hlength
  rw [List.length_map, List.length_zipIdx] at hlength
  exact h (List.eq_nil_of_length_eq_zero hlength)

end Operation

/-!
## Tables
-/

namespace DispatchTable

/-- An operation is found under its own name, has overloads, and these know their places. -/
structure WellFormed (t : DispatchTable) : Prop where
  name_eq : ∀ name op, t.find? name = some op → op.name = name
  overloads_ne_nil : ∀ name op, t.find? name = some op → op.overloads ≠ []
  isIndexed : ∀ name op, t.find? name = some op → op.IsIndexed

inductive Dispatches (t : DispatchTable) :
    Except ReadError ModifierCall → Except ModifierError Invocation → Prop where
  | unreadable {cause : ReadError} : Dispatches t (.error cause) (.error (.unreadable cause))
  | unknown {call : ModifierCall} : t.find? call.name = none →
      Dispatches t (.ok call) (.error (.unknownOperation call.name))
  | chosen {call : ModifierCall} {op : Operation} {o : Overload} {m : Invocation} :
      t.find? call.name = some op → op.Chooses call.arguments m o → Dispatches t (.ok call) (.ok m)
  | refused {call : ModifierCall} {op : Operation} {attempts : List (String × BindError)} :
      t.find? call.name = some op → Operation.RefusesAll op.overloads call.arguments attempts →
      Dispatches t (.ok call) (.error (.noOverload op.name attempts))

section
variable {t : DispatchTable}

theorem decodeCall_of_find? {call : ModifierCall} {op : Operation}
    (h : t.find? call.name = some op) : t.decodeCall call = op.decode call.arguments := by
  unfold decodeCall operation
  rw [h]
  rfl

theorem decodeCall_of_find?_none {call : ModifierCall} (h : t.find? call.name = none) :
    t.decodeCall call = .error (.unknownOperation call.name) := by
  unfold decodeCall operation
  rw [h]
  rfl

theorem dispatches_decodeCall (ht : t.WellFormed) (call : ModifierCall) :
    t.Dispatches (.ok call) (t.decodeCall call) := by
  cases hfind : t.find? call.name with
  | none =>
      rw [decodeCall_of_find?_none hfind]
      exact .unknown hfind
  | some op =>
      rw [decodeCall_of_find? hfind]
      rcases op.decode_eq_or call.arguments with ⟨m, hm⟩ | ⟨attempts, hattempts⟩
      · rcases (Operation.decode_eq_ok_iff (ht.isIndexed _ op hfind)).mp hm with ⟨o, hchooses⟩
        rw [hm]
        exact .chosen hfind hchooses
      · rw [hattempts]
        exact .refused hfind (Operation.decode_eq_noOverload_iff.mp hattempts).2

theorem decodeCall_of_dispatches (ht : t.WellFormed) {call : ModifierCall}
    {outcome : Except ModifierError Invocation} (h : t.Dispatches (.ok call) outcome) :
    t.decodeCall call = outcome := by
  cases h with
  | unknown hfind => exact decodeCall_of_find?_none hfind
  | chosen hfind hchooses =>
      rw [decodeCall_of_find? hfind]
      exact (Operation.decode_eq_ok_iff (ht.isIndexed _ _ hfind)).mpr ⟨_, hchooses⟩
  | refused hfind hrefuses =>
      rw [decodeCall_of_find? hfind]
      exact Operation.decode_eq_noOverload_iff.mpr ⟨rfl, hrefuses⟩

theorem decodeList_eq_iff (ht : t.WellFormed) (source : String)
    (outcomes : List (Except ModifierError Invocation)) :
    t.decodeList source = outcomes ↔
      List.Forall₂ t.Dispatches (ModifierCall.readList source) outcomes := by
  unfold decodeList
  constructor
  · rintro rfl
    rw [List.forall₂_map_right_iff, List.forall₂_same]
    intro slot _
    cases slot with
    | error cause => exact .unreadable
    | ok call => exact dispatches_decodeCall ht call
  · intro h
    generalize ModifierCall.readList source = slots at h ⊢
    induction h with
    | nil => rfl
    | cons hfirst _ ih =>
        next slot outcome slots outcomes _ =>
        rw [List.map_cons, ih]
        congr 1
        cases slot with
        | error cause =>
            cases hfirst
            rfl
        | ok call => exact decodeCall_of_dispatches ht hfirst

end

end DispatchTable

/-!
## Compiled tables
-/

namespace Compilation

theorem table_ofInterface (c : Configuration) (wanted : Option (List String)) (source : String) :
    (ofInterface c wanted source).table = .ofSets c
      (Overloads.ofSignatures ⟨c.excluded.keys, wanted⟩
        (Interface.extract c.targets source).1).sets := by
  unfold ofInterface
  rcases Interface.extract c.targets source with ⟨signatures, scanned⟩
  rfl

theorem exists_of_find? {c : Configuration} {wanted : Option (List String)}
    {source name : String} {op : Operation}
    (h : (ofInterface c wanted source).table.find? name = some op) :
    ∃ set signatures, op = .ofSet c set ∧ set.name = name ∧ set.signatures ≠ [] ∧
      Overloads.Survives ⟨c.excluded.keys, wanted⟩ name signatures := by
  rw [table_ofInterface] at h
  rcases DispatchTable.exists_of_find?_ofSets h with ⟨set, hset, hop, hname⟩
  rcases Overloads.survives_of_mem_sets hset with ⟨hsurvives, hsignatures⟩
  rw [hname] at hsurvives
  exact ⟨set, _, hop, hname, hsignatures, hsurvives⟩

theorem wellFormed_table (c : Configuration) (wanted : Option (List String)) (source : String) :
    (ofInterface c wanted source).table.WellFormed := by
  constructor
  · intro name op h
    rcases exists_of_find? h with ⟨set, _, rfl, hname, _⟩
    exact hname
  · intro name op h
    rcases exists_of_find? h with ⟨set, _, rfl, _, hsignatures, _⟩
    exact Operation.overloads_ofSet_ne_nil c hsignatures
  · intro name op h
    rcases exists_of_find? h with ⟨set, _, rfl, _⟩
    exact Operation.isIndexed_ofSet c set

/--
The table of an interface is well-formed and has no operation that is left out,
and the outcomes of every list of modifiers are those of an ordered choice among
the overloads of each operation.  In particular a modifier of a known operation
is refused for want of an overload if and only if every overload refuses it.
-/
theorem dispatches_in_order (c : Configuration) (wanted : Option (List String))
    (source : String) :
    let t := (ofInterface c wanted source).table
    t.WellFormed ∧
      (∀ name op, t.find? name = some op →
        name.toList.head? ≠ some '_' ∧ name ∉ c.excluded.keys ∧
          ∀ names, wanted = some names → name ∈ names) ∧
      (∀ text outcomes, t.decodeList text = outcomes ↔
        List.Forall₂ t.Dispatches (ModifierCall.readList text) outcomes) ∧
      ∀ call op, t.find? call.name = some op →
        ((∃ attempts, t.decodeCall call = .error (.noOverload op.name attempts)) ↔
          ∀ o ∈ op.overloads, o.Refuses call.arguments) := by
  intro t
  have ht : t.WellFormed := wellFormed_table c wanted source
  refine ⟨ht, ?_, ?_, ?_⟩
  · intro name op h
    rcases exists_of_find? h with ⟨_, _, _, _, _, hsurvives⟩
    exact ⟨hsurvives.not_reserved, hsurvives.not_configured, hsurvives.wanted⟩
  · exact t.decodeList_eq_iff ht
  · intro call op hfind
    rw [DispatchTable.decodeCall_of_find? hfind, ← Operation.exists_refusesAll_iff]
    constructor
    · intro h
      rcases h with ⟨attempts, hattempts⟩
      exact ⟨attempts, (Operation.decode_eq_noOverload_iff.mp hattempts).2⟩
    · intro h
      rcases h with ⟨attempts, hattempts⟩
      exact ⟨attempts, Operation.decode_eq_noOverload_iff.mpr ⟨rfl, hattempts⟩⟩

end Compilation
end ViewModifiers
