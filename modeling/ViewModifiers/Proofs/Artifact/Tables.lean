import ViewModifiers.Artifact.Tables
import ViewModifiers.Proofs.Artifact.Values
import ViewModifiers.Proofs.Dictionary

/-!
# Stored tables

The tree of a table is read as the table, and so is its text, if the numbers in
the table have the sizes of their fields and no default holds a fraction.
-/

namespace ViewModifiers

/-!
## Defaults
-/

def Overload.defaults (o : Overload) : List Value :=
  o.parameters.filterMap ParameterDecoder.default

def Operation.defaults (op : Operation) : List Value :=
  op.overloads.flatMap Overload.defaults

def DispatchTable.defaults (t : DispatchTable) : List Value :=
  t.operations.values.flatMap Operation.defaults

/-!
## Overloads
-/

namespace ParameterDecoder

def InRange (p : ParameterDecoder) : Prop :=
  ∀ v, p.default = some v → v.InRange

variable {p : ParameterDecoder}

theorem ofJson?_toJson (h : p.InRange) (hfloat : ∀ v, p.default = some v → v.hasFloat = false) :
    ofJson? p.toJson = some p := by
  obtain ⟨name, label, kind, declaredType, default, isVariadic⟩ := p
  cases default with
  | none =>
      have hread : ofJson? (toJson ⟨name, label, kind, declaredType, none, isVariadic⟩) = do
          return ⟨name, label, ← ValueKind.ofJson? kind.toJson, declaredType, none,
            isVariadic⟩ := by
        cases label <;> rfl
      rw [hread, ValueKind.ofJson?_toJson]
      rfl
  | some v =>
      have hread : ofJson? (toJson ⟨name, label, kind, declaredType, some v, isVariadic⟩) = do
          return ⟨name, label, ← ValueKind.ofJson? kind.toJson, declaredType,
            ← (Value.ofJson? v.toJson).map some, isVariadic⟩ := by
        obtain ⟨members, hv⟩ := v.exists_toJson_eq_object
        rw [toJson, Reference.optionalMember, hv]
        cases label <;> rfl
      rw [hread, ValueKind.ofJson?_toJson, Value.ofJson?_toJson (h v rfl) (hfloat v rfl)]
      rfl

theorem exact_toJson (h : p.InRange) (hfloat : ∀ v, p.default = some v → v.hasFloat = false) :
    p.toJson.Exact := by
  have hlabel : (p.label.elim .null .string : Json).Exact := by
    cases p.label with
    | none => exact .null
    | some label => exact .string
  refine .append (.append ?_ ?_) ?_
  · exact .object (by simp [Json.Exact.string, hlabel, p.kind.exact_toJson])
  · cases hdefault : p.default with
    | none => exact .object nofun
    | some v =>
        have hv := Value.exact_toJson (h v hdefault) (hfloat v hdefault)
        exact .object (by simp [Reference.optionalMember, hv])
  · exact .object (by simp [Json.Exact.bool])

end ParameterDecoder

namespace Overload

structure InRange (o : Overload) : Prop where
  index : o.index < Nat.pow 2 64
  line : o.line < Nat.pow 2 32
  parameters : ∀ p ∈ o.parameters, p.InRange
  availability : o.availability.InRange

variable {o : Overload}

theorem ofJson?_toJson (h : o.InRange) (hfloat : ∀ v ∈ o.defaults, v.hasFloat = false) :
    ofJson? o.toJson = some o := by
  have hread : ofJson? o.toJson = do
      return ⟨← Json.nat64? (.int o.index), o.selector,
        ← Json.listOf? ParameterDecoder.ofJson? (.array (o.parameters.map ParameterDecoder.toJson)),
        ← Availability.ofJson? o.availability.toJson, ← Json.nat32? (.int o.line)⟩ := rfl
  have hparameters : Json.listOf? ParameterDecoder.ofJson?
      (.array (o.parameters.map ParameterDecoder.toJson)) = some o.parameters :=
    Json.listOf?_array fun p hp => ParameterDecoder.ofJson?_toJson (h.parameters p hp)
      fun v hv => hfloat v (List.mem_filterMap.mpr ⟨p, hp, hv⟩)
  rw [hread, Json.nat64?_int h.index, hparameters, Availability.ofJson?_toJson h.availability,
    Json.nat32?_int h.line]
  rfl

theorem exact_toJson (h : o.InRange) (hfloat : ∀ v ∈ o.defaults, v.hasFloat = false) :
    o.toJson.Exact := by
  have hparameters : (Json.array (o.parameters.map ParameterDecoder.toJson)).Exact :=
    .list fun p hp => ParameterDecoder.exact_toJson (h.parameters p hp)
      fun v hv => hfloat v (List.mem_filterMap.mpr ⟨p, hp, hv⟩)
  have hline : o.line < Nat.pow 2 64 := Nat.lt_trans h.line (by decide)
  exact .object (by simp [Json.Exact.string, Json.Exact.nat h.index, Json.Exact.nat hline,
    hparameters, o.availability.exact_toJson])

end Overload

namespace Operation

def InRange (op : Operation) : Prop :=
  ∀ o ∈ op.overloads, o.InRange

variable {op : Operation}

theorem ofJson?_toJson (h : op.InRange) (hfloat : ∀ v ∈ op.defaults, v.hasFloat = false) :
    ofJson? op.toJson = some op := by
  have hread : ofJson? op.toJson = do
      return ⟨op.name,
        ← Json.listOf? Overload.ofJson? (.array (op.overloads.map Overload.toJson))⟩ := rfl
  have hoverloads : Json.listOf? Overload.ofJson? (.array (op.overloads.map Overload.toJson)) =
      some op.overloads :=
    Json.listOf?_array fun o ho => Overload.ofJson?_toJson (h o ho)
      fun v hv => hfloat v (List.mem_flatMap.mpr ⟨o, ho, hv⟩)
  rw [hread, hoverloads]
  rfl

theorem exact_toJson (h : op.InRange) (hfloat : ∀ v ∈ op.defaults, v.hasFloat = false) :
    op.toJson.Exact := by
  have hoverloads : (Json.array (op.overloads.map Overload.toJson)).Exact :=
    .list fun o ho => Overload.exact_toJson (h o ho)
      fun v hv => hfloat v (List.mem_flatMap.mpr ⟨o, ho, hv⟩)
  exact .object (by simp [Json.Exact.string, hoverloads])

end Operation

/-!
## Tables
-/

namespace DispatchTable

def InRange (t : DispatchTable) : Prop :=
  ∀ e ∈ t.operations.entries, e.2.InRange

variable {t : DispatchTable}

theorem ofJson?_toJson (h : t.InRange) (hfloat : ∀ v ∈ t.defaults, v.hasFloat = false) :
    ofJson? t.toJson = some (format, t) := by
  have hread : ofJson? t.toJson = do
      return (format, ⟨t.configurationVersion,
        ← operationsOfJson? (.object (t.operations.entries.map fun e => (e.1, e.2.toJson)))⟩) := rfl
  have hentries : (t.operations.entries.map fun e => (e.1, e.2.toJson)).mapM
      (fun m => (Operation.ofJson? m.2).map fun op => (m.1, op)) =
        some (t.operations.entries.map id) :=
    Json.mapM_map_eq_some fun e he => by
      rw [Operation.ofJson?_toJson (h e he)]
      · rfl
      · exact fun v hv => hfloat v (List.mem_flatMap.mpr ⟨e.2, List.mem_map_of_mem he, hv⟩)
  have hoperations : operationsOfJson?
      (.object (t.operations.entries.map fun e => (e.1, e.2.toJson))) = some t.operations := by
    have hread : operationsOfJson?
        (.object (t.operations.entries.map fun e => (e.1, e.2.toJson))) = do
      return .ofList (← (t.operations.entries.map fun e => (e.1, e.2.toJson)).mapM
        (fun m => (Operation.ofJson? m.2).map fun op => (m.1, op))) := rfl
    rw [hread, hentries, List.map_id]
    exact congrArg some t.operations.ofList_entries
  rw [hread, hoperations]
  rfl

theorem exact_toJson (h : t.InRange) (hfloat : ∀ v ∈ t.defaults, v.hasFloat = false) :
    t.toJson.Exact := by
  have hoperations :
      (Json.object (t.operations.entries.map fun e => (e.1, e.2.toJson))).Exact := by
    refine .object fun m hm => ?_
    obtain ⟨e, he, rfl⟩ := List.mem_map.mp hm
    exact Operation.exact_toJson (h e he)
      fun v hv => hfloat v (List.mem_flatMap.mpr ⟨e.2, List.mem_map_of_mem he, hv⟩)
  have hformat : (Json.int format).Exact := Json.Exact.nat (n := format) (by decide)
  exact .object (by simp [Json.Exact.string, hformat, hoperations])

theorem read_of_tree (h : t.InRange) (hfloat : ∀ v ∈ t.defaults, v.hasFloat = false)
    {text : String} (htext : Json.read? text = some t.toJson) : read text = .ok t := by
  unfold read
  rw [htext, Option.bind_some, ofJson?_toJson h hfloat]
  rfl

/-- The stored text of a table is read as its tree, if that is not too deep. -/
theorem read?_text (h : t.InRange) (hfloat : ∀ v ∈ t.defaults, v.hasFloat = false)
    (hdepth : t.toJson.nesting ≤ Json.depthLimit) : Json.read? t.text = some t.toJson :=
  Json.read?_pretty (exact_toJson h hfloat) hdepth

end DispatchTable
end ViewModifiers
