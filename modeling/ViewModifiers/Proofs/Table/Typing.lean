import ViewModifiers.Proofs.Live.Dependence
import ViewModifiers.Proofs.Value.Conformance
import ViewModifiers.Table.Compilation

/-!
# Types of arguments

A parameter binds a constant of its kind, a reference that its kind admits, or
its declared default, which need not have decoded.  On an element such a binding
has a value of the kind, the default, or what the element itself provides.  The
one exception are cells: a cell that a binding finds holds whatever was written
to it.
-/

namespace ViewModifiers

namespace ParameterDecoder

inductive Accepts (p : ParameterDecoder) : Reference → Prop where
  | items {items : List Value} : p.isVariadic = true → (∀ v ∈ items, p.kind.Conforms v) →
      Accepts p (.constant (.array items))
  | given {r : Reference} : p.isVariadic = false → p.kind.Admits r →
      Accepts p (r.withDefault p.default)
  | fallback {v : Value} : p.isVariadic = false → p.default = some v → Accepts p (.constant v)

/-!
## Binding
-/

theorem takeMany_conforms {k : ValueKind} {label : Option String} {arguments : List Argument} :
    ∀ v ∈ (takeMany k label arguments).1, k.Conforms v := by
  induction arguments generalizing label with
  | nil => exact nofun
  | cons a rest ih =>
      unfold takeMany
      split
      · split
        · next w hdecode =>
            intro v hv
            rcases List.mem_cons.mp hv with hv | hv
            · subst hv
              exact ValueKind.decodeConstant_conforms hdecode
            · exact ih v hv
        · exact nofun
      · exact nofun

theorem fallback_accepts {p : ParameterDecoder} {failure : BindError} {α : Type} {rest left : α}
    {r : Reference} (hvariadic : p.isVariadic = false)
    (h : (p.fallback failure).map (fun r => (r, rest)) = .ok (r, left)) : p.Accepts r := by
  rcases exists_of_map_eq_ok h with ⟨r', hfallback, hr⟩
  cases hr
  unfold fallback at hfallback
  split at hfallback
  · next v hdefault =>
      cases hfallback
      exact .fallback hvariadic hdefault
  · cases hfallback

theorem takeOne_accepts {p : ParameterDecoder} {arguments left : List Argument} {r : Reference}
    (hvariadic : p.isVariadic = false) (h : p.takeOne arguments = .ok (r, left)) :
    p.Accepts r := by
  cases arguments with
  | nil => exact fallback_accepts hvariadic h
  | cons a rest =>
      rw [takeOne] at h
      split at h
      · split at h
        · next hdecode =>
            cases h
            exact .given hvariadic (ValueKind.decodeArgument_admits hdecode)
        · exact fallback_accepts hvariadic h
      · exact fallback_accepts hvariadic h

theorem take_accepts {p : ParameterDecoder} {arguments left : List Argument} {r : Reference}
    (h : p.take arguments = .ok (r, left)) : p.Accepts r := by
  unfold take at h
  split at h
  · next hvariadic =>
      cases h
      exact .items hvariadic takeMany_conforms
  · next hvariadic => exact takeOne_accepts (Bool.eq_false_iff.mpr hvariadic) h

structure Binds (p : ParameterDecoder) (a : BoundArgument) : Prop where
  name_eq : a.name = p.name
  label_eq : a.label = p.label
  accepts : p.Accepts a.reference

theorem bindAll_binds {ps : List ParameterDecoder} {arguments : List Argument}
    {bound : List BoundArgument} (h : bindAll ps arguments = .ok bound) :
    List.Forall₂ Binds ps bound := by
  induction ps generalizing arguments bound with
  | nil =>
      cases arguments with
      | nil =>
          cases h
          exact .nil
      | cons a rest => cases h
  | cons p ps ih =>
      unfold bindAll at h
      rcases exists_of_bind_eq_ok h with ⟨⟨r, left⟩, htake, h⟩
      rcases exists_of_bind_eq_ok h with ⟨more, hmore, h⟩
      cases h
      exact .cons ⟨rfl, rfl, take_accepts htake⟩ (ih hmore)

/-!
## Values on an element
-/

/-- The default conforms to the kind of the parameter unless it did not decode. -/
def DefaultConforms (p : ParameterDecoder) : Prop :=
  ∀ v, p.default = some v → p.kind.Conforms v ∨ ∃ source, v = .verbatim source

/-- What the argument of a parameter may be on an element, with the cells there are. -/
inductive Yields (p : ParameterDecoder) (e : Element) (cells : CellStore) : Value → Prop where
  | items {items : List Value} : p.isVariadic = true → (∀ v ∈ items, p.kind.Conforms v) →
      Yields p e cells (.array items)
  | conforming {v : Value} : p.isVariadic = false → p.kind.Conforms v → Yields p e cells v
  | verbatim {source : String} : p.default = some (.verbatim source) →
      Yields p e cells (.verbatim source)
  | event {handler : String} : p.kind.base = .event → Yields p e cells (.event ⟨e.id, handler⟩)
  | views {selector : Selector} : p.kind.base = .view →
      Yields p e cells (.views (e.childrenSelectedBy selector))
  | fresh {inner : ValueKind} {name : String} {v : Value} : p.kind.base = .binding inner →
      cells.find? ⟨e.id, name⟩ = none → inner.Conforms v →
      Yields p e cells (.binding ⟨e.id, name⟩ v)
  | shared {inner : ValueKind} {name : String} {c : Cell} : p.kind.base = .binding inner →
      cells.find? ⟨e.id, name⟩ = some c → Yields p e cells (.binding ⟨e.id, name⟩ c.read)

section
variable {p : ParameterDecoder} {e : Element} {cells after : CellStore} {v : Value}

theorem yields_of_default (hdefault : p.DefaultConforms) (hvariadic : p.isVariadic = false)
    (h : p.default = some v) : p.Yields e cells v := by
  rcases hdefault v h with hv | ⟨source, hv⟩
  · exact .conforming hvariadic hv
  · subst hv
    exact .verbatim h

theorem attributeOfKind_conforms {name : String} {k : ValueKind}
    (h : e.attributeOfKind name k = .ok v) : k.Conforms v := by
  unfold Element.attributeOfKind at h
  split at h
  · cases h
  · split at h
    · next hdecode =>
        cases h
        exact ValueKind.decodeRaw_conforms hdecode
    · cases h

theorem yields_of_admits {r : Reference} (hdefault : p.DefaultConforms)
    (hvariadic : p.isVariadic = false) (hr : p.kind.Admits r)
    (h : (r.withDefault p.default).resolve e cells = (.ok v, after)) : p.Yields e cells v := by
  cases hr with
  | constant hv =>
      cases h
      exact .conforming hvariadic hv
  | attributeValue haccepts =>
      have hvalue := congrArg Prod.fst h
      change e.attributeOrDefault _ p.kind p.default = .ok v at hvalue
      unfold Element.attributeOrDefault at hvalue
      split at hvalue
      · next hpresent =>
          cases hvalue
          exact yields_of_default hdefault hvariadic hpresent
      · exact .conforming hvariadic (attributeOfKind_conforms hvalue)
  | event hbase =>
      cases h
      exact .event hbase
  | viewSlot hbase =>
      cases h
      exact .views hbase
  | tracked hbase =>
      next name inner =>
      have hvalue := congrArg Prod.fst h
      change ((cells.getOrCreate ⟨e.id, name⟩ (e.attributeOfKind name inner)).1.map
        (Value.binding ⟨e.id, name⟩)) = .ok v at hvalue
      cases hfind : cells.find? ⟨e.id, name⟩ with
      | some c =>
          rw [CellStore.getOrCreate_of_some hfind] at hvalue
          cases hvalue
          exact .shared hbase hfind
      | none =>
          rw [CellStore.getOrCreate_of_none hfind] at hvalue
          cases hseed : e.attributeOfKind name inner with
          | error cause =>
              rw [hseed] at hvalue
              cases hvalue
          | ok w =>
              rw [hseed] at hvalue
              cases hvalue
              exact .fresh hbase hfind (attributeOfKind_conforms hseed)

theorem yields_of_accepts {r : Reference} (hdefault : p.DefaultConforms) (hr : p.Accepts r)
    (h : r.resolve e cells = (.ok v, after)) : p.Yields e cells v := by
  cases hr with
  | items hvariadic hitems =>
      cases h
      exact .items hvariadic hitems
  | given hvariadic hadmits => exact yields_of_admits hdefault hvariadic hadmits h
  | fallback hvariadic hpresent =>
      cases h
      exact yields_of_default hdefault hvariadic hpresent

end

end ParameterDecoder

/-!
## Values of a whole modifier

Resolving the arguments of a modifier adds cells to the store, each with a value
of its attribute, and changes none.
-/

def CellStore.Grown (e : Element) (cells grown : CellStore) : Prop :=
  ∀ id, grown.find? id = cells.find? id ∨
    cells.find? id = none ∧ id.element = e.id ∧
      ∃ k v, e.attributeOfKind id.attributeName k = .ok v ∧ grown.find? id = some (.fresh v)

theorem CellStore.Grown.refl (e : Element) (cells : CellStore) : CellStore.Grown e cells cells :=
  fun _ => Or.inl rfl

theorem CellStore.Grown.resolve {e : Element} {cells grown : CellStore}
    (h : CellStore.Grown e cells grown) (r : Reference) :
    CellStore.Grown e cells (r.resolve e grown).2 := by
  cases r with
  | tracked name k =>
      change CellStore.Grown e cells
        (grown.getOrCreate ⟨e.id, name⟩ (e.attributeOfKind name k)).2
      cases hfind : grown.find? ⟨e.id, name⟩ with
      | some c =>
          rw [CellStore.getOrCreate_of_some hfind]
          exact h
      | none =>
          rw [CellStore.getOrCreate_of_none hfind]
          cases hseed : e.attributeOfKind name k with
          | error cause => exact h
          | ok v =>
              intro id
              rw [CellStore.find?_add]
              by_cases hid : id = ⟨e.id, name⟩
              · subst hid
                rw [if_pos rfl]
                refine Or.inr ⟨?_, rfl, k, v, hseed, rfl⟩
                rcases h ⟨e.id, name⟩ with hsame | ⟨hnone, _⟩
                · rw [← hsame, hfind]
                · exact hnone
              · rw [if_neg hid]
                exact h id
  | _ => exact h

namespace ParameterDecoder

structure YieldsAfter (e : Element) (cells : CellStore) (p : ParameterDecoder)
    (a : ResolvedArgument) : Prop where
  name_eq : a.name = p.name
  label_eq : a.label = p.label
  yields : ∃ before, CellStore.Grown e cells before ∧ p.Yields e before a.value

theorem resolveArguments_yields {e : Element} {ps : List ParameterDecoder}
    {bound : List BoundArgument} (hdefaults : ∀ p ∈ ps, p.DefaultConforms)
    (hbinds : List.Forall₂ Binds ps bound) {cells before after : CellStore}
    (hgrown : CellStore.Grown e cells before) {values : List ResolvedArgument}
    (h : resolveArguments e before bound = (.ok values, after)) :
    List.Forall₂ (YieldsAfter e cells) ps values := by
  induction hbinds generalizing before values with
  | nil =>
      cases h
      exact .nil
  | cons hfirst hrest ih =>
      next p a ps bound =>
      unfold resolveArguments at h
      cases hresolve : a.reference.resolve e before with
      | mk result middle =>
          have hmiddle := hgrown.resolve a.reference
          rw [hresolve] at h hmiddle
          cases result with
          | error cause => cases h
          | ok v =>
              dsimp only at h
              cases hmore : resolveArguments e middle bound with
              | mk results last =>
                  rw [hmore] at h
                  cases results with
                  | error cause => cases h
                  | ok more =>
                      cases h
                      have hdefault := hdefaults p List.mem_cons_self
                      refine .cons ⟨hfirst.name_eq, hfirst.label_eq, before, hgrown, ?_⟩ ?_
                      · exact yields_of_accepts hdefault hfirst.accepts hresolve
                      · apply ih _ hmiddle hmore
                        intro q hq
                        exact hdefaults q (List.mem_cons_of_mem p hq)

/-!
## Tables
-/

theorem defaultConforms_ofParameter (c : Configuration) (s : Signature) (p : Parameter) :
    (ofParameter c s p).DefaultConforms := by
  intro v hv
  rcases Option.map_eq_some_iff.mp hv with ⟨source, _, hsource⟩
  unfold defaultOf at hsource
  cases hdecode : (ValueKind.ofParameter c s p).decodeDefault source with
  | none =>
      rw [hdecode] at hsource
      exact Or.inr ⟨source, hsource.symm⟩
  | some w =>
      rw [hdecode] at hsource
      cases hsource
      exact Or.inl (ValueKind.decodeDefault_conforms hdecode)

end ParameterDecoder

theorem Operation.bind_of_choose {overloads : List Overload} {arguments : List Argument}
    {o : Overload} {bound : List BoundArgument}
    (h : choose overloads arguments = .ok (o, bound)) :
    o ∈ overloads ∧ o.bind arguments = .ok bound := by
  induction overloads with
  | nil => cases h
  | cons first rest ih =>
      unfold choose at h
      cases hbind : first.bind arguments with
      | ok found =>
          rw [hbind] at h
          cases h
          exact ⟨List.mem_cons_self, hbind⟩
      | error cause =>
          rw [hbind] at h
          cases hrest : choose rest arguments with
          | error causes =>
              rw [hrest] at h
              cases h
          | ok chosen =>
              rw [hrest] at h
              cases h
              rcases ih hrest with ⟨hmem, hbound⟩
              exact ⟨List.mem_cons_of_mem first hmem, hbound⟩

namespace DispatchTable

theorem find?_foldl_insert (c : Configuration) {sets : List OverloadSet} {t : DispatchTable}
    {name : String} {op : Operation}
    (h : (sets.foldl (fun t set => t.insert (.ofSet c set)) t).find? name = some op) :
    t.find? name = some op ∨ ∃ set ∈ sets, op = .ofSet c set ∧ set.name = name := by
  induction sets generalizing t with
  | nil => exact Or.inl h
  | cons set sets ih =>
      rcases ih h with hfirst | ⟨other, hother, hop⟩
      · change (t.operations.insert _ _).find? name = some op at hfirst
        rw [Dictionary.find?_insert] at hfirst
        split at hfirst
        · next hname =>
            cases hfirst
            exact Or.inr ⟨set, List.mem_cons_self, rfl, hname.symm⟩
        · exact Or.inl hfirst
      · exact Or.inr ⟨other, List.mem_cons_of_mem set hother, hop⟩

theorem exists_of_find?_ofSets {c : Configuration} {sets : List OverloadSet} {name : String}
    {op : Operation} (h : (ofSets c sets).find? name = some op) :
    ∃ set ∈ sets, op = .ofSet c set ∧ set.name = name := by
  rcases find?_foldl_insert c h with hempty | hset
  · change (Dictionary.empty : Dictionary Operation).find? name = some op at hempty
    rw [Dictionary.find?_empty] at hempty
    cases hempty
  · exact hset

/-- Each parameter of a compiled table has a default of its kind, or one that did not decode. -/
theorem defaultConforms_of_find? {c : Configuration} {sets : List OverloadSet} {name : String}
    {op : Operation} (h : (ofSets c sets).find? name = some op) :
    ∀ o ∈ op.overloads, ∀ p ∈ o.parameters, p.DefaultConforms := by
  rcases exists_of_find?_ofSets h with ⟨set, _, hop, _⟩
  subst hop
  intro o ho p hp
  rcases List.mem_map.mp ho with ⟨⟨s, i⟩, _, hsignature⟩
  subst hsignature
  rcases List.mem_map.mp hp with ⟨parameter, _, hparameter⟩
  subst hparameter
  exact ParameterDecoder.defaultConforms_ofParameter c s parameter

end DispatchTable

/-!
## Decoded modifiers
-/

/-- The modifier comes from an overload, and its arguments have the types of the parameters. -/
structure Overload.Types (o : Overload) (m : Invocation) : Prop where
  index_eq : m.index = o.index
  selector_eq : m.selector = o.selector
  defaults : ∀ p ∈ o.parameters, p.DefaultConforms
  binds : List.Forall₂ ParameterDecoder.Binds o.parameters m.arguments
  yields : ∀ (e : Element) (cells after : CellStore) (resolved : ResolvedModifier),
    m.resolve e cells = (.ok resolved, after) →
      List.Forall₂ (ParameterDecoder.YieldsAfter e cells) o.parameters resolved.arguments

theorem Operation.types_of_decode {op : Operation} {arguments : List Argument} {m : Invocation}
    (hdefaults : ∀ o ∈ op.overloads, ∀ p ∈ o.parameters, p.DefaultConforms)
    (h : op.decode arguments = .ok m) : ∃ o ∈ op.overloads, o.Types m := by
  unfold decode at h
  split at h
  · next o bound hchoose =>
      cases h
      rcases bind_of_choose hchoose with ⟨hmem, hbind⟩
      have hbinds := ParameterDecoder.bindAll_binds hbind
      refine ⟨o, hmem, rfl, rfl, hdefaults o hmem, hbinds, ?_⟩
      intro e cells after resolved hresolved
      unfold Invocation.resolve at hresolved
      split at hresolved
      · cases hresolved
      · next values _ hvalues =>
          cases hresolved
          exact ParameterDecoder.resolveArguments_yields (hdefaults o hmem) hbinds
            (CellStore.Grown.refl e cells) hvalues
  · cases h

namespace DispatchTable

/-- The decoded modifier comes from an overload of the operation of a name. -/
def Types (t : DispatchTable) (name : String) (m : Invocation) : Prop :=
  ∃ op, t.find? name = some op ∧ ∃ o ∈ op.overloads, o.Types m

section
variable {c : Configuration} {sets : List OverloadSet} {m : Invocation}

theorem find?_of_operation {t : DispatchTable} {name : String} {op : Operation}
    (h : t.operation name = .ok op) : t.find? name = some op := by
  unfold operation at h
  split at h
  · next hfind =>
      cases h
      exact hfind
  · cases h

theorem types_of_decodeCall {call : ModifierCall} (h : (ofSets c sets).decodeCall call = .ok m) :
    (ofSets c sets).Types call.name m := by
  rcases exists_of_bind_eq_ok h with ⟨op, hoperation, hdecode⟩
  have hfind := find?_of_operation hoperation
  exact ⟨op, hfind, Operation.types_of_decode (defaultConforms_of_find? hfind) hdecode⟩

theorem types_of_decode {name arguments : String}
    (h : (ofSets c sets).decode name arguments = .ok m) : (ofSets c sets).Types name m := by
  rcases exists_of_bind_eq_ok h with ⟨op, hoperation, h⟩
  rcases exists_of_bind_eq_ok h with ⟨read, _, hdecode⟩
  have hfind := find?_of_operation hoperation
  exact ⟨op, hfind, Operation.types_of_decode (defaultConforms_of_find? hfind) hdecode⟩

theorem types_of_mem_decodeList {source : String}
    (h : .ok m ∈ (ofSets c sets).decodeList source) : ∃ name, (ofSets c sets).Types name m := by
  rcases List.mem_map.mp h with ⟨slot, _, hslot⟩
  rcases exists_of_bind_eq_ok hslot with ⟨call, _, hcall⟩
  exact ⟨call.name, types_of_decodeCall hcall⟩

end

/--
Decoding is sound for the kinds of values.  Both decoders make values of the
kind that they are given; an argument is a constant in the same cases as an
expression without references; and the kind of an argument determines which
references it may be.  A modifier that a compiled table decodes, from a call,
from a name with the text of its arguments or in a list, binds the parameters of
an overload accordingly, and resolves to values of their types on every element.
-/
theorem decoding_conforms :
    (∀ (k : ValueKind) (e : Expression) (v : Value),
        k.decodeConstant e = .ok v → k.Conforms v) ∧
      (∀ (k : ValueKind) (e : Expression) (v : Value),
        k.decodeArgument e = .ok (.constant v) ↔ k.decodeConstant e = .ok v) ∧
      (∀ (k : ValueKind) (raw : RawValue) (v : Value),
        k.decodeRaw raw = .ok v → k.Conforms v) ∧
      (∀ (k : ValueKind) (e : Expression) (handler : String),
        k.decodeArgument e = .ok (.event handler) → k.base = .event) ∧
      (∀ (k : ValueKind) (e : Expression) (selector : Selector),
        k.decodeArgument e = .ok (.viewSlot selector) → k.base = .view) ∧
      (∀ (k : ValueKind) (e : Expression) (name : String) (inner : ValueKind),
        k.decodeArgument e = .ok (.tracked name inner) → k.base = .binding inner) ∧
      (∀ (k : ValueKind) (e : Expression) (name : String) (decoder : ValueKind)
        (default : Option Value),
        k.decodeArgument e = .ok (.attributeValue name decoder default) →
          decoder = k ∧ default = none ∧ k.acceptsAttribute = true) ∧
      ∀ (c : Configuration) (sets : List OverloadSet) (m : Invocation),
        (∀ call, (ofSets c sets).decodeCall call = .ok m → (ofSets c sets).Types call.name m) ∧
          (∀ name arguments, (ofSets c sets).decode name arguments = .ok m →
            (ofSets c sets).Types name m) ∧
          ∀ source, .ok m ∈ (ofSets c sets).decodeList source →
            ∃ name, (ofSets c sets).Types name m := by
  refine ⟨?_, ?_, ?_, ?_, ?_, ?_, ?_, ?_⟩
  · exact fun _ _ _ => ValueKind.decodeConstant_conforms
  · exact fun _ _ _ => ValueKind.decodeArgument_eq_constant_iff
  · exact fun _ _ _ => ValueKind.decodeRaw_conforms
  · intro k e handler h
    cases ValueKind.decodeArgument_admits h with
    | event hbase => exact hbase
  · intro k e selector h
    cases ValueKind.decodeArgument_admits h with
    | viewSlot hbase => exact hbase
  · intro k e name inner h
    cases ValueKind.decodeArgument_admits h with
    | tracked hbase => exact hbase
  · intro k e name decoder default h
    cases ValueKind.decodeArgument_admits h with
    | attributeValue haccepts => exact ⟨rfl, rfl, haccepts⟩
  · intro c sets m
    exact ⟨fun _ => types_of_decodeCall, fun _ _ => types_of_decode,
      fun _ => types_of_mem_decodeList⟩

end DispatchTable
end ViewModifiers
