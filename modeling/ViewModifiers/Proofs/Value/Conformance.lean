import ViewModifiers.Value.Decoding
import Mathlib.Data.List.Nodup

/-!
# Values of a kind

Two decoders make values of a kind, one from the expressions of arguments and
one from the texts of attributes.  Whatever they make conforms to the kind.  The
references that an argument may be decoded to are determined by the kind as
well.
-/

namespace ViewModifiers

theorem exists_of_bind_eq_ok {x : Except ε α} {f : α → Except ε β} {b : β}
    (h : (x >>= f) = .ok b) : ∃ a, x = .ok a ∧ f a = .ok b := by
  cases x with
  | error cause => cases h
  | ok a => exact ⟨a, rfl, h⟩

theorem exists_of_map_eq_ok {x : Except ε α} {f : α → β} {b : β} (h : x.map f = .ok b) :
    ∃ a, x = .ok a ∧ f a = b := by
  cases x with
  | error cause => cases h
  | ok a =>
      cases h
      exact ⟨a, rfl, rfl⟩

inductive ValueKind.Conforms : ValueKind → Value → Prop where
  | bool {b : Bool} : Conforms .bool (.bool b)
  | int {n : Int} : Conforms .int (.int n)
  | float {x : Float} : Conforms .float (.float x)
  | string {s : String} : Conforms .string (.string s)
  | text {s : String} : Conforms .text (.text s)
  | enumCase {name case : String} {cases : List String} :
      case ∈ cases → Conforms (.enumeration name cases false) (.enumCase name case)
  | optionSet {name : String} {cases found : List String} :
      (∀ case ∈ found, case ∈ cases) → found.Nodup →
        Conforms (.enumeration name cases true) (.optionSet name found)
  | nil {inner : ValueKind} : Conforms (.optional inner) .nil
  | present {inner : ValueKind} {v : Value} : Conforms inner v → Conforms (.optional inner) v
  | array {element : ValueKind} {items : List Value} :
      (∀ v ∈ items, Conforms element v) → Conforms (.array element) (.array items)
  | range {bound : ValueKind} {lower upper : Value} {closed : Bool} :
      Conforms bound lower → Conforms bound upper →
        Conforms (.range bound) (.range lower upper closed)
  | binding {inner : ValueKind} {v : Value} : Conforms inner v → Conforms (.binding inner) v
  | structural {name source : String} : Conforms (.structural name) (.structural source)

namespace ValueKind

theorem Conforms.of_base {k : ValueKind} {v : Value} (h : k.base.Conforms v) : k.Conforms v := by
  induction k with
  | optional inner ih => exact .present (ih h)
  | _ => exact h

/-!
## Lists that decode
-/

theorem exists_of_mem_left {α β : Type} {R : α → β → Prop} {as : List α} {bs : List β}
    (h : List.Forall₂ R as bs) : ∀ a ∈ as, ∃ b ∈ bs, R a b := by
  induction h with
  | nil => exact nofun
  | cons hfirst _ ih =>
      intro a ha
      rcases List.mem_cons.mp ha with rfl | ha
      · exact ⟨_, List.mem_cons_self, hfirst⟩
      · rcases ih a ha with ⟨b, hb, hab⟩
        exact ⟨b, List.mem_cons_of_mem _ hb, hab⟩

theorem exists_of_mem_right {α β : Type} {R : α → β → Prop} {as : List α} {bs : List β}
    (h : List.Forall₂ R as bs) : ∀ b ∈ bs, ∃ a ∈ as, R a b :=
  exists_of_mem_left h.flip

theorem forall₂_of_mapM {m : Type → Type} [Monad m] [LawfulMonad m] {α β : Type}
    {G : {γ : Type} → m γ → γ → Prop}
    (hpure : ∀ {γ : Type} {a b : γ}, G (pure a : m γ) b → b = a)
    (hbind : ∀ {γ δ : Type} {x : m γ} {f : γ → m δ} {b : δ},
      G (x >>= f) b → ∃ a, G x a ∧ G (f a) b)
    {f : α → m β} {as : List α} {bs : List β} (h : G (as.mapM f) bs) :
    List.Forall₂ (fun a b => G (f a) b) as bs := by
  induction as generalizing bs with
  | nil =>
      rw [hpure h]
      exact .nil
  | cons a as ih =>
      rw [List.mapM_cons] at h
      rcases hbind h with ⟨b, hb, h⟩
      rcases hbind h with ⟨bs', hbs, h⟩
      rw [hpure h]
      exact .cons hb (ih hbs)

theorem forall₂_of_mapM_ok {ε α β : Type} {f : α → Except ε β} {as : List α} {bs : List β}
    (h : as.mapM f = .ok bs) : List.Forall₂ (fun a b => f a = .ok b) as bs := by
  refine forall₂_of_mapM (G := fun x a => x = Except.ok a) ?_ ?_ h
  · intro _ _ _ h
    cases h
    rfl
  · intro _ _ x _ _ h
    exact exists_of_bind_eq_ok h

theorem forall₂_of_mapM_some {α β : Type} {f : α → Option β} {as : List α} {bs : List β}
    (h : as.mapM f = some bs) : List.Forall₂ (fun a b => f a = some b) as bs := by
  refine forall₂_of_mapM (G := fun x a => x = some a) ?_ ?_ h
  · intro _ _ _ h
    cases h
    rfl
  · intro _ _ x _ _ h
    exact Option.bind_eq_some_iff.mp h

theorem exists_of_firstForm {forms : List Form} {e : Expression} {v : Value}
    (h : firstForm forms e = .ok v) : ∃ f ∈ forms, f.decode e = some v := by
  unfold firstForm at h
  cases hfirst : forms.findSome? fun f => f.decode e with
  | none =>
      rw [hfirst] at h
      cases h
  | some w =>
      rw [hfirst] at h
      cases h
      exact List.exists_of_findSome?_eq_some hfirst

/-!
## Cases
-/

theorem mem_of_known? {cases : List String} {case found : String}
    (h : known? cases case = some found) : found ∈ cases := by
  unfold known? at h
  split at h
  · next hcase =>
      cases h
      exact List.contains_iff_mem.mp hcase
  · cases h

theorem addCase_nodup {found : List String} (h : found.Nodup) (case : String) :
    (addCase found case).Nodup := by
  unfold addCase
  split
  · exact h
  · next hcase =>
      have hnew : case ∉ found := by
        intro hmem
        exact hcase (List.contains_iff_mem.mpr hmem)
      rw [List.nodup_append]
      refine ⟨h, List.nodup_singleton case, ?_⟩
      intro a ha b hb hab
      rw [List.mem_singleton] at hb
      subst hb hab
      exact hnew ha

theorem mem_addCase {found : List String} {case a : String} (h : a ∈ addCase found case) :
    a ∈ found ∨ a = case := by
  unfold addCase at h
  split at h
  · exact Or.inl h
  · rwa [List.mem_append, List.mem_singleton] at h

/-- Collecting cases repeats none of them and adds nothing else. -/
theorem foldl_addCase (named : List String) {found : List String} (h : found.Nodup) :
    (named.foldl addCase found).Nodup ∧
      ∀ a ∈ named.foldl addCase found, a ∈ found ∨ a ∈ named := by
  induction named generalizing found with
  | nil => exact ⟨h, fun a ha => Or.inl ha⟩
  | cons case named ih =>
      rcases ih (addCase_nodup h case) with ⟨hnodup, hmem⟩
      refine ⟨hnodup, ?_⟩
      intro a ha
      rcases hmem a ha with ha | ha
      · rcases mem_addCase ha with ha | ha
        · exact Or.inl ha
        · exact Or.inr (ha ▸ List.mem_cons_self)
      · exact Or.inr (List.mem_cons_of_mem case ha)

theorem caseArray?_eq_some {typeName : String} {cases found : List String} {e : Expression}
    (h : caseArray? typeName cases e = some found) :
    (∀ case ∈ found, case ∈ cases) ∧ found.Nodup := by
  cases e with
  | array items span =>
      rcases Option.bind_eq_some_iff.mp h with ⟨named, hnamed, hfound⟩
      cases hfound
      rcases foldl_addCase named List.nodup_nil with ⟨hnodup, hmem⟩
      refine ⟨?_, hnodup⟩
      intro case hcase
      rcases hmem case hcase with hcase | hcase
      · cases hcase
      · rcases exists_of_mem_right (forall₂_of_mapM_some hnamed) case hcase with ⟨item, _, hitem⟩
        rcases Option.bind_eq_some_iff.mp hitem with ⟨written, _, hknown⟩
        exact mem_of_known? hknown
  | _ => cases h

/-!
## Constants
-/

theorem exists_of_knownCase {cases : List String} {case? : Option String}
    {build : String → Value} {v : Value}
    (h : (case?.bind (known? cases)).map build = some v) : ∃ case ∈ cases, v = build case := by
  rcases Option.map_eq_some_iff.mp h with ⟨case, hknown, hv⟩
  rcases Option.bind_eq_some_iff.mp hknown with ⟨written, _, hknown⟩
  exact ⟨case, mem_of_known? hknown, hv.symm⟩

theorem enumerationForms_conform {name : String} {cases : List String} {f : Form} {e : Expression}
    {v : Value} (hf : f ∈ enumerationForms name cases) (h : f.decode e = some v) :
    (enumeration name cases false).Conforms v := by
  have hcase : ∃ case ∈ cases, v = .enumCase name case := by
    simp only [enumerationForms, List.mem_cons, List.not_mem_nil, or_false] at hf
    rcases hf with hf | hf | hf
    · subst hf
      exact exists_of_knownCase h
    · subst hf
      exact exists_of_knownCase h
    · subst hf
      exact exists_of_knownCase h
  rcases hcase with ⟨case, hmem, hv⟩
  subst hv
  exact .enumCase hmem

theorem optionSetForms_conform {name : String} {cases : List String} {f : Form} {e : Expression}
    {v : Value} (hf : f ∈ optionSetForms name cases) (h : f.decode e = some v) :
    (enumeration name cases true).Conforms v := by
  have hsingle : (∃ case ∈ cases, v = .optionSet name [case]) →
      (enumeration name cases true).Conforms v := by
    intro hcase
    rcases hcase with ⟨case, hmem, hv⟩
    subst hv
    refine .optionSet ?_ (List.nodup_singleton case)
    intro a ha
    rw [List.mem_singleton.mp ha]
    exact hmem
  simp only [optionSetForms, List.mem_cons, List.not_mem_nil, or_false] at hf
  rcases hf with hf | hf | hf | hf
  · subst hf
    exact hsingle (exists_of_knownCase h)
  · subst hf
    exact hsingle (exists_of_knownCase h)
  · subst hf
    rcases Option.map_eq_some_iff.mp h with ⟨found, hfound, hv⟩
    subst hv
    rcases caseArray?_eq_some hfound with ⟨hmem, hnodup⟩
    exact .optionSet hmem hnodup
  · subst hf
    exact hsingle (exists_of_knownCase h)

theorem exists_of_singleForm {name : String} {read : Expression → Option α} {build : α → Value}
    {e : Expression} {v : Value}
    (h : firstForm [⟨name, fun e => (read e).map build⟩] e = .ok v) :
    ∃ a, read e = some a ∧ v = build a := by
  rcases exists_of_firstForm h with ⟨f, hf, hv⟩
  rw [List.mem_singleton] at hf
  subst hf
  rcases Option.map_eq_some_iff.mp hv with ⟨a, ha, hbuild⟩
  exact ⟨a, ha, hbuild.symm⟩

theorem decodeConstant_conforms {k : ValueKind} {e : Expression} {v : Value}
    (h : k.decodeConstant e = .ok v) : k.Conforms v := by
  induction k generalizing e v with
  | bool =>
      rcases exists_of_singleForm h with ⟨b, _, hv⟩
      subst hv
      exact .bool
  | int =>
      rcases exists_of_singleForm h with ⟨n, _, hv⟩
      subst hv
      exact .int
  | float =>
      rcases exists_of_singleForm h with ⟨x, _, hv⟩
      subst hv
      exact .float
  | string =>
      rcases exists_of_singleForm h with ⟨s, _, hv⟩
      subst hv
      exact .string
  | text =>
      rcases exists_of_firstForm h with ⟨f, hf, hv⟩
      have hmap : ∃ s, v = .text s := by
        simp only [textForms, List.mem_cons, List.not_mem_nil, or_false] at hf
        rcases hf with hf | hf
        · subst hf
          rcases Option.map_eq_some_iff.mp hv with ⟨s, _, hs⟩
          exact ⟨s, hs.symm⟩
        · subst hf
          rcases Option.map_eq_some_iff.mp hv with ⟨s, _, hs⟩
          exact ⟨s, hs.symm⟩
      cases hmap with
      | intro s hs =>
          subst hs
          exact .text
  | enumeration name cases isOptionSet =>
      cases isOptionSet with
      | true =>
          rcases exists_of_firstForm h with ⟨f, hf, hv⟩
          exact optionSetForms_conform hf hv
      | false =>
          rcases exists_of_firstForm h with ⟨f, hf, hv⟩
          exact enumerationForms_conform hf hv
  | optional inner ih =>
      unfold decodeConstant at h
      split at h
      · cases h
        exact .nil
      · exact .present (ih h)
  | array element ih =>
      cases e with
      | array items span =>
          unfold decodeConstant at h
          rcases exists_of_map_eq_ok h with ⟨vs, hitems, hv⟩
          subst hv
          refine .array ?_
          intro w hw
          rcases exists_of_mem_right (forall₂_of_mapM_ok hitems) w hw with ⟨item, _, hitem⟩
          exact ih hitem
      | _ => cases h
  | range bound ih =>
      cases e with
      | range lower upper closed span =>
          unfold decodeConstant at h
          rcases exists_of_bind_eq_ok h with ⟨l, hlower, h⟩
          rcases exists_of_bind_eq_ok h with ⟨u, hupper, h⟩
          cases h
          exact .range (ih hlower) (ih hupper)
      | _ => cases h
  | binding inner ih =>
      rcases exists_of_firstForm h with ⟨f, hf, hv⟩
      rw [List.mem_singleton] at hf
      subst hf
      rcases Option.bind_eq_some_iff.mp hv with ⟨value, _, hvalue⟩
      cases hinner : inner.decodeConstant value with
      | error cause =>
          rw [hinner] at hvalue
          cases hvalue
      | ok w =>
          rw [hinner] at hvalue
          cases hvalue
          exact .binding (ih hinner)
  | view => cases h
  | event => cases h
  | structural name =>
      unfold decodeConstant at h
      split at h
      · cases h
      · cases h
        exact .structural

/-!
## Arguments
-/

inductive IsReference : Expression → Prop where
  | attributeRef {name : String} {span : Text.Span} : IsReference (.attributeRef name span)
  | eventRef {name : String} {span : Text.Span} : IsReference (.eventRef name span)

theorem decodeConstant_ne_ok_of_isReference {e : Expression} (he : IsReference e) (k : ValueKind)
    (v : Value) : k.decodeConstant e ≠ .ok v := by
  intro h
  induction k generalizing v with
  | optional inner ih =>
      cases he with
      | attributeRef => exact ih v h
      | eventRef => exact ih v h
  | enumeration name cases isOptionSet =>
      cases isOptionSet with
      | true => cases he <;> cases h
      | false => cases he <;> cases h
  | _ => cases he <;> cases h

theorem decodeLiteral_eq_constant_iff {k : ValueKind} {e : Expression} {v : Value} :
    k.decodeLiteral e = .ok (.constant v) ↔ k.decodeConstant e = .ok v := by
  have hmap : ∀ r : Except DecodeError Value,
      r.map Reference.constant = .ok (.constant v) ↔ r = .ok v := by
    intro r
    cases r with
    | error cause => exact ⟨nofun, nofun⟩
    | ok w =>
        constructor
        · intro h
          cases h
          rfl
        · intro h
          cases h
          rfl
  induction k with
  | optional inner ih =>
      rw [decodeLiteral, decodeConstant]
      dsimp only
      split
      · constructor
        · intro h
          cases h
          rfl
        · intro h
          cases h
          rfl
      · exact ih
  | view =>
      rw [decodeLiteral, decodeConstant]
      cases e.atom? with
      | none => exact ⟨nofun, nofun⟩
      | some name => exact ⟨nofun, nofun⟩
  | event =>
      rw [decodeLiteral, decodeConstant]
      cases e.atom? with
      | none => exact ⟨nofun, nofun⟩
      | some name => exact ⟨nofun, nofun⟩
  | _ => exact hmap _

inductive Admits (k : ValueKind) : Reference → Prop where
  | constant {v : Value} : k.Conforms v → Admits k (.constant v)
  | attributeValue {name : String} : k.acceptsAttribute = true →
      Admits k (.attributeValue name k none)
  | event {handler : String} : k.base = .event → Admits k (.event handler)
  | viewSlot {selector : Selector} : k.base = .view → Admits k (.viewSlot selector)
  | tracked {name : String} {inner : ValueKind} : k.base = .binding inner →
      Admits k (.tracked name inner)

theorem attributeReference_admits {k : ValueKind} (h : k.acceptsAttribute = true) (name : String) :
    k.Admits (k.attributeReference name) := by
  unfold attributeReference
  split
  · next inner hbase => exact .tracked hbase
  · exact .attributeValue h

/-- An argument that is no reference is a constant, an event or a view slot. -/
theorem decodeLiteral_cases {k : ValueKind} {e : Expression} {r : Reference}
    (h : k.decodeLiteral e = .ok r) :
    (∃ v, r = .constant v) ∨ (∃ handler, r = .event handler ∧ k.base = .event) ∨
      ∃ selector, r = .viewSlot selector ∧ k.base = .view := by
  have hmap : ∀ s : Except DecodeError Value, s.map Reference.constant = .ok r →
      ∃ v, r = .constant v := by
    intro s hs
    rcases exists_of_map_eq_ok hs with ⟨v, _, hr⟩
    exact ⟨v, hr.symm⟩
  induction k with
  | optional inner ih =>
      unfold decodeLiteral at h
      split at h
      · cases h
        exact Or.inl ⟨.nil, rfl⟩
      · exact ih h
  | view =>
      unfold decodeLiteral at h
      cases hatom : e.atom? with
      | none =>
          rw [hatom] at h
          cases h
      | some name =>
          rw [hatom] at h
          cases h
          exact Or.inr (Or.inr ⟨.template name, rfl, rfl⟩)
  | event =>
      unfold decodeLiteral at h
      cases hatom : e.atom? with
      | none =>
          rw [hatom] at h
          cases h
      | some name =>
          rw [hatom] at h
          cases h
          exact Or.inr (Or.inl ⟨name, rfl, rfl⟩)
  | _ => exact Or.inl (hmap _ h)

theorem decodeLiteral_admits {k : ValueKind} {e : Expression} {r : Reference}
    (h : k.decodeLiteral e = .ok r) : k.Admits r := by
  rcases decodeLiteral_cases h with ⟨v, hr⟩ | ⟨handler, hr, hbase⟩ | ⟨selector, hr, hbase⟩
  · subst hr
    exact .constant (decodeConstant_conforms (decodeLiteral_eq_constant_iff.mp h))
  · subst hr
    exact .event hbase
  · subst hr
    exact .viewSlot hbase

theorem decodeArgument_admits {k : ValueKind} {e : Expression} {r : Reference}
    (h : k.decodeArgument e = .ok r) : k.Admits r := by
  cases e with
  | attributeRef name span =>
      rw [decodeArgument] at h
      split at h
      · next haccepts =>
          cases h
          exact attributeReference_admits haccepts name
      · cases h
  | eventRef name span =>
      rw [decodeArgument] at h
      split at h
      · next hbase =>
          cases h
          exact .event hbase
      · cases h
  | _ => exact decodeLiteral_admits h

theorem attributeReference_ne_constant (k : ValueKind) (name : String) (v : Value) :
    k.attributeReference name ≠ .constant v := by
  unfold attributeReference
  split
  · exact nofun
  · exact nofun

theorem decodeArgument_eq_constant_iff {k : ValueKind} {e : Expression} {v : Value} :
    k.decodeArgument e = .ok (.constant v) ↔ k.decodeConstant e = .ok v := by
  cases e with
  | attributeRef name span =>
      refine ⟨?_, fun h => absurd h (decodeConstant_ne_ok_of_isReference .attributeRef k v)⟩
      intro h
      rw [decodeArgument] at h
      split at h
      · exact absurd (Except.ok.inj h) (attributeReference_ne_constant k name v)
      · cases h
  | eventRef name span =>
      refine ⟨?_, fun h => absurd h (decodeConstant_ne_ok_of_isReference .eventRef k v)⟩
      intro h
      rw [decodeArgument] at h
      split at h
      · cases h
      · cases h
  | _ => exact decodeLiteral_eq_constant_iff

theorem exists_of_decodeDefault {k : ValueKind} {source : String} {v : Value}
    (h : k.decodeDefault source = some v) :
    ∃ e, Expression.read source = .ok e ∧ k.decodeConstant e = .ok v := by
  unfold decodeDefault at h
  split at h
  · cases h
  · next e hread =>
      split at h
      · next r hdecode =>
          cases r with
          | constant w =>
              cases h
              exact ⟨e, hread, decodeArgument_eq_constant_iff.mp hdecode⟩
          | _ => cases h
      · cases h

theorem decodeDefault_conforms {k : ValueKind} {source : String} {v : Value}
    (h : k.decodeDefault source = some v) : k.Conforms v := by
  rcases exists_of_decodeDefault h with ⟨e, -, hdecode⟩
  exact decodeConstant_conforms hdecode

/-!
## Attributes
-/

theorem decodeSource_conforms {k : ValueKind} {source : String} {v : Value}
    (h : k.decodeSource source = .ok v) : k.Conforms v := by
  unfold decodeSource at h
  split at h
  · cases h
  · split at h
    · next w hdecode =>
        cases h
        exact decodeConstant_conforms hdecode
    · cases h

theorem exists_of_orExpected {k : ValueKind} {read : Option α} {build : α → Value} {v : Value}
    (h : orExpected k (read.map build) = .ok v) : ∃ a, v = build a := by
  cases read with
  | none => cases h
  | some a =>
      cases h
      exact ⟨a, rfl⟩

theorem decodeText_conforms {k : ValueKind} {source : String} {v : Value}
    (h : k.decodeText source = .ok v) : k.Conforms v := by
  induction k generalizing v with
  | bool =>
      unfold decodeText at h
      split at h
      · cases h
        exact .bool
      · split at h
        · cases h
          exact .bool
        · cases h
  | int =>
      rcases exists_of_orExpected h with ⟨n, hv⟩
      subst hv
      exact .int
  | float =>
      rcases exists_of_orExpected h with ⟨x, hv⟩
      subst hv
      exact .float
  | string =>
      cases h
      exact .string
  | text =>
      cases h
      exact .text
  | enumeration name cases isOptionSet =>
      rw [decodeText] at h
      split at h
      · next hmem =>
          have hcase := List.contains_iff_mem.mp hmem
          cases isOptionSet with
          | true =>
              cases h
              refine .optionSet ?_ (List.nodup_singleton _)
              intro a ha
              rw [List.mem_singleton.mp ha]
              exact hcase
          | false =>
              cases h
              exact .enumCase hcase
      · exact decodeSource_conforms h
  | optional inner ih =>
      unfold decodeText at h
      split at h
      · cases h
        exact .nil
      · exact .present (ih h)
  | array element => exact decodeSource_conforms h
  | range bound => exact decodeSource_conforms h
  | view => cases h
  | event => cases h
  | binding inner ih => exact .binding (ih h)
  | structural name =>
      cases h
      exact .structural

theorem decodeRaw_conforms {k : ValueKind} {raw : RawValue} {v : Value}
    (h : k.decodeRaw raw = .ok v) : k.Conforms v := by
  cases raw with
  | text source => exact decodeText_conforms h
  | flag =>
      rw [decodeRaw] at h
      split at h
      · next hbase =>
          cases h
          apply Conforms.of_base
          rw [hbase]
          exact .bool
      · cases h

end ValueKind
end ViewModifiers
