import Mathlib.Data.List.Forall2
import ViewModifiers.Proofs.Platform.Availability
import ViewModifiers.Proofs.Table.Dispatch
import ViewModifiers.Proofs.Value.Renaming

/-!
# Overloads in place of their duplicates

Of the signatures with the same labels and type names, an overload set keeps the
first one.  Labels and names do not decide what an argument may be: the modules and
arguments of the types, the constraints behind a name, builder attributes, defaults,
variadic parameters and the availability may all differ.  Where the parameters
agree in their kinds, their defaults and in being variadic, and the first signature
is available wherever the other one is, the first one takes every modifier of the
other, with the same references but for names of types without a decoder.
-/

namespace ViewModifiers

variable {f : String → String}

/-- A bound argument under other names of types, without the name of its parameter. -/
def BoundArgument.view (f : String → String) (a : BoundArgument) : Option String × Reference :=
  (a.label, a.reference.rename f)

@[simp] theorem BoundArgument.view_id (a : BoundArgument) : a.view id = (a.label, a.reference) := by
  rw [view, Reference.rename_id]

namespace ParameterDecoder

structure AlikeUpTo (f : String → String) (p q : ParameterDecoder) : Prop where
  label : p.label = q.label
  kind : p.kind.rename f = q.kind.rename f
  default : p.default = q.default
  isVariadic : p.isVariadic = q.isVariadic

/-!
## Binding
-/

theorem takeMany_congr {k k' : ValueKind}
    (h : ∀ e, (k.decodeConstant e).toOption = (k'.decodeConstant e).toOption)
    (label : Option String) (arguments : List Argument) :
    takeMany k label arguments = takeMany k' label arguments := by
  induction arguments generalizing label with
  | nil => rfl
  | cons a rest ih =>
      unfold takeMany
      split
      · rcases ok_or_error_of_toOption_map_eq (g := id) (congrArg (Option.map id) (h a.value)) with
          ⟨v, v', hv, hv', rfl⟩ | ⟨cause, cause', hcause, hcause'⟩
        · simp only [hv, hv', ih, id]
        · simp only [hcause, hcause']
      · rfl

section
variable {p q : ParameterDecoder}

theorem toOption_takeOne (h : p.AlikeUpTo f q) (arguments : List Argument) :
    (p.takeOne arguments).toOption.map (Prod.map (Reference.rename f) id) =
      (q.takeOne arguments).toOption.map (Prod.map (Reference.rename f) id) := by
  have hfallback : ∀ (failure failure' : BindError) (left : List Argument),
      ((p.fallback failure).map fun r => (r, left)).toOption =
        ((q.fallback failure').map fun r => (r, left)).toOption := by
    intro failure failure' left
    unfold fallback
    rw [h.default]
    cases q.default with
    | none => rfl
    | some v => rfl
  cases arguments with
  | nil => exact congrArg _ (hfallback ..)
  | cons a rest =>
      have hargument : (p.kind.decodeArgument a.value).toOption.map (Reference.rename f) =
          (q.kind.decodeArgument a.value).toOption.map (Reference.rename f) := by
        rw [← ValueKind.decodeArgument_rename, ← ValueKind.decodeArgument_rename, h.kind]
      rw [takeOne, takeOne, h.label]
      split
      · rcases ok_or_error_of_toOption_map_eq hargument with
          ⟨r, r', hr, hr', hrenamed⟩ | ⟨cause, cause', hcause, hcause'⟩
        · simp only [hr, hr']
          show some (Prod.map (Reference.rename f) id (r.withDefault p.default, rest)) =
            some (Prod.map (Reference.rename f) id (r'.withDefault q.default, rest))
          rw [Prod.map_apply, Prod.map_apply, Reference.rename_withDefault,
            Reference.rename_withDefault, hrenamed, h.default]
        · simp only [hcause, hcause']
          exact congrArg _ (hfallback ..)
      · exact congrArg _ (hfallback ..)

theorem toOption_take (h : p.AlikeUpTo f q) (arguments : List Argument) :
    (p.take arguments).toOption.map (Prod.map (Reference.rename f) id) =
      (q.take arguments).toOption.map (Prod.map (Reference.rename f) id) := by
  have hconstant (e) :
      (p.kind.decodeConstant e).toOption = (q.kind.decodeConstant e).toOption := by
    rw [← ValueKind.decodeConstant_rename f, ← ValueKind.decodeConstant_rename f q.kind, h.kind]
  unfold take
  rw [h.isVariadic]
  split
  · rw [takeMany_congr hconstant, h.label]
  · exact toOption_takeOne h arguments

end

def bound? (f : String → String) (ps : List ParameterDecoder) (arguments : List Argument) :
    Option (List (Option String × Reference)) :=
  (bindAll ps arguments).toOption.map (List.map (BoundArgument.view f))

theorem bound?_eq_some_iff {ps : List ParameterDecoder} {arguments : List Argument}
    {views : List (Option String × Reference)} :
    bound? f ps arguments = some views ↔
      ∃ bound, bindAll ps arguments = .ok bound ∧ bound.map (BoundArgument.view f) = views := by
  rw [bound?]
  cases bindAll ps arguments with
  | error cause => simp [Except.toOption]
  | ok bound => simp [Except.toOption]

theorem bound?_cons {p : ParameterDecoder} {arguments left : List Argument} {r : Reference}
    (h : p.take arguments = .ok (r, left)) (ps : List ParameterDecoder) :
    bound? f (p :: ps) arguments = (bound? f ps left).map ((p.label, r.rename f) :: ·) := by
  rw [bound?, bound?, bindAll, h]
  show (((bindAll ps left).bind _).toOption.map _) = _
  cases bindAll ps left with
  | error cause => rfl
  | ok bound => rfl

theorem bound?_cons_of_error {p : ParameterDecoder} {arguments : List Argument}
    {cause : BindError} (h : p.take arguments = .error cause) (ps : List ParameterDecoder) :
    bound? f (p :: ps) arguments = none := by
  rw [bound?, bindAll, h]
  rfl

/-- Decoders that differ in names only bind the same arguments, to the same references. -/
theorem bound?_eq_of_alikeUpTo {ps qs : List ParameterDecoder}
    (h : List.Forall₂ (AlikeUpTo f) ps qs) (arguments : List Argument) :
    bound? f ps arguments = bound? f qs arguments := by
  induction h generalizing arguments with
  | nil => rfl
  | @cons p q ps qs hhead htail ih =>
      rcases ok_or_error_of_toOption_map_eq (toOption_take hhead arguments) with
        ⟨⟨r, left⟩, ⟨r', left'⟩, htake, htake', htaken⟩ | ⟨cause, cause', hcause, hcause'⟩
      · obtain ⟨hr, rfl⟩ : r.rename f = r'.rename f ∧ left = left' := Prod.mk.inj htaken
        rw [bound?_cons htake, bound?_cons htake', hhead.label, hr, ih left]
      · rw [bound?_cons_of_error hcause, bound?_cons_of_error hcause']

/-!
## Attributes as arguments

A reference to an attribute carries the kind and the default of its parameter, so
that an argument list of attributes tells all about the parameters that take them.
-/

structure TakesAttribute (p : ParameterDecoder) : Prop where
  isVariadic : p.isVariadic = false
  accepts : p.kind.acceptsAttribute = true
  plain : ∀ inner, p.kind.base ≠ .binding inner

def attributeArgument (p : ParameterDecoder) : Argument :=
  ⟨p.label, .attributeRef "a" ⟨0, 0⟩, ⟨0, 0⟩⟩

section
variable {p q : ParameterDecoder} {rest left : List Argument} {r : Reference}

theorem take_of_accepts (hvariadic : p.isVariadic = false) (hlabel : p.label = q.label)
    (h : p.kind.acceptsAttribute = true) :
    p.take (q.attributeArgument :: rest) =
      .ok ((p.kind.attributeReference "a").withDefault p.default, rest) := by
  simp [take, hvariadic, takeOne, attributeArgument, hlabel, ValueKind.decodeArgument, h]

theorem exists_take_of_not_accepts (hvariadic : p.isVariadic = false) (hlabel : p.label = q.label)
    (h : p.kind.acceptsAttribute = false) :
    ∃ failure, p.take (q.attributeArgument :: rest) =
      (p.fallback failure).map fun r => (r, q.attributeArgument :: rest) := by
  simp only [take, hvariadic, takeOne, attributeArgument, hlabel, ValueKind.decodeArgument, h]
  exact ⟨_, rfl⟩

theorem take_attributeArgument (h : q.TakesAttribute) :
    q.take (q.attributeArgument :: rest) = .ok (.attributeValue "a" q.kind q.default, rest) := by
  rw [take_of_accepts h.isVariadic rfl h.accepts, ValueKind.attributeReference]
  split
  · next inner hbase => exact absurd hbase (h.plain inner)
  · rfl

theorem alikeUpTo_of_take (hvariadic : p.isVariadic = false) (hlabel : p.label = q.label)
    (hq : q.TakesAttribute) (h : p.take (q.attributeArgument :: rest) = .ok (r, left))
    (hr : r.rename f = (Reference.attributeValue "a" q.kind q.default).rename f) :
    p.AlikeUpTo f q ∧ left = rest := by
  cases haccepts : p.kind.acceptsAttribute with
  | true =>
      rw [take_of_accepts hvariadic hlabel haccepts] at h
      cases h
      unfold ValueKind.attributeReference at hr
      split at hr
      · cases hr
      · injection hr with _ hkind hdefault
        exact ⟨⟨hlabel, hkind, hdefault, hvariadic.trans hq.isVariadic.symm⟩, rfl⟩
  | false =>
      rcases exists_take_of_not_accepts hvariadic hlabel haccepts with ⟨failure, htake⟩
      rw [htake, fallback] at h
      cases hdefault : p.default with
      | none =>
          rw [hdefault] at h
          cases h
      | some v =>
          rw [hdefault] at h
          cases h
          cases hr

end

theorem exists_bound?_attributes {qs : List ParameterDecoder} (h : ∀ q ∈ qs, q.TakesAttribute) :
    ∃ views, bound? f qs (qs.map attributeArgument) = some views := by
  induction qs with
  | nil => exact ⟨[], rfl⟩
  | cons q qs ih =>
      rcases ih fun q' hq' => h q' (List.mem_cons_of_mem q hq') with ⟨views, hviews⟩
      rw [List.map_cons, bound?_cons (take_attributeArgument (h q List.mem_cons_self)), hviews]
      exact ⟨_, rfl⟩

/-- Decoders that bind attributes to the same references differ in names only. -/
theorem alikeUpTo_of_bound?_eq {ps qs : List ParameterDecoder}
    (hlabels : List.Forall₂ (fun p q => p.label = q.label) ps qs)
    (hvariadic : ∀ p ∈ ps, p.isVariadic = false) (hattributes : ∀ q ∈ qs, q.TakesAttribute)
    (h : bound? f ps (qs.map attributeArgument) = bound? f qs (qs.map attributeArgument)) :
    List.Forall₂ (AlikeUpTo f) ps qs := by
  induction hlabels with
  | nil => exact .nil
  | @cons p q ps qs hlabel hmore ih =>
      have hq := hattributes q List.mem_cons_self
      have hqs : ∀ q' ∈ qs, q'.TakesAttribute := fun q' hq' => hattributes q' (.tail q hq')
      rcases exists_bound?_attributes (f := f) hqs with ⟨views, hviews⟩
      rw [List.map_cons, bound?_cons (take_attributeArgument hq), hviews] at h
      cases htake : p.take (q.attributeArgument :: qs.map attributeArgument) with
      | error cause =>
          rw [bound?_cons_of_error htake] at h
          cases h
      | ok taken =>
          rw [bound?_cons htake, Option.map_some, Option.map_eq_some_iff] at h
          rcases h with ⟨views', hviews', hcons⟩
          injection hcons with hhead htail
          rcases alikeUpTo_of_take (hvariadic p List.mem_cons_self) hlabel hq htake
            (Prod.mk.inj hhead).2 with ⟨halike, hleft⟩
          refine .cons halike (ih (fun p' hp' => hvariadic p' (.tail p hp')) hqs ?_)
          rw [← hleft, hviews', htail, hleft, hviews]

end ParameterDecoder

/-!
## Duplicates
-/

/--
Whatever the other overload binds where it is available, this one binds to the same
references, under other names of types, and it is available there as well.
-/
def Overload.Serves (f : String → String) (o o' : Overload) : Prop :=
  ∀ arguments bound platform version, o'.bind arguments = .ok bound →
    o'.availability.holds platform version = true →
    ∃ bound', o.bind arguments = .ok bound' ∧
      bound'.map (BoundArgument.view f) = bound.map (BoundArgument.view f) ∧
      o.availability.holds platform version = true

theorem Overload.Serves.bound?_eq {o o' : Overload} {arguments : List Argument}
    {views : List (Option String × Reference)} {platform : Platform} {version : Version}
    (h : o.Serves f o') (hviews : ParameterDecoder.bound? f o'.parameters arguments = some views)
    (hholds : o'.availability.holds platform version = true) :
    ParameterDecoder.bound? f o.parameters arguments = some views ∧
      o.availability.holds platform version = true := by
  rcases ParameterDecoder.bound?_eq_some_iff.mp hviews with ⟨bound, hbind, rfl⟩
  rcases h arguments bound platform version hbind hholds with ⟨bound', hbind', hsame, hholds'⟩
  exact ⟨ParameterDecoder.bound?_eq_some_iff.mpr ⟨bound', hbind', hsame⟩, hholds'⟩

theorem Overload.exists_bind_of_alikeUpTo {o o' : Overload} {arguments : List Argument}
    {bound : List BoundArgument}
    (halike : List.Forall₂ (ParameterDecoder.AlikeUpTo f) o.parameters o'.parameters)
    (hbind : o'.bind arguments = .ok bound) :
    ∃ bound', o.bind arguments = .ok bound' ∧
      bound'.map (BoundArgument.view f) = bound.map (BoundArgument.view f) := by
  have hviews := (ParameterDecoder.bound?_eq_some_iff (f := f)).mpr ⟨bound, hbind, rfl⟩
  rw [← ParameterDecoder.bound?_eq_of_alikeUpTo halike arguments] at hviews
  exact ParameterDecoder.bound?_eq_some_iff.mp hviews

theorem Overload.serves_of_alikeUpTo {o o' : Overload}
    (halike : List.Forall₂ (ParameterDecoder.AlikeUpTo f) o.parameters o'.parameters)
    (hcovers : o.availability.Covers o'.availability) : o.Serves f o' := by
  intro arguments bound platform version hbind hholds
  rcases exists_bind_of_alikeUpTo halike hbind with ⟨bound', hbind', hsame⟩
  exact ⟨bound', hbind', hsame, Availability.covers_iff.mp hcovers platform version hholds⟩

/-- Parameters of two signatures agree in what duplicates need not agree in. -/
structure Parameter.AgreesUpTo (c : Configuration) (f : String → String) (s t : Signature)
    (p q : Parameter) : Prop where
  kind : (ValueKind.ofParameter c s p).rename f = (ValueKind.ofParameter c t q).rename f
  default : (ParameterDecoder.ofParameter c s p).default =
    (ParameterDecoder.ofParameter c t q).default
  isVariadic : p.isVariadic = q.isVariadic

namespace Signature

variable {c : Configuration} {s t : Signature}

theorem isDuplicate_iff :
    s.isDuplicate t = true ↔ List.Forall₂ (fun p q => p.label = q.label ∧
      p.type.normalizedName = q.type.normalizedName) s.parameters t.parameters := by
  rw [isDuplicate, Bool.and_eq_true, beq_iff_eq, List.forall₂_iff_zip]
  simp [sameShape]

/-- Kinds that differ in names only read a default from its source in the same way. -/
theorem agreesUpTo_of_kind {p q : Parameter}
    (hkind : (ValueKind.ofParameter c s p).rename f = (ValueKind.ofParameter c t q).rename f)
    (hsource : p.default = q.default) (hvariadic : p.isVariadic = q.isVariadic) :
    Parameter.AgreesUpTo c f s t p q := by
  have hdefault (source) :
      ParameterDecoder.defaultOf (ValueKind.ofParameter c s p) source =
        ParameterDecoder.defaultOf (ValueKind.ofParameter c t q) source := by
    rw [ParameterDecoder.defaultOf, ParameterDecoder.defaultOf, ← ValueKind.decodeDefault_rename f,
      hkind, ValueKind.decodeDefault_rename]
  refine ⟨hkind, ?_, hvariadic⟩
  show p.default.map _ = q.default.map _
  rw [hsource, funext hdefault]

theorem forall₂_labels_of_isDuplicate (h : s.isDuplicate t = true) :
    List.Forall₂ (fun p q : Parameter => p.label = q.label) s.parameters t.parameters :=
  (isDuplicate_iff.mp h).imp fun _ _ halike => halike.1

theorem alikeUpTo_of_isDuplicate (h : s.isDuplicate t = true)
    (hagree : List.Forall₂ (Parameter.AgreesUpTo c f s t) s.parameters t.parameters) :
    List.Forall₂ (ParameterDecoder.AlikeUpTo f) (s.parameters.map (.ofParameter c s))
      (t.parameters.map (.ofParameter c t)) := by
  rw [List.forall₂_map_left_iff, List.forall₂_map_right_iff, List.forall₂_iff_zip]
  refine ⟨hagree.length_eq, fun hpair => ?_⟩
  have hagrees := List.forall₂_zip hagree hpair
  exact ⟨List.forall₂_zip (forall₂_labels_of_isDuplicate h) hpair, hagrees.kind, hagrees.default,
    hagrees.isVariadic⟩

/-- A duplicate that agrees and is available at least as widely takes every modifier. -/
theorem serves_of_isDuplicate (i j : Nat) (h : s.isDuplicate t = true)
    (hagree : List.Forall₂ (Parameter.AgreesUpTo c f s t) s.parameters t.parameters)
    (havailable : s.availability.Covers t.availability) :
    (Overload.ofSignature c i s).Serves f (Overload.ofSignature c j t) :=
  Overload.serves_of_alikeUpTo (alikeUpTo_of_isDuplicate h hagree) havailable

/-- The signature is dropped for its duplicate, which does not take its place. -/
structure IsLost (c : Configuration) (s t : Signature) : Prop where
  valid : s.isValid = true ∧ t.isValid = true
  name : s.name = t.name
  duplicate : s.isDuplicate t = true
  lost : ¬ (Overload.ofSignature c 0 s).Serves id (Overload.ofSignature c 1 t)

def plainConfiguration : Configuration :=
  ⟨"1", false, ∅, ["View"], ∅, ∅⟩

/-- `inset(_ amount:)`, with all that may differ between its duplicates. -/
def inset (type : TypeExpr) (default : Option String) (isVariadic : Bool)
    (availability : Availability) : Signature :=
  ⟨"inset", [], [⟨none, "amount", type, default, [], isVariadic⟩], availability, none, 1⟩

def intType : TypeExpr := .named ["Int"] []

def bindingType (name : String) : TypeExpr := .named ["SwiftUI", "Binding"] [.named [name] []]

/-- A type without a decoder, with modules in front of its name. -/
def angleType (modules : List String) : TypeExpr := .named (modules ++ ["Angle"]) []

def recent : Availability :=
  ⟨none, fun p => if p = .iOS then some ⟨17, 0, 0⟩ else none, .empty⟩

/-- `attr("tilt")` as the only argument. -/
def tilt : List Argument := [⟨none, .attributeRef "tilt" ⟨0, 12⟩, ⟨0, 12⟩⟩]

theorem serves_of_isDuplicate_angleType :
    (inset (angleType ["SwiftUI"]) (some ".zero") false .always).isDuplicate
        (inset (angleType []) (some ".zero") false recent) = true ∧
      (∃ bound, (Overload.ofSignature plainConfiguration 1
        (inset (angleType []) (some ".zero") false recent)).bind tilt = .ok bound) ∧
      (Overload.ofSignature plainConfiguration 0
        (inset (angleType ["SwiftUI"]) (some ".zero") false .always)).Serves (fun _ => "")
          (Overload.ofSignature plainConfiguration 1
            (inset (angleType []) (some ".zero") false recent)) := by
  have hduplicate : (inset (angleType ["SwiftUI"]) (some ".zero") false .always).isDuplicate
      (inset (angleType []) (some ".zero") false recent) = true := by decide
  have hcovers : Availability.always.Covers recent := Availability.covers_iff.mpr fun _ _ _ => rfl
  refine ⟨hduplicate, ⟨_, rfl⟩, serves_of_isDuplicate 0 1 hduplicate (.cons ?_ .nil) hcovers⟩
  exact agreesUpTo_of_kind (ValueKind.erase_ofParameter rfl rfl (.qualified rfl)) rfl rfl

/--
A default of its own, variadic parameters, the arguments of types and the
availability are lost, and modules in front of a name show in references.
-/
theorem isLost_inset :
    IsLost plainConfiguration (inset intType none false .always)
        (inset intType (some "0") false .always) ∧
      IsLost plainConfiguration (inset intType none false .always)
        (inset intType none true .always) ∧
      IsLost plainConfiguration (inset (bindingType "Int") none false .always)
        (inset (bindingType "String") none false .always) ∧
      IsLost plainConfiguration (inset intType none false recent)
        (inset intType none false .always) ∧
      IsLost plainConfiguration (inset (angleType ["SwiftUI"]) none false .always)
        (inset (angleType []) none false .always) := by
  have hrefused : ∀ {o o' : Overload} (arguments : List Argument) {bound : List BoundArgument}
      {cause : BindError}, o'.bind arguments = .ok bound → o'.availability = .always →
      o.bind arguments = .error cause → ¬ o.Serves id o' := by
    intro o o' arguments bound cause hbind halways herror hserves
    have hholds : o'.availability.holds .iOS ⟨15, 0, 0⟩ = true := by
      rw [halways]
      rfl
    rcases hserves arguments bound .iOS ⟨15, 0, 0⟩ hbind hholds with ⟨bound', hbind', _⟩
    rw [herror] at hbind'
    cases hbind'
  refine ⟨?_, ?_, ?_, ?_, ?_⟩
  · exact ⟨⟨rfl, rfl⟩, rfl, by decide, hrefused [] rfl rfl rfl⟩
  · exact ⟨⟨rfl, rfl⟩, rfl, by decide, hrefused [] rfl rfl rfl⟩
  · refine ⟨⟨rfl, rfl⟩, rfl, by decide, ?_⟩
    exact hrefused [⟨none, .implicitMember "constant"
      (some [⟨none, .literal (.string "x") ⟨10, 13⟩, ⟨10, 13⟩⟩]) ⟨0, 14⟩, ⟨0, 14⟩⟩] rfl rfl rfl
  · refine ⟨⟨rfl, rfl⟩, rfl, by decide, ?_⟩
    intro hserves
    rcases hserves [⟨none, .literal (.integer 1) ⟨0, 1⟩, ⟨0, 1⟩⟩] _ .iOS ⟨15, 0, 0⟩ rfl rfl with
      ⟨_, _, _, hholds⟩
    cases hholds
  · refine ⟨⟨rfl, rfl⟩, rfl, by decide, ?_⟩
    intro hserves
    rcases hserves tilt _ .iOS ⟨15, 0, 0⟩ rfl rfl with ⟨bound, hbind, hsame, _⟩
    cases hbind
    have hviews := (List.cons.inj hsame).1
    rw [BoundArgument.view_id, BoundArgument.view_id] at hviews
    have hnames : Reference.attributeValue "tilt" (.structural "SwiftUI.Angle") none =
        .attributeValue "tilt" (.structural "Angle") none := (Prod.mk.inj hviews).2
    simp at hnames

/--
Where all parameters take attributes, the first signature takes the place of the
other in no other case.
-/
theorem serves_iff {i j : Nat} (h : s.isDuplicate t = true)
    (hvariadic : ∀ p ∈ s.parameters, p.isVariadic = false)
    (hattributes : ∀ q ∈ t.parameters, (ParameterDecoder.ofParameter c t q).TakesAttribute)
    (havailable : ∃ platform version, t.availability.holds platform version = true) :
    (Overload.ofSignature c i s).Serves f (Overload.ofSignature c j t) ↔
      List.Forall₂ (ParameterDecoder.AlikeUpTo f) (s.parameters.map (.ofParameter c s))
        (t.parameters.map (.ofParameter c t)) ∧ s.availability.Covers t.availability := by
  have hlabels : List.Forall₂ (fun p q : ParameterDecoder => p.label = q.label)
      (s.parameters.map (.ofParameter c s)) (t.parameters.map (.ofParameter c t)) := by
    rw [List.forall₂_map_left_iff, List.forall₂_map_right_iff]
    exact forall₂_labels_of_isDuplicate h
  have hdecoders : ∀ q ∈ t.parameters.map (ParameterDecoder.ofParameter c t), q.TakesAttribute :=
    List.forall_mem_map.mpr hattributes
  have hone : ∀ p ∈ s.parameters.map (ParameterDecoder.ofParameter c s), p.isVariadic = false :=
    List.forall_mem_map.mpr hvariadic
  constructor
  · intro hserves
    rcases ParameterDecoder.exists_bound?_attributes (f := f) hdecoders with ⟨views, hviews⟩
    rcases havailable with ⟨platform, version, hholds⟩
    have hsame := (hserves.bound?_eq hviews hholds).1.trans hviews.symm
    refine ⟨ParameterDecoder.alikeUpTo_of_bound?_eq hlabels hone hdecoders hsame, ?_⟩
    rw [Availability.covers_iff]
    intro platform version hholds
    exact (hserves.bound?_eq hviews hholds).2
  · rintro ⟨halike, hcovers⟩
    exact Overload.serves_of_alikeUpTo halike hcovers

theorem isDuplicate_refl (s : Signature) : s.isDuplicate s = true :=
  isDuplicate_iff.mpr (List.forall₂_same.mpr fun _ _ => ⟨rfl, rfl⟩)

end Signature

/-!
## Overload sets
-/

namespace OverloadSet

variable {set : OverloadSet} {s t : Signature}

theorem subset_signatures_insert (set : OverloadSet) (s : Signature) :
    set.signatures ⊆ (set.insert s).1.signatures := by
  unfold insert
  split
  · exact List.Subset.refl _
  · exact List.subset_append_left _ _

theorem exists_isDuplicate_insert (set : OverloadSet) (t : Signature) :
    ∃ s ∈ (set.insert t).1.signatures, s.isDuplicate t = true := by
  unfold insert
  split
  · next hany => exact List.any_eq_true.mp hany
  · exact ⟨t, by simp, t.isDuplicate_refl⟩

theorem subset_signatures_foldl (signatures : List Signature) (set : OverloadSet) :
    set.signatures ⊆ (signatures.foldl (fun set s => (set.insert s).1) set).signatures := by
  induction signatures generalizing set with
  | nil => exact List.Subset.refl _
  | cons s rest ih => exact List.Subset.trans (subset_signatures_insert set s) (ih _)

theorem exists_isDuplicate_foldl {signatures : List Signature} (h : t ∈ signatures)
    (set : OverloadSet) :
    ∃ s ∈ (signatures.foldl (fun set s => (set.insert s).1) set).signatures,
      s.isDuplicate t = true := by
  induction signatures generalizing set with
  | nil => cases h
  | cons first rest ih =>
      cases h with
      | head =>
          rcases exists_isDuplicate_insert set t with ⟨s, hs, hduplicate⟩
          exact ⟨s, subset_signatures_foldl rest _ hs, hduplicate⟩
      | tail _ h => exact ih h _

end OverloadSet

theorem Overloads.exists_isDuplicate_buildSet {signatures : List Signature} {t : Signature}
    (ht : t ∈ signatures) (hvalid : t.isValid = true) (name : String) :
    ∃ s ∈ (buildSet name signatures).signatures, s.isDuplicate t = true :=
  OverloadSet.exists_isDuplicate_foldl (List.mem_filter.mpr ⟨ht, hvalid⟩) _

/-- Where duplicates agree, no modifier is refused for the signatures that were dropped. -/
theorem Operation.exists_decode_of_bind {c : Configuration} {signatures : List Signature}
    {t : Signature} {name : String} {j : Nat} {arguments : List Argument}
    {bound : List BoundArgument} (ht : t ∈ signatures) (hvalid : t.isValid = true)
    (hagree : ∀ s ∈ (Overloads.buildSet name signatures).signatures, s.isDuplicate t = true →
      List.Forall₂ (Parameter.AgreesUpTo c f s t) s.parameters t.parameters)
    (hbind : (Overload.ofSignature c j t).bind arguments = .ok bound) :
    ∃ v, (ofSet c (Overloads.buildSet name signatures)).decode arguments = .ok v := by
  rcases Overloads.exists_isDuplicate_buildSet ht hvalid name with ⟨s, hs, hduplicate⟩
  rcases List.mem_iff_getElem?.mp hs with ⟨i, hi⟩
  have hmem : Overload.ofSignature c i s ∈
      (ofSet c (Overloads.buildSet name signatures)).overloads :=
    List.mem_map_of_mem (List.mk_mem_zipIdx_iff_getElem?.mpr hi)
  have halike : List.Forall₂ (ParameterDecoder.AlikeUpTo f) (Overload.ofSignature c i s).parameters
      (Overload.ofSignature c j t).parameters :=
    Signature.alikeUpTo_of_isDuplicate hduplicate (hagree s hs hduplicate)
  rcases Overload.exists_bind_of_alikeUpTo halike hbind with ⟨bound', hbind', _⟩
  unfold decode
  cases hchoose : choose (ofSet c (Overloads.buildSet name signatures)).overloads arguments with
  | ok chosen => exact ⟨_, rfl⟩
  | error attempts =>
      rcases exists_refusesAll_iff.mp ⟨attempts, choose_eq_error_iff.mp hchoose⟩ _ hmem with
        ⟨cause, hcause⟩
      rw [hbind'] at hcause
      cases hcause

end ViewModifiers
