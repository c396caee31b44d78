import ViewModifiers.Table.Binding
import Mathlib.Data.List.Forall2

/-!
# Blocks of arguments

Binding cuts an argument list into consecutive blocks, one for each parameter in
order, some of them empty.  What a parameter makes of a block is one relation,
and each block is the longest one that its parameter can take at its place.
Main statement: an overload binds an argument list if and only if the list is
such a sequence of blocks, and what it answers otherwise says which parameter
has no block or which argument no block.
-/

namespace ViewModifiers
namespace ParameterDecoder

/-!
## What a parameter takes
-/

def LabelledFirst (label : Option String) : List Argument → Prop
  | [] => True
  | a :: rest => a.label = label ∧ ∀ b ∈ rest, b.label = none

def DecodeTo (k : ValueKind) (arguments : List Argument) (items : List Value) : Prop :=
  List.Forall₂ (fun a v => k.decodeConstant a.value = .ok v) arguments items

inductive Fits (p : ParameterDecoder) : List Argument → Reference → Prop where
  | fallback {v : Value} : p.isVariadic = false → p.default = some v → Fits p [] (.constant v)
  | argument {a : Argument} {r : Reference} : p.isVariadic = false → a.label = p.label →
      p.kind.decodeArgument a.value = .ok r → Fits p [a] (r.withDefault p.default)
  | items {block : List Argument} {items : List Value} : p.isVariadic = true →
      LabelledFirst p.label block → DecodeTo p.kind block items →
      Fits p block (.constant (.array items))

/-- No block at the front of the arguments that fits is longer. -/
def Longest (p : ParameterDecoder) (block arguments : List Argument) : Prop :=
  ∀ other r, other <+: arguments → p.Fits other r → other.length ≤ block.length

inductive Passes (p : ParameterDecoder) : List Argument → BindError → Prop where
  | missing {arguments : List Argument} : (∀ a ∈ arguments.head?, a.label ≠ p.label) →
      Passes p arguments (.missing p.selectorLabel)
  | undecodable {a : Argument} {rest : List Argument} {cause : DecodeError} :
      a.label = p.label → p.kind.decodeArgument a.value = .error cause →
      Passes p (a :: rest) (.undecodable p.selectorLabel cause)

/-- No block at the front of the arguments fits, not even the empty one. -/
structure Refuses (p : ParameterDecoder) (arguments : List Argument) (cause : BindError) :
    Prop where
  not_variadic : p.isVariadic = false
  no_default : p.default = none
  passes : p.Passes arguments cause

theorem labelledFirst_cons {label : Option String} {a : Argument} {rest : List Argument} :
    LabelledFirst label (a :: rest) ↔ a.label = label ∧ LabelledFirst none rest := by
  cases rest with
  | nil => simp [LabelledFirst]
  | cons b rest => simp [LabelledFirst]

section
variable {p : ParameterDecoder} {k : ValueKind} {arguments block left : List Argument}

/-!
## Variadic parameters
-/

theorem exists_block_of_takeMany (k : ValueKind) (label : Option String)
    (arguments : List Argument) :
    ∃ block, block ++ (takeMany k label arguments).2 = arguments ∧ LabelledFirst label block ∧
      DecodeTo k block (takeMany k label arguments).1 := by
  induction arguments generalizing label with
  | nil => exact ⟨[], rfl, trivial, .nil⟩
  | cons a rest ih =>
      unfold takeMany
      split
      · next hlabel =>
          split
          · next v hdecode =>
              rcases ih none with ⟨block, hblock, hlabels, hitems⟩
              refine ⟨a :: block, ?_, ?_, ?_⟩
              · show a :: (block ++ (takeMany k none rest).2) = a :: rest
                rw [hblock]
              · exact labelledFirst_cons.mpr ⟨hlabel, hlabels⟩
              · exact .cons hdecode hitems
          · exact ⟨[], rfl, trivial, .nil⟩
      · exact ⟨[], rfl, trivial, .nil⟩

/-- Whatever else decodes at the front leaves as many arguments at least. -/
theorem length_left_takeMany_le {label : Option String} {other : List Argument}
    {items : List Value} (hfront : other <+: arguments) (hlabels : LabelledFirst label other)
    (hitems : DecodeTo k other items) :
    other.length + (takeMany k label arguments).2.length ≤ arguments.length := by
  induction arguments generalizing label other items with
  | nil =>
      cases List.prefix_nil.mp hfront
      exact Nat.le_refl 0
  | cons a rest ih =>
      cases hitems with
      | nil =>
          rcases exists_block_of_takeMany k label (a :: rest) with ⟨block, hblock, _⟩
          have hlength := congrArg List.length hblock
          rw [List.length_append] at hlength
          rw [List.length_nil, Nat.zero_add]
          exact Nat.le.intro (Nat.add_comm _ _ ▸ hlength)
      | cons hdecode hmore =>
          rcases List.cons_prefix_cons.mp hfront with ⟨rfl, hrest⟩
          rcases labelledFirst_cons.mp hlabels with ⟨hlabel, hlabels⟩
          unfold takeMany
          rw [if_pos hlabel, hdecode]
          have hle := ih hrest hlabels hmore
          simp only [List.length_cons]
          omega

/-!
## One argument
-/

theorem takeOne_eq_or (p : ParameterDecoder) (arguments : List Argument) :
    (∃ a rest r, arguments = a :: rest ∧ a.label = p.label ∧
        p.kind.decodeArgument a.value = .ok r ∧
        p.takeOne arguments = .ok (r.withDefault p.default, rest)) ∨
      ∃ failure, p.Passes arguments failure ∧
        p.takeOne arguments = (p.fallback failure).map fun r => (r, arguments) := by
  cases arguments with
  | nil => exact Or.inr ⟨_, .missing nofun, rfl⟩
  | cons a rest =>
      by_cases hlabel : a.label = p.label
      · cases hdecode : p.kind.decodeArgument a.value with
        | ok r =>
            refine Or.inl ⟨a, rest, r, rfl, hlabel, hdecode, ?_⟩
            simp [takeOne, hlabel, hdecode]
        | error cause =>
            refine Or.inr ⟨_, .undecodable hlabel hdecode, ?_⟩
            simp [takeOne, hlabel, hdecode]
      · refine Or.inr ⟨_, .missing ?_, ?_⟩
        · intro b hb
          cases hb
          exact hlabel
        · simp [takeOne, hlabel]

/-- If the next argument is none for a parameter, only the default is left. -/
theorem Passes.eq_nil_of_fits {failure : BindError} {other : List Argument} {r : Reference}
    (h : p.Passes arguments failure) (hvariadic : p.isVariadic = false)
    (hfront : other <+: arguments) (hfits : p.Fits other r) :
    other = [] ∧ ∃ v, p.default = some v := by
  cases hfits with
  | fallback _ hdefault => exact ⟨rfl, _, hdefault⟩
  | argument _ hlabel hdecode =>
      exfalso
      cases h with
      | missing hhead =>
          cases arguments with
          | nil => cases List.prefix_nil.mp hfront
          | cons b rest =>
              rcases List.cons_prefix_cons.mp hfront with ⟨rfl, _⟩
              exact hhead _ rfl hlabel
      | undecodable _ herror =>
          rcases List.cons_prefix_cons.mp hfront with ⟨rfl, _⟩
          rw [herror] at hdecode
          cases hdecode
  | items hitems => cases hitems.symm.trans hvariadic

theorem Passes.unique {failure other : BindError} (h : p.Passes arguments failure)
    (hother : p.Passes arguments other) : failure = other := by
  cases h with
  | missing hhead =>
      cases hother with
      | missing => rfl
      | undecodable hlabel => exact absurd hlabel (hhead _ rfl)
  | undecodable hlabel herror =>
      cases hother with
      | missing hhead => exact absurd hlabel (hhead _ rfl)
      | undecodable _ hagain =>
          rw [herror] at hagain
          cases hagain
          rfl

theorem length_le_one_of_fits {other : List Argument} {r : Reference}
    (hvariadic : p.isVariadic = false) (hfits : p.Fits other r) : other.length ≤ 1 := by
  cases hfits with
  | fallback => exact Nat.zero_le 1
  | argument => exact Nat.le_refl 1
  | items hitems => cases hitems.symm.trans hvariadic

/-!
## One parameter
-/

theorem take_eq_or (p : ParameterDecoder) (arguments : List Argument) :
    (∃ block left r, block ++ left = arguments ∧ p.Fits block r ∧ p.Longest block arguments ∧
        p.take arguments = .ok (r, left)) ∨
      ∃ cause, p.Refuses arguments cause ∧ p.take arguments = .error cause := by
  unfold take
  split
  · next hvariadic =>
      left
      rcases exists_block_of_takeMany p.kind p.label arguments with
        ⟨block, hblock, hlabels, hitems⟩
      refine ⟨block, _, _, hblock, .items hvariadic hlabels hitems, ?_, rfl⟩
      intro other s hfront hfits
      cases hfits with
      | fallback hnot => cases hnot.symm.trans hvariadic
      | argument hnot => cases hnot.symm.trans hvariadic
      | items _ hotherLabels hotherItems =>
          have hle := length_left_takeMany_le hfront hotherLabels hotherItems
          have hlength := congrArg List.length hblock
          rw [List.length_append] at hlength
          omega
  · next hnot =>
      have hvariadic := Bool.eq_false_iff.mpr hnot
      rcases p.takeOne_eq_or arguments with
        ⟨a, rest, r, harguments, hlabel, hdecode, htake⟩ | ⟨failure, hpasses, htake⟩
      · left
        refine ⟨[a], rest, _, harguments.symm, .argument hvariadic hlabel hdecode, ?_, htake⟩
        intro other s _ hfits
        exact length_le_one_of_fits hvariadic hfits
      · rw [htake, fallback]
        cases hdefault : p.default with
        | some v =>
            left
            refine ⟨[], arguments, _, rfl, .fallback hvariadic hdefault, ?_, rfl⟩
            intro other s hfront hfits
            rcases hpasses.eq_nil_of_fits hvariadic hfront hfits with ⟨rfl, _⟩
            exact Nat.le_refl 0
        | none =>
            right
            exact ⟨failure, ⟨hvariadic, hdefault, hpasses⟩, rfl⟩

theorem Refuses.not_fits {cause : BindError} {other : List Argument} {r : Reference}
    (h : p.Refuses arguments cause) (hfront : other <+: arguments) : ¬ p.Fits other r := by
  intro hfits
  rcases h.passes.eq_nil_of_fits h.not_variadic hfront hfits with ⟨_, v, hdefault⟩
  rw [h.no_default] at hdefault
  cases hdefault

theorem decodeConstant_unique :
    Relator.RightUnique fun (a : Argument) (v : Value) => k.decodeConstant a.value = .ok v := by
  intro a v w hv hw
  rw [hv] at hw
  cases hw
  rfl

theorem Fits.unique {r s : Reference} (hr : p.Fits block r) (hs : p.Fits block s) : r = s := by
  cases hr with
  | fallback hnot hdefault =>
      cases hs with
      | fallback _ hother =>
          rw [hdefault] at hother
          cases hother
          rfl
      | items hvariadic => cases hnot.symm.trans hvariadic
  | argument hnot _ hdecode =>
      cases hs with
      | argument _ _ hother =>
          rw [hdecode] at hother
          cases hother
          rfl
      | items hvariadic => cases hnot.symm.trans hvariadic
  | items hvariadic _ hitems =>
      cases hs with
      | fallback hnot => cases hnot.symm.trans hvariadic
      | argument hnot => cases hnot.symm.trans hvariadic
      | items _ _ hothers =>
          rw [List.right_unique_forall₂' decodeConstant_unique hitems hothers]

theorem take_eq_ok_iff {r : Reference} :
    p.take arguments = .ok (r, left) ↔
      ∃ block, block ++ left = arguments ∧ p.Fits block r ∧ p.Longest block arguments := by
  rcases p.take_eq_or arguments with
    ⟨block, rest, s, hblock, hfits, hlongest, htake⟩ | ⟨cause, hrefuses, htake⟩
  · rw [htake]
    constructor
    · intro h
      cases h
      exact ⟨block, hblock, hfits, hlongest⟩
    · intro h
      rcases h with ⟨other, hother, hotherFits, hotherLongest⟩
      -- Both blocks are the longest at the same place, so that they are one.
      have hle := hlongest other r ⟨left, hother⟩ hotherFits
      have hge := hotherLongest block s ⟨rest, hblock⟩ hfits
      rcases List.append_inj (hother.trans hblock.symm) (Nat.le_antisymm hle hge) with
        ⟨rfl, rfl⟩
      rw [hfits.unique hotherFits]
  · rw [htake]
    constructor
    · intro h
      cases h
    · intro h
      rcases h with ⟨block, hblock, hfits, _⟩
      exact absurd hfits (hrefuses.not_fits ⟨left, hblock⟩)

theorem take_eq_error_iff {cause : BindError} :
    p.take arguments = .error cause ↔ p.Refuses arguments cause := by
  rcases p.take_eq_or arguments with
    ⟨block, rest, r, hblock, hfits, _, htake⟩ | ⟨other, hother, htake⟩
  · rw [htake]
    constructor
    · intro h
      cases h
    · intro h
      exact absurd hfits (h.not_fits ⟨rest, hblock⟩)
  · rw [htake]
    constructor
    · intro h
      cases h
      exact hother
    · intro h
      rw [hother.passes.unique h.passes]

end

/-!
## All parameters
-/

/--
The blocks of some parameters, in order and with further arguments behind them,
and what the parameters are bound to.
-/
inductive Assigns (left : List Argument) :
    List ParameterDecoder → List (List Argument) → List BoundArgument → Prop where
  | nil : Assigns left [] [] []
  | cons {p : ParameterDecoder} {ps : List ParameterDecoder} {block : List Argument}
      {blocks : List (List Argument)} {r : Reference} {bound : List BoundArgument} :
      p.Fits block r → p.Longest block (block ++ (blocks.flatten ++ left)) →
      Assigns left ps blocks bound →
      Assigns left (p :: ps) (block :: blocks) (⟨p.name, p.label, r⟩ :: bound)

/-- Why parameters and arguments do not go together. -/
inductive Fails : List ParameterDecoder → List Argument → BindError → Prop where
  /-- Each parameter has its block, and an argument is left over. -/
  | leftover {ps : List ParameterDecoder} {blocks : List (List Argument)}
      {bound : List BoundArgument} {extra : Argument} {left : List Argument} :
      Assigns (extra :: left) ps blocks bound →
      Fails ps (blocks.flatten ++ extra :: left) (.unexpected extra.render)
  /-- The parameters in front have their blocks, and one has none. -/
  | refused {ps more : List ParameterDecoder} {p : ParameterDecoder}
      {blocks : List (List Argument)} {bound : List BoundArgument} {left : List Argument}
      {cause : BindError} :
      Assigns left ps blocks bound → p.Refuses left cause →
      Fails (ps ++ p :: more) (blocks.flatten ++ left) cause

theorem bindAll_append {left : List Argument} {ps : List ParameterDecoder}
    {blocks : List (List Argument)} {bound : List BoundArgument}
    (h : Assigns left ps blocks bound) (more : List ParameterDecoder) :
    bindAll (ps ++ more) (blocks.flatten ++ left) = (bindAll more left).map (bound ++ ·) := by
  induction h with
  | nil =>
      cases hmore : bindAll more left with
      | error cause => simp [hmore, Except.map]
      | ok bound => simp [hmore, Except.map]
  | cons hfits hlongest _ ih =>
      next p ps block blocks r bound _ =>
      have htake : p.take (block ++ (blocks.flatten ++ left)) = .ok (r, blocks.flatten ++ left) :=
        take_eq_ok_iff.mpr ⟨block, rfl, hfits, hlongest⟩
      rw [List.flatten_cons, List.append_assoc, List.cons_append, bindAll, htake]
      show (do
        let rest ← bindAll (ps ++ more) (blocks.flatten ++ left)
        return (⟨p.name, p.label, r⟩ : BoundArgument) :: rest) = _
      rw [ih]
      cases bindAll more left with
      | error cause => rfl
      | ok bound => rfl

section
variable {ps : List ParameterDecoder} {arguments : List Argument} {blocks : List (List Argument)}
  {bound : List BoundArgument} {cause : BindError}

theorem bindAll_of_assigns (h : Assigns [] ps blocks bound) :
    bindAll ps blocks.flatten = .ok bound := by
  have hrun := bindAll_append h []
  rw [List.append_nil, List.append_nil] at hrun
  rw [hrun]
  show Except.ok (bound ++ []) = Except.ok bound
  rw [List.append_nil]

theorem bindAll_of_fails (h : Fails ps arguments cause) : bindAll ps arguments = .error cause := by
  cases h with
  | leftover hassigns =>
      have hrun := bindAll_append hassigns []
      rw [List.append_nil] at hrun
      rw [hrun]
      rfl
  | refused hassigns hrefuses =>
      next ps more p blocks bound left =>
      rw [bindAll_append hassigns (p :: more), bindAll, take_eq_error_iff.mpr hrefuses]
      rfl

theorem Fails.cons {p : ParameterDecoder} {block left : List Argument} {r : Reference}
    (hfits : p.Fits block r) (hlongest : p.Longest block (block ++ left))
    (h : Fails ps left cause) : Fails (p :: ps) (block ++ left) cause := by
  cases h with
  | leftover hassigns =>
      have hfails := Fails.leftover (.cons hfits hlongest hassigns)
      rw [List.flatten_cons, List.append_assoc] at hfails
      exact hfails
  | refused hassigns hrefuses =>
      next ps more q blocks bound left =>
      have hfails : Fails ((p :: ps) ++ q :: more) ((block :: blocks).flatten ++ left) cause :=
        .refused (.cons hfits hlongest hassigns) hrefuses
      rw [List.flatten_cons, List.append_assoc] at hfails
      exact hfails

theorem assigns_or_fails (ps : List ParameterDecoder) (arguments : List Argument) :
    (∃ blocks bound, blocks.flatten = arguments ∧ Assigns [] ps blocks bound) ∨
      ∃ cause, Fails ps arguments cause := by
  induction ps generalizing arguments with
  | nil =>
      cases arguments with
      | nil => exact Or.inl ⟨[], [], rfl, .nil⟩
      | cons extra rest =>
          have hfails : Fails [] (([] : List (List Argument)).flatten ++ extra :: rest)
              (.unexpected extra.render) := .leftover .nil
          exact Or.inr ⟨_, hfails⟩
  | cons p ps ih =>
      rcases p.take_eq_or arguments with
        ⟨block, left, r, rfl, hfits, hlongest, _⟩ | ⟨cause, hrefuses, _⟩
      · rcases ih left with ⟨blocks, bound, rfl, hassigns⟩ | ⟨cause, hfails⟩
        · refine Or.inl ⟨block :: blocks, _, rfl, .cons hfits ?_ hassigns⟩
          rw [List.append_nil]
          exact hlongest
        · exact Or.inr ⟨cause, hfails.cons hfits hlongest⟩
      · have hfails : Fails ([] ++ p :: ps) (([] : List (List Argument)).flatten ++ arguments)
            cause := .refused .nil hrefuses
        exact Or.inr ⟨cause, hfails⟩

theorem bindAll_eq_ok_iff :
    bindAll ps arguments = .ok bound ↔
      ∃ blocks, blocks.flatten = arguments ∧ Assigns [] ps blocks bound := by
  constructor
  · intro h
    rcases assigns_or_fails ps arguments with ⟨blocks, other, rfl, hassigns⟩ | ⟨cause, hfails⟩
    · rw [bindAll_of_assigns hassigns] at h
      cases h
      exact ⟨blocks, rfl, hassigns⟩
    · rw [bindAll_of_fails hfails] at h
      cases h
  · intro h
    rcases h with ⟨blocks, rfl, hassigns⟩
    exact bindAll_of_assigns hassigns

theorem bindAll_eq_error_iff :
    bindAll ps arguments = .error cause ↔ Fails ps arguments cause := by
  constructor
  · intro h
    rcases assigns_or_fails ps arguments with ⟨blocks, other, rfl, hassigns⟩ | ⟨other, hfails⟩
    · rw [bindAll_of_assigns hassigns] at h
      cases h
    · rw [bindAll_of_fails hfails] at h
      cases h
      exact hfails
  · exact bindAll_of_fails

theorem Assigns.names_eq {left : List Argument} (h : Assigns left ps blocks bound) :
    (bound.map fun a => (a.name, a.label)) = ps.map fun p => (p.name, p.label) := by
  induction h with
  | nil => rfl
  | cons _ _ _ ih => rw [List.map_cons, List.map_cons, ih]

theorem Assigns.length_eq {left : List Argument} (h : Assigns left ps blocks bound) :
    blocks.length = ps.length := by
  induction h with
  | nil => rfl
  | cons _ _ _ ih => rw [List.length_cons, List.length_cons, ih]

end

end ParameterDecoder

/--
Binding loses, duplicates and reorders no argument.  An overload binds an
argument list if and only if the list is the concatenation of one block for each
parameter, each as long as it can be behind those in front of it, and the entries
are what the parameters make of their blocks.  It answers a failure if and only
if the blocks of some parameters are followed by arguments that the next
parameter refuses, or those of all parameters by an argument too many.
-/
theorem Overload.bind_iff (o : Overload) (arguments : List Argument) :
    (∀ bound, o.bind arguments = .ok bound ↔
        ∃ blocks, blocks.flatten = arguments ∧ blocks.length = o.parameters.length ∧
          (bound.map fun a => (a.name, a.label)) =
            (o.parameters.map fun p => (p.name, p.label)) ∧
          ParameterDecoder.Assigns [] o.parameters blocks bound) ∧
      (∀ cause, o.bind arguments = .error cause ↔
        ParameterDecoder.Fails o.parameters arguments cause) ∧
      ((∃ cause, o.bind arguments = .error cause) ↔
        ¬ ∃ blocks bound, blocks.flatten = arguments ∧
          ParameterDecoder.Assigns [] o.parameters blocks bound) := by
  refine ⟨?_, ?_, ?_⟩
  · intro bound
    constructor
    · intro h
      rcases ParameterDecoder.bindAll_eq_ok_iff.mp h with ⟨blocks, hblocks, hassigns⟩
      exact ⟨blocks, hblocks, hassigns.length_eq, hassigns.names_eq, hassigns⟩
    · intro h
      rcases h with ⟨blocks, hblocks, _, _, hassigns⟩
      exact ParameterDecoder.bindAll_eq_ok_iff.mpr ⟨blocks, hblocks, hassigns⟩
  · intro cause
    exact ParameterDecoder.bindAll_eq_error_iff
  · constructor
    · intro h hsplit
      rcases h with ⟨cause, hcause⟩
      rcases hsplit with ⟨blocks, bound, hblocks, hassigns⟩
      have hok : o.bind arguments = .ok bound :=
        ParameterDecoder.bindAll_eq_ok_iff.mpr ⟨blocks, hblocks, hassigns⟩
      rw [hok] at hcause
      cases hcause
    · intro hnone
      rcases ParameterDecoder.assigns_or_fails o.parameters arguments with
        hsplit | ⟨cause, hfails⟩
      · exact absurd hsplit hnone
      · exact ⟨cause, ParameterDecoder.bindAll_eq_error_iff.mpr hfails⟩

end ViewModifiers
