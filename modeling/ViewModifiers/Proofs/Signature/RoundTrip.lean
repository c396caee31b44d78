import ViewModifiers.Proofs.Signature.TypeText

/-!
# Types and their texts

A type that was read is read from its own text as its settled form.  The two are
the same unless an optional stands directly around an inout type, and two types
have the same text only if they settle to the same type.
-/

namespace ViewModifiers
namespace TypeExpr
namespace Grammar

open ViewModifiers.Grammar ViewModifiers.Grammar.Rule

variable {rest : List Char}

/-!
## Forms of types
-/

section
variable {inner : Rule TypeExpr} {text : List Char}

theorem declines_worded_of_head {w : String} {x : Char} {build : TypeExpr → TypeExpr}
    (hw : w.toList.head? = some x) (h : text.head? ≠ some x) :
    Declines (worded inner w build) text :=
  (declines_word_of_head hw h).bind

theorem yields_worded {w : String} {build : TypeExpr → TypeExpr} {t : TypeExpr}
    (h : Readable inner t) (hrest : Follows closers rest) :
    Yields (worded inner w build) (w.toList ++ ' ' :: t.text.toList) rest fun u => u = build t := by
  apply (yields_word w).bind
  intro _ _
  show Yields _ ([' '] ++ t.text.toList) rest _
  apply (yields_layout1 (h.tight rest)).bind
  intro _ _
  apply (h.reads rest hrest).returning
  intro u hu
  rw [hu]
  exact Yields.pure rfl

theorem declines_decoration (h : text.head? ≠ some '@') :
    Declines (do let _ ← decoration; layout) text :=
  (declines_char h).bind.bind

/-- No attribute stands in front of a type that starts like the text of one. -/
theorem yields_attributedForm {V : TypeExpr → Prop} (h : Yields (functionForm inner) text rest V)
    (hat : (text ++ rest).head? ≠ some '@') : Yields (attributedForm inner) text rest V := by
  apply (yields_many_nil (declines_decoration hat)).silent_bind
  intro _ _
  exact h

theorem yields_typeForm {V : TypeExpr → Prop} (h : Yields (functionForm inner) text rest V)
    (hbegins : Begins nameStops (text ++ rest)) : Yields (typeForm inner) text rest V := by
  have hat : (text ++ rest).head? ≠ some '@' :=
    (Leads.begins hbegins).first_ne (by decide) (by decide)
  apply (declines_worded isName_some hbegins).oneOf_cons
  apply (declines_worded isName_any hbegins).oneOf_cons
  apply (declines_worded isName_inout hbegins).oneOf_cons
  exact yields_attributedForm h hat

theorem declines_typeWithin (depth : Nat) : Declines (typeWithin depth) (')' :: rest) := by
  cases depth with
  | zero => exact fun offset => ⟨_, rfl⟩
  | succ depth =>
      have hnot : ∀ x, x ≠ ')' → (')' :: rest).head? ≠ some x := by
        intro x hx hhead
        cases hhead
        exact hx rfl
      have hname : Declines identifier (')' :: rest) := by
        apply declines_identifier
        · exact hnot graveMark (by decide)
        · intro x hx
          cases hx
          rfl
      have hprimary : Declines (primary (typeWithin depth)) (')' :: rest) := by
        apply declines_oneOf
        intro p hp
        simp only [List.mem_cons, List.not_mem_nil, or_false] at hp
        rcases hp with rfl | rfl | rfl
        · exact (declines_tupleItems (hnot '(' (by decide))).bind
        · exact (declines_collection (hnot '[' (by decide))).bind
        · exact hname.bind.bind
      have hattributed : Declines (attributedForm (typeWithin depth)) (')' :: rest) := by
        show Declines _ ([] ++ ')' :: rest)
        apply (yields_many_nil (declines_decoration (hnot '@' (by decide)))).bind_declines
        intro _ _
        exact hprimary.bind.bind
      apply declines_oneOf
      intro p hp
      simp only [List.mem_cons, List.not_mem_nil, or_false] at hp
      rcases hp with rfl | rfl | rfl | rfl
      · exact declines_worded_of_head rfl (hnot 's' (by decide))
      · exact declines_worded_of_head rfl (hnot 'a' (by decide))
      · exact declines_worded_of_head rfl (hnot 'i' (by decide))
      · exact hattributed

end

/-!
## Types with marks
-/

section
variable {depth : Nat} {t : TypeExpr}

def IsBased (depth : Nat) (text : List Char) (t : TypeExpr) : Prop :=
  ∃ base p marks, Based depth text t base p marks

theorem isBased_named {name : String} {path : List String} {generics : List TypeExpr}
    (hpath : ∀ part ∈ name :: path, IsName part)
    (hgenerics : ∀ u ∈ generics, Readable (typeWithin depth) u) :
    IsBased depth (named (name :: path) generics).text.toList (named (name :: path) generics) := by
  refine ⟨_, .type (named (name :: path) generics), 0, (List.append_nil _).symm, rfl, ?_⟩
  intro rest hrest
  exact yields_primary_named (hpath name List.mem_cons_self) (toList_text_named name path generics)
    (yields_namedType hpath hgenerics hrest)

theorem isBased_array (h : Readable (typeWithin depth) t) :
    IsBased depth (array t).text.toList (array t) := by
  refine ⟨_, .type (array t), 0, (List.append_nil _).symm, rfl, ?_⟩
  intro rest _
  exact yields_primary_collection (toList_text_array t) (yields_array h)

theorem isBased_dictionary {key value : TypeExpr} (hkey : Readable (typeWithin depth) key)
    (hvalue : Readable (typeWithin depth) value) :
    IsBased depth (dictionary key value).text.toList (dictionary key value) := by
  refine ⟨_, .type (dictionary key value), 0, (List.append_nil _).symm, rfl, ?_⟩
  intro rest _
  exact yields_primary_collection (toList_text_dictionary key value)
    (yields_dictionary hkey hvalue)

theorem isBased_tuple {items : List TypeExpr} (hlength : items.length ≠ 1)
    (hitems : ∀ u ∈ items, Readable (typeWithin depth) u) :
    IsBased depth (tuple items).text.toList (tuple items) := by
  refine ⟨_, .list items, 0, (List.append_nil _).symm, ?_, ?_⟩
  · cases items with
    | nil => rfl
    | cons t items =>
        cases items with
        | nil => exact absurd rfl hlength
        | cons u items => rfl
  · intro rest _
    rw [toList_text_tuple]
    exact yields_primary_list (yields_tupleItems hitems (declines_typeWithin depth))

theorem isBased_parenthesised (h : Readable (typeWithin depth) t) :
    IsBased depth ('(' :: ((textList [t]).toList ++ [')']) ++ ['?']) (optional t) := by
  refine ⟨_, .list [t], 1, rfl, rfl, ?_⟩
  intro rest _
  exact yields_primary_list
    (yields_tupleItems (List.forall_mem_singleton.mpr h) (declines_typeWithin depth))

theorem IsBased.optional (h : IsBased depth t.text.toList t) (hplain : ¬ t.isCompound = true) :
    IsBased depth (optional t).text.toList (optional t) := by
  rcases h with ⟨base, p, marks, h⟩
  refine ⟨base, p, marks + 1, ?_, ?_, h.reads⟩
  · rw [toList_text_optional hplain, h.text_eq, List.replicate_succ', List.append_assoc]
  · rw [applyMarks_succ_toType, h.type_eq]

end

/-!
## Parts of types
-/

def parts : TypeExpr → List TypeExpr
  | named _ generics => generics
  | optional t | array t | someOf t | anyOf t | inoutOf t => [t]
  | dictionary key value => [key, value]
  | tuple items => items
  | function parameters result _ _ => result :: parameters

theorem length_le_length_textList {ts : List TypeExpr} {u : TypeExpr} (h : u ∈ ts) :
    u.text.toList.length ≤ (textList ts).toList.length := by
  induction ts with
  | nil => cases h
  | cons t ts ih =>
      cases ts with
      | nil =>
          rw [List.mem_singleton.mp h]
          exact Nat.le_refl _
      | cons v ts =>
          rw [textList_cons_cons, String.toList_append, String.toList_append, List.length_append,
            List.length_append]
          rcases List.mem_cons.mp h with rfl | h
          · omega
          · have hmore := ih h
            omega

theorem length_text_lt {t u : TypeExpr} (h : t.WellFormed) (hu : u ∈ parts t) :
    u.text.toList.length < t.text.toList.length := by
  cases h with
  | @named name path generics _ _ =>
      cases generics with
      | nil => cases hu
      | cons g generics =>
          have hle : u.text.toList.length ≤ (textList (g :: generics)).toList.length :=
            length_le_length_textList hu
          simp only [toList_text_named, argumentsText, List.length_append, List.length_cons]
          exact Nat.lt_add_left _ (Nat.lt_add_left _ (by omega))
  | @optional t _ =>
      rw [List.mem_singleton.mp hu]
      by_cases hcompound : t.isCompound = true
      · rw [toList_text_optional_compound hcompound]
        simp only [textList_singleton, List.length_append, List.length_cons]
        omega
      · rw [toList_text_optional hcompound, List.length_append]
        exact Nat.lt_add_of_pos_right Nat.one_pos
  | array _ =>
      rw [List.mem_singleton.mp hu]
      simp only [toList_text_array, List.length_append, List.length_cons]
      omega
  | dictionary _ _ =>
      simp only [toList_text_dictionary, List.length_append, List.length_cons]
      rcases List.mem_pair.mp hu with rfl | rfl
      · omega
      · omega
  | tuple _ _ =>
      have hle := length_le_length_textList hu
      simp only [toList_text_tuple, List.length_append, List.length_cons]
      exact Nat.lt_succ_of_le (Nat.le_add_right_of_le hle)
  | function _ _ =>
      simp only [toList_text_function, List.length_append, List.length_cons]
      rcases List.mem_cons.mp hu with rfl | hu
      · omega
      · have hle := length_le_length_textList hu
        omega
  | someOf _ =>
      rw [List.mem_singleton.mp hu]
      simp only [toList_text_someOf, List.length_append, List.length_cons]
      omega
  | anyOf _ =>
      rw [List.mem_singleton.mp hu]
      simp only [toList_text_anyOf, List.length_append, List.length_cons]
      omega
  | inoutOf _ =>
      rw [List.mem_singleton.mp hu]
      simp only [toList_text_inoutOf, List.length_append, List.length_cons]
      omega

theorem wellFormed_of_mem_parts {t u : TypeExpr} (h : t.WellFormed) (hu : u ∈ parts t) :
    u.WellFormed := by
  cases h with
  | named _ hgenerics => exact hgenerics u hu
  | tuple _ hitems => exact hitems u hu
  | function hparameters hresult =>
      rcases List.mem_cons.mp hu with rfl | hu
      · exact hresult
      · exact hparameters u hu
  | dictionary hkey hvalue =>
      rcases List.mem_pair.mp hu with rfl | rfl
      · exact hkey
      · exact hvalue
  | optional h | array h | someOf h | anyOf h | inoutOf h =>
      rw [List.mem_singleton.mp hu]
      exact h

theorem isSettled_of_mem_parts {t u : TypeExpr} (h : t.isSettled = true) (hu : u ∈ parts t) :
    u.isSettled = true := by
  cases t with
  | named path generics => exact isSettledList_iff.mp h u hu
  | tuple items => exact isSettledList_iff.mp h u hu
  | function parameters result isAsync throws =>
      rw [isSettled, Bool.and_eq_true] at h
      rcases List.mem_cons.mp hu with rfl | hu
      · exact h.2
      · exact isSettledList_iff.mp h.1 u hu
  | dictionary key value =>
      rw [isSettled, Bool.and_eq_true] at h
      rcases List.mem_pair.mp hu with rfl | rfl
      · exact h.1
      · exact h.2
  | optional t =>
      rw [isSettled, Bool.and_eq_true] at h
      rw [List.mem_singleton.mp hu]
      exact h.2
  | array t | someOf t | anyOf t | inoutOf t =>
      rw [List.mem_singleton.mp hu]
      exact h

/-!
## Types are read from their texts
-/

section
variable {depth : Nat} {t : TypeExpr}

theorem readable_of_yields (h : t.WellFormed) (hsettled : t.isSettled = true)
    (hreads : ∀ rest, Follows closers rest →
      Yields (typeForm (typeWithin depth)) t.text.toList rest fun u => u = t) :
    Readable (typeWithin (depth + 1)) t := by
  constructor
  · exact hreads
  · intro rest hrest
    exact leads_text (by decide) h hsettled hrest

theorem IsBased.yields_typeForm {text rest : List Char} (h : IsBased depth text t)
    (hrest : Follows closers rest) (hbegins : Begins nameStops (text ++ rest)) :
    Yields (typeForm (typeWithin depth)) text rest fun u => u = t := by
  rcases h with ⟨base, p, marks, h⟩
  refine Grammar.yields_typeForm ?_ hbegins
  apply (h.yields_postfixForm hrest).returning
  intro q hq
  apply (declines_arrow hrest).optional.bind_silent
  intro found hfound
  rw [hfound, hq]
  exact Yields.pure h.type_eq

theorem IsBased.readable (hbased : IsBased depth t.text.toList t) (h : t.WellFormed)
    (hsettled : t.isSettled = true) (hworded : isWorded t = false) :
    Readable (typeWithin (depth + 1)) t := by
  apply readable_of_yields h hsettled
  intro rest hrest
  apply hbased.yields_typeForm hrest
  exact begins_text (by decide) h hsettled hworded (hrest.mono rfl)

theorem yields_parameters {parameters : List TypeExpr} {more : List Char}
    (hparameters : ∀ u ∈ parameters, Readable (typeWithin depth) u)
    (hmore : more.head? = some ' ') :
    Yields (postfixForm (typeWithin depth)) ('(' :: ((textList parameters).toList ++ [')'])) more
      fun p => p = .list parameters := by
  have hend : ∀ x, more.head? = some x → (x == '?' || x == '!') = false := by
    intro x hx
    rw [hmore] at hx
    cases hx
    rfl
  have htuple : Yields (tupleItems (typeWithin depth))
      ('(' :: ((textList parameters).toList ++ [')'])) more fun us => us = parameters :=
    yields_tupleItems hparameters (declines_typeWithin depth)
  have hmarks : Yields (takeWhile fun c => c == '?' || c == '!') [] more fun found => found = [] :=
    yields_takeWhile nofun hend
  apply (yields_primary_list htuple).returning
  intro p hp
  apply hmarks.returning
  intro found hfound
  rw [hp, hfound]
  exact Yields.pure rfl

theorem readable_function {parameters : List TypeExpr} {result : TypeExpr} {isAsync throws : Bool}
    (h : (function parameters result isAsync throws).WellFormed)
    (hsettled : (function parameters result isAsync throws).isSettled = true)
    (hparts : ∀ u ∈ result :: parameters, Readable (typeWithin depth) u) :
    Readable (typeWithin (depth + 1)) (function parameters result isAsync throws) := by
  rw [List.forall_mem_cons] at hparts
  apply readable_of_yields h hsettled
  intro rest hrest
  have hbegins : Begins nameStops
      ((function parameters result isAsync throws).text.toList ++ rest) :=
    begins_text (by decide) h hsettled rfl (hrest.mono rfl)
  refine yields_typeForm ?_ hbegins
  have hblank : ((effectsText isAsync throws ++ " -> ".toList ++ result.text.toList) ++
      rest).head? = some ' ' := by
    cases isAsync <;> cases throws <;> rfl
  rw [toList_text_function]
  apply (yields_parameters hparts.2 hblank).bind
  intro p hp
  apply (yields_arrow hparts.1 isAsync throws hrest).optional.returning
  intro found hfound
  rcases hfound with ⟨arrow, hsome, harrow⟩
  rw [hp, hsome, harrow]
  exact Yields.pure rfl

theorem readable_someOf (h : t.WellFormed) (hsettled : t.isSettled = true)
    (hinner : Readable (typeWithin depth) t) : Readable (typeWithin (depth + 1)) (someOf t) := by
  apply readable_of_yields h.someOf hsettled
  intro rest hrest
  rw [toList_text_someOf]
  exact (yields_worded hinner hrest).oneOf_cons

theorem readable_anyOf (h : t.WellFormed) (hsettled : t.isSettled = true)
    (hinner : Readable (typeWithin depth) t) : Readable (typeWithin (depth + 1)) (anyOf t) := by
  apply readable_of_yields h.anyOf hsettled
  intro rest hrest
  rw [toList_text_anyOf]
  apply (declines_worded_of_head (x := 's') rfl (by simp)).oneOf_cons
  exact (yields_worded hinner hrest).oneOf_cons

theorem readable_inoutOf (h : t.WellFormed) (hsettled : t.isSettled = true)
    (hinner : Readable (typeWithin depth) t) : Readable (typeWithin (depth + 1)) (inoutOf t) := by
  apply readable_of_yields h.inoutOf hsettled
  intro rest hrest
  rw [toList_text_inoutOf]
  apply (declines_worded_of_head (x := 's') rfl (by simp)).oneOf_cons
  apply (declines_worded_of_head (x := 'a') rfl (by simp)).oneOf_cons
  exact (yields_worded hinner hrest).oneOf_cons

def ReadsShorter (depth : Nat) : Prop :=
  ∀ t : TypeExpr, t.WellFormed → t.isSettled = true → t.text.toList.length < depth →
    Readable (typeWithin depth) t

theorem ReadsShorter.parts (hshorter : ReadsShorter depth) (h : t.WellFormed)
    (hsettled : t.isSettled = true) (hlength : t.text.toList.length ≤ depth) :
    ∀ u ∈ parts t, Readable (typeWithin depth) u := by
  intro u hu
  apply hshorter u (wellFormed_of_mem_parts h hu) (isSettled_of_mem_parts hsettled hu)
  exact Nat.lt_of_lt_of_le (length_text_lt h hu) hlength

theorem ReadsShorter.isBased (hshorter : ReadsShorter depth) (h : t.WellFormed)
    (hsettled : t.isSettled = true) (hlength : t.text.toList.length ≤ depth)
    (hcompound : ¬ t.isCompound = true) (hinout : t.isInout = false) :
    IsBased depth t.text.toList t := by
  induction h with
  | named hpath hgenerics _ =>
      exact isBased_named hpath (hshorter.parts (.named hpath hgenerics) hsettled hlength)
  | array h _ => exact isBased_array (hshorter.parts h.array hsettled hlength _ List.mem_cons_self)
  | dictionary hkey hvalue _ _ =>
      have hboth := hshorter.parts (hkey.dictionary hvalue) hsettled hlength
      exact isBased_dictionary (hboth _ List.mem_cons_self)
        (hboth _ (List.mem_cons_of_mem _ List.mem_cons_self))
  | tuple hcount hitems _ =>
      exact isBased_tuple hcount (hshorter.parts (.tuple hcount hitems) hsettled hlength)
  | @optional t h ih =>
      have hbelowLength : t.text.toList.length < (optional t).text.toList.length :=
        length_text_lt h.optional List.mem_cons_self
      by_cases hbelow : t.isCompound = true
      · rw [toList_text_optional_compound hbelow]
        exact isBased_parenthesised
          (hshorter.parts h.optional hsettled hlength t List.mem_cons_self)
      · rw [isSettled, Bool.and_eq_true, Bool.not_eq_true'] at hsettled
        have hbased := ih hsettled.2 (by omega) hbelow hsettled.1
        exact hbased.optional hbelow
  | function _ _ _ _ => exact absurd rfl hcompound
  | someOf _ _ => exact absurd rfl hcompound
  | anyOf _ _ => exact absurd rfl hcompound
  | inoutOf _ _ => cases hinout

theorem readsShorter (depth : Nat) : ReadsShorter depth := by
  -- The parts of a type are read with one depth less.
  induction depth with
  | zero => exact fun _ _ _ hlength => absurd hlength (Nat.not_lt_zero _)
  | succ depth ih =>
      intro t h hsettled hlength
      have hle : t.text.toList.length ≤ depth := Nat.le_of_lt_succ hlength
      have hpart := ih.parts h hsettled hle
      have hbased := ih.isBased h hsettled hle
      have hself : t.WellFormed := h
      cases h with
      | named _ _ => exact (hbased nofun rfl).readable hself hsettled rfl
      | optional _ => exact (hbased nofun rfl).readable hself hsettled rfl
      | array _ => exact (hbased nofun rfl).readable hself hsettled rfl
      | dictionary _ _ => exact (hbased nofun rfl).readable hself hsettled rfl
      | tuple _ _ => exact (hbased nofun rfl).readable hself hsettled rfl
      | function _ _ => exact readable_function hself hsettled hpart
      | someOf ht => exact readable_someOf ht hsettled (hpart _ List.mem_cons_self)
      | anyOf ht => exact readable_anyOf ht hsettled (hpart _ List.mem_cons_self)
      | inoutOf ht => exact readable_inoutOf ht hsettled (hpart _ List.mem_cons_self)

end

/-!
## Ends of texts
-/

def EndsTight (text : List Char) : Prop :=
  ∃ front x, text = front ++ [x] ∧ Text.isBlank x = false

theorem endsTight_concat (front : List Char) {x : Char} (hx : Text.isBlank x = false) :
    EndsTight (front ++ [x]) :=
  ⟨front, x, rfl, hx⟩

theorem EndsTight.append {text : List Char} (h : EndsTight text) (front : List Char) :
    EndsTight (front ++ text) := by
  rcases h with ⟨more, x, rfl, hx⟩
  rw [← List.append_assoc]
  exact endsTight_concat _ hx

theorem EndsTight.cons {text : List Char} (h : EndsTight text) (c : Char) :
    EndsTight (c :: text) :=
  h.append [c]

theorem IsName.endsTight {name : String} (h : IsName name) : EndsTight name.toList := by
  rcases List.eq_nil_or_concat' name.toList with hnil | ⟨front, x, hname⟩
  · exact absurd hnil h.ne_nil
  · have hmem : x ∈ name.toList := by
      rw [hname]
      exact List.mem_concat_self
    rw [hname]
    exact endsTight_concat front (isBlank_eq_false (h.isNamePart_or x hmem))

theorem endsTight_text {t : TypeExpr} (h : t.WellFormed) : EndsTight t.text.toList := by
  induction h with
  | @named name path generics hpath _ _ =>
      rw [toList_text_named]
      cases generics with
      | cons g generics =>
          have harguments : EndsTight (argumentsText (g :: generics)) :=
            (endsTight_concat _ rfl).cons '<'
          exact (harguments.append _).append _
      | nil =>
          rw [argumentsText, List.append_nil]
          rcases List.eq_nil_or_concat' path with rfl | ⟨front, part, rfl⟩
          · rw [List.flatMap_nil, List.append_nil]
            exact (hpath name List.mem_cons_self).endsTight
          · have hpart : IsName part := hpath part (by simp)
            rw [List.flatMap_append, List.flatMap_singleton]
            exact ((hpart.endsTight.cons '.').append _).append _
  | @optional t _ _ =>
      by_cases hcompound : t.isCompound = true
      · rw [toList_text_optional_compound hcompound]
        exact endsTight_concat _ rfl
      · rw [toList_text_optional hcompound]
        exact endsTight_concat _ rfl
  | array _ _ =>
      rw [toList_text_array]
      exact (endsTight_concat _ rfl).cons '['
  | dictionary _ _ _ _ =>
      rw [toList_text_dictionary, ← List.append_assoc, ← List.append_assoc]
      exact (endsTight_concat _ rfl).cons '['
  | tuple _ _ _ =>
      rw [toList_text_tuple]
      exact (endsTight_concat _ rfl).cons '('
  | function _ _ _ ih =>
      rw [toList_text_function]
      exact (ih.append _).append _
  | someOf _ ih =>
      rw [toList_text_someOf]
      exact (ih.cons ' ').append _
  | anyOf _ ih =>
      rw [toList_text_anyOf]
      exact (ih.cons ' ').append _
  | inoutOf _ ih =>
      rw [toList_text_inoutOf]
      exact (ih.cons ' ').append _

theorem trim_eq_self {source : String} {x : Char} {more : List Char}
    (hfirst : source.toList = x :: more) (hx : Text.isBlank x = false)
    (hend : EndsTight source.toList) : Text.trim source = source := by
  have hdrop : Text.dropBlanks source.toList = source.toList := by
    rw [hfirst]
    exact List.dropWhile_cons_of_neg (Bool.not_eq_true _ ▸ hx)
  have hdropEnd : Text.dropBlanksEnd source.toList = source.toList := by
    rcases hend with ⟨front, y, htext, hy⟩
    rw [htext, Text.dropBlanksEnd, List.reverse_append, List.reverse_singleton,
      List.singleton_append, List.dropWhile_cons_of_neg (Bool.not_eq_true _ ▸ hy),
      List.reverse_cons, List.reverse_reverse]
  rw [Text.trim, Text.trimChars, hdrop, hdropEnd, String.ofList_toList]

theorem trim_text {t : TypeExpr} (h : t.WellFormed) (hsettled : t.isSettled = true) :
    Text.trim t.text = t.text := by
  have hleads : Leads nameStops (t.text.toList ++ []) :=
    leads_text (by decide) h hsettled (follows_nil _)
  rw [List.append_nil] at hleads
  rcases hleads.exists_first with ⟨x, more, htext, hx⟩
  refine trim_eq_self htext ?_ (endsTight_text h)
  rcases hx with (rfl | rfl) | hx
  · rfl
  · rfl
  · exact isBlank_eq_false (isNamePart_or_of_isNameStart hx)

theorem parse_of_yields {source : String} {t : TypeExpr} (htrim : Text.trim source = source)
    (h : Yields (typeForm (typeWithin source.toList.length)) source.toList [] fun u => u = t) :
    parse source = .ok t := by
  have htype : Yields type source.toList [] fun u => u = t := by
    intro offset
    have hdepth : type ⟨source.toList ++ [], offset⟩ =
        typeForm (typeWithin source.toList.length) ⟨source.toList ++ [], offset⟩ := by
      rw [List.append_nil]
      rfl
    rw [hdepth]
    exact h offset
  have hwhole : Yields (do let u ← type; layout; return u) source.toList [] fun u => u = t := by
    apply htype.returning
    intro u hu
    apply (yields_no_layout (follows_nil closers).tight).silent_bind
    intro _ _
    exact Yields.pure hu
  rcases hwhole.exists_of_ok trivial 0 with ⟨u, offset, hrun, hu⟩
  rw [List.append_nil] at hrun
  rw [parse, htrim]
  unfold Cursor.ofString
  rw [hrun, hu]
  rfl

end Grammar

/-!
## Parsing
-/

open ViewModifiers.TypeExpr.Grammar

theorem WellFormed.parse_text {t : TypeExpr} (h : t.WellFormed) (hsettled : t.isSettled = true) :
    parse t.text = .ok t := by
  apply parse_of_yields (trim_text h hsettled)
  exact (readsShorter _ t h hsettled (Nat.lt_succ_self _)).reads [] (follows_nil _)

theorem WellFormed.parse_parenthesised {t : TypeExpr} (h : t.WellFormed)
    (hsettled : t.isSettled = true) : parse ("(" ++ t.text ++ ")?") = .ok (.optional t) := by
  have htext : ("(" ++ t.text ++ ")?").toList =
      '(' :: ((textList [t]).toList ++ [')']) ++ ['?'] := by
    simp [textList_singleton]
  have hend : EndsTight ("(" ++ t.text ++ ")?").toList := by
    rw [htext]
    exact endsTight_concat _ rfl
  have hlength : t.text.toList.length < ("(" ++ t.text ++ ")?").toList.length := by
    rw [htext]
    simp only [textList_singleton, List.length_append, List.length_cons]
    omega
  apply parse_of_yields (trim_eq_self htext rfl hend)
  have hbased := isBased_parenthesised (readsShorter _ t h hsettled hlength)
  rw [htext] at hbased ⊢
  exact hbased.yields_typeForm (follows_nil _) (.bracket (Or.inl rfl))

def isQualified : TypeExpr → Bool
  | named (_ :: _ :: _) _ => true
  | _ => false

theorem normalizedName_of_unqualified {t : TypeExpr} (h : t.isQualified = false) :
    t.normalizedName = t.text := by
  cases t with
  | named path generics =>
      cases path with
      | nil => rfl
      | cons name path =>
          cases path with
          | nil => rfl
          | cons part path => cases h
  | _ => rfl

/--
A type that was read is read from its text as its settled form, which is the type
itself if and only if no optional stands directly around an inout type.  Two types
that were read have the same text, and the same name where it is unqualified, if
and only if their settled forms are the same.
-/
theorem parse_text_eq {source : String} {t : TypeExpr} (h : parse source = .ok t) :
    parse t.text = .ok t.settled ∧ (parse t.text = .ok t ↔ t.isSettled = true) ∧
      ∀ (other : String) (u : TypeExpr), parse other = .ok u →
        (t.text = u.text ↔ t.settled = u.settled) ∧
          (t.isQualified = false → u.isQualified = false →
            (t.normalizedName = u.normalizedName ↔ t.settled = u.settled)) := by
  have hread : ∀ {source : String} {t : TypeExpr}, parse source = .ok t →
      parse t.text = .ok t.settled := by
    intro source t h
    have hwell := wellFormed_of_parse h
    rw [← hwell.text_settled]
    exact hwell.settled.parse_text hwell.isSettled_settled
  have hwell := wellFormed_of_parse h
  have hself : parse t.text = .ok t ↔ t.isSettled = true := by
    constructor
    · intro hparse
      rw [hread h, Except.ok.injEq] at hparse
      rw [← hparse]
      exact hwell.isSettled_settled
    · intro hsettled
      rw [hread h, hwell.settled_eq_self hsettled]
  have htext : ∀ {other : String} {u : TypeExpr}, parse other = .ok u →
      (t.text = u.text ↔ t.settled = u.settled) := by
    intro other u hu
    constructor
    · intro heq
      have hboth := hread hu
      rw [← heq, hread h] at hboth
      exact Except.ok.inj hboth
    · intro heq
      rw [← hwell.text_settled, heq, (wellFormed_of_parse hu).text_settled]
  refine ⟨hread h, hself, ?_⟩
  intro other u hu
  refine ⟨htext hu, ?_⟩
  intro ht hu'
  rw [normalizedName_of_unqualified ht, normalizedName_of_unqualified hu']
  exact htext hu

def optionalInout : TypeExpr :=
  .optional (.inoutOf (.named ["Int"] []))

theorem wellFormed_int : (named ["Int"] []).WellFormed := by
  have hread : parse "Int" = .ok (.named ["Int"] []) := rfl
  exact wellFormed_of_parse hread

theorem parse_optionalInout : parse "(inout Int)?" = .ok optionalInout :=
  wellFormed_int.inoutOf.parse_parenthesised rfl

theorem parse_text_eq_of_optionalInout :
    parse "(inout Int)?" = .ok optionalInout ∧
      parse optionalInout.text = .ok (.inoutOf (.optional (.named ["Int"] []))) :=
  ⟨parse_optionalInout, (parse_text_eq parse_optionalInout).1⟩

/--
An optional of an inout type is not read from its text, which is that of an inout
optional.
-/
theorem not_parse_text_of_optional_inout :
    (¬ ∀ (source : String) (t : TypeExpr), parse source = .ok t → parse t.text = .ok t) ∧
      ¬ ∀ (source other : String) (t u : TypeExpr), parse source = .ok t →
        parse other = .ok u → t.text = u.text → t = u := by
  have hother : parse "inout Int?" = .ok (.inoutOf (.optional (.named ["Int"] []))) :=
    wellFormed_int.optional.inoutOf.parse_text rfl
  have hne : optionalInout ≠ .inoutOf (.optional (.named ["Int"] [])) := nofun
  constructor
  · intro h
    have hself : parse "inout Int?" = .ok optionalInout :=
      h "(inout Int)?" optionalInout parse_optionalInout
    rw [hother, Except.ok.injEq] at hself
    exact hne hself.symm
  · intro h
    exact hne (h "(inout Int)?" "inout Int?" _ _ parse_optionalInout hother rfl)

end TypeExpr
end ViewModifiers
