import ViewModifiers.Proofs.Signature.Beginnings
import ViewModifiers.Proofs.Signature.Marks

/-!
# Reading the texts of types

Each form of type is read from its text if the types in it are: lists between
brackets, names with arguments, primaries with their marks, and functions.  What
stands behind a type does not belong to it.
-/

namespace ViewModifiers
namespace TypeExpr
namespace Grammar

open ViewModifiers.Grammar ViewModifiers.Grammar.Rule

variable {text rest : List Char}

/-!
## Texts of types
-/

theorem toList_intercalate (name : String) (path : List String) :
    (String.intercalate "." (name :: path)).toList =
      name.toList ++ path.flatMap fun part => '.' :: part.toList := by
  induction path generalizing name with
  | nil => simp
  | cons part path ih =>
      rw [String.intercalate_cons_cons, String.toList_append, String.toList_append, ih,
        List.append_assoc]
      rfl

theorem toList_textList (t : TypeExpr) (ts : List TypeExpr) :
    (textList (t :: ts)).toList =
      t.text.toList ++ ts.flatMap fun u => [',', ' '] ++ u.text.toList := by
  induction ts generalizing t with
  | nil => rw [textList_singleton, List.flatMap_nil, List.append_nil]
  | cons u ts ih =>
      rw [textList_cons_cons, String.toList_append, String.toList_append, ih, List.append_assoc]
      rfl

def argumentsText : List TypeExpr → List Char
  | [] => []
  | t :: ts => '<' :: ((textList (t :: ts)).toList ++ ['>'])

theorem toList_text_named (name : String) (path : List String) (generics : List TypeExpr) :
    (named (name :: path) generics).text.toList =
      name.toList ++ ((path.flatMap fun part => '.' :: part.toList) ++ argumentsText generics) := by
  cases generics with
  | nil =>
      rw [argumentsText, List.append_nil]
      exact toList_intercalate name path
  | cons t ts =>
      simp only [text_named_cons, String.toList_append, toList_intercalate, argumentsText,
        List.append_assoc]
      rfl

theorem toList_text_optional {t : TypeExpr} (h : ¬ t.isCompound = true) :
    (optional t).text.toList = t.text.toList ++ ['?'] := by
  rw [text_optional h, String.toList_append]
  rfl

theorem toList_text_optional_compound {t : TypeExpr} (h : t.isCompound = true) :
    (optional t).text.toList = '(' :: ((textList [t]).toList ++ [')']) ++ ['?'] := by
  rw [text_optional_of_compound h, String.toList_append, String.toList_append, textList_singleton]
  simp

theorem toList_text_array (t : TypeExpr) :
    (array t).text.toList = '[' :: (t.text.toList ++ [']']) := by
  rw [text_array, String.toList_append, String.toList_append]
  rfl

theorem toList_text_dictionary (key value : TypeExpr) :
    (dictionary key value).text.toList =
      '[' :: (key.text.toList ++ ([':', ' '] ++ (value.text.toList ++ [']']))) := by
  rw [text_dictionary]
  simp only [String.toList_append, List.append_assoc]
  rfl

theorem toList_text_tuple (items : List TypeExpr) :
    (tuple items).text.toList = '(' :: ((textList items).toList ++ [')']) := by
  rw [text_tuple, String.toList_append, String.toList_append]
  rfl

def effectsText (isAsync throws : Bool) : List Char :=
  (if isAsync then " async".toList else []) ++ if throws then " throws".toList else []

theorem toList_text_function (parameters : List TypeExpr) (result : TypeExpr)
    (isAsync throws : Bool) :
    (function parameters result isAsync throws).text.toList =
      '(' :: ((textList parameters).toList ++ [')']) ++
        (effectsText isAsync throws ++ " -> ".toList ++ result.text.toList) := by
  rw [text_function, effectsText]
  cases isAsync <;> cases throws <;> simp [String.toList_append]

def isWorded : TypeExpr → Bool
  | someOf _ | anyOf _ | inoutOf _ => true
  | _ => false

theorem begins_text {stops : List Char} (hstops : '.' ∈ stops ∧ '<' ∈ stops ∧ '?' ∈ stops)
    {t : TypeExpr} (h : t.WellFormed) (hsettled : t.isSettled = true)
    (hworded : isWorded t = false) (hrest : Follows stops rest) :
    Begins stops (t.text.toList ++ rest) := by
  induction h generalizing rest with
  | @named name path generics hpath _ _ =>
      rw [toList_text_named, List.append_assoc]
      apply Begins.name (hpath name List.mem_cons_self)
      cases path with
      | cons part path => exact follows_cons hstops.1 _
      | nil =>
          cases generics with
          | nil => exact hrest
          | cons g gs => exact follows_cons hstops.2.1 _
  | @optional t _ ih =>
      rw [isSettled, Bool.and_eq_true, Bool.not_eq_true'] at hsettled
      by_cases hcompound : t.isCompound = true
      · rw [toList_text_optional_compound hcompound]
        exact .bracket (Or.inl rfl)
      · have hplain : isWorded t = false := by
          cases t with
          | someOf t => exact absurd rfl hcompound
          | anyOf t => exact absurd rfl hcompound
          | inoutOf t => cases hsettled.1
          | _ => rfl
        rw [toList_text_optional hcompound, List.append_assoc]
        exact ih hsettled.2 hplain (follows_cons hstops.2.2 _)
  | array _ _ =>
      rw [toList_text_array]
      exact .bracket (Or.inr rfl)
  | dictionary _ _ _ _ =>
      rw [toList_text_dictionary]
      exact .bracket (Or.inr rfl)
  | tuple _ _ _ =>
      rw [toList_text_tuple]
      exact .bracket (Or.inl rfl)
  | function _ _ _ _ =>
      rw [toList_text_function]
      exact .bracket (Or.inl rfl)
  | someOf _ _ => cases hworded
  | anyOf _ _ => cases hworded
  | inoutOf _ _ => cases hworded

theorem toList_text_someOf (t : TypeExpr) :
    (someOf t).text.toList = "some".toList ++ ' ' :: t.text.toList := by
  rw [text_someOf, String.toList_append]
  rfl

theorem toList_text_anyOf (t : TypeExpr) :
    (anyOf t).text.toList = "any".toList ++ ' ' :: t.text.toList := by
  rw [text_anyOf, String.toList_append]
  rfl

theorem toList_text_inoutOf (t : TypeExpr) :
    (inoutOf t).text.toList = "inout".toList ++ ' ' :: t.text.toList := by
  rw [text_inoutOf, String.toList_append]
  rfl

theorem leads_text {stops : List Char} (hstops : '.' ∈ stops ∧ '<' ∈ stops ∧ '?' ∈ stops)
    {t : TypeExpr} (h : t.WellFormed) (hsettled : t.isSettled = true)
    (hrest : Follows stops rest) : Leads stops (t.text.toList ++ rest) := by
  have hbegins : ∀ {t : TypeExpr}, t.WellFormed → t.isSettled = true → isWorded t = false →
      Leads stops (t.text.toList ++ rest) :=
    fun h hsettled hworded => .begins (begins_text hstops h hsettled hworded hrest)
  induction h with
  | named hpath hgenerics _ => exact hbegins (.named hpath hgenerics) hsettled rfl
  | optional h _ => exact hbegins h.optional hsettled rfl
  | array h _ => exact hbegins h.array hsettled rfl
  | dictionary hkey hvalue _ _ => exact hbegins (hkey.dictionary hvalue) hsettled rfl
  | tuple hlength hitems _ => exact hbegins (.tuple hlength hitems) hsettled rfl
  | function hparameters hresult _ _ =>
      exact hbegins (.function hparameters hresult) hsettled rfl
  | someOf _ ih =>
      rw [toList_text_someOf, List.append_assoc]
      exact .word isName_some (ih hsettled)
  | anyOf _ ih =>
      rw [toList_text_anyOf, List.append_assoc]
      exact .word isName_any (ih hsettled)
  | inoutOf _ ih =>
      rw [toList_text_inoutOf, List.append_assoc]
      exact .word isName_inout (ih hsettled)

/-!
## Lists of types
-/

/-- The rule reads the text of a type, and nothing else takes the text. -/
structure Readable (inner : Rule TypeExpr) (t : TypeExpr) : Prop where
  reads : ∀ rest, Follows closers rest → Yields inner t.text.toList rest fun u => u = t
  leads : ∀ rest, Follows elementStops rest → Leads elementStops (t.text.toList ++ rest)

section
variable {inner : Rule TypeExpr} {t : TypeExpr}

theorem Readable.tight (h : Readable inner t) (rest : List Char) :
    Tight (t.text.toList ++ rest) := by
  have hleads := h.leads [] (follows_nil _)
  rw [List.append_nil] at hleads
  apply hleads.tight.append
  rcases hleads.exists_first with ⟨x, more, htext, _⟩
  rw [htext]
  exact List.cons_ne_nil x more

theorem yields_textList {item : Rule TypeExpr} {ts : List TypeExpr} {close : Char}
    (hclose : close = ')' ∨ close = '>') (hreadable : ∀ u ∈ t :: ts, Readable inner u)
    (hitem : ∀ u ∈ t :: ts, ∀ more, Follows [',', close] more →
      Yields item u.text.toList more fun v => v = u) :
    Yields (separated1 (spacedChar ',') item) (textList (t :: ts)).toList (close :: rest)
      fun us => us = t :: ts := by
  have htight : Tight (close :: rest) := by
    apply tight_cons
    rcases hclose with rfl | rfl
    · rfl
    · rfl
  have hnot : (close :: rest).head? ≠ some ',' := by
    intro hx
    cases hx
    rcases hclose with hx | hx
    · cases hx
    · cases hx
  rw [toList_textList]
  apply yields_separated1 hitem
  · intro u hu more
    apply yields_spacedChar rfl
    exact (hreadable u (List.mem_cons_of_mem t hu)).tight more
  · exact List.cons_ne_nil _ _
  · exact fun more => follows_cons List.mem_cons_self _
  · exact follows_cons (List.mem_cons_of_mem _ List.mem_cons_self) _
  · exact declines_spacedChar hnot htight

theorem yields_genericArguments {ts : List TypeExpr}
    (hreadable : ∀ u ∈ t :: ts, Readable inner u) :
    Yields (genericArguments inner) (argumentsText (t :: ts)) rest fun us => us = t :: ts := by
  have hitem : ∀ u ∈ t :: ts, ∀ more, Follows [',', '>'] more →
      Yields (do layout; inner) u.text.toList more fun v => v = u := by
    intro u hu more hmore
    apply (yields_no_layout ((hreadable u hu).tight more)).silent_bind
    intro _ _
    exact (hreadable u hu).reads more (hmore.mono rfl)
  have htight : Tight ('>' :: rest) := tight_cons rfl rest
  apply Settles.behind_char
  apply (yields_textList (Or.inr rfl) hreadable hitem).bind
  intro us hus
  apply (yields_no_layout htight).silent_bind
  intro _ _
  apply (yields_char '>').returning
  intro _ _
  exact Yields.pure hus

theorem yields_tupleElement (h : Readable inner t) {more : List Char}
    (hmore : Follows [',', ')'] more) :
    Yields (tupleElement inner) t.text.toList more fun u => u = t := by
  have hlabel : Declines elementLabel (t.text.toList ++ more) :=
    declines_elementLabel (h.leads more (hmore.mono rfl))
  have hdots : Declines (word "...") more := by
    apply declines_word
    rintro ⟨rest, hrest⟩
    have hpoint : more.head? = some '.' := by
      rw [← hrest]
      rfl
    exact hmore.head?_ne (by decide) hpoint
  apply hlabel.optional.silent_bind
  intro _ _
  apply (h.reads more (hmore.mono rfl)).returning
  intro u hu
  apply hdots.optional.silent_bind
  intro _ _
  exact Yields.pure hu

theorem yields_tupleItems {items : List TypeExpr} (hreadable : ∀ u ∈ items, Readable inner u)
    (hnil : Declines inner (')' :: rest)) :
    Yields (tupleItems inner) ('(' :: ((textList items).toList ++ [')'])) rest
      fun us => us = items := by
  have htight : Tight (')' :: rest) := tight_cons rfl rest
  have hitems : Yields (separated (spacedChar ',') (tupleElement inner)) (textList items).toList
      (')' :: rest) fun us => us = items := by
    cases items with
    | nil =>
        have helement : Declines (tupleElement inner) (')' :: rest) := by
          have hlabel : Declines elementLabel (')' :: rest) := by
            apply (declines_identifier _ _).bind
            · nofun
            · intro x hx
              cases hx
              rfl
          show Declines _ ([] ++ ')' :: rest)
          apply hlabel.optional.bind_declines
          intro _ _
          exact hnil.bind
        apply (helement.bind : Declines (separated1 (spacedChar ',') _) _).optional.bind_silent
        intro found hfound
        rw [hfound]
        exact Yields.pure rfl
    | cons t ts =>
        have hitem : ∀ u ∈ t :: ts, ∀ more, Follows [',', ')'] more →
            Yields (tupleElement inner) u.text.toList more fun v => v = u :=
          fun u hu more hmore => yields_tupleElement (hreadable u hu) hmore
        apply (yields_textList (Or.inl rfl) hreadable hitem).optional.returning
        intro found hfound
        rcases hfound with ⟨us, hsome, hus⟩
        rw [hsome]
        exact Yields.pure hus
  have hfront : Tight (((textList items).toList ++ [')']) ++ rest) := by
    cases items with
    | nil => exact htight
    | cons t ts =>
        rw [toList_textList, List.append_assoc, List.append_assoc]
        exact (hreadable t List.mem_cons_self).tight _
  apply Settles.behind_char
  apply (yields_no_layout hfront).silent_bind
  intro _ _
  apply hitems.bind
  intro us hus
  apply (yields_no_layout htight).silent_bind
  intro _ _
  apply ((yields_char ')').expecting "closing parenthesis").committed.returning
  intro _ _
  exact Yields.pure hus

/-!
## Collections and names
-/

theorem yields_array (h : Readable inner t) :
    Yields (collection inner) (array t).text.toList rest fun u => u = array t := by
  have htight : Tight (']' :: rest) := tight_cons rfl rest
  have hcolon : Declines (do spacedChar ':'; inner) (']' :: rest) :=
    (declines_spacedChar (by simp) htight).bind
  rw [toList_text_array]
  apply Settles.behind_char
  apply (yields_no_layout (by rw [List.append_assoc]; exact h.tight _)).silent_bind
  intro _ _
  apply (h.reads (']' :: rest) (follows_cons (by decide) rest)).bind
  intro u hu
  apply hcolon.optional.silent_bind
  intro value hvalue
  rw [hu, hvalue]
  apply (yields_no_layout htight).silent_bind
  intro _ _
  apply ((yields_char ']').expecting "closing bracket").committed.returning
  intro _ _
  exact Yields.pure rfl

theorem yields_dictionary {key value : TypeExpr} (hkey : Readable inner key)
    (hvalue : Readable inner value) :
    Yields (collection inner) (dictionary key value).text.toList rest
      fun u => u = dictionary key value := by
  have htight : Tight (']' :: rest) := tight_cons rfl rest
  have hbehind : Yields (do spacedChar ':'; inner) ([':', ' '] ++ value.text.toList)
      (']' :: rest) fun u => u = value := by
    apply (yields_spacedChar rfl (hvalue.tight _)).bind
    intro _ _
    exact hvalue.reads (']' :: rest) (follows_cons (by decide) rest)
  rw [toList_text_dictionary]
  apply Settles.behind_char
  apply (yields_no_layout (by rw [List.append_assoc]; exact hkey.tight _)).silent_bind
  intro _ _
  apply (hkey.reads _ (follows_cons (by decide) _)).bind
  intro u hu
  rw [← List.append_assoc]
  apply hbehind.optional.bind
  intro found hfound
  rcases hfound with ⟨v, hsome, hv⟩
  rw [hu, hsome, hv]
  apply (yields_no_layout htight).silent_bind
  intro _ _
  apply ((yields_char ']').expecting "closing bracket").committed.returning
  intro _ _
  exact Yields.pure rfl

/-- Arguments as they are read: a list without any is not written. -/
def written (ts : List TypeExpr) : Option (List TypeExpr) :=
  if ts = [] then none else some ts

theorem written_getD (ts : List TypeExpr) : (written ts).getD [] = ts := by
  cases ts with
  | nil => rfl
  | cons t ts => rfl

/-- A further name of a path, with arguments if there are any. -/
def stepText (step : String × Option (List TypeExpr)) : List Char :=
  '.' :: (step.1.toList ++ argumentsText (step.2.getD []))

structure ReadableStep (inner : Rule TypeExpr) (step : String × Option (List TypeExpr)) :
    Prop where
  isName : IsName step.1
  arguments : step.2 = written (step.2.getD [])
  readable : ∀ u ∈ step.2.getD [], Readable inner u

def stepStops : List Char :=
  ['.', '?'] ++ closers

theorem isNamePart_behind_name {ts : List TypeExpr} (h : Follows stepStops rest) :
    ∀ x, (argumentsText ts ++ rest).head? = some x → isNamePart x = false := by
  apply isNamePart_of_nameStops
  cases ts with
  | nil => exact h.mono rfl
  | cons t ts => exact follows_cons (by decide) _

theorem yields_optional_arguments {ts : List TypeExpr}
    (hreadable : ∀ u ∈ ts, Readable inner u) (hrest : Follows stepStops rest) :
    Yields (genericArguments inner).optional (argumentsText ts) rest
      fun found => found = written ts := by
  cases ts with
  | nil =>
      have hdeclines : Declines (genericArguments inner) rest :=
        (declines_char (hrest.head?_ne (by decide))).bind
      exact hdeclines.optional
  | cons t ts =>
      apply (yields_genericArguments hreadable).optional.mono
      intro found hfound
      rcases hfound with ⟨us, hsome, hus⟩
      rw [hsome, hus]
      rfl

theorem yields_nameStep {step : String × Option (List TypeExpr)}
    (h : ReadableStep inner step) {more : List Char} (hmore : Follows stepStops more) :
    Yields (nameStep inner) (stepText step) more fun found => found = step := by
  have hidentifier : Yields (do char '.'; identifier) ('.' :: step.1.toList)
      (argumentsText (step.2.getD []) ++ more) fun name => name = step.1 := by
    apply Settles.behind_char
    exact yields_identifier h.isName (isNamePart_behind_name hmore)
  show Yields _ (('.' :: step.1.toList) ++ argumentsText (step.2.getD [])) _ _
  apply hidentifier.attempt.bind
  intro found hfound
  rcases hfound with ⟨name, hsome, hname⟩
  rw [hsome, hname]
  apply (yields_optional_arguments h.readable hmore).returning
  intro arguments harguments
  apply Yields.pure
  rw [harguments, ← h.arguments]

theorem declines_nameStep (h : text.head? ≠ some '.') : Declines (nameStep inner) text := by
  show Declines _ ([] ++ text)
  apply (declines_char h).bind.attempt.bind_declines
  intro found hfound
  rw [hfound]
  exact fun offset => ⟨_, rfl⟩

theorem exists_steps {path : List String} {generics : List TypeExpr}
    (hpath : ∀ part ∈ path, IsName part) (hgenerics : ∀ u ∈ generics, Readable inner u) :
    ∃ first steps, (path.flatMap fun part => '.' :: part.toList) ++ argumentsText generics =
        argumentsText first ++ steps.flatMap stepText ∧
      steps.map Prod.fst = path ∧ lastArguments (written first) steps = generics ∧
      (∀ u ∈ first, Readable inner u) ∧ ∀ step ∈ steps, ReadableStep inner step := by
  induction path with
  | nil =>
      refine ⟨generics, [], ?_, rfl, written_getD generics, hgenerics, nofun⟩
      rw [List.flatMap_nil, List.flatMap_nil, List.nil_append, List.append_nil]
  | cons part path ih =>
      rcases ih fun p hp => hpath p (List.mem_cons_of_mem part hp) with
        ⟨first, steps, htext, hnames, harguments, hfirst, hsteps⟩
      have hgetD := written_getD first
      refine ⟨[], (part, written first) :: steps, ?_, ?_, ?_, nofun, ?_⟩
      · rw [List.flatMap_cons, List.append_assoc, htext, List.flatMap_cons, stepText, hgetD,
          argumentsText, List.nil_append]
        simp only [List.cons_append, List.append_assoc]
      · rw [List.map_cons, hnames]
      · have hnone : (written first).or (written []) = written first := Option.or_none
        rw [lastArguments, List.foldl_cons, hnone]
        exact harguments
      · rw [List.forall_mem_cons]
        refine ⟨⟨hpath part List.mem_cons_self, ?_, ?_⟩, hsteps⟩
        · rw [hgetD]
        · rwa [hgetD]

theorem yields_namedType {name : String} {path : List String} {generics : List TypeExpr}
    (hpath : ∀ part ∈ name :: path, IsName part) (hgenerics : ∀ u ∈ generics, Readable inner u)
    (hrest : Follows ('?' :: closers) rest) :
    Yields (namedType inner) (named (name :: path) generics).text.toList rest
      fun u => u = named (name :: path) generics := by
  rw [List.forall_mem_cons] at hpath
  rcases exists_steps hpath.2 hgenerics with
    ⟨first, steps, htext, hnames, harguments, hfirst, hsteps⟩
  have hstops : Follows stepStops rest := hrest.mono rfl
  have hfollows : ∀ step ∈ steps, ∀ more, Follows stepStops (stepText step ++ more) :=
    fun step _ more => follows_cons (by decide) _
  have hbehind : Follows stepStops (steps.flatMap stepText ++ rest) :=
    follows_flatMap hstops hfollows
  have hmany : Yields (many (nameStep inner)) (steps.flatMap stepText) rest
      fun found => found = steps :=
    yields_many (fun step hstep more hmore => yields_nameStep (hsteps step hstep) hmore)
      (fun step _ => List.cons_ne_nil _ _) hfollows hstops
      (declines_nameStep (hrest.head?_ne (by decide)))
  rw [toList_text_named, htext]
  have hname : Yields identifier name.toList
      ((argumentsText first ++ steps.flatMap stepText) ++ rest) fun name' => name' = name := by
    rw [List.append_assoc]
    exact yields_identifier hpath.1 (isNamePart_behind_name hbehind)
  apply hname.bind
  intro name' hname'
  apply (yields_optional_arguments hfirst hbehind).bind
  intro arguments hfound
  apply hmany.returning
  intro found hsame
  apply Yields.pure
  rw [hname', hfound, hsame, hnames, harguments]

/-!
## Primaries and marks
-/

theorem applyMarks_succ_toType (p : Primary) (marks : Nat) :
    (applyMarks p (marks + 1)).toType = .optional (applyMarks p marks).toType := by
  induction marks generalizing p with
  | zero => rfl
  | succ marks ih => exact ih _

/-- The text is read as a primary with marks behind it, which make the type. -/
structure Based (depth : Nat) (text : List Char) (t : TypeExpr) (base : List Char) (p : Primary)
    (marks : Nat) : Prop where
  text_eq : text = base ++ List.replicate marks '?'
  type_eq : (applyMarks p marks).toType = t
  reads : ∀ rest, Follows ('?' :: closers) rest →
    Yields (primary (typeWithin depth)) base rest fun q => q = p

theorem declines_tupleItems (h : text.head? ≠ some '(') : Declines (tupleItems inner) text :=
  (declines_char h).bind

theorem declines_collection (h : text.head? ≠ some '[') : Declines (collection inner) text :=
  (declines_char h).bind

theorem yields_primary_list {items : List TypeExpr} (h : Yields (tupleItems inner) text rest
    fun us => us = items) : Yields (primary inner) text rest fun p => p = .list items := by
  apply Settles.oneOf_cons
  apply h.returning
  intro us hus
  rw [hus]
  exact Yields.pure rfl

theorem yields_primary_collection {more : List Char} (hfirst : text = '[' :: more)
    (h : Yields (collection inner) text rest fun u => u = t) :
    Yields (primary inner) text rest fun p => p = .type t := by
  have hnot : (text ++ rest).head? ≠ some '(' := by
    rw [hfirst]
    simp
  apply (declines_tupleItems hnot).bind.oneOf_cons
  apply Settles.oneOf_cons
  apply h.returning
  intro u hu
  rw [hu]
  exact Yields.pure rfl

theorem yields_primary_named {name : String} {more : List Char} (hname : IsName name)
    (hfirst : text = name.toList ++ more) (h : Yields (namedType inner) text rest fun u => u = t) :
    Yields (primary inner) text rest fun p => p = .type t := by
  have hnot : ∀ x, isNameStart ['_', '$'] x = false → (text ++ rest).head? ≠ some x := by
    intro x hx hhead
    rcases hname with ⟨y, ys, hy, hstart, _⟩
    rw [hfirst, hy] at hhead
    cases hhead
    rw [hx] at hstart
    cases hstart
  apply (declines_tupleItems (hnot '(' rfl)).bind.oneOf_cons
  apply (declines_collection (hnot '[' rfl)).bind.oneOf_cons
  apply Settles.oneOf_cons
  apply h.returning
  intro u hu
  rw [hu]
  exact Yields.pure rfl

theorem Based.yields_postfixForm {depth marks : Nat} {base : List Char} {p : Primary}
    (h : Based depth text t base p marks) (hrest : Follows closers rest) :
    Yields (postfixForm (typeWithin depth)) text rest fun q => q = applyMarks p marks := by
  have hbehind : Follows ('?' :: closers) (List.replicate marks '?' ++ rest) := by
    cases marks with
    | zero => exact hrest.mono rfl
    | succ marks => exact follows_cons (by decide) _
  have hmarks : ∀ x ∈ List.replicate marks '?', (x == '?' || x == '!') = true := by
    intro x hx
    rw [List.eq_of_mem_replicate hx]
    rfl
  have hend : ∀ x, rest.head? = some x → (x == '?' || x == '!') = false := by
    exact hrest.eq_false rfl
  rw [h.text_eq]
  apply (h.reads _ hbehind).bind
  intro q hq
  apply (yields_takeWhile hmarks hend).returning
  intro found hfound
  apply Yields.pure
  rw [hq, hfound, List.length_replicate]

end

/-!
## Functions
-/

theorem declines_word_of_head {w : String} {x : Char} (hw : w.toList.head? = some x)
    (h : text.head? ≠ some x) : Declines (word w) text := by
  apply declines_word
  rintro ⟨more, rfl⟩
  rw [List.head?_append, hw] at h
  exact h rfl

theorem declines_balancedParens (h : text.head? ≠ some '(') : Declines balancedParens text := by
  show Declines _ ([] ++ text)
  apply yields_here.bind_declines
  intro _ _
  exact (declines_char h).bind

def effectsWords (isAsync throws : Bool) : List Char :=
  (if isAsync then "async ".toList else []) ++ if throws then "throws ".toList else []

theorem yields_async (isAsync : Bool) {more : List Char} (hmore : Tight more)
    (hnot : more.head? ≠ some 'a') :
    Yields (do word "async"; layout).optional (if isAsync then "async ".toList else []) more
      fun found => found.isSome = isAsync := by
  cases isAsync with
  | true =>
      have hread : Yields (do word "async"; layout) ("async".toList ++ [' ']) more
          fun _ => True := by
        apply (yields_word "async").bind
        intro _ _
        exact yields_blank hmore
      apply hread.optional.mono
      intro found hfound
      rcases hfound with ⟨_, hsome, _⟩
      rw [hsome]
      rfl
  | false =>
      apply (declines_word_of_head rfl hnot).bind.optional.mono
      intro found hfound
      rw [hfound]
      rfl

theorem declines_throws (hthrows : text.head? ≠ some 't') (hrethrows : text.head? ≠ some 'r') :
    Declines (oneOf [(do word "throws"; let _ ← balancedParens.optional), word "rethrows"])
      text := by
  apply declines_oneOf
  intro p hp
  rcases List.mem_pair.mp hp with rfl | rfl
  · exact (declines_word_of_head rfl hthrows).bind
  · exact declines_word_of_head rfl hrethrows

theorem yields_throws (throws : Bool) (more : List Char) :
    Yields (do
      oneOf [(do word "throws"; let _ ← balancedParens.optional), word "rethrows"]
      layout).optional (if throws then "throws ".toList else []) ('-' :: more)
      fun found => found.isSome = throws := by
  cases throws with
  | true =>
      have hword : Yields (do word "throws"; let _ ← balancedParens.optional) "throws".toList
          (' ' :: '-' :: more) fun _ => True := by
        apply (yields_word "throws").returning
        intro _ _
        apply (declines_balancedParens (by simp)).optional.bind_silent
        intro _ _
        exact Yields.pure trivial
      have hread : Yields (do
          oneOf [(do word "throws"; let _ ← balancedParens.optional), word "rethrows"]
          layout) ("throws".toList ++ [' ']) ('-' :: more) fun _ => True := by
        apply hword.oneOf_cons.bind
        intro _ _
        exact yields_blank (tight_cons rfl more)
      apply hread.optional.mono
      intro found hfound
      rcases hfound with ⟨_, hsome, _⟩
      rw [hsome]
      rfl
  | false =>
      apply (declines_throws (by simp) (by simp)).bind.optional.mono
      intro found hfound
      rw [hfound]
      rfl

theorem yields_effects (isAsync throws : Bool) (more : List Char) :
    Yields effects (effectsWords isAsync throws) ('-' :: more)
      fun e => e = (isAsync, throws) := by
  have hbehind : Tight ((if throws then "throws ".toList else []) ++ '-' :: more) ∧
      ((if throws then "throws ".toList else []) ++ '-' :: more).head? ≠ some 'a' := by
    cases throws with
    | true => exact ⟨tight_cons rfl _, by simp⟩
    | false => exact ⟨tight_cons rfl _, by simp⟩
  apply (yields_async isAsync hbehind.1 hbehind.2).bind
  intro _ hasync
  apply (yields_throws throws more).returning
  intro _ hthrows
  apply Yields.pure
  rw [hasync, hthrows]

section
variable {inner : Rule TypeExpr}

theorem yields_arrow {result : TypeExpr} (h : Readable inner result) (isAsync throws : Bool)
    (hrest : Follows closers rest) :
    Yields (arrow inner) (effectsText isAsync throws ++ " -> ".toList ++ result.text.toList) rest
      fun found => found = ((isAsync, throws), result) := by
  have htext : effectsText isAsync throws ++ " -> ".toList ++ result.text.toList =
      [' '] ++ (effectsWords isAsync throws ++ ("->".toList ++ ([' '] ++ result.text.toList))) := by
    cases isAsync <;> cases throws <;> simp [effectsText, effectsWords]
  have htight : Tight
      (effectsWords isAsync throws ++ ("->".toList ++ ([' '] ++ result.text.toList)) ++ rest) := by
    cases isAsync <;> cases throws <;> exact tight_cons rfl _
  rw [htext]
  apply (yields_blank htight).bind
  intro _ _
  apply (yields_effects isAsync throws _).bind
  intro e he
  apply (yields_word "->").bind
  intro _ _
  apply (yields_blank (h.tight rest)).bind
  intro _ _
  apply (h.reads rest hrest).committed.returning
  intro found hfound
  rw [he, hfound]
  exact Yields.pure rfl

theorem declines_arrow (hrest : Follows closers rest) : Declines (arrow inner) rest := by
  have hnot : ∀ x, x ∉ closers → rest.head? ≠ some x := fun x hx => hrest.head?_ne hx
  have heffects : Yields effects [] rest fun _ => True := by
    apply (declines_word_of_head rfl (hnot 'a' (by decide))).bind.optional.bind_silent
    intro _ _
    apply (declines_throws (hnot 't' (by decide)) (hnot 'r' (by decide))).bind.optional.bind_silent
    intro _ _
    exact Yields.pure trivial
  show Declines _ ([] ++ rest)
  apply (yields_no_layout hrest.tight).bind_declines
  intro _ _
  show Declines _ ([] ++ rest)
  apply heffects.bind_declines
  intro _ _
  exact (declines_word_of_head rfl (hnot '-' (by decide))).bind

end

end Grammar
end TypeExpr
end ViewModifiers
