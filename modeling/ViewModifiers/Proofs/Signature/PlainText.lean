import ViewModifiers.Proofs.Signature.Layouts
import ViewModifiers.Signature.Declaration

/-!
# What declarations are made of

The text that is read of a declaration is plain: its blanks are layout, its
parentheses match, and quotes and equality signs are in the parentheses of
attributes and effects only, which follow a name at once.  Default values are left
out.
-/

namespace ViewModifiers

open Grammar Grammar.Rule
open Text (isLayout Quoting)

namespace TypeExpr.Grammar

/-!
## Plain texts
-/

/-- The character is no blank but layout, and none that the readers of brackets look for. -/
def isPlain (c : Char) : Bool :=
  c != '(' && c != ')' && c != '"' && c != '=' && (!Text.isBlank c || isLayout c)

def Enclosed (inner : List Char) : Prop :=
  ∀ rest, closeParens .outside 0 (inner ++ ')' :: rest) = some (inner, rest)

inductive Plain : List Char → Prop where
  | nil : Plain []
  | char {c : Char} {text : List Char} : isPlain c = true → Plain text → Plain (c :: text)
  | parens {inner text : List Char} :
      Plain inner → Plain text → Plain ('(' :: (inner ++ ')' :: text))
  | arguments {c : Char} {inner text : List Char} :
      isPlain c = true → endsName c = true → Enclosed inner → Plain text →
      Plain (c :: '(' :: (inner ++ ')' :: text))

structure NameText (text : List Char) : Prop where
  plain : ∀ c ∈ text, isPlain c = true
  last : ∀ c, text.getLast? = some c → endsName c = true

section
variable {text more inner : List Char} {c : Char}

theorem Plain.append (h : Plain text) (hmore : Plain more) : Plain (text ++ more) := by
  induction h with
  | nil => exact hmore
  | char hc _ ih => exact .char hc ih
  | parens hinner _ _ ih =>
      rw [List.cons_append, List.append_assoc, List.cons_append]
      exact .parens hinner ih
  | arguments hc hends hinner _ ih =>
      rw [List.cons_append, List.cons_append, List.append_assoc, List.cons_append]
      exact .arguments hc hends hinner ih

theorem plain_of_forall (h : ∀ c ∈ text, isPlain c = true) : Plain text := by
  induction text with
  | nil => exact .nil
  | cons c text ih =>
      rcases List.forall_mem_cons.mp h with ⟨hc, htext⟩
      exact .char hc (ih htext)

theorem isPlain_of_isLayout (h : isLayout c = true) : isPlain c = true := by
  simp only [isLayout, Bool.or_eq_true, beq_iff_eq] at h
  rcases h with ((rfl | rfl) | rfl) | rfl <;> decide

theorem ne_of_isPlain (h : isPlain c = true) : c ≠ '(' ∧ c ≠ ')' ∧ c ≠ '"' ∧ c ≠ '=' := by
  simp only [isPlain, Bool.and_eq_true, bne_iff_ne] at h
  exact ⟨h.1.1.1.1, h.1.1.1.2, h.1.1.2, h.1.2⟩

theorem plain_of_isLayout (h : ∀ c ∈ text, isLayout c = true) : Plain text :=
  plain_of_forall fun c hc => isPlain_of_isLayout (h c hc)

theorem isPlain_of_name (h : isNamePart c = true ∨ c = '$') : isPlain c = true := by
  have hblank := isBlank_eq_false h
  have hne : ∀ x : Char, isNamePart x = false → x ≠ '$' → c ≠ x := by
    rintro x hx hdollar rfl
    rcases h with hpart | rfl
    · rw [hx] at hpart
      cases hpart
    · exact hdollar rfl
  simp [isPlain, hblank, hne '(' rfl (by decide), hne ')' rfl (by decide),
    hne '"' rfl (by decide), hne '=' rfl (by decide)]

theorem NameText.append (h : NameText text) (hmore : NameText more) : NameText (text ++ more) := by
  constructor
  · intro c hc
    exact (List.mem_append.mp hc).elim (h.plain c) (hmore.plain c)
  · intro c hc
    rw [List.getLast?_append] at hc
    cases hlast : more.getLast? with
    | none =>
        rw [hlast] at hc
        exact h.last c hc
    | some x =>
        rw [hlast] at hc
        cases hc
        exact hmore.last c hlast

theorem NameText.plain_arguments (h : NameText text) (hne : text ≠ []) (hinner : Enclosed inner) :
    Plain (text ++ '(' :: (inner ++ [')'])) := by
  have hlast := h.last _ (List.getLast?_eq_some_getLast hne)
  have hsplit : text = text.dropLast ++ [text.getLast hne] :=
    (List.dropLast_append_getLast hne).symm
  rw [hsplit, List.append_assoc]
  apply Plain.append
  · exact plain_of_forall fun c hc => h.plain c (List.dropLast_subset text hc)
  · exact .arguments (h.plain _ (List.getLast_mem hne)) hlast hinner .nil

end

end TypeExpr.Grammar

/-!
## Rules that read plain texts
-/

namespace Grammar.Rule

open TypeExpr.Grammar

def ReadsPlain (p : Rule α) : Prop :=
  Reads p fun text _ => Plain text

section
variable {p q : Rule α} {P : List Char → α → Prop} {Q : List Char → List α → Prop}

theorem Reads.manyWithin (h : Reads p P) (hnil : Q [] [])
    (hcons : ∀ text a more as, P text a → Q more as → Q (text ++ more) (a :: as)) (n : Nat) :
    Reads (Rule.manyWithin p n) Q := by
  induction n with
  | zero => exact Reads.pure hnil
  | succ n ih =>
      apply h.optional_bind
      · intro text a ha
        apply ih.bind
        intro more as has
        apply Reads.pure
        rw [List.append_nil]
        exact hcons text a more as ha has
      · exact Reads.pure hnil

theorem Reads.many (h : Reads p P) (hnil : Q [] [])
    (hcons : ∀ text a more as, P text a → Q more as → Q (text ++ more) (a :: as)) :
    Reads (Rule.many p) Q :=
  fun c => h.manyWithin hnil hcons c.rest.length c

theorem Reads.lookAhead (p : Rule α) : Reads (Rule.lookAhead p) fun text _ => text = [] := by
  intro c a next hrun
  rw [Rule.lookAhead] at hrun
  split at hrun
  · cases hrun
    exact ⟨[], rfl, rfl⟩
  · cases hrun

theorem Reads.notFollowedBy (p : Rule α) :
    Reads (Rule.notFollowedBy p) fun text _ => text = [] := by
  intro c a next hrun
  rw [Rule.notFollowedBy] at hrun
  split at hrun
  · cases hrun
  · cases hrun
  · cases hrun
    exact ⟨[], rfl, rfl⟩

theorem Reads.satisfying (h : Reads p P) (test : α → Bool) : Reads (Rule.satisfying p test) P := by
  intro c a next hrun
  apply h
  rw [Rule.satisfying] at hrun
  split at hrun
  · next heq =>
      split at hrun
      · cases hrun
        exact heq
      · cases hrun
  · cases hrun

theorem ReadsPlain.pure (a : α) : ReadsPlain (Pure.pure a) :=
  Reads.pure .nil

theorem ReadsPlain.bind {f : α → Rule β} (h : ReadsPlain p) (hnext : ∀ a, ReadsPlain (f a)) :
    ReadsPlain (p >>= f) := by
  refine Reads.bind h fun text a htext => ?_
  exact (hnext a).mono fun _ _ hmore => htext.append hmore

/-- The value may decide whether the text behind a step is plain. -/
theorem ReadsPlain.bind_if {f : α → Rule β} {C : β → Prop} (h : ReadsPlain p)
    (hnext : ∀ a, Reads (f a) fun text b => C b → Plain text) :
    Reads (p >>= f) fun text b => C b → Plain text := by
  refine Reads.bind h fun text a htext => ?_
  exact (hnext a).mono fun _ _ hmore hC => htext.append (hmore hC)

theorem ReadsPlain.optional (h : ReadsPlain p) : ReadsPlain p.optional := by
  intro c found next hrun
  rcases optional_eq_ok hrun with ⟨a, ha, rfl⟩ | ⟨rfl, rfl⟩
  · exact h c a next ha
  · exact ⟨[], rfl, .nil⟩

theorem ReadsPlain.attempt (h : ReadsPlain p) : ReadsPlain p.attempt := by
  intro c found next hrun
  cases hp : p c with
  | ok a last =>
      rw [attempt_of_ok hp] at hrun
      cases hrun
      exact h c a _ hp
  | fail x s =>
      rw [attempt_of_fail hp] at hrun
      cases hrun
      exact ⟨[], rfl, .nil⟩

theorem ReadsPlain.many (h : ReadsPlain p) : ReadsPlain (Rule.many p) :=
  Reads.many h .nil fun _ _ _ _ htext hmore => htext.append hmore

theorem ReadsPlain.separated1 {sep : Rule β} (hsep : ReadsPlain sep) (h : ReadsPlain p) :
    ReadsPlain (Rule.separated1 sep p) := by
  refine h.bind fun first => ?_
  exact (hsep.bind fun _ => h).many.bind fun more => .pure _

theorem readsPlain_char {x : Char} (hx : isPlain x = true) : ReadsPlain (char x) :=
  (reads_char x).mono fun _ _ htext => htext ▸ .char hx .nil

theorem readsPlain_word {w : String} (hw : w.toList.all isPlain = true) : ReadsPlain (word w) :=
  (reads_word w).mono fun _ _ htext => htext ▸ plain_of_forall (List.all_eq_true.mp hw)

theorem readsPlain_layout : ReadsPlain layout :=
  reads_layout.mono fun _ _ htext => plain_of_isLayout htext

theorem readsPlain_layout1 : ReadsPlain layout1 := by
  have htaken : ReadsPlain (takeWhile1 isLayout) :=
    (reads_takeWhile1 isLayout).mono fun _ _ htext => plain_of_isLayout htext.2.2
  exact htaken.bind fun _ => .pure ()

theorem readsPlain_spacedChar {x : Char} (hx : isPlain x = true) : ReadsPlain (spacedChar x) :=
  readsPlain_layout.bind fun _ => (readsPlain_char hx).bind fun _ => readsPlain_layout

theorem reads_parenthesised (name : String) (h : Reads p P) :
    Reads (do
      char '('
      layout
      let items ← p
      layout
      committed (expecting name (char ')'))
      return items)
      fun text a => ∃ w body v, text = '(' :: (w ++ (body ++ (v ++ [')']))) ∧ Plain w ∧ Plain v ∧
        P body a := by
  apply (reads_char '(').bind
  rintro _ _ rfl
  refine Reads.bind readsPlain_layout fun w _ hw => ?_
  apply h.bind
  intro body a ha
  refine Reads.bind readsPlain_layout fun v _ hv => ?_
  apply ((reads_char ')').expecting name).committed.bind
  rintro _ _ rfl
  apply Reads.pure
  exact ⟨w, body, v, by simp, hw, hv, ha⟩

end

end Grammar.Rule

/-!
## Names, attributes and types
-/

namespace TypeExpr.Grammar

theorem nameText_plainName {extra : List Char} (hextra : ∀ x ∈ extra, x ∈ ['_', '$']) :
    Reads (plainName extra) fun text _ => text ≠ [] ∧ NameText text := by
  intro c a next hrun
  unfold plainName at hrun
  split at hrun
  · next x rest hrest =>
      split at hrun
      · next hx =>
          cases hrun
          have hstart : isNameStart ['_', '$'] x = true := by
            unfold isNameStart at hx ⊢
            rcases Bool.or_eq_true_iff.mp hx with halpha | hmem
            · rw [halpha, Bool.true_or]
            · rw [Bool.or_eq_true_iff]
              exact Or.inr (decide_eq_true (hextra x (of_decide_eq_true hmem)))
          have hparts : ∀ y ∈ x :: rest.takeWhile isNamePart, isNamePart y = true ∨ y = '$' := by
            rw [List.forall_mem_cons]
            exact ⟨isNamePart_or_of_isNameStart hstart,
              fun y hy => Or.inl (List.mem_takeWhile_imp hy)⟩
          refine ⟨x :: rest.takeWhile isNamePart, ?_, List.cons_ne_nil _ _, ?_, ?_⟩
          · rw [hrest, List.cons_append, List.takeWhile_append_dropWhile]
          · exact fun y hy => isPlain_of_name (hparts y hy)
          · intro y hy
            rcases hparts y (List.mem_of_getLast? hy) with hpart | rfl
            · simp [endsName, hpart]
            · rfl
      · cases hrun
  · cases hrun

theorem nameText_identifier : Reads identifier fun text _ => text ≠ [] ∧ NameText text := by
  have hmark : NameText [graveMark] := by
    constructor
    · intro c hc
      rw [List.mem_singleton.mp hc]
      decide
    · intro c hc
      cases hc
      decide
  apply Reads.orElse
  · apply (reads_char graveMark).bind
    rintro _ _ rfl
    apply (nameText_plainName (by simp)).bind
    intro text name htext
    apply (reads_char graveMark).bind
    rintro _ _ rfl
    apply Reads.pure
    exact ⟨List.cons_ne_nil _ _, hmark.append (htext.2.append (hmark.append ⟨nofun, nofun⟩))⟩
  · exact nameText_plainName fun _ h => h

theorem nameText_qualifiedName :
    Reads qualifiedName fun text _ => text ≠ [] ∧ NameText text := by
  have hstep : Reads (do char '.'; identifier) fun text _ => NameText text := by
    apply (reads_char '.').bind
    rintro _ _ rfl
    apply nameText_identifier.mono
    intro text _ htext
    constructor
    · rw [List.singleton_append, List.forall_mem_cons]
      exact ⟨by decide, htext.2.plain⟩
    · intro c hc
      rw [List.getLast?_append_of_ne_nil _ htext.1] at hc
      exact htext.2.last c hc
  have hmore : Reads (many (do char '.'; identifier)) fun text _ => NameText text :=
    hstep.many ⟨nofun, nofun⟩ fun _ _ _ _ htext hmore => htext.append hmore
  have hparts : Reads (separated1 (char '.') identifier) fun text _ =>
      text ≠ [] ∧ NameText text := by
    apply nameText_identifier.bind
    intro text _ htext
    apply hmore.bind
    intro more _ hmore
    apply Reads.pure
    rw [List.append_nil]
    exact ⟨List.append_ne_nil_of_left_ne_nil htext.1 _, htext.2.append hmore⟩
  apply hparts.bind
  intro text _ htext
  apply Reads.pure
  rwa [List.append_nil]

theorem readsPlain_identifier : ReadsPlain identifier :=
  nameText_identifier.mono fun _ _ h => plain_of_forall h.2.plain

theorem closeParens_eq_append {q : Quoting} {depth : Nat} {cs inner rest : List Char}
    (h : closeParens q depth cs = some (inner, rest)) : cs = inner ++ ')' :: rest := by
  induction cs generalizing q depth inner with
  | nil => cases h
  | cons c cs ih =>
      rcases closeParens_cons_cases h with ⟨-, rfl, -, rfl, rfl⟩ | ⟨depth', within, rfl, -, hclose⟩
      · rfl
      · rw [ih hclose, List.cons_append]

theorem reads_enclosed : Reads balancedParens fun text _ =>
    ∃ inner, text = '(' :: (inner ++ [')']) ∧ Enclosed inner := by
  intro c a next hrun
  rcases c with ⟨s, i⟩
  by_cases hhead : s.head? = some '('
  · cases s with
    | nil => cases hhead
    | cons x s =>
        cases hhead
        rw [balancedParens_cons] at hrun
        split at hrun
        · next inner rest hclose =>
            cases hrun
            have hcs := closeParens_eq_append hclose
            rcases exists_of_closeParens hclose with ⟨taken, htaken, hany⟩
            have htaken' : taken = inner ++ [')'] := by
              apply List.append_cancel_right
              rw [← htaken, hcs, List.append_assoc, List.singleton_append]
            refine ⟨'(' :: (inner ++ [')']), by simp [hcs], inner, rfl, ?_⟩
            intro rest'
            rw [← hany rest', htaken', List.append_assoc, List.singleton_append]
        · cases hrun
  · rcases declines_balancedParens hhead i with ⟨e, he⟩
    rw [he] at hrun
    cases hrun

theorem readsPlain_named {p : Rule α} {f : α → Option String → Rule β}
    (h : Reads p fun text _ => text ≠ [] ∧ NameText text) (hnext : ∀ a b, ReadsPlain (f a b)) :
    ReadsPlain (p >>= fun a => balancedParens.optional >>= fun b => f a b) := by
  refine Reads.bind h fun text a htext => ?_
  apply reads_enclosed.optional_bind
  · rintro _ b ⟨inner, rfl, hinner⟩
    refine (hnext a (some b)).mono fun more _ hmore => ?_
    rw [← List.append_assoc]
    exact (htext.2.plain_arguments htext.1 hinner).append hmore
  · refine (hnext a none).mono fun more _ hmore => ?_
    exact (plain_of_forall htext.2.plain).append hmore

theorem readsPlain_decoration : ReadsPlain decoration := by
  apply (readsPlain_char (by decide)).bind
  intro _
  exact readsPlain_named nameText_qualifiedName fun _ _ => .pure _

theorem readsPlain_decorations : ReadsPlain decorations :=
  (readsPlain_layout.bind fun _ => readsPlain_decoration).many

theorem readsPlain_effects : ReadsPlain effects := by
  have hasync : ReadsPlain (do word "async"; layout) :=
    (readsPlain_word (by decide)).bind fun _ => readsPlain_layout
  have hword : Reads (word "throws") fun text _ => text ≠ [] ∧ NameText text := by
    apply (reads_word "throws").mono
    rintro _ _ rfl
    exact ⟨by decide, List.all_eq_true.mp (by decide), (Option.all_eq_true _ _).mp (by decide)⟩
  have hthrows : ReadsPlain (do word "throws"; let _ ← balancedParens.optional) :=
    readsPlain_named hword fun _ _ => .pure _
  have hclause : ReadsPlain
      (oneOf [(do word "throws"; let _ ← balancedParens.optional), word "rethrows"]) :=
    Reads.orElse hthrows (readsPlain_word (by decide))
  apply hasync.optional.bind
  intro isAsync
  apply (hclause.bind fun _ => readsPlain_layout).optional.bind
  intro throws
  exact .pure _

theorem readsPlain_elementLabel : ReadsPlain elementLabel := by
  have hsecond : ReadsPlain (do layout1; identifier) :=
    readsPlain_layout1.bind fun _ => readsPlain_identifier
  have hnot : ReadsPlain (notFollowedBy (char ':')) :=
    (Reads.notFollowedBy _).mono fun _ _ htext => htext ▸ .nil
  apply readsPlain_identifier.bind
  intro _
  apply hsecond.optional.bind
  intro _
  apply readsPlain_layout.bind
  intro _
  apply (readsPlain_char (by decide)).bind
  intro _
  exact hnot.bind fun _ => readsPlain_layout

theorem readsPlain_separated {sep : Rule β} {p : Rule α} (hsep : ReadsPlain sep)
    (hp : ReadsPlain p) : ReadsPlain (separated sep p) := by
  apply (hsep.separated1 hp).optional.bind
  intro found
  cases found with
  | none => exact .pure []
  | some items => exact .pure items

section
variable {inner : Rule TypeExpr} (h : ReadsPlain inner)

include h

theorem readsPlain_worded {w : String} (hw : w.toList.all isPlain = true)
    (build : TypeExpr → TypeExpr) : ReadsPlain (worded inner w build) := by
  apply (readsPlain_word hw).bind
  intro _
  apply readsPlain_layout1.bind
  intro _
  exact h.bind fun t => .pure _

theorem readsPlain_tupleElement : ReadsPlain (tupleElement inner) := by
  apply readsPlain_elementLabel.optional.bind
  intro _
  apply h.bind
  intro t
  exact (readsPlain_word (by decide)).optional.bind fun _ => .pure t

theorem readsPlain_tupleItems : ReadsPlain (tupleItems inner) := by
  have hitems := readsPlain_separated (readsPlain_spacedChar (x := ',') (by decide))
    (readsPlain_tupleElement h)
  apply (reads_parenthesised "closing parenthesis" hitems).mono
  rintro _ _ ⟨w, body, v, rfl, hw, hv, hbody⟩
  rw [← List.append_assoc, ← List.append_assoc, List.append_assoc w]
  exact .parens (hw.append (hbody.append hv)) .nil

theorem readsPlain_collection : ReadsPlain (collection inner) := by
  have hvalue : ReadsPlain (do spacedChar ':'; inner) :=
    (readsPlain_spacedChar (by decide)).bind fun _ => h
  apply (readsPlain_char (by decide)).bind
  intro _
  apply readsPlain_layout.bind
  intro _
  apply h.bind
  intro key
  apply hvalue.optional.bind
  intro value
  apply readsPlain_layout.bind
  intro _
  have hclosing : ReadsPlain (committed (expecting "closing bracket" (char ']'))) :=
    ((readsPlain_char (by decide)).expecting _).committed
  apply hclosing.bind
  intro _
  cases value with
  | none => exact .pure _
  | some value => exact .pure _

theorem readsPlain_genericArguments : ReadsPlain (genericArguments inner) := by
  apply (readsPlain_char (by decide)).bind
  intro _
  apply ((readsPlain_spacedChar (by decide)).separated1
    (readsPlain_layout.bind fun _ => h)).bind
  intro arguments
  apply readsPlain_layout.bind
  intro _
  exact (readsPlain_char (by decide)).bind fun _ => .pure _

theorem readsPlain_nameStep : ReadsPlain (nameStep inner) := by
  have hname : ReadsPlain (do char '.'; identifier) :=
    (readsPlain_char (by decide)).bind fun _ => readsPlain_identifier
  apply hname.attempt.bind
  intro name
  cases name with
  | none => exact reads_refuse
  | some name => exact (readsPlain_genericArguments h).optional.bind fun _ => .pure _

theorem readsPlain_namedType : ReadsPlain (namedType inner) := by
  apply readsPlain_identifier.bind
  intro first
  apply (readsPlain_genericArguments h).optional.bind
  intro arguments
  exact (readsPlain_nameStep h).many.bind fun steps => .pure _

theorem readsPlain_primary : ReadsPlain (primary inner) := by
  refine Reads.oneOf fun p hp => ?_
  simp only [List.mem_cons, List.not_mem_nil, or_false] at hp
  rcases hp with rfl | rfl | rfl
  · exact (readsPlain_tupleItems h).bind fun _ => .pure _
  · exact (readsPlain_collection h).bind fun _ => .pure _
  · exact (readsPlain_namedType h).bind fun _ => .pure _

theorem readsPlain_postfixForm : ReadsPlain (postfixForm inner) := by
  have hmarks : ReadsPlain (takeWhile fun c => c == '?' || c == '!') := by
    apply (reads_takeWhile _).mono
    rintro text _ ⟨rfl, hkeep⟩
    refine plain_of_forall fun c hc => ?_
    rcases Bool.or_eq_true_iff.mp (hkeep c hc) with hmark | hmark
    · rw [eq_of_beq hmark]
      decide
    · rw [eq_of_beq hmark]
      decide
  apply (readsPlain_primary h).bind
  intro base
  exact hmarks.bind fun marks => .pure _

theorem readsPlain_arrow : ReadsPlain (arrow inner) := by
  apply readsPlain_layout.bind
  intro _
  apply readsPlain_effects.bind
  intro e
  apply (readsPlain_word (by decide)).bind
  intro _
  apply readsPlain_layout.bind
  intro _
  have hresult : ReadsPlain (committed inner) := Reads.committed h
  exact hresult.bind fun result => .pure _

theorem readsPlain_functionForm : ReadsPlain (functionForm inner) := by
  apply (readsPlain_postfixForm h).bind
  intro base
  apply (readsPlain_arrow h).optional.bind
  intro found
  rcases found with _ | ⟨⟨isAsync, throws⟩, result⟩
  · exact .pure _
  · exact .pure _

theorem readsPlain_attributedForm : ReadsPlain (attributedForm inner) :=
  (readsPlain_decoration.bind fun _ => readsPlain_layout).many.bind fun _ =>
    readsPlain_functionForm h

theorem readsPlain_typeForm : ReadsPlain (typeForm inner) := by
  refine Reads.oneOf fun p hp => ?_
  simp only [List.mem_cons, List.not_mem_nil, or_false] at hp
  rcases hp with rfl | rfl | rfl | rfl
  · exact readsPlain_worded h (by decide) _
  · exact readsPlain_worded h (by decide) _
  · exact readsPlain_worded h (by decide) _
  · exact readsPlain_attributedForm h

end

theorem readsPlain_typeWithin (depth : Nat) : ReadsPlain (typeWithin depth) := by
  induction depth with
  | zero => exact reads_refuse
  | succ depth ih => exact readsPlain_typeForm ih

theorem readsPlain_type : ReadsPlain type := by
  intro c
  exact readsPlain_typeWithin (c.rest.length + 1) c

end TypeExpr.Grammar

/-!
## Parameters and generic parameters
-/

namespace Signature.Grammar

open TypeExpr.Grammar

theorem readsPlain_declarationModifier : ReadsPlain declarationModifier := by
  have hname : Reads (identifier.satisfying fun w => w ∈ declarationModifiers)
      fun text _ => text ≠ [] ∧ NameText text :=
    nameText_identifier.satisfying _
  exact readsPlain_named hname fun _ _ => .pure _

theorem readsPlain_constraints : ReadsPlain constraints :=
  (readsPlain_spacedChar (by decide)).separated1 readsPlain_type

theorem readsPlain_genericParameter : ReadsPlain genericParameter := by
  have heach : ReadsPlain (do word "each"; layout1) :=
    (readsPlain_word (by decide)).bind fun _ => readsPlain_layout1
  have hconstraints : ReadsPlain (do spacedChar ':'; constraints) :=
    (readsPlain_spacedChar (by decide)).bind fun _ => readsPlain_constraints
  apply heach.optional.bind
  intro _
  apply readsPlain_identifier.bind
  intro name
  exact hconstraints.optional.bind fun _ => .pure _

theorem readsPlain_genericClause : ReadsPlain genericClause := by
  have hitems : ReadsPlain (committed (separated1 (spacedChar ',')
      (do layout; genericParameter))) :=
    ((readsPlain_spacedChar (by decide)).separated1
      (readsPlain_layout.bind fun _ => readsPlain_genericParameter)).committed
  have hclosing : ReadsPlain (committed (expecting "closing '>'" (char '>'))) :=
    ((readsPlain_char (by decide)).expecting _).committed
  apply (readsPlain_char (by decide)).bind
  intro _
  apply hitems.bind
  intro parameters
  apply readsPlain_layout.bind
  intro _
  exact hclosing.bind fun _ => .pure _

theorem defaultExtent_prefix (q : Quoting) (depth : Nat) (cs : List Char) :
    defaultExtent q depth cs <+: cs := by
  fun_induction defaultExtent q depth cs with
  | case1 => exact List.prefix_refl _
  | _ => simp_all

theorem reads_defaultValue : Reads defaultValue fun _ _ => True := by
  intro c a next hrun
  unfold defaultValue at hrun
  dsimp only at hrun
  split at hrun
  · cases hrun
  · cases hrun
    rcases defaultExtent_prefix .outside 0 c.rest with ⟨behind, hrest⟩
    refine ⟨defaultExtent .outside 0 c.rest, ?_, trivial⟩
    generalize defaultExtent .outside 0 c.rest = extent at hrest ⊢
    rw [← hrest, List.drop_left]

theorem reads_spacedChar {x : Char} : Reads (spacedChar x) fun _ _ => True := by
  refine reads_layout.bind fun _ _ _ => ?_
  refine (reads_char x).bind fun _ _ _ => ?_
  exact reads_layout.mono fun _ _ _ => trivial

theorem readsPlain_secondName : ReadsPlain secondName := by
  have hlook : ReadsPlain (lookAhead (do layout; char ':')) :=
    (Reads.lookAhead _).mono fun _ _ htext => htext ▸ .nil
  apply readsPlain_layout1.bind
  intro _
  apply readsPlain_identifier.bind
  intro name
  exact hlook.bind fun _ => .pure _

theorem reads_parameter : Reads parameter fun text p => p.default = none → Plain text := by
  have hcolon : ReadsPlain (committed (expecting "':' after parameter name" (char ':'))) :=
    ((readsPlain_char (by decide)).expecting _).committed
  have hspecifiers : ReadsPlain (many (do
      let _ ← identifier.satisfying fun w => w ∈ typeSpecifiers
      layout1)) :=
    (ReadsPlain.bind (readsPlain_identifier.satisfying _) fun _ => readsPlain_layout1).many
  have htype : ReadsPlain (committed (expecting "parameter type" type)) :=
    (readsPlain_type.expecting _).committed
  have hfirst : ReadsPlain (expecting "parameter name" identifier) :=
    readsPlain_identifier.expecting _
  have hdefault : Reads (do spacedChar '='; defaultValue) fun _ _ => True :=
    Reads.bind reads_spacedChar fun _ _ _ => reads_defaultValue
  apply readsPlain_decorations.bind_if
  intro leading
  apply readsPlain_layout.bind_if
  intro _
  apply hfirst.bind_if
  intro first
  apply readsPlain_secondName.optional.bind_if
  intro second
  apply readsPlain_layout.bind_if
  intro _
  apply hcolon.bind_if
  intro _
  apply readsPlain_decorations.bind_if
  intro trailing
  apply readsPlain_layout.bind_if
  intro _
  apply hspecifiers.bind_if
  intro _
  apply htype.bind_if
  intro t
  apply (readsPlain_word (w := "...") (by decide)).optional.bind_if
  intro dots
  apply hdefault.optional_bind
  · intro text default _
    apply Reads.pure
    nofun
  · exact Reads.pure fun _ => .nil

theorem reads_parameters : Reads (separated (spacedChar ',') parameter)
    fun text ps => (∀ p ∈ ps, p.default = none) → Plain text := by
  have hstep : Reads (do let _ ← spacedChar ','; parameter)
      fun text p => p.default = none → Plain text :=
    ReadsPlain.bind_if (readsPlain_spacedChar (by decide)) fun _ => reads_parameter
  have hmore : Reads (many (do let _ ← spacedChar ','; parameter))
      fun text ps => (∀ p ∈ ps, p.default = none) → Plain text := by
    refine hstep.many (fun _ => .nil) fun text p more ps htext hmore hnone => ?_
    rcases List.forall_mem_cons.mp hnone with ⟨hp, hps⟩
    exact (htext hp).append (hmore hps)
  have hitems : Reads (separated1 (spacedChar ',') parameter)
      fun text ps => (∀ p ∈ ps, p.default = none) → Plain text := by
    apply reads_parameter.bind
    intro text p htext
    apply hmore.bind
    intro more ps hmore
    apply Reads.pure
    intro hnone
    rcases List.forall_mem_cons.mp hnone with ⟨hp, hps⟩
    rw [List.append_nil]
    exact (htext hp).append (hmore hps)
  apply hitems.optional_bind
  · intro text ps htext
    apply Reads.pure
    rwa [List.append_nil]
  · exact Reads.pure fun _ => .nil

theorem reads_parameterClause : Reads parameterClause fun text ps =>
    ∃ inner, text = '(' :: (inner ++ [')']) ∧ ((∀ p ∈ ps, p.default = none) → Plain inner) := by
  apply (reads_parenthesised "closing parenthesis" reads_parameters).mono
  rintro _ ps ⟨w, body, v, rfl, hw, hv, hbody⟩
  refine ⟨w ++ (body ++ v), by simp, fun hnone => ?_⟩
  exact hw.append ((hbody hnone).append hv)

end Signature.Grammar
end ViewModifiers
