import ViewModifiers.Proofs.Expression.Placement

/-!
# Expressions delimit their texts

Every rule for expressions reads the same from a text that ends earlier, but not
within what was read.  Thus each node of a tree is what its own part of the text
is read as.  For the forms with inner expressions this follows from the same for
the rule of the inner ones, on texts with one character less.
-/

namespace ViewModifiers
namespace Expression
namespace Grammar

open ViewModifiers.Grammar
open ViewModifiers.Grammar.Rule
open Text (Span utf8Length)

/-!
## Words
-/

section
variable {bound i : Nat}

theorem identifier_cons {x : Char} (hx : isLetter x = true) (rest : List Char) (i : Nat) :
    identifier ⟨x :: rest, i⟩ =
      ((takeWhile isLetterOrDigit).run ⟨x :: rest, i⟩).map String.ofList :=
  if_pos hx

theorem delimits_identifier : Delimits bound i identifier fun text _ => text ≠ [] := by
  intro input name next hlength hrun
  obtain ⟨x, more, rfl, hx⟩ : ∃ x more, input = x :: more ∧ isLetter x = true := by
    rcases reads_identifier _ _ _ hrun with ⟨_, hinput, rfl, hname⟩
    rcases Syntax.IsName.exists_first hname with ⟨x, more, hname, hx⟩
    rw [hname] at hinput
    exact ⟨x, more ++ next.rest, hinput, hx⟩
  rw [identifier_cons hx] at hrun
  cases hrun
  rcases delimits_takeWhile isLetterOrDigit _ _ _ hlength rfl with
    ⟨text, rest, htext, hnext, ⟨htaken, _⟩, hcut⟩
  obtain ⟨letters, rfl⟩ : ∃ letters, text = x :: letters := by
    rw [← htaken]
    exact ⟨_, List.takeWhile_cons_of_pos (Syntax.isLetterOrDigit_of_isLetter hx)⟩
  refine ⟨x :: letters, rest, htext, hnext, List.cons_ne_nil _ _, ?_⟩
  intro more' behind hmore
  rw [List.cons_append, identifier_cons hx]
  exact congrArg (Reply.map String.ofList) (hcut more' behind hmore)

theorem mild_identifier : Mild identifier := by
  intro c s hrun
  rw [identifier] at hrun
  split at hrun
  · cases hrun
  · split at hrun <;> cases hrun

theorem lapses_identifier : Lapses identifier := by
  intro text behind i s hrun
  apply declines_identifier
  intro x hx
  rcases List.head?_eq_some_iff.mp hx with ⟨more, rfl⟩
  rw [Bool.eq_false_iff]
  intro hletter
  rw [List.cons_append, identifier_cons hletter] at hrun
  cases hrun

theorem delimits_stringLiteral : Delimits (bound + 1) i stringLiteral fun text _ => text ≠ [] := by
  have hbody : ∀ i, Delimits bound i (fun c => stringBody c.rest c.offset : Rule (List Char))
      fun _ _ => True := by
    intro i input characters next _ hrun
    rcases stringBody_consumes hrun with ⟨body, hinput, hderives⟩
    have hinput : input = body ++ '"' :: next.rest := hinput
    have hrun : stringBody input i = .ok characters next := hrun
    refine ⟨body ++ ['"'], next.rest, by rw [hinput]; simp, ?_, trivial, ?_⟩
    · rw [hinput, stringBody_eq_ok hderives] at hrun
      exact (Reply.ok.inj hrun).2.symm
    · intro more _ _
      rw [List.append_assoc, List.singleton_append]
      exact stringBody_eq_ok hderives more i
  apply Delimits.behind_char
  apply (hbody _).returning
  intro text _ _
  exact List.cons_ne_nil _ _

theorem Reply.map_ne_declined {f : α → β} {r : Reply α} (h : ∀ s, r ≠ .fail false s) (s : Stuck) :
    r.map f ≠ .fail false s := by
  cases r with
  | ok a next => exact nofun
  | fail x t =>
      intro heq
      cases heq
      exact h s rfl

theorem stringBody_ne_declined (text : List Char) (i : Nat) (s : Stuck) :
    stringBody text i ≠ .fail false s := by
  induction text, i using stringBody.induct generalizing s with
  | case1 i =>
      intro heq
      cases heq
  | case2 rest i =>
      intro heq
      cases heq
  | case3 i =>
      intro heq
      cases heq
  | case4 c rest i ih =>
      rw [stringBody]
      exact Reply.map_ne_declined ih s
  | case5 c rest i hquote hlone hescape ih =>
      rw [stringBody]
      · exact Reply.map_ne_declined ih s
      · exact hquote
      · exact hlone
      · exact hescape

theorem lapses_stringLiteral : Lapses stringLiteral := by
  apply Lapses.behind_char
  apply Firm.lapses
  apply Firm.bind
  · exact fun c => stringBody_ne_declined c.rest c.offset
  · exact fun _ => firm_pure

theorem delimits_fractionPart : Delimits bound i fractionPart fun _ _ => True := by
  apply (delimits_char '.').bind
  intro _ _ _
  exact (delimits_takeWhile1 Char.isDigit).mono fun _ _ _ => trivial

theorem lapses_fractionPart : Lapses fractionPart :=
  Lapses.behind_char (lapses_takeWhile1 Char.isDigit)

/-- Digits and a fraction, where the sign is settled; only a failure names the start. -/
def unsigned (start : Cursor) (sign : Option Unit) : Rule Literal := do
  let whole ← takeWhile1 Char.isDigit
  match ← fractionPart.optional with
  | some fraction =>
      return .float
        (Decimal.signedNearest sign.isSome (Decimal.digitsValue (whole ++ fraction))
          (-(fraction.length : Int)))
  | none =>
      let magnitude : Int := Decimal.digitsValue whole
      let value := if sign.isSome then -magnitude else magnitude
      if inWord value then return .integer value
      else fun _ => .fail true ⟨start, [.construct "integer in range"]⟩

theorem number_eq : number = (here >>= fun start => (char '-').optional >>= unsigned start) :=
  rfl

theorem resembles_unsigned (start start' : Cursor) (sign : Option Unit) :
    Resembles (unsigned start sign) (unsigned start' sign) := by
  apply Resembles.bind
  intro whole
  apply Resembles.bind
  intro fraction
  cases fraction with
  | some fraction => exact .refl _
  | none => exact Resembles.ite (.refl _) resembles_committed

theorem delimits_unsigned (start : Cursor) (sign : Option Unit) :
    Delimits bound i (unsigned start sign) fun text _ => text ≠ [] := by
  apply (delimits_takeWhile1 Char.isDigit).bind
  rintro whole _ ⟨-, hne, -⟩
  apply delimits_fractionPart.optional_bind lapses_fractionPart
  · intro text fraction _
    exact Delimits.pure (by simp [hne])
  · apply Delimits.ite
    · exact Delimits.pure (by simp [hne])
    · exact delimits_failure

theorem lapses_unsigned (start : Cursor) (sign : Option Unit) :
    Lapses (unsigned start sign) := by
  apply (lapses_takeWhile1 Char.isDigit).bind
  intro whole
  apply firm_optional.bind
  intro fraction
  cases fraction with
  | some fraction => exact firm_pure
  | none => exact firm_pure.ite firm_failure

theorem delimits_number : Delimits bound i number fun text _ => text ≠ [] := by
  rw [number_eq]
  apply Delimits.here_bind
  · intro start
    apply (delimits_char '-').optional_bind (lapses_char '-')
    · rintro _ _ rfl
      exact (delimits_unsigned start (some ())).mono fun _ _ _ => List.cons_ne_nil _ _
    · exact delimits_unsigned start none
  · exact fun start start' => .bind (resembles_unsigned start start')

theorem lapses_number : Lapses number := by
  rw [number_eq]
  apply Lapses.here_bind
  · intro start
    apply Lapses.optional_char (lapses_unsigned start)
    exact (declines_takeWhile1 (by simp)).bind
  · exact fun start start' => .bind (resembles_unsigned start start')

theorem mem_rangeOperator {motive : Rule Bool → Prop}
    (h : ∀ (w : String) (closed : Bool), motive (do word w; return closed)) :
    ∀ p ∈ [(do word "..."; return true), (do word "..<"; return false),
      (do word ".."; return false)], motive p := by
  intro p hp
  simp only [List.mem_cons, List.not_mem_nil, or_false] at hp
  rcases hp with rfl | rfl | rfl <;> exact h _ _

theorem lapses_spelling (w : String) (closed : Bool) : Lapses (do word w; return closed) :=
  (lapses_word w).bind fun _ => firm_pure

theorem delimits_operator :
    Delimits bound i (do layout; rangeOperator) fun _ _ => True := by
  apply delimits_layout.bind
  intro _ _ _
  apply Delimits.oneOf (mem_rangeOperator fun w _ => _) (mem_rangeOperator lapses_spelling)
  exact fun w _ => (delimits_word w).returning fun _ _ _ => trivial

theorem mild_operator : Mild (do layout; rangeOperator) := by
  apply mild_layout.bind
  intro _
  exact Mild.oneOf (mem_rangeOperator fun w _ => (mild_word w).bind fun _ => mild_pure)

theorem lapses_operator : Lapses (do layout; rangeOperator) :=
  Lapses.behind_layout (Lapses.oneOf (mem_rangeOperator lapses_spelling))

theorem delimits_memberName : Delimits bound i (do char '.'; identifier) fun _ _ => True := by
  apply (delimits_char '.').bind
  intro _ _ _
  exact delimits_identifier.mono fun _ _ _ => trivial

theorem mild_memberName : Mild (do char '.'; identifier) :=
  (mild_char '.').bind fun _ => mild_identifier

theorem lapses_memberName : Lapses (do char '.'; identifier) :=
  Lapses.behind_char lapses_identifier

end

/-!
## Spans and labels
-/

section
variable {bound i : Nat}

theorem delimits_spanned {p : Rule α} {P : List Char → α → Prop} (h : Delimits bound i p P) :
    Delimits bound i (spanned p) fun text x => P text x.1 ∧ x.2 = ⟨i, i + utf8Length text⟩ := by
  apply Delimits.offset_bind
  apply h.bind
  intro text a ha
  apply Delimits.offset_bind
  apply Delimits.pure
  rw [List.append_nil]
  exact ⟨ha, rfl⟩

theorem lapses_spanned {p : Rule α} (h : Lapses p) : Lapses (spanned p) := by
  intro text behind i s hrun
  apply declines_spanned
  apply h text behind i s
  exact declined_of_bind (fun _ => firm_offset.bind fun _ => firm_pure) hrun

theorem delimits_label : Delimits bound i label fun _ _ => True := by
  apply delimits_identifier.bind
  intro _ name _
  apply delimits_layout.bind
  intro _ _ _
  exact (delimits_char ':').returning fun _ _ _ => trivial

theorem mild_label : Mild label := by
  apply mild_identifier.bind
  intro name
  apply mild_layout.bind
  intro _
  exact (mild_char ':').bind fun _ => mild_pure

theorem lapses_label : Lapses label := by
  apply mild_label.lapses
  intro text behind i j name next hrun
  rcases reads_label _ _ _ hrun with ⟨_, hrest, w, rfl, hname, hw⟩
  have hyields : Yields label (name.toList ++ (w ++ [':'])) (next.rest ++ behind)
      fun name' => name' = name := yields_label hname hw
  rcases hyields.exists_of_ok trivial i with ⟨name', offset', hok, _⟩
  refine ⟨name', ⟨next.rest ++ behind, offset'⟩, ?_⟩
  rw [show text = _ ++ next.rest from hrest, List.append_assoc]
  exact hok

end

/-!
## Forms of one word
-/

section
variable {bound i : Nat}

theorem delimits_stringForm : Delimits (bound + 1) i stringForm (Reached i) := by
  apply (delimits_spanned delimits_stringLiteral).returning
  rintro text ⟨string, span⟩ ⟨hne, rfl⟩
  exact ⟨hne, Or.inr (formed_leaf rfl rfl rfl rfl)⟩

theorem lapses_stringForm : Lapses stringForm :=
  (lapses_spanned lapses_stringLiteral).bind fun _ => firm_pure

theorem delimits_numberForm : Delimits bound i numberForm (Reached i) := by
  apply (delimits_spanned delimits_number).returning
  rintro text ⟨number, span⟩ ⟨hne, rfl⟩
  exact ⟨hne, Or.inr (formed_leaf rfl rfl rfl rfl)⟩

theorem lapses_numberForm : Lapses numberForm :=
  (lapses_spanned lapses_number).bind fun _ => firm_pure

theorem delimits_atom : Delimits bound i atom (Reached i) := by
  have hname : Delimits bound i (do char ':'; committed (expecting "atom name" identifier))
      fun text _ => text ≠ [] := by
    apply (delimits_char ':').bind
    rintro _ _ rfl
    exact (delimits_identifier.expecting "atom name").committed.mono
      fun _ _ _ => List.cons_ne_nil _ _
  apply (delimits_spanned hname).returning
  rintro text ⟨name, span⟩ ⟨hne, rfl⟩
  exact ⟨hne, Or.inr (formed_leaf rfl rfl rfl rfl)⟩

theorem lapses_atom : Lapses atom := by
  apply Lapses.bind
  · apply lapses_spanned
    apply Lapses.behind_char
    exact firm_committed.lapses
  · exact fun _ => firm_pure

end

/-!
## Forms with inner expressions
-/

section
variable {inner : Rule Expression}

theorem lapses_parenthesised : Lapses (parenthesised inner) := by
  apply Lapses.behind_char
  apply Firm.lapses
  apply firm_layout.bind
  intro _
  apply firm_committed.bind
  intro _
  apply firm_layout.bind
  intro _
  exact firm_committed.bind fun _ => firm_pure

theorem lapses_implicitMember : Lapses (implicitMember inner) := by
  have hsuffix : Lapses (memberSuffix inner) := by
    apply Lapses.behind_char
    apply lapses_identifier.bind
    intro _
    exact firm_optional.bind fun _ => firm_pure
  exact (lapses_spanned hsuffix).bind fun _ => firm_pure

/-- A name with or without arguments; only a failure names the start. -/
def named (inner : Rule Expression) (start : Cursor) : Rule Expression := do
  let ((name, arguments), span) ← spanned (do
    let name ← identifier
    let arguments ← (argumentList inner).optional
    return (name, arguments))
  match nameMeaning name arguments span with
  | .ok e => return e
  | .error expected => fun _ => .fail true ⟨start, [.construct expected]⟩

theorem nameOrCall_eq : nameOrCall inner = (here >>= named inner) :=
  rfl

theorem resembles_named (start start' : Cursor) :
    Resembles (named inner start) (named inner start') := by
  apply Resembles.bind
  rintro ⟨⟨name, arguments⟩, span⟩
  dsimp only
  cases nameMeaning name arguments span with
  | ok e => exact .refl _
  | error expected => exact resembles_committed

theorem lapses_nameOrCall : Lapses (nameOrCall inner) := by
  rw [nameOrCall_eq]
  apply Lapses.here_bind _ resembles_named
  intro start
  apply Lapses.bind
  · apply lapses_spanned
    exact lapses_identifier.bind fun _ => firm_optional.bind fun _ => firm_pure
  · rintro ⟨⟨name, arguments⟩, span⟩
    dsimp only
    cases nameMeaning name arguments span with
    | ok e => exact firm_pure
    | error expected => exact firm_failure

variable (hreads : Reads inner fun text e => Syntax.Derives false text (.expression e))

include hreads

theorem lapses_argumentList : Lapses (argumentList inner) :=
  lapses_bracketed ((reads_argument hreads).expecting "argument").committed firm_committed

theorem lapses_array : Lapses (array inner) :=
  (lapses_spanned (lapses_bracketed hreads.committed firm_committed)).bind fun _ => firm_pure

variable {m i : Nat} (hinner : ∀ i, Delimits m i inner (Stands i))

include hinner

omit hreads in
theorem delimits_argument :
    Delimits m i (argument inner) (ArgumentStands i) := by
  have hparts : Delimits m i (do
      let name ← label.optional
      layout
      let value ← inner
      return (name, value)) fun text x => Stands i text x.2 := by
    have hvalue : ∀ (j : Nat) (name : Option String), Delimits m j
        (do layout; let value ← inner; return (name, value)) fun text x => Stands j text x.2 := by
      intro j name
      apply delimits_layout.bind
      intro w _ _
      exact (hinner _).returning fun _ _ h => h.prepend
    apply delimits_label.optional_bind lapses_label
    · intro front name _
      exact (hvalue _ (some name)).mono fun _ _ h => h.prepend
    · exact hvalue i none
  apply (delimits_spanned hparts).returning
  rintro text ⟨⟨name, value⟩, span⟩ ⟨hvalue, hspan⟩
  exact ⟨hspan, hvalue⟩

theorem delimits_argumentList :
    Delimits (m + 1) i (argumentList inner) fun text list => text ≠ [] ∧ Arguments i text list := by
  have hitem := ((reads_argument hreads).expecting "argument").committed
  exact delimits_bracketed hitem
    fun i => ((delimits_argument hinner).expecting "argument").committed

theorem delimits_suffix {f : Option (List Argument) → Rule α} {P : List Char → α → Prop}
    (h : ∀ text arguments, Arguments i text (arguments.getD []) →
      Delimits (m + 1) (i + utf8Length text) (f arguments) fun text' a => P (text ++ text') a) :
    Delimits (m + 1) i ((argumentList inner).optional >>= f) P := by
  apply (delimits_argumentList hreads hinner).optional_bind (lapses_argumentList hreads)
  · rintro text list ⟨-, harguments⟩
    exact h text (some list) harguments
  · exact h [] none .nil

theorem delimits_array : Delimits (m + 1) i (array inner) (Reached i) := by
  have hitems : Delimits (m + 1) i
      (bracketed '[' ']' "closing bracket" (committed inner)) fun text items =>
        text ≠ [] ∧ Row Stands i text items :=
    delimits_bracketed hreads.committed fun i => (hinner i).committed
  apply (delimits_spanned hitems).returning
  rintro text ⟨items, span⟩ ⟨⟨hne, hrow⟩, rfl⟩
  refine ⟨hne, Or.inr ⟨rfl, ⟨?_, ?_, nofun⟩, ?_⟩⟩
  · exact hrow.inside fun _ _ _ => Stands.span_inside
  · exact hrow.consecutive fun _ _ _ => Stands.span_inside
  · exact stands_of_row hrow

omit hreads in
theorem delimits_parenthesised : Delimits (m + 1) i (parenthesised inner) (Reached i) := by
  apply Delimits.behind_char
  apply delimits_layout.bind
  intro w _ _
  apply (hinner _).committed.bind
  intro text e he
  apply delimits_layout.bind
  intro w' _ _
  apply ((delimits_char ')').expecting "closing parenthesis").committed.returning
  intro close _ _
  refine ⟨List.cons_ne_nil _ _, Or.inl ?_⟩
  rw [← List.singleton_append]
  exact he.append.prepend.prepend

theorem delimits_implicitMember : Delimits (m + 1) i (implicitMember inner) (Reached i) := by
  have hsuffix : Delimits (m + 1) i (memberSuffix inner) fun text x =>
      text ≠ [] ∧ Arguments i text (x.2.getD []) := by
    apply (delimits_char '.').bind
    rintro _ _ rfl
    apply delimits_identifier.bind
    intro letters name _
    apply delimits_suffix hreads hinner
    intro text arguments harguments
    apply Delimits.pure
    rw [List.append_nil]
    exact ⟨List.cons_ne_nil _ _, harguments.prepend.prepend⟩
  apply (delimits_spanned hsuffix).returning
  rintro text ⟨⟨name, arguments⟩, span⟩ ⟨⟨hne, harguments⟩, rfl⟩
  exact ⟨hne, Or.inr (formed_of_arguments rfl harguments rfl rfl rfl)⟩

theorem delimits_nameOrCall : Delimits (m + 1) i (nameOrCall inner) (Reached i) := by
  have hparts : Delimits (m + 1) i (do
      let name ← identifier
      let arguments ← (argumentList inner).optional
      return (name, arguments)) fun text x => text ≠ [] ∧ Arguments i text (x.2.getD []) := by
    apply delimits_identifier.bind
    intro letters name hne
    apply delimits_suffix hreads hinner
    intro text arguments harguments
    apply Delimits.pure
    rw [List.append_nil]
    exact ⟨List.append_ne_nil_of_left_ne_nil hne _, harguments.prepend⟩
  rw [nameOrCall_eq]
  apply Delimits.here_bind _ resembles_named
  intro start
  apply (delimits_spanned hparts).bind
  rintro text ⟨⟨name, arguments⟩, span⟩ ⟨⟨hne, harguments⟩, rfl⟩
  dsimp only
  cases hmeaning : nameMeaning name arguments ⟨i, i + utf8Length text⟩ with
  | error expected => exact delimits_failure
  | ok e =>
      apply Delimits.pure
      rw [List.append_nil]
      exact ⟨hne, Or.inr (formed_of_nameMeaning harguments hmeaning)⟩

theorem delimits_primary : Delimits (m + 1) i (primary inner) (Reached i) := by
  apply Delimits.expecting
  apply Delimits.oneOf
  · intro p hp
    simp only [List.mem_cons, List.not_mem_nil, or_false] at hp
    rcases hp with rfl | rfl | rfl | rfl | rfl | rfl | rfl
    · exact delimits_array hreads hinner
    · exact delimits_stringForm
    · exact delimits_parenthesised hinner
    · exact delimits_numberForm
    · exact delimits_implicitMember hreads hinner
    · exact delimits_atom
    · exact delimits_nameOrCall hreads hinner
  · intro p hp
    simp only [List.mem_cons, List.not_mem_nil, or_false] at hp
    rcases hp with rfl | rfl | rfl | rfl | rfl | rfl | rfl
    · exact lapses_array hreads
    · exact lapses_stringForm
    · exact lapses_parenthesised
    · exact lapses_numberForm
    · exact lapses_implicitMember
    · exact lapses_atom
    · exact lapses_nameOrCall

end

end Grammar
end Expression
end ViewModifiers
