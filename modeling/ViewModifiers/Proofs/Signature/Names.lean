import ViewModifiers.Proofs.Grammar.Outcomes
import ViewModifiers.Proofs.Grammar.Values
import ViewModifiers.Signature.TypeGrammar

/-!
# Names

The grammar of declarations has one form of name, with or without the marks of a
keyword around it: a letter, an underscore or a dollar sign, and then letters,
digits and underscores.  A name without marks is read as far as it goes.
-/

namespace ViewModifiers

open Grammar Grammar.Rule

namespace TypeExpr.Grammar

/-!
## The form of names
-/

/-- A letter, or another character that a name may start with, and further characters of names. -/
def IsName (name : String) : Prop :=
  ∃ x rest, name.toList = x :: rest ∧ isNameStart ['_', '$'] x = true ∧
    ∀ c ∈ rest, isNamePart c = true

theorem ensures_plainName {extra : List Char} (hextra : ∀ x ∈ extra, x ∈ ['_', '$']) :
    Ensures (plainName extra) IsName := by
  intro c name next hrun
  unfold plainName at hrun
  split at hrun
  · next x rest _ =>
      split at hrun
      · next hstart =>
          cases hrun
          refine ⟨x, rest.takeWhile isNamePart, String.toList_ofList, ?_, ?_⟩
          · unfold isNameStart at hstart ⊢
            rw [Bool.or_eq_true, decide_eq_true_eq] at hstart ⊢
            exact hstart.imp_right (hextra x)
          · intro y hy
            exact List.mem_takeWhile_imp hy
      · cases hrun
  · cases hrun

theorem ensures_identifier : Ensures identifier IsName := by
  apply Ensures.orElse
  · unfold markedName
    refine Ensures.bind fun _ => ?_
    refine (ensures_plainName (by simp)).followed ?_
    intro name hname
    refine Ensures.bind fun _ => ?_
    exact Ensures.pure hname
  · exact ensures_plainName fun _ hx => hx

/-!
## Characters of names
-/

theorem isNamePart_or_of_isNameStart {c : Char} (h : isNameStart ['_', '$'] c = true) :
    isNamePart c = true ∨ c = '$' := by
  unfold isNameStart at h
  rw [Bool.or_eq_true, decide_eq_true_eq] at h
  rcases h with h | h
  · simp [isNamePart, Char.isAlphanum, h]
  · rcases List.mem_pair.mp h with rfl | rfl
    · exact Or.inl rfl
    · exact Or.inr rfl

theorem IsName.isNamePart_or {name : String} (h : IsName name) :
    ∀ c ∈ name.toList, isNamePart c = true ∨ c = '$' := by
  rcases h with ⟨x, rest, hname, hx, hrest⟩
  rw [hname]
  intro c hc
  rcases List.mem_cons.mp hc with rfl | hc
  · exact isNamePart_or_of_isNameStart hx
  · exact Or.inl (hrest c hc)

theorem toNat_of_isAlpha {c : Char} (h : c.isAlpha = true) : 65 ≤ c.toNat ∧ c.toNat ≤ 122 := by
  rcases Bool.or_eq_true_iff.mp h with hupper | hlower
  · have hbounds : 65 ≤ c.toNat ∧ c.toNat ≤ 90 := of_decide_eq_true hupper
    omega
  · rcases Bool.and_eq_true_iff.mp hlower with ⟨hfrom, hto⟩
    have hfrom' : 97 ≤ c.toNat := of_decide_eq_true hfrom
    have hto' : c.toNat ≤ 122 := of_decide_eq_true hto
    omega

theorem toNat_bounds {c : Char} (h : isNamePart c = true ∨ c = '$') :
    33 ≤ c.toNat ∧ c.toNat < 128 := by
  rcases h with h | rfl
  · rcases Bool.or_eq_true_iff.mp h with halphanum | hunderscore
    · rcases Bool.or_eq_true_iff.mp halphanum with halpha | hdigit
      · have hbounds := toNat_of_isAlpha halpha
        omega
      · have hbounds : 48 ≤ c.toNat ∧ c.toNat ≤ 57 := Char.isDigit_iff_toNat.mp hdigit
        omega
    · rw [beq_iff_eq.mp hunderscore]
      decide
  · decide

theorem isBlank_eq_false {c : Char} (h : isNamePart c = true ∨ c = '$') :
    Text.isBlank c = false := by
  have hbounds := toNat_bounds h
  simp only [Text.isBlank, Bool.or_eq_false_iff, Bool.and_eq_false_iff,
    decide_eq_false_iff_not, beq_eq_false_iff_ne]
  omega

theorem isLayout_eq_false {c : Char} (h : Text.isBlank c = false) : Text.isLayout c = false := by
  rw [Bool.eq_false_iff] at h ⊢
  exact fun hlayout => h (Text.isBlank_of_isLayout hlayout)

/-!
## Reading names
-/

section
variable {text rest : List Char}

theorem yields_identifier {name : String} (hname : IsName name)
    (hrest : ∀ x, rest.head? = some x → isNamePart x = false) :
    Yields identifier name.toList rest fun name' => name' = name := by
  rcases hname with ⟨x, more, htext, hx, hmore⟩
  have hmark : (name.toList ++ rest).head? ≠ some graveMark := by
    rw [htext]
    intro hhead
    cases hhead
    cases hx
  apply ((declines_char hmark).bind : Declines markedName _).orElse
  apply Yields.of_eq
  intro offset
  rcases (yields_takeWhile hmore hrest).exists_of_ok trivial (offset + x.utf8Size) with
    ⟨_, offset', hrun, rfl⟩
  refine ⟨name, offset', ?_, rfl⟩
  rw [htext]
  simp only [plainName, List.cons_append, if_pos hx]
  rw [hrun, Reply.map, ← htext, String.ofList_toList]

theorem declines_identifier (hmark : text.head? ≠ some graveMark)
    (h : ∀ x, text.head? = some x → isNameStart ['_', '$'] x = false) :
    Declines identifier text := by
  have hplain : Declines (plainName ['_', '$']) text := by
    intro offset
    refine ⟨⟨⟨text, offset⟩, []⟩, ?_⟩
    cases text with
    | nil => rfl
    | cons x more => simp [plainName, h x rfl]
  show Declines (Rule.oneOf [markedName, plainName ['_', '$']]) text
  apply declines_oneOf
  intro p hp
  rcases List.mem_pair.mp hp with rfl | rfl
  · exact (declines_char hmark).bind
  · exact hplain

end

end TypeExpr.Grammar

end ViewModifiers
