import ViewModifiers.Proofs.Expression.Acceptance
import ViewModifiers.Proofs.Expression.Rendering

/-!
# Rendering what was read

A tree that was read is rendered to a text that is read as the same tree, unless
parentheses were needed to write it.  The printer leaves them out, and the reader
needs them around a range that is a bound of a range or the base of a member.
That these are the only trees that are lost follows from a count: a text that
the grammar derives has an opening parenthesis for each one in the rendered
tree, and one more for each pair that only groups.
-/

namespace ViewModifiers

open Text (Span)

namespace Syntax

open Expression (suffixText operatorText HasNamedLabels IsWellNamed)
open Expression.Grammar

variable {longest : Bool} {text : List Char} {name : String}

theorem forall_of_zip {P : β → Prop} {as : List α} {bs : List β} (hlength : as.length = bs.length)
    (h : ∀ x ∈ as.zip bs, P x.2) (b : β) (hb : b ∈ bs) : P b := by
  rw [← List.map_snd_zip hlength.ge] at hb
  rcases List.mem_map.mp hb with ⟨x, hx, rfl⟩
  exact h x hx

/-!
## Names in trees that are read
-/

def Phrase.WellNamed : Phrase → Prop
  | .expression e | .chain e | .primary e => e.WellNamed
  | .suffix arguments =>
      HasNamedLabels (arguments.getD []) ∧ ∀ a ∈ arguments.getD [], a.value.WellNamed
  | .argument a => (∀ label, a.label = some label → IsIdentifier label) ∧ a.value.WellNamed

theorem wellNamed_of_standsFor {arguments : Option (List Argument)} {span : Span} {e : Expression}
    (hname : IsIdentifier name) (h : (Phrase.suffix arguments).WellNamed)
    (he : StandsFor name span arguments e) : e.WellNamed := by
  cases he with
  | isTrue _ => exact .node trivial nofun
  | isFalse _ => exact .node trivial nofun
  | isNil _ => exact .node trivial nofun
  | identifier htrue hfalse hnil => exact .node ⟨hname, htrue, hfalse, hnil⟩ nofun
  | attributeRef _ => exact .node trivial nofun
  | eventRef _ => exact .node trivial nofun
  | call => exact Expression.everywhere_call.mpr ⟨⟨hname, h.1⟩, h.2⟩

theorem Derives.wellNamed {phrase : Phrase} (h : Derives longest text phrase) :
    phrase.WellNamed := by
  induction h with
  | chain _ ih => exact ih
  | range _ _ _ _ _ _ ihLower ihUpper =>
      exact Expression.everywhere_range.mpr ⟨trivial, ihLower, ihUpper⟩
  | primary _ ih => exact ih
  | member _ hname _ ihBase ih =>
      exact Expression.everywhere_member.mpr ⟨⟨hname, ih.1⟩, ihBase, ih.2⟩
  | array _ _ hlength _ ih =>
      apply Expression.Everywhere.node trivial
      exact forall_of_zip hlength ih
  | string _ => exact .node trivial nofun
  | number _ => exact .node trivial nofun
  | parenthesised _ _ _ ih => exact ih
  | implicitMember hname _ ih =>
      exact Expression.everywhere_implicitMember.mpr ⟨⟨hname, ih.1⟩, ih.2⟩
  | atom hname => exact .node hname nofun
  | name hname _ ih => exact wellNamed_of_standsFor hname ih (standsFor_nameForm ..)
  | noArguments => exact ⟨nofun, nofun⟩
  | arguments _ _ hlength _ ih =>
      have hall := forall_of_zip (P := fun a => (Phrase.argument a).WellNamed) hlength ih
      exact ⟨fun a ha => (hall a ha).1, fun a ha => (hall a ha).2⟩
  | unlabelled _ ih => exact ⟨nofun, ih⟩
  | labelled hname _ _ _ ih =>
      refine ⟨?_, ih⟩
      intro label hlabel
      cases hlabel
      exact hname

/-!
## Counting parentheses
-/

/--
A text has an opening parenthesis for each one that is written, and if it has no
more of them, a property holds.
-/
structure Spends (written text : List Char) (P : Prop) : Prop where
  le : written.count '(' ≤ text.count '('
  tight : text.count '(' ≤ written.count '(' → P

theorem Spends.imp {written : List Char} {P Q : Prop} (h : Spends written text P) (hPQ : P → Q) :
    Spends written text Q :=
  ⟨h.le, fun hle => hPQ (h.tight hle)⟩

theorem count_of_class {keep : Char → Bool} (hkeep : keep '(' = false)
    (h : ∀ c ∈ text, keep c = true) : text.count '(' = 0 := by
  rw [List.count_eq_zero]
  intro hmem
  rw [h '(' hmem] at hkeep
  cases hkeep

theorem count_layout (h : IsLayout text) : text.count '(' = 0 :=
  count_of_class rfl h

theorem count_name (h : IsIdentifier name) : name.toList.count '(' = 0 :=
  count_of_class rfl (IsName.isLetterOrDigit h)

theorem count_operator {closed : Bool} (h : Operator text closed) : text.count '(' = 0 := by
  cases h <;> rfl

theorem count_integer {n : Int} (h : Numeral text (.integer n)) : text.count '(' = 0 := by
  cases h with
  | @integer digits negative hdigits =>
      rw [List.count_append, count_of_class rfl hdigits.2]
      cases negative <;> rfl

theorem count_commaSeparated (t : List Char) (ts : List (List Char)) :
    (commaSeparated (t :: ts)).count '(' = t.count '(' + (commaSeparated ts).count '(' := by
  cases ts with
  | nil => rfl
  | cons t' ts => simp [commaSeparated]

theorem count_escape (c : Char) : (Literal.escape c).count '(' = [c].count '(' := by
  simp only [Literal.escape, beq_iff_eq]
  split_ifs with h1 h2 h3 h4 h5
  · rw [h1]; rfl
  · rw [h2]; rfl
  · rw [h3]; rfl
  · rw [h4]; rfl
  · rw [h5]; rfl
  · rfl

theorem count_unescape_le (c : Char) : [unescape c].count '(' ≤ [c].count '(' := by
  by_cases hparen : unescape c = '('
  · have hc : c = '(' := by
      unfold unescape at hparen
      split at hparen
      · cases hparen
      · cases hparen
      · cases hparen
      · cases hparen
      · exact hparen
    rw [hparen, hc]
  · rw [List.count_singleton]
    simp [hparen]

theorem count_cons_eq (c : Char) (text : List Char) :
    (c :: text).count '(' = [c].count '(' + text.count '(' := by
  rw [← List.count_append, List.singleton_append]

theorem StringBody.count_le {characters : List Char} (h : StringBody text characters) :
    (characters.flatMap Literal.escape).count '(' ≤ text.count '(' := by
  induction h with
  | nil => exact Nat.le_refl 0
  | @plain c text characters _ _ _ ih =>
      rw [List.flatMap_cons, List.count_append, count_escape, count_cons_eq c text]
      omega
  | @escaped c text characters _ ih =>
      have hle := count_unescape_le c
      rw [List.flatMap_cons, List.count_append, count_escape, count_cons_eq '\\' (c :: text),
        count_cons_eq c text]
      omega

theorem Listed.spends {texts : List (List Char)} {body : List Char} {as : List α}
    {written : α → List Char} {P : α → Prop} (h : Listed texts body)
    (hlength : texts.length = as.length)
    (hitems : ∀ x ∈ texts.zip as, Spends (written x.2) x.1 (P x.2)) :
    Spends (commaSeparated (as.map written)) body (∀ a ∈ as, P a) := by
  induction h generalizing as with
  | nil =>
      have hnil : as = [] := List.eq_nil_of_length_eq_zero hlength.symm
      subst hnil
      exact ⟨Nat.le_refl 0, fun _ => nofun⟩
  | @last item w hw =>
      rcases List.length_eq_one_iff.mp hlength.symm with ⟨a, rfl⟩
      have hitem : Spends (written a) item (P a) := hitems (item, a) List.mem_cons_self
      have hlayout := count_layout hw
      have hle := hitem.le
      rw [List.map_singleton, commaSeparated]
      constructor
      · rw [List.count_append]
        omega
      · intro htight a' ha'
        rw [List.count_append] at htight
        rw [List.mem_singleton.mp ha']
        exact hitem.tight (by omega)
  | @cons item w w' body texts hw hw' hmore ih =>
      cases as with
      | nil => cases hlength
      | cons a as =>
          have hitem : Spends (written a) item (P a) := hitems (item, a) List.mem_cons_self
          have hitems' := ih (Nat.succ.inj hlength)
            fun x hx => hitems x (List.mem_cons_of_mem _ hx)
          have hle := hitem.le
          have hle' := hitems'.le
          have hbody : (item ++ (w ++ ',' :: (w' ++ body))).count '(' =
              item.count '(' + body.count '(' := by
            simp [count_layout hw, count_layout hw']
          rw [List.map_cons]
          constructor
          · rw [hbody, count_commaSeparated]
            omega
          · intro htight
            rw [hbody, count_commaSeparated] at htight
            have ha := hitem.tight (by omega)
            have has := hitems'.tight (by omega)
            intro a' ha'
            rcases List.mem_cons.mp ha' with rfl | ha'
            · exact ha
            · exact has a' ha'

/-!
## Counting through a derivation
-/

section
variable {arguments : Option (List Argument)} {span : Span} {e : Expression}

theorem StandsFor.toList_render (h : StandsFor name span arguments e) :
    e.render.toList = name.toList ++ suffixText arguments := by
  cases h with
  | isTrue hname => simp [hname, Expression.render, Literal.render, suffixText]
  | isFalse hname => simp [hname, Expression.render, Literal.render, suffixText]
  | isNil hname => simp [hname, Expression.render, Literal.render, suffixText]
  | identifier _ _ _ => simp [Expression.render, suffixText]
  | attributeRef hname =>
      rw [Expression.toList_render_attributeRef, hname]
      rfl
  | eventRef hname =>
      rw [Expression.toList_render_eventRef, hname]
      rfl
  | call => exact Expression.toList_render_call ..

theorem StandsFor.floatFree (h : StandsFor name span arguments e) (he : e.FloatFree) :
    ∀ a ∈ arguments.getD [], a.value.FloatFree := by
  cases h with
  | attributeRef _ | eventRef _ =>
      intro a ha
      rw [List.mem_singleton.mp ha]
      exact .node trivial nofun
  | call => exact (Expression.everywhere_call.mp he).2
  | _ => exact nofun

theorem StandsFor.ungrouped (h : StandsFor name span arguments e)
    (harguments : ∀ a ∈ arguments.getD [], a.value.Ungrouped) :
    e.Ungrouped ∧ e.isRange = false := by
  cases h with
  | call => exact ⟨Expression.everywhere_call.mpr ⟨trivial, harguments⟩, rfl⟩
  | _ => exact ⟨.node trivial nofun, rfl⟩

end

/-- The rendered phrase has no more parentheses than the text; if it has as many, none group. -/
def Phrase.Spends (text : List Char) : Phrase → Prop
  | .expression e => e.FloatFree → Syntax.Spends e.render.toList text e.Ungrouped
  | .chain e | .primary e =>
      e.FloatFree → Syntax.Spends e.render.toList text (e.Ungrouped ∧ e.isRange = false)
  | .suffix arguments => (∀ a ∈ arguments.getD [], a.value.FloatFree) →
      Syntax.Spends (suffixText arguments) text (∀ a ∈ arguments.getD [], a.value.Ungrouped)
  | .argument a => a.value.FloatFree → Syntax.Spends a.render.toList text a.value.Ungrouped

theorem spends_range {left w operator w' right : List Char} {lower upper : Expression}
    {closed : Bool} {span : Span} (hw : IsLayout w) (hoperator : Operator operator closed)
    (hw' : IsLayout w') (hlower : (Phrase.chain lower).Spends left)
    (hupper : (Phrase.chain upper).Spends right) :
    (Phrase.expression (.range lower upper closed span)).Spends
      (left ++ (w ++ (operator ++ (w' ++ right)))) := by
  intro hfree
  rcases Expression.everywhere_range.mp hfree with ⟨_, hlowerFree, hupperFree⟩
  have hleft := hlower hlowerFree
  have hright := hupper hupperFree
  have hle := hleft.le
  have hle' := hright.le
  have htext : (left ++ (w ++ (operator ++ (w' ++ right)))).count '(' =
      left.count '(' + right.count '(' := by
    simp [count_layout hw, count_operator hoperator, count_layout hw']
  have hwritten : (Expression.range lower upper closed span).render.toList.count '(' =
      lower.render.toList.count '(' + upper.render.toList.count '(' := by
    rw [Expression.toList_render_range, List.count_append, List.count_append,
      count_operator (operator_operatorText closed), Nat.zero_add]
  constructor
  · omega
  · intro htight
    have hl := hleft.tight (by omega)
    have hu := hright.tight (by omega)
    exact Expression.everywhere_range.mpr ⟨⟨hl.2, hu.2⟩, hl.1, hu.1⟩

theorem spends_member {behind : List Char} {base : Expression}
    {arguments : Option (List Argument)} {span : Span} (hname : IsIdentifier name)
    (hbase : (Phrase.chain base).Spends text) (hsuffix : (Phrase.suffix arguments).Spends behind) :
    (Phrase.chain (.member base name arguments span)).Spends
      (text ++ '.' :: (name.toList ++ behind)) := by
  intro hfree
  rcases Expression.everywhere_member.mp hfree with ⟨_, hbaseFree, hvaluesFree⟩
  have hleft := hbase hbaseFree
  have hright := hsuffix hvaluesFree
  have hle := hleft.le
  have hle' := hright.le
  have htext : (text ++ '.' :: (name.toList ++ behind)).count '(' =
      text.count '(' + behind.count '(' := by
    simp [count_name hname]
  have hwritten : (Expression.member base name arguments span).render.toList.count '(' =
      base.render.toList.count '(' + (suffixText arguments).count '(' := by
    rw [Expression.toList_render_member]
    simp [count_name hname]
  constructor
  · omega
  · intro htight
    have hb := hleft.tight (by omega)
    have ha := hright.tight (by omega)
    exact ⟨Expression.everywhere_member.mpr ⟨hb.2, hb.1, ha⟩, rfl⟩

theorem spends_array {w body : List Char} {texts : List (List Char)} {items : List Expression}
    {span : Span} (hw : IsLayout w) (hlisted : Listed texts body)
    (hlength : texts.length = items.length)
    (hitems : ∀ x ∈ texts.zip items, (Phrase.expression x.2).Spends x.1) :
    (Phrase.primary (.array items span)).Spends ('[' :: (w ++ (body ++ [']']))) := by
  intro hfree
  have hchildren := (Expression.everywhere_iff.mp hfree).2
  have hlist : Spends (commaSeparated (items.map fun e => e.render.toList)) body
      (∀ e ∈ items, e.Ungrouped) :=
    hlisted.spends hlength fun x hx => hitems x hx (hchildren x.2 (List.of_mem_zip hx).2)
  have hle := hlist.le
  rw [Expression.toList_render_array]
  constructor
  · simpa [count_layout hw] using hle
  · intro htight
    have hall := hlist.tight (by simpa [count_layout hw] using htight)
    exact ⟨.node trivial hall, rfl⟩

theorem spends_arguments {w body : List Char} {texts : List (List Char)}
    {arguments : List Argument} (hw : IsLayout w) (hlisted : Listed texts body)
    (hlength : texts.length = arguments.length)
    (hitems : ∀ x ∈ texts.zip arguments, (Phrase.argument x.2).Spends x.1) :
    (Phrase.suffix (some arguments)).Spends ('(' :: (w ++ (body ++ [')']))) := by
  intro hfree
  have hlist : Spends (commaSeparated (arguments.map fun a => a.render.toList)) body
      (∀ a ∈ arguments, a.value.Ungrouped) :=
    hlisted.spends hlength fun x hx => hitems x hx (hfree x.2 (List.of_mem_zip hx).2)
  have hle := hlist.le
  constructor
  · simpa [suffixText, count_layout hw] using hle
  · intro htight
    exact hlist.tight (by simpa [suffixText, count_layout hw] using htight)

theorem Derives.spends {phrase : Phrase} (h : Derives longest text phrase) :
    phrase.Spends text := by
  induction h with
  | chain _ ih => exact fun hfree => (ih hfree).imp And.left
  | range _ hw hoperator hw' _ _ ihLower ihUpper =>
      exact spends_range hw hoperator hw' ihLower ihUpper
  | primary _ ih => exact ih
  | member _ hname _ ihBase ih => exact spends_member hname ihBase ih
  | array hw hlisted hlength _ ih => exact spends_array hw hlisted hlength ih
  | @string text characters span hbody =>
      intro _
      have htext : (Expression.literal (.string (String.ofList characters)) span).render.toList =
          '"' :: (characters.flatMap Literal.escape ++ ['"']) := by
        rw [Expression.render, Literal.render, Expression.toList_quote, String.toList_ofList]
      have hle := hbody.count_le
      rw [htext]
      exact ⟨by simpa using hle, fun _ => ⟨.node trivial (List.forall_mem_nil _), rfl⟩⟩
  | @number text l span hnumeral =>
      intro hfree
      refine ⟨?_, fun _ => ⟨.node trivial (List.forall_mem_nil _), rfl⟩⟩
      cases hnumeral with
      | @integer digits negative hdigits =>
          have hzero := count_integer (numeral_toString (signedInteger negative digits))
          exact hzero.le.trans (Nat.zero_le _)
      | float negative hwhole hfraction => exact (Expression.everywhere_iff.mp hfree).1.elim
  | @parenthesised w text w' e hw _ hw' ih =>
      intro hfree
      have hle := (ih hfree).le
      have htext : ('(' :: (w ++ (text ++ (w' ++ [')'])))).count '(' = text.count '(' + 1 := by
        simp [count_layout hw, count_layout hw']
      constructor
      · omega
      · omega
  | @implicitMember name behind arguments span hname _ ih =>
      intro hfree
      have hsuffix := ih (Expression.everywhere_implicitMember.mp hfree).2
      have hle := hsuffix.le
      rw [Expression.toList_render_implicitMember]
      constructor
      · simpa using hle
      · intro htight
        have hall := hsuffix.tight (by simpa using htight)
        exact ⟨Expression.everywhere_implicitMember.mpr ⟨trivial, hall⟩, rfl⟩
  | @atom name span hname =>
      intro _
      have htext : (Expression.atom name span).render.toList = ':' :: name.toList := by
        simp [Expression.render, String.toList_append]
      rw [htext]
      exact ⟨Nat.le_refl _, fun _ => ⟨.node trivial (List.forall_mem_nil _), rfl⟩⟩
  | @name name behind arguments span hname _ ih =>
      intro hfree
      have hform := standsFor_nameForm name arguments span
      have hsuffix := ih (hform.floatFree hfree)
      have hle := hsuffix.le
      rw [hform.toList_render]
      constructor
      · simpa using hle
      · intro htight
        exact hform.ungrouped (hsuffix.tight (by simpa using htight))
  | noArguments => exact fun _ => ⟨Nat.le_refl 0, fun _ => List.forall_mem_nil _⟩
  | arguments hw hlisted hlength _ ih => exact spends_arguments hw hlisted hlength ih
  | @unlabelled text e span _ ih =>
      intro hfree
      rw [Argument.toList_render_unlabelled]
      exact ih hfree
  | @labelled name w w' text e span _ hw hw' _ ih =>
      intro hfree
      have hvalue := ih hfree
      have hle := hvalue.le
      rw [Argument.toList_render_labelled]
      constructor
      · simpa [count_layout hw, count_layout hw'] using hle
      · intro htight
        exact hvalue.tight (by simpa [count_layout hw, count_layout hw'] using htight)

end Syntax

open Syntax

namespace Expression

/-- A tree that is read from its own text has no ranges that had to be grouped. -/
theorem ungrouped_of_read_render {e e' : Expression} (hread : Expression.read e.render = .ok e')
    (hshape : e'.shape = e.shape) (hfree : e.FloatFree) : e.Ungrouped := by
  rcases sentence_of_read hread with ⟨w, text, w', htext, hw, hw', hderives⟩
  have hsame : e'.render = e.render := by
    rw [← render_shape, hshape, render_shape]
  have hcount : text.count '(' = e'.render.toList.count '(' := by
    rw [hsame, htext]
    simp [count_layout hw, count_layout hw']
  have hspends := hderives.spends (hfree.of_shape_eq isFloatFree_of_shape_eq hshape)
  exact (hspends.tight hcount.le).of_shape_eq isUngrouped_of_shape_eq hshape.symm

/--
A tree without floating-point literals that was read is read from its rendered
text again, up to spans, if and only if none of its ranges is a bound of a range
or the base of a member.
-/
theorem read_render_iff {source : String} {e : Expression} (hread : Expression.read source = .ok e)
    (hfree : e.FloatFree) :
    (∃ e', Expression.read e.render = .ok e' ∧ e'.shape = e.shape) ↔ e.Ungrouped := by
  constructor
  · rintro ⟨e', hread', hshape⟩
    exact ungrouped_of_read_render hread' hshape hfree
  · intro hungrouped
    have hsentence := sentence_of_read hread
    have hpermitted : Permitted e := permitted_of_sentence hread hsentence
    rcases hsentence with ⟨w, text, w', _, _, _, hderives⟩
    exact read_of_sentence (sentence_render ⟨hderives.wellNamed, hpermitted, hfree, hungrouped⟩)
      hpermitted

def groupedRange : Expression :=
  .range
    (.range (.literal (.integer 1) ⟨1, 2⟩) (.literal (.integer 2) ⟨5, 6⟩) true ⟨1, 6⟩)
    (.literal (.integer 3) ⟨10, 11⟩) true ⟨0, 11⟩

theorem floatFree_groupedRange : groupedRange.FloatFree := by
  have hinteger : ∀ (n : Int) (span : Span), (literal (.integer n) span).FloatFree :=
    fun n span => .node trivial nofun
  have hinner : (range (.literal (.integer 1) ⟨1, 2⟩) (.literal (.integer 2) ⟨5, 6⟩) true
      ⟨1, 6⟩).FloatFree := everywhere_range.mpr ⟨trivial, hinteger 1 _, hinteger 2 _⟩
  exact everywhere_range.mpr ⟨trivial, hinner, hinteger 3 _⟩

def isGroupedRange : Expression → Bool
  | .range (.range (.literal (.integer a) s) (.literal (.integer b) t) true u)
      (.literal (.integer c) v) true w =>
      decide ([a, b, c] = [1, 2, 3] ∧
        [s, t, u, v, w] = [⟨1, 2⟩, ⟨5, 6⟩, ⟨1, 6⟩, ⟨10, 11⟩, ⟨0, 11⟩])
  | _ => false

theorem eq_groupedRange {e : Expression} (h : isGroupedRange e = true) : e = groupedRange := by
  unfold isGroupedRange at h
  split at h
  · rcases of_decide_eq_true h with ⟨hnumbers, hspans⟩
    cases hnumbers
    cases hspans
    rfl
  · cases h

theorem read_groupedRange : Expression.read "(1...2)...3" = .ok groupedRange := by
  have h : (Expression.read "(1...2)...3").toOption.any isGroupedRange = true := by
    decide +kernel
  rcases exists_eq_ok_of_any h with ⟨e, hread, htest⟩
  rw [hread, eq_groupedRange htest]

theorem read_render_iff_of_groupedRange :
    Expression.read "(1...2)...3" = .ok groupedRange ∧ groupedRange.FloatFree ∧
      ((∃ e', Expression.read groupedRange.render = .ok e' ∧ e'.shape = groupedRange.shape) ↔
        groupedRange.Ungrouped) := by
  exact ⟨read_groupedRange, floatFree_groupedRange,
    read_render_iff read_groupedRange floatFree_groupedRange⟩

/-- Without its parentheses, a range of ranges is not read. -/
theorem not_read_render_of_grouped :
    ¬ ∀ (source : String) (e : Expression), Expression.read source = .ok e → e.FloatFree →
      ∃ e', Expression.read e.render = .ok e' ∧ e'.shape = e.shape := by
  intro h
  have hrefused : (Expression.read groupedRange.render).isOk = false := by decide +kernel
  rcases h "(1...2)...3" groupedRange read_groupedRange floatFree_groupedRange with ⟨e', hread, _⟩
  rw [hread] at hrefused
  cases hrefused

end Expression
end ViewModifiers
