import ViewModifiers.Proofs.Signature.Types

/-!
# Where the mark of an optional belongs

The text of an optional is the text of the type below with a mark behind it, in
parentheses where the mark would belong to a part of it otherwise.  An inout type
is written without them, so that the mark belongs to what stands behind the word.
The settled form of a type has each mark where its text has it.
-/

namespace ViewModifiers
namespace TypeExpr

def isInout : TypeExpr → Bool
  | inoutOf _ => true
  | _ => false

def marked : TypeExpr → TypeExpr
  | function parameters result isAsync throws =>
      function parameters result.marked isAsync throws
  | someOf t => someOf t.marked
  | anyOf t => anyOf t.marked
  | inoutOf t => inoutOf t.marked
  | t => optional t

mutual

/-- The type with the marks behind inout types where its text has them. -/
def settled : TypeExpr → TypeExpr
  | named path generics => named path (settledList generics)
  | optional t => if t.settled.isInout then t.settled.marked else optional t.settled
  | array t => array t.settled
  | dictionary key value => dictionary key.settled value.settled
  | tuple items => tuple (settledList items)
  | function parameters result isAsync throws =>
      function (settledList parameters) result.settled isAsync throws
  | someOf t => someOf t.settled
  | anyOf t => anyOf t.settled
  | inoutOf t => inoutOf t.settled

def settledList : List TypeExpr → List TypeExpr
  | [] => []
  | t :: ts => t.settled :: settledList ts

end

mutual

/-- No optional stands directly around an inout type. -/
def isSettled : TypeExpr → Bool
  | named _ generics => isSettledList generics
  | optional t => !t.isInout && t.isSettled
  | array t => t.isSettled
  | dictionary key value => key.isSettled && value.isSettled
  | tuple items => isSettledList items
  | function parameters result _ _ => isSettledList parameters && result.isSettled
  | someOf t => t.isSettled
  | anyOf t => t.isSettled
  | inoutOf t => t.isSettled

def isSettledList : List TypeExpr → Bool
  | [] => true
  | t :: ts => t.isSettled && isSettledList ts

end

theorem settledList_eq_map (ts : List TypeExpr) : settledList ts = ts.map settled := by
  induction ts with
  | nil => rfl
  | cons t ts ih => rw [settledList, ih, List.map_cons]

theorem isSettledList_iff {ts : List TypeExpr} :
    isSettledList ts = true ↔ ∀ t ∈ ts, t.isSettled = true := by
  induction ts with
  | nil => simp [isSettledList]
  | cons t ts ih => rw [isSettledList, Bool.and_eq_true, ih, List.forall_mem_cons]

/-!
## Texts
-/

theorem text_optional_of_compound {t : TypeExpr} (h : t.isCompound = true) :
    (optional t).text = "(" ++ t.text ++ ")?" :=
  if_pos h

theorem text_optional {t : TypeExpr} (h : ¬ t.isCompound = true) :
    (optional t).text = t.text ++ "?" :=
  if_neg h

theorem text_array (t : TypeExpr) : (array t).text = "[" ++ t.text ++ "]" :=
  rfl

theorem text_dictionary (key value : TypeExpr) :
    (dictionary key value).text = "[" ++ key.text ++ ": " ++ value.text ++ "]" :=
  rfl

theorem text_tuple (items : List TypeExpr) : (tuple items).text = "(" ++ textList items ++ ")" :=
  rfl

theorem text_function (parameters : List TypeExpr) (result : TypeExpr) (isAsync throws : Bool) :
    (function parameters result isAsync throws).text =
      "(" ++ textList parameters ++ ")" ++ (if isAsync then " async" else "") ++
        (if throws then " throws" else "") ++ " -> " ++ result.text :=
  rfl

theorem text_someOf (t : TypeExpr) : (someOf t).text = "some " ++ t.text :=
  rfl

theorem text_anyOf (t : TypeExpr) : (anyOf t).text = "any " ++ t.text :=
  rfl

theorem text_inoutOf (t : TypeExpr) : (inoutOf t).text = "inout " ++ t.text :=
  rfl

theorem text_named_cons (path : List String) (t : TypeExpr) (ts : List TypeExpr) :
    (named path (t :: ts)).text =
      String.intercalate "." path ++ "<" ++ textList (t :: ts) ++ ">" :=
  rfl

theorem textList_singleton (t : TypeExpr) : textList [t] = t.text :=
  rfl

theorem textList_cons_cons (t u : TypeExpr) (ts : List TypeExpr) :
    textList (t :: u :: ts) = t.text ++ ", " ++ textList (u :: ts) :=
  rfl

theorem textList_map {f : TypeExpr → TypeExpr} {ts : List TypeExpr}
    (h : ∀ t ∈ ts, (f t).text = t.text) : textList (ts.map f) = textList ts := by
  induction ts with
  | nil => rfl
  | cons t ts ih =>
      have ht := h t List.mem_cons_self
      have hts := ih fun u hu => h u (List.mem_cons_of_mem t hu)
      cases ts with
      | nil => exact ht
      | cons u ts =>
          rw [List.map_cons] at hts
          rw [List.map_cons, List.map_cons, textList_cons_cons, textList_cons_cons, ht, hts]

theorem text_marked (t : TypeExpr) : t.marked.text = t.text ++ "?" := by
  fun_induction marked t with
  | case1 parameters result isAsync throws ih =>
      show (function parameters result.marked isAsync throws).text = _
      rw [text_function, text_function, ih, ← String.append_assoc]
  | case2 t ih => rw [text_someOf, text_someOf, ih, String.append_assoc]
  | case3 t ih => rw [text_anyOf, text_anyOf, ih, String.append_assoc]
  | case4 t ih => rw [text_inoutOf, text_inoutOf, ih, String.append_assoc]
  | case5 t h1 h2 h3 h4 =>
      have hplain : ¬ t.isCompound = true := by
        cases t with
        | function parameters result isAsync throws => exact absurd rfl (h1 _ _ _ _)
        | someOf t => exact absurd rfl (h2 t)
        | anyOf t => exact absurd rfl (h3 t)
        | _ => nofun
      exact text_optional hplain

/-- A type that is written in parentheses below a mark remains one, and is no inout type. -/
theorem isCompound_settled {t : TypeExpr} (h : t.isCompound = true) :
    t.settled.isCompound = true ∧ t.settled.isInout = false := by
  cases t with
  | function parameters result isAsync throws =>
      rw [settled]
      exact ⟨rfl, rfl⟩
  | someOf t =>
      rw [settled]
      exact ⟨rfl, rfl⟩
  | anyOf t =>
      rw [settled]
      exact ⟨rfl, rfl⟩
  | _ => cases h

/-- A type that is not written in parentheses below a mark does not become one that is. -/
theorem isCompound_settled_eq_false {t : TypeExpr} (h : ¬ t.isCompound = true) :
    ¬ t.settled.isCompound = true := by
  cases t with
  | function parameters result isAsync throws => exact absurd rfl h
  | someOf t => exact absurd rfl h
  | anyOf t => exact absurd rfl h
  | optional t =>
      rw [settled]
      split
      · next hinout =>
          cases hsettled : t.settled with
          | inoutOf u => nofun
          | _ =>
              rw [hsettled] at hinout
              cases hinout
      · nofun
  | _ =>
      rw [settled]
      nofun

theorem text_named_congr {path : List String} {generics generics' : List TypeExpr}
    (h : textList generics = textList generics') (hlength : generics.length = generics'.length) :
    (named path generics).text = (named path generics').text := by
  cases generics with
  | nil =>
      cases generics' with
      | nil => rfl
      | cons t ts => cases hlength
  | cons t ts =>
      cases generics' with
      | nil => cases hlength
      | cons u us => rw [text_named_cons, text_named_cons, h]

theorem WellFormed.text_settled {t : TypeExpr} (h : t.WellFormed) : t.settled.text = t.text := by
  induction h with
  | named _ _ ih =>
      rw [settled, settledList_eq_map]
      exact text_named_congr (textList_map ih) (List.length_map _)
  | @optional t _ ih =>
      rw [settled]
      by_cases hinout : t.settled.isInout = true
      · have hplain : ¬ t.isCompound = true := by
          intro hcompound
          rw [(isCompound_settled hcompound).2] at hinout
          cases hinout
        rw [if_pos hinout, text_marked, ih, text_optional hplain]
      · rw [if_neg hinout]
        by_cases hcompound : t.isCompound = true
        · have hsettled := (isCompound_settled hcompound).1
          rw [text_optional_of_compound hsettled, text_optional_of_compound hcompound, ih]
        · have hsettled := isCompound_settled_eq_false hcompound
          rw [text_optional hsettled, text_optional hcompound, ih]
  | array _ ih => rw [settled, text_array, text_array, ih]
  | dictionary _ _ ihKey ihValue =>
      rw [settled, text_dictionary, text_dictionary, ihKey, ihValue]
  | tuple _ _ ih => rw [settled, text_tuple, text_tuple, settledList_eq_map, textList_map ih]
  | function _ _ ihParameters ihResult =>
      rw [settled, text_function, text_function, settledList_eq_map, textList_map ihParameters,
        ihResult]
  | someOf _ ih => rw [settled, text_someOf, text_someOf, ih]
  | anyOf _ ih => rw [settled, text_anyOf, text_anyOf, ih]
  | inoutOf _ ih => rw [settled, text_inoutOf, text_inoutOf, ih]

/-!
## Settled types
-/

theorem isSettled_marked {t : TypeExpr} (h : t.isSettled = true) : t.marked.isSettled = true := by
  fun_induction marked t with
  | case1 parameters result isAsync throws ih =>
      rw [isSettled, Bool.and_eq_true] at h ⊢
      exact ⟨h.1, ih h.2⟩
  | case2 t ih => exact ih h
  | case3 t ih => exact ih h
  | case4 t ih => exact ih h
  | case5 t _ _ _ hinout =>
      have hplain : t.isInout = false := by
        cases t with
        | inoutOf t => exact absurd rfl (hinout t)
        | _ => rfl
      rw [isSettled, hplain, h]
      rfl

theorem WellFormed.marked {t : TypeExpr} (h : t.WellFormed) : t.marked.WellFormed := by
  induction h with
  | function hparameters _ _ ih => exact .function hparameters ih
  | someOf _ ih => exact ih.someOf
  | anyOf _ ih => exact ih.anyOf
  | inoutOf _ ih => exact ih.inoutOf
  | named hpath hgenerics _ => exact (WellFormed.named hpath hgenerics).optional
  | optional h _ => exact h.optional.optional
  | array h _ => exact h.array.optional
  | dictionary hkey hvalue _ _ => exact (hkey.dictionary hvalue).optional
  | tuple hlength hitems _ => exact (WellFormed.tuple hlength hitems).optional

theorem WellFormed.isSettled_settled {t : TypeExpr} (h : t.WellFormed) :
    t.settled.isSettled = true := by
  have hlist : ∀ {ts : List TypeExpr}, (∀ t ∈ ts, t.settled.isSettled = true) →
      isSettledList (settledList ts) = true := by
    intro ts hts
    rw [settledList_eq_map, isSettledList_iff]
    intro u hu
    rcases List.mem_map.mp hu with ⟨t, ht, rfl⟩
    exact hts t ht
  induction h with
  | named _ _ ih =>
      rw [settled]
      exact hlist ih
  | @optional t _ ih =>
      rw [settled]
      by_cases hinout : t.settled.isInout = true
      · rw [if_pos hinout]
        exact isSettled_marked ih
      · rw [if_neg hinout, isSettled, ih, Bool.eq_false_iff.mpr hinout]
        rfl
  | array _ ih =>
      rw [settled]
      exact ih
  | dictionary _ _ ihKey ihValue =>
      rw [settled, isSettled, ihKey, ihValue]
      rfl
  | tuple _ _ ih =>
      rw [settled]
      exact hlist ih
  | function _ _ ihParameters ihResult =>
      rw [settled, isSettled, hlist ihParameters, ihResult]
      rfl
  | someOf _ ih =>
      rw [settled]
      exact ih
  | anyOf _ ih =>
      rw [settled]
      exact ih
  | inoutOf _ ih =>
      rw [settled]
      exact ih

theorem WellFormed.settled {t : TypeExpr} (h : t.WellFormed) : t.settled.WellFormed := by
  have hlist : ∀ {ts : List TypeExpr}, (∀ t ∈ ts, t.settled.WellFormed) →
      ∀ u ∈ settledList ts, u.WellFormed := by
    intro ts hts u hu
    rw [settledList_eq_map] at hu
    rcases List.mem_map.mp hu with ⟨t, ht, rfl⟩
    exact hts t ht
  induction h with
  | named hpath _ ih =>
      rw [TypeExpr.settled]
      exact .named hpath (hlist ih)
  | optional _ ih =>
      rw [TypeExpr.settled]
      split
      · exact ih.marked
      · exact ih.optional
  | array _ ih =>
      rw [TypeExpr.settled]
      exact ih.array
  | dictionary _ _ ihKey ihValue =>
      rw [TypeExpr.settled]
      exact ihKey.dictionary ihValue
  | tuple hlength _ ih =>
      rw [TypeExpr.settled]
      refine .tuple ?_ (hlist ih)
      rwa [settledList_eq_map, List.length_map]
  | function _ _ ihParameters ihResult =>
      rw [TypeExpr.settled]
      exact .function (hlist ihParameters) ihResult
  | someOf _ ih =>
      rw [TypeExpr.settled]
      exact ih.someOf
  | anyOf _ ih =>
      rw [TypeExpr.settled]
      exact ih.anyOf
  | inoutOf _ ih =>
      rw [TypeExpr.settled]
      exact ih.inoutOf

theorem WellFormed.settled_eq_self {t : TypeExpr} (h : t.WellFormed)
    (hsettled : t.isSettled = true) : t.settled = t := by
  have hlist : ∀ {ts : List TypeExpr}, (∀ t ∈ ts, t.isSettled = true → t.settled = t) →
      isSettledList ts = true → settledList ts = ts := by
    intro ts hts hall
    rw [isSettledList_iff] at hall
    rw [settledList_eq_map]
    exact (List.map_congr_left fun t ht => hts t ht (hall t ht)).trans (List.map_id ts)
  induction h with
  | named _ _ ih => rw [TypeExpr.settled, hlist ih hsettled]
  | optional _ ih =>
      rw [isSettled, Bool.and_eq_true, Bool.not_eq_true'] at hsettled
      rw [TypeExpr.settled, ih hsettled.2, hsettled.1]
      rfl
  | array _ ih => rw [TypeExpr.settled, ih hsettled]
  | dictionary _ _ ihKey ihValue =>
      rw [isSettled, Bool.and_eq_true] at hsettled
      rw [TypeExpr.settled, ihKey hsettled.1, ihValue hsettled.2]
  | tuple _ _ ih => rw [TypeExpr.settled, hlist ih hsettled]
  | function _ _ ihParameters ihResult =>
      rw [isSettled, Bool.and_eq_true] at hsettled
      rw [TypeExpr.settled, hlist ihParameters hsettled.1, ihResult hsettled.2]
  | someOf _ ih => rw [TypeExpr.settled, ih hsettled]
  | anyOf _ ih => rw [TypeExpr.settled, ih hsettled]
  | inoutOf _ ih => rw [TypeExpr.settled, ih hsettled]

end TypeExpr
end ViewModifiers
