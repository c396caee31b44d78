import ViewModifiers.Proofs.Table.Blocks
import ViewModifiers.Proofs.Value.Conformance

/-!
# Defaults that are written out

A parameter without an argument of its own is bound to its default.  Written in
front of the arguments that are left at its turn, with its label, the default is
the argument that it takes, and the parameters before and after it take what they
took without.  Main statement: an overload binds the longer list of arguments as
it binds the shorter one.
-/

namespace ViewModifiers

theorem ValueKind.decodeDefault_of_read {k : ValueKind} {source : String} {e : Expression}
    {v : Value} (hread : Expression.read source = .ok e) (hdecode : k.decodeConstant e = .ok v) :
    k.decodeDefault source = some v := by
  unfold decodeDefault
  rw [hread]
  dsimp only
  rw [decodeArgument_eq_constant_iff.mpr hdecode]
  rfl

namespace ParameterDecoder

/-- The arguments that parameters leave when they take theirs in order. -/
def leftAfter : List ParameterDecoder → List Argument → Except BindError (List Argument)
  | [], arguments => .ok arguments
  | p :: ps, arguments => do
      let (_, left) ← p.take arguments
      leftAfter ps left

section
variable {p : ParameterDecoder} {ps more : List ParameterDecoder} {a : Argument}
  {arguments front left rest : List Argument} {bound : List BoundArgument} {r : Reference}

/-!
## What is left
-/

theorem exists_of_bindAll_cons (h : bindAll (p :: ps) arguments = .ok bound) :
    ∃ r left others, p.take arguments = .ok (r, left) ∧ bindAll ps left = .ok others ∧
      bound = ⟨p.name, p.label, r⟩ :: others := by
  unfold bindAll at h
  rcases exists_of_bind_eq_ok h with ⟨⟨r, left⟩, htake, h⟩
  rcases exists_of_bind_eq_ok h with ⟨others, hothers, h⟩
  cases h
  exact ⟨r, left, others, htake, hothers, rfl⟩

theorem bindAll_cons (htake : p.take arguments = .ok (r, left)) (h : bindAll ps left = .ok bound) :
    bindAll (p :: ps) arguments = .ok (⟨p.name, p.label, r⟩ :: bound) := by
  unfold bindAll
  rw [htake]
  show (bindAll ps left >>= fun others => Except.ok (⟨p.name, p.label, r⟩ :: others)) = _
  rw [h]
  rfl

theorem leftAfter_cons (htake : p.take arguments = .ok (r, left)) :
    leftAfter (p :: ps) arguments = leftAfter ps left := by
  rw [leftAfter, htake]
  rfl

theorem suffix_of_take (h : p.take arguments = .ok (r, left)) : left <:+ arguments := by
  rcases take_eq_ok_iff.mp h with ⟨block, hblock, _⟩
  exact ⟨block, hblock⟩

theorem exists_leftAfter (h : bindAll (ps ++ more) arguments = .ok bound) :
    ∃ left, leftAfter ps arguments = .ok left := by
  induction ps generalizing arguments bound with
  | nil => exact ⟨arguments, rfl⟩
  | cons p ps ih =>
      rcases exists_of_bindAll_cons h with ⟨r, left, others, htake, hothers, _⟩
      rw [leftAfter_cons htake]
      exact ih hothers

theorem suffix_of_leftAfter (h : leftAfter ps arguments = .ok left) : left <:+ arguments := by
  induction ps generalizing arguments with
  | nil =>
      cases h
      exact List.suffix_refl _
  | cons p ps ih =>
      unfold leftAfter at h
      rcases exists_of_bind_eq_ok h with ⟨⟨r, rest⟩, htake, h⟩
      exact (ih h).trans (suffix_of_take htake)

/-!
## One parameter
-/

theorem default_of_take (hplain : p.isVariadic = false)
    (h : p.take arguments = .ok (r, arguments)) : ∃ v, p.default = some v ∧ r = .constant v := by
  rcases take_eq_ok_iff.mp h with ⟨block, hblock, hfits, _⟩
  have hnil : block = [] := List.append_left_eq_self.mp hblock
  subst hnil
  cases hfits with
  | fallback _ hdefault => exact ⟨_, hdefault, rfl⟩
  | items hvariadic => cases hplain.symm.trans hvariadic

theorem take_of_decodes (hplain : p.isVariadic = false) (hlabel : a.label = p.label)
    (hdecode : p.kind.decodeArgument a.value = .ok r) (others : List Argument) :
    p.take (a :: others) = .ok (r.withDefault p.default, others) := by
  simp [take, takeOne, hplain, hlabel, hdecode]

theorem take_of_passed {v : Value} (hplain : p.isVariadic = false)
    (hpassed : a.label = p.label → ∀ r, p.kind.decodeArgument a.value ≠ .ok r)
    (hdefault : p.default = some v) (others : List Argument) :
    p.take (a :: others) = .ok (.constant v, a :: others) := by
  by_cases hlabel : a.label = p.label
  · cases hdecode : p.kind.decodeArgument a.value with
    | ok r => exact absurd hdecode (hpassed hlabel r)
    | error cause => simp [take, takeOne, fallback, hplain, hlabel, hdecode, hdefault, Except.map]
  · simp [take, takeOne, fallback, hplain, hlabel, hdefault, Except.map]

/-- What a parameter makes of the next argument does not depend on those behind it. -/
theorem take_cons_eq_or (hplain : p.isVariadic = false)
    (h : p.take (a :: arguments) = .ok (r, left)) :
    (left = arguments ∧ ∀ others, p.take (a :: others) = .ok (r, others)) ∨
      (left = a :: arguments ∧ ∀ others, p.take (a :: others) = .ok (r, a :: others)) := by
  rcases take_eq_ok_iff.mp h with ⟨block, hblock, hfits, hlongest⟩
  cases hfits with
  | fallback _ hdefault =>
      right
      have hpassed : a.label = p.label → ∀ r, p.kind.decodeArgument a.value ≠ .ok r := by
        intro hlabel s hdecode
        have hle := hlongest [a] _ ⟨arguments, rfl⟩ (.argument hplain hlabel hdecode)
        exact absurd hle (Nat.not_succ_le_zero 0)
      exact ⟨hblock, take_of_passed hplain hpassed hdefault⟩
  | argument _ hlabel hdecode =>
      left
      cases hblock
      exact ⟨rfl, take_of_decodes hplain hlabel hdecode⟩
  | items hvariadic => cases hplain.symm.trans hvariadic

/-- A further argument with another label changes nothing for a parameter in front of it. -/
theorem take_insert (hplain : p.isVariadic = false) (hlabel : a.label ≠ p.label)
    (h : p.take (front ++ left) = .ok (r, rest)) (hleft : left <:+ rest) :
    ∃ between, rest = between ++ left ∧
      p.take (front ++ a :: left) = .ok (r, between ++ a :: left) := by
  cases front with
  | nil =>
      have hrest : rest = left := (suffix_of_take h).eq_of_length_le hleft.length_le
      subst hrest
      rcases default_of_take hplain h with ⟨v, hdefault, rfl⟩
      have hpassed := take_of_passed hplain (fun heq => absurd heq hlabel) hdefault rest
      exact ⟨[], rfl, hpassed⟩
  | cons b front =>
      rcases take_cons_eq_or hplain h with ⟨rfl, hany⟩ | ⟨rfl, hany⟩
      · exact ⟨front, rfl, hany _⟩
      · exact ⟨b :: front, rfl, hany _⟩

/-!
## All parameters
-/

/-- The parameters in front take what they took, and those behind see what they saw. -/
theorem bindAll_insert (hplain : ∀ q ∈ ps, q.isVariadic = false)
    (hlabels : ∀ q ∈ ps, a.label ≠ q.label) (hreach : leftAfter ps (front ++ left) = .ok left)
    (hmore : ∀ bound, bindAll more left = .ok bound → bindAll more (a :: left) = .ok bound)
    (h : bindAll (ps ++ more) (front ++ left) = .ok bound) :
    bindAll (ps ++ more) (front ++ a :: left) = .ok bound := by
  induction ps generalizing front bound with
  | nil =>
      have hfront : front = [] := List.append_left_eq_self.mp (Except.ok.inj hreach)
      subst hfront
      exact hmore bound h
  | cons q ps ih =>
      rcases exists_of_bindAll_cons h with ⟨r, rest, others, htake, hothers, rfl⟩
      rw [leftAfter_cons htake] at hreach
      rcases take_insert (hplain q List.mem_cons_self) (hlabels q List.mem_cons_self) htake
        (suffix_of_leftAfter hreach) with ⟨between, rfl, hlonger⟩
      have hbound := ih (fun s hs => hplain s (List.mem_cons_of_mem q hs))
        (fun s hs => hlabels s (List.mem_cons_of_mem q hs)) hreach hothers
      exact bindAll_cons hlonger hbound

theorem exists_take_default {source : String} (hplain : p.isVariadic = false)
    (hnone : p.take left = .ok (r, left)) (hdefault : p.default = p.kind.decodeDefault source) :
    ∃ e, Expression.read source = .ok e ∧
      ∀ span, p.take (⟨p.label, e, span⟩ :: left) = .ok (r, left) := by
  rcases default_of_take hplain hnone with ⟨v, hv, rfl⟩
  rcases ValueKind.exists_of_decodeDefault (hdefault.symm.trans hv) with ⟨e, hread, hdecode⟩
  have hargument := ValueKind.decodeArgument_eq_constant_iff.mpr hdecode
  refine ⟨e, hread, ?_⟩
  intro span
  exact take_of_decodes (a := ⟨p.label, e, span⟩) hplain rfl hargument left

end

end ParameterDecoder

/--
To write a default out changes nothing.  Let an overload without variadic
parameters, no two of them with the same label, bind an argument list.  Then each
parameter is reached with the last of the arguments still left; and if it takes
none of them, and its default is the one of a text, the text reads as an
expression that can stand in front of these arguments, under the label of the
parameter: the overload binds the longer list in the same way.
-/
theorem Overload.bind_insert_default {o : Overload} {before behind : List ParameterDecoder}
    {p : ParameterDecoder} {arguments : List Argument} {bound : List BoundArgument}
    (hplain : ∀ q ∈ o.parameters, q.isVariadic = false)
    (hlabels : (o.parameters.map ParameterDecoder.label).Nodup)
    (hparameters : o.parameters = before ++ p :: behind) (hbind : o.bind arguments = .ok bound) :
    ∃ front left, arguments = front ++ left ∧
      ParameterDecoder.leftAfter before arguments = .ok left ∧
      ∀ r source, p.take left = .ok (r, left) → p.default = p.kind.decodeDefault source →
        ∃ e, Expression.read source = .ok e ∧
          ∀ span, o.bind (front ++ ⟨p.label, e, span⟩ :: left) = .ok bound := by
  unfold Overload.bind at hbind ⊢
  rw [hparameters] at hplain hlabels hbind ⊢
  rcases ParameterDecoder.exists_leftAfter hbind with ⟨left, hreach⟩
  rcases ParameterDecoder.suffix_of_leftAfter hreach with ⟨front, rfl⟩
  refine ⟨front, left, rfl, hreach, ?_⟩
  intro r source hnone hdefault
  have hp : p.isVariadic = false := hplain p (by simp)
  rcases ParameterDecoder.exists_take_default hp hnone hdefault with ⟨e, hread, htake⟩
  refine ⟨e, hread, ?_⟩
  intro span
  have hfront : ∀ q ∈ before, q.isVariadic = false := by
    intro q hq
    exact hplain q (List.mem_append_left _ hq)
  have hothers : ∀ q ∈ before, p.label ≠ q.label := by
    intro q hq heq
    rw [List.map_append, List.map_cons] at hlabels
    exact (List.nodup_append.mp hlabels).2.2 q.label (List.mem_map_of_mem hq) p.label
      List.mem_cons_self heq.symm
  refine ParameterDecoder.bindAll_insert hfront hothers hreach ?_ hbind
  intro others hbound
  rcases ParameterDecoder.exists_of_bindAll_cons hbound with ⟨s, rest, tail, hs, htail, rfl⟩
  cases hnone.symm.trans hs
  exact ParameterDecoder.bindAll_cons (htake span) htail

def shadowOverload : Overload where
  index := 0
  selector := "shadow(_:color:opacity:radius:)"
  parameters :=
    [⟨"style", none, .int, "Int", none, false⟩,
      ⟨"color", some "color", .enumeration "Color" ["black"] false, "Color",
        some (.enumCase "Color" "black"), false⟩,
      ⟨"opacity", some "opacity", .int, "Int", some (.int 1), false⟩,
      ⟨"radius", some "radius", .int, "Int", none, false⟩]
  availability := .always
  line := 1

/-- A parameter with a default of its own stands in front of the one that is written out. -/
theorem Overload.bind_insert_default_opacity :
    let style : Argument := ⟨none, .literal (.integer 3) ⟨0, 1⟩, ⟨0, 1⟩⟩
    let radius : Argument := ⟨some "radius", .literal (.integer 4) ⟨11, 12⟩, ⟨3, 12⟩⟩
    (∀ q ∈ shadowOverload.parameters, q.isVariadic = false) ∧
      (shadowOverload.parameters.map ParameterDecoder.label).Nodup ∧
      ∃ bound e, shadowOverload.bind [style, radius] = .ok bound ∧
        Expression.read "1" = .ok e ∧
        ∀ span, shadowOverload.bind [style, ⟨some "opacity", e, span⟩, radius] = .ok bound := by
  intro style radius
  let color : ParameterDecoder := ⟨"color", some "color", .enumeration "Color" ["black"] false,
    "Color", some (.enumCase "Color" "black"), false⟩
  let opacity : ParameterDecoder :=
    ⟨"opacity", some "opacity", .int, "Int", some (.int 1), false⟩
  let first : ParameterDecoder := ⟨"style", none, .int, "Int", none, false⟩
  let last : ParameterDecoder := ⟨"radius", some "radius", .int, "Int", none, false⟩
  have hparameters : shadowOverload.parameters = [first, color] ++ opacity :: [last] := rfl
  have hplain : ∀ q ∈ shadowOverload.parameters, q.isVariadic = false := by decide
  have hlabels : (shadowOverload.parameters.map ParameterDecoder.label).Nodup := by decide
  have hbind : shadowOverload.bind [style, radius] = .ok
      [⟨"style", none, .constant (.int 3)⟩,
        ⟨"color", some "color", .constant (.enumCase "Color" "black")⟩,
        ⟨"opacity", some "opacity", .constant (.int 1)⟩,
        ⟨"radius", some "radius", .constant (.int 4)⟩] :=
    rfl
  have hreach : ParameterDecoder.leftAfter [first, color] [style, radius] = .ok [radius] := rfl
  have hnone : opacity.take [radius] = .ok (.constant (.int 1), [radius]) := rfl
  have hone : Expression.read "1" = .ok (.literal (.integer 1) ⟨0, 1⟩) := rfl
  have hdefault := ValueKind.decodeDefault_of_read hone (k := .int) (v := .int 1) rfl
  rcases Overload.bind_insert_default hplain hlabels hparameters hbind with
    ⟨front, left, hsplit, hleft, hinsert⟩
  cases hreach.symm.trans hleft
  have hfront : front = [style] :=
    List.append_cancel_right (hsplit.symm : front ++ [radius] = [style] ++ [radius])
  subst hfront
  rcases hinsert _ "1" hnone hdefault.symm with ⟨e, hread, hspan⟩
  exact ⟨hplain, hlabels, _, e, hbind, hread, hspan⟩

end ViewModifiers
