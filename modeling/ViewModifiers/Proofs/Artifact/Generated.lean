import ViewModifiers.Proofs.Artifact.Tables
import ViewModifiers.Proofs.Expression.Acceptance
import ViewModifiers.Proofs.Overload.Accounting
import ViewModifiers.Proofs.Table.Origins

/-!
# Stored tables of interfaces

The numbers of a compiled table have the sizes that a stored table keeps: the
integers of its defaults were read as words, the numbers of its versions as such
of 32 bits, and there are no more lines and overloads than lines of the interface.
Main statement: a table without fractions is read back from its stored form.
-/

namespace ViewModifiers

/-!
## Defaults
-/

namespace ValueKind

theorem inRange_of_decodeConstant {k : ValueKind} {e : Expression} {v : Value}
    (he : Syntax.Permitted e) (h : k.decodeConstant e = .ok v) : v.InRange := by
  induction k generalizing e v with
  | bool | float | string | text | enumeration | structural =>
      cases decodeConstant_conforms h <;> constructor
  | int =>
      rcases exists_of_singleForm h with ⟨n, hn, rfl⟩
      cases e with
      | literal l span =>
          cases l with
          | integer m =>
              cases hn
              exact .int (Syntax.permitted_literal.mp he)
          | _ => cases hn
      | _ => cases hn
  | optional inner ih =>
      unfold decodeConstant at h
      split at h
      · cases h
        exact .nil
      · exact ih he h
  | array element ih =>
      cases e with
      | array items span =>
          unfold decodeConstant at h
          rcases exists_of_map_eq_ok h with ⟨vs, hitems, rfl⟩
          refine .array fun w hw => ?_
          rcases exists_of_mem_right (forall₂_of_mapM_ok hitems) w hw with ⟨item, hmem, hitem⟩
          exact ih (Syntax.permitted_array.mp he item hmem) hitem
      | _ => cases h
  | range bound ih =>
      cases e with
      | range lower upper closed span =>
          unfold decodeConstant at h
          rcases exists_of_bind_eq_ok h with ⟨l, hlower, h⟩
          rcases exists_of_bind_eq_ok h with ⟨u, hupper, h⟩
          cases h
          have hbounds := Syntax.permitted_range.mp he
          exact .range (ih hbounds.1 hlower) (ih hbounds.2 hupper)
      | _ => cases h
  | binding inner ih =>
      rcases exists_of_firstForm h with ⟨f, hf, hv⟩
      rw [List.mem_singleton] at hf
      subst hf
      rcases Option.bind_eq_some_iff.mp hv with ⟨value, hvalue, hconstant⟩
      have hpermitted : Syntax.Permitted value := by
        unfold constantArgument? at hvalue
        split at hvalue
        · cases hvalue
          exact Syntax.permitted_implicitMember.mp he _ List.mem_cons_self
        · cases hvalue
      cases hdecode : inner.decodeConstant value with
      | error cause =>
          rw [hdecode] at hconstant
          cases hconstant
      | ok w =>
          rw [hdecode] at hconstant
          cases hconstant
          exact ih hpermitted hdecode
  | view => cases h
  | event => cases h

end ValueKind

theorem ParameterDecoder.inRange_ofParameter (c : Configuration) (s : Signature) (p : Parameter) :
    (ofParameter c s p).InRange := by
  intro v hv
  rcases Option.map_eq_some_iff.mp hv with ⟨source, -, rfl⟩
  rw [defaultOf]
  cases hdecode : (ValueKind.ofParameter c s p).decodeDefault source with
  | none => exact .verbatim
  | some v =>
      rcases ValueKind.exists_of_decodeDefault hdecode with ⟨e, hread, hconstant⟩
      have hpermitted := Expression.permitted_of_sentence hread (Expression.sentence_of_read hread)
      exact ValueKind.inRange_of_decodeConstant hpermitted hconstant

/-!
## Availability
-/

theorem Version.inRange_of_parse? {text : String} {v : Version} (h : parse? text = some v) :
    v.InRange := by
  rcases Option.bind_eq_some_iff.mp h with ⟨numbers, hnumbers, hv⟩
  have hsmall : ∀ n ∈ numbers, n < Nat.pow 2 32 := by
    intro n hn
    rcases ValueKind.exists_of_mem_right (ValueKind.forall₂_of_mapM_some hnumbers) n hn with
      ⟨piece, -, hpiece⟩
    rcases Option.bind_eq_some_iff.mp hpiece with ⟨m, -, hm⟩
    split_ifs at hm with hless
    cases hm
    exact hless
  split at hv
  · cases hv
    exact ⟨hsmall _ (by simp), Nat.two_pow_pos 32, Nat.two_pow_pos 32⟩
  · cases hv
    exact ⟨hsmall _ (by simp), hsmall _ (by simp), Nat.two_pow_pos 32⟩
  · cases hv
    exact ⟨hsmall _ (by simp), hsmall _ (by simp), hsmall _ (by simp)⟩
  · cases hv

namespace Availability

theorem inRange_always : always.InRange :=
  nofun

theorem InRange.restrict {a : Availability} (h : a.InRange) (allowed : PlatformSet) :
    (a.restrict allowed).InRange :=
  h

theorem InRange.merge {a b : Availability} (ha : a.InRange) (hb : b.InRange) :
    (a.merge b).InRange := by
  have hboth : ∀ p v, laterIntroduction (a.introduced p) (b.introduced p) = some v →
      v.InRange := by
    intro p v hv
    cases hap : a.introduced p with
    | none =>
        rw [hap] at hv
        exact hb p v hv
    | some x =>
        cases hbp : b.introduced p with
        | none =>
            rw [hap, hbp] at hv
            exact ha p v (hap.trans hv)
        | some y =>
            rw [hap, hbp] at hv
            cases hv
            unfold Version.newer
            split_ifs
            · exact hb p y hbp
            · exact ha p x hap
  unfold Availability.merge
  cases b.platforms with
  | none => exact hboth
  | some allowed => exact InRange.restrict (a := ⟨_, _, _⟩) hboth allowed

theorem InRange.introduce {a : Availability} (h : a.InRange) {v : Version} (hv : v.InRange)
    (p : Platform) :
    InRange { a with introduced := fun q => if q = p then some v else a.introduced q } := by
  intro q w hw
  dsimp only at hw
  split_ifs at hw with heq
  · cases hw
    exact hv
  · exact h q w hw

theorem InRange.foldl {α : Type} {f : Availability → α → Availability}
    (hf : ∀ a x, a.InRange → (f a x).InRange) {a : Availability} (ha : a.InRange) (xs : List α) :
    (xs.foldl f a).InRange := by
  induction xs generalizing a with
  | nil => exact ha
  | cons x xs ih => exact ih (hf a x ha)

theorem inRange_parse (arguments : String) : (parse arguments).InRange := by
  unfold parse
  extract_lets items platformOf long short
  have hlong : ∀ p a item, a.InRange → (long p a item).InRange := by
    intro p a item ha
    unfold long
    split
    · exact ha
    · split
      · next v hv =>
          rcases Option.bind_eq_some_iff.mp hv with ⟨number, -, hparse⟩
          exact ha.introduce (Version.inRange_of_parse? hparse) p
      · exact ha
  have hshort : ∀ a item, a.InRange → (short a item).InRange := by
    intro a item ha
    unfold short
    split
    · split
      · next p v _ hparse => exact ha.introduce (Version.inRange_of_parse? hparse) p
      · exact ha
    · exact ha
  clear_value long short platformOf items
  split
  · split
    · exact .foldl (hlong _) inRange_always _
    · exact .foldl hshort inRange_always _
  · exact .foldl hshort inRange_always _

end Availability

open TypeExpr.Grammar in
theorem Signature.Grammar.inRange_statedAvailability (decorations : List Decoration) :
    (statedAvailability decorations).InRange := by
  refine Availability.InRange.foldl ?_ Availability.inRange_always decorations
  intro a decoration ha
  split
  · split_ifs
    · exact ha.merge (Availability.inRange_parse _)
    · exact ha
  · exact ha

/-!
## Interfaces
-/

namespace Interface

open Scanner

theorem Scanner.inRange_of_complete {s : Scanner} {q : Pending} {declared : Signature}
    (h : s.complete q = .declared declared) : declared.availability.InRange := by
  unfold complete at h
  split at h
  · cases h
  · next read hparse =>
      rcases Signature.exists_attributes_of_parse hparse with ⟨attributes, -, hstated, -⟩
      have hread : read.availability.InRange :=
        hstated ▸ Signature.Grammar.inRange_statedAvailability attributes
      split at h
      · next allowed _ =>
          cases h
          exact hread.restrict allowed
      · cases h
        exact hread

theorem Scanner.length_feed_le (targets : List String) (s : Scanner) (number : Nat)
    (line : String) : (s.feed targets number line).2.length ≤ 1 := by
  rcases handles_feed targets s number line with ⟨-, hnone⟩ | ⟨q, -, hsettles⟩
  · rw [hnone]
    exact Nat.zero_le 1
  · rcases hsettles.kept_or_complete with ⟨-, hnone⟩ | ⟨-, hone⟩
    · rw [hnone]
      exact Nat.zero_le 1
    · rw [hone]
      exact Nat.le_refl 1

/-- There are no more declarations than lines, but for one that the end cuts off. -/
theorem Scanner.length_run_le (targets : List String) (s : Scanner) (number : Nat)
    (lines : List String) : (s.run targets number lines).length ≤ lines.length + 1 := by
  induction lines generalizing s number with
  | nil =>
      unfold run finish
      split <;> simp
  | cons line rest ih =>
      have hfirst := length_feed_le targets s number line
      have hrest := ih (s.feed targets number line).1 (number + 1)
      rw [run, List.length_append, List.length_cons]
      omega

theorem length_extract_le (targets : List String) (source : String) :
    (extract targets source).1.length ≤ (Text.lines source).length + 1 :=
  Nat.le_trans (List.length_filterMap_le _ _) (length_run_le targets start 1 (Text.lines source))

theorem inRange_of_mem_extract {targets : List String} {source : String} {s : Signature}
    (h : s ∈ (extract targets source).1) : s.availability.InRange := by
  rcases exists_complete_of_mem_run (mem_run_of_mem_extract h) with
    ⟨_, _, _, _, _, _, _, hcomplete⟩
  exact inRange_of_complete hcomplete

theorem line_le_of_mem_extract {targets : List String} {source : String} {s : Signature}
    (h : s ∈ (extract targets source).1) : s.line ≤ (Text.lines source).length := by
  rcases Site.exists_of_mem_run (mem_run_of_mem_extract h) with ⟨d, hd, -⟩
  rcases hd.lines_eq with ⟨rest, hlines⟩
  rw [hd.line_eq, hlines, Site.line]
  simp only [List.length_append, List.length_cons]
  omega

end Interface

theorem Overloads.length_le_of_mem_sets {selection : Selection} {signatures : List Signature}
    {set : OverloadSet} (h : set ∈ (ofSignatures selection signatures).sets) :
    set.signatures.length ≤ signatures.length := by
  rcases mem_sets_ofSignatures.mp h with ⟨name, _, _, rfl⟩
  rcases exists_keepsFirst_buildSet signatures name with ⟨kept, hkept, hkeeps⟩
  have hfound : (callable signatures name).length ≤ signatures.length :=
    (List.length_filter_le _ _).trans_eq List.length_zipIdx
  rw [hkept, List.length_map]
  exact hkeeps.sublist.length_le.trans hfound

/-!
## Tables
-/

theorem Operation.inRange_ofSet (c : Configuration) {set : OverloadSet}
    (hlength : set.signatures.length < Nat.pow 2 64)
    (hsignatures : ∀ s ∈ set.signatures, s.availability.InRange ∧ s.line < Nat.pow 2 32) :
    (ofSet c set).InRange := by
  intro o ho
  rcases List.getElem?_of_mem ho with ⟨i, hi⟩
  have hindex : i < set.signatures.length := by
    simpa [ofSet] using (List.getElem?_eq_some_iff.mp hi).1
  rcases exists_of_overloads_ofSet hi with ⟨s, hs, rfl⟩
  refine ⟨Nat.lt_trans hindex hlength, (hsignatures s hs).2, ?_, (hsignatures s hs).1⟩
  intro p hp
  rcases List.mem_map.mp hp with ⟨parameter, -, rfl⟩
  exact ParameterDecoder.inRange_ofParameter c s parameter

theorem DispatchTable.inRange_ofSets {c : Configuration} {sets : List OverloadSet}
    (h : ∀ set ∈ sets, (Operation.ofSet c set).InRange) : (ofSets c sets).InRange := by
  intro e he
  have hfind : (ofSets c sets).find? e.1 = some e.2 := Dictionary.find?_of_mem he
  rcases exists_of_find?_ofSets hfind with ⟨set, hset, hop, -⟩
  exact hop ▸ h set hset

namespace Compilation

open Interface

theorem inRange_table (c : Configuration) (wanted : Option (List String)) {source : String}
    (hlines : (Text.lines source).length < Nat.pow 2 32) :
    (ofInterface c wanted source).table.InRange := by
  rw [table_ofInterface]
  refine DispatchTable.inRange_ofSets fun set hset => ?_
  have hlength : set.signatures.length ≤ (extract c.targets source).1.length :=
    Overloads.length_le_of_mem_sets hset
  have hdeclared := length_extract_le c.targets source
  have hpow : Nat.pow 2 32 < Nat.pow 2 64 := by decide
  refine Operation.inRange_ofSet c (by omega) fun s hs => ?_
  have hmem : s ∈ (extract c.targets source).1 := (Overloads.mem_of_mem_sets hset hs).1
  exact ⟨inRange_of_mem_extract hmem,
    Nat.lt_of_le_of_lt (line_le_of_mem_extract hmem) hlines⟩

/--
A table whose defaults hold no fraction is equal to what is loaded from its
stored form, and so decodes the same modifiers: from any text that is read as the
stored tree, and from the text that is written, where arrays and objects do not
stand in one another deeper than a reader goes.  Line numbers have 32 bits, so
that no interface has more lines.
-/
theorem stored_table_reads_back (c : Configuration) (wanted : Option (List String))
    (source : String) (hlines : (Text.lines source).length < Nat.pow 2 32)
    (hfloat : ∀ v ∈ (ofInterface c wanted source).table.defaults, v.hasFloat = false) :
    let t := (ofInterface c wanted source).table
    (∀ text, Json.read? text = some t.toJson → DispatchTable.read text = .ok t) ∧
      (t.toJson.nesting ≤ Json.depthLimit → DispatchTable.read t.text = .ok t) := by
  intro t
  have hrange : t.InRange := inRange_table c wanted hlines
  refine ⟨fun text => DispatchTable.read_of_tree hrange hfloat, fun hdepth => ?_⟩
  exact DispatchTable.read_of_tree hrange hfloat (DispatchTable.read?_text hrange hfloat hdepth)

/-- A default list in a block for a platform that is not known, which restricts nothing. -/
theorem stored_table_reads_back_unknown_platform :
    let c : Configuration := ⟨"1", false, ∅, ["View"], ∅, ∅⟩
    let t := (ofInterface c none "#if os(Linux)\nfunc f(_ n: [Int] = [1])\n#endif").table
    t.defaults.length = 1 ∧ DispatchTable.read t.text = .ok t :=
  ⟨by decide +kernel,
    (stored_table_reads_back ⟨"1", false, ∅, ["View"], ∅, ∅⟩ none _ (by decide +kernel)
      (by decide +kernel)).2 (by decide +kernel)⟩

end Compilation
end ViewModifiers
