import ViewModifiers.Live.Chain
import ViewModifiers.Proofs.Interface.Sites
import ViewModifiers.Proofs.Table.Dispatch

/-!
# Origins of modifiers

A decoded modifier comes from a signature of the interface that its table was
compiled from, and has the availability of the signature.  Main statement: a
modifier is unavailable on a host if and only if the host is ruled out by a
conditional block around the declaration of the signature or by an attribute at
its head.
-/

namespace ViewModifiers

/-!
## Signatures of overload sets
-/

theorem OverloadSet.mem_or_eq_of_mem_insert {set : OverloadSet} {s t : Signature}
    (h : t ∈ (set.insert s).1.signatures) : t ∈ set.signatures ∨ t = s := by
  unfold insert at h
  split at h
  · exact Or.inl h
  · simpa using h

theorem OverloadSet.mem_or_mem_of_mem_foldl {set : OverloadSet} {signatures : List Signature}
    {t : Signature} (h : t ∈ (signatures.foldl (fun set s => (set.insert s).1) set).signatures) :
    t ∈ set.signatures ∨ t ∈ signatures := by
  induction signatures generalizing set with
  | nil => exact Or.inl h
  | cons s rest ih =>
      rcases ih h with hset | hrest
      · rcases mem_or_eq_of_mem_insert hset with hset | rfl
        · exact Or.inl hset
        · exact Or.inr List.mem_cons_self
      · exact Or.inr (List.mem_cons_of_mem s hrest)

theorem Overloads.mem_of_mem_buildSet {name : String} {signatures : List Signature}
    {s : Signature} (h : s ∈ (buildSet name signatures).signatures) : s ∈ signatures := by
  rcases OverloadSet.mem_or_mem_of_mem_foldl h with hnone | hvalid
  · cases hnone
  · exact List.mem_of_mem_filter hvalid

theorem Overloads.mem_of_mem_sets {selection : Selection} {signatures : List Signature}
    {set : OverloadSet} (h : set ∈ (ofSignatures selection signatures).sets) {s : Signature}
    (hs : s ∈ set.signatures) : s ∈ signatures ∧ s.name = set.name := by
  rcases mem_sets_ofSignatures.mp h with ⟨name, _, _, rfl⟩
  have hnamed := mem_of_mem_buildSet hs
  rw [name_buildSet]
  rcases List.mem_filter.mp hnamed with ⟨hmem, hname⟩
  exact ⟨hmem, eq_of_beq hname⟩

theorem Operation.exists_of_overloads_ofSet {c : Configuration} {set : OverloadSet} {i : Nat}
    {o : Overload} (h : (ofSet c set).overloads[i]? = some o) :
    ∃ s ∈ set.signatures, o = .ofSignature c i s := by
  unfold ofSet at h
  dsimp only at h
  rw [List.getElem?_map, List.getElem?_zipIdx] at h
  rcases Option.map_eq_some_iff.mp h with ⟨⟨s, place⟩, hpair, rfl⟩
  rcases Option.map_eq_some_iff.mp hpair with ⟨signature, hsignature, heq⟩
  cases heq
  refine ⟨s, List.mem_of_getElem? hsignature, ?_⟩
  rw [Nat.zero_add]

/-!
## Decoded modifiers
-/

namespace DispatchTable

/-- The table decodes the modifier: from a call, from the text of its arguments, or in a list. -/
inductive Decodes (t : DispatchTable) (m : Invocation) : Prop where
  | call {call : ModifierCall} : t.decodeCall call = .ok m → Decodes t m
  | arguments {name arguments : String} : t.decode name arguments = .ok m → Decodes t m
  | list {text : String} : .ok m ∈ t.decodeList text → Decodes t m

theorem exists_operation_of_decodeCall {t : DispatchTable} {call : ModifierCall} {m : Invocation}
    (h : t.decodeCall call = .ok m) :
    ∃ name op arguments, t.find? name = some op ∧ op.decode arguments = .ok m := by
  rcases exists_of_bind_eq_ok h with ⟨op, hoperation, hdecode⟩
  exact ⟨call.name, op, call.arguments, find?_of_operation hoperation, hdecode⟩

theorem Decodes.exists_operation {t : DispatchTable} {m : Invocation} (h : t.Decodes m) :
    ∃ name op arguments, t.find? name = some op ∧ op.decode arguments = .ok m := by
  cases h with
  | call h => exact exists_operation_of_decodeCall h
  | arguments h =>
      rcases exists_of_bind_eq_ok h with ⟨op, hoperation, h⟩
      rcases exists_of_bind_eq_ok h with ⟨arguments, _, hdecode⟩
      exact ⟨_, op, arguments, find?_of_operation hoperation, hdecode⟩
  | list h =>
      rcases List.mem_map.mp h with ⟨slot, _, hslot⟩
      rcases exists_of_bind_eq_ok hslot with ⟨call, _, hcall⟩
      exact exists_operation_of_decodeCall hcall

end DispatchTable

namespace Compilation

/-- The modifier is decoded by the overload that was compiled from the signature. -/
structure StemsFrom (c : Configuration) (t : DispatchTable) (m : Invocation) (s : Signature) :
    Prop where
  operation_eq : m.operation = s.name
  overload : ∃ op, t.find? m.operation = some op ∧
    op.overloads[m.index]? = some (.ofSignature c m.index s)
  availability_eq : m.availability = s.availability

theorem exists_stemsFrom {c : Configuration} {wanted : Option (List String)} {source : String}
    {m : Invocation} (h : (ofInterface c wanted source).table.Decodes m) :
    ∃ s ∈ (Interface.extract c.targets source).1,
      StemsFrom c (ofInterface c wanted source).table m s := by
  rcases h.exists_operation with ⟨name, op, arguments, hfind, hdecode⟩
  have ht := wellFormed_table c wanted source
  rcases (Operation.decode_eq_ok_iff (ht.isIndexed name op hfind)).mp hdecode with ⟨o, hchooses⟩
  have hname : m.operation = name := hchooses.operation_eq.trans (ht.name_eq name op hfind)
  have hsets := hfind
  rw [table_ofInterface] at hsets
  rcases DispatchTable.exists_of_find?_ofSets hsets with ⟨set, hset, rfl, hsetname⟩
  have hfound := hchooses.first.found
  rcases Operation.exists_of_overloads_ofSet hfound with ⟨s, hs, ho⟩
  rcases Overloads.mem_of_mem_sets hset hs with ⟨hmem, hsname⟩
  rw [ho] at hfound
  rw [← hname] at hfind
  refine ⟨s, hmem, ?_, ⟨_, hfind, hfound⟩, ?_⟩
  · rw [hname, hsname, hsetname]
  · rw [hchooses.availability_eq, ho]
    rfl

end Compilation

theorem Invocation.apply_eq_unavailable_iff {τ : Type} (act : τ → ResolvedModifier → τ)
    (host : Host) (e : Element) (target : τ) (cells : CellStore) (m : Invocation) :
    (m.apply act host e target cells).2.1 = .unavailable ↔
      ¬ m.availability.holds host.platform host.version = true := by
  unfold apply Host.supports
  split
  · next hholds =>
      refine iff_of_false ?_ (not_not_intro hholds)
      rcases m.resolve e cells with ⟨resolved | cause, cells⟩ <;> nofun
  · next hholds => exact iff_of_true rfl hholds

/-!
## Availability
-/

open Interface
open TypeExpr.Grammar (headAttributes)

/--
A signature of an interface is declared at one site.  It is available on a
platform of a version if and only if the platform is in the current set of every
conditional block around the site, and every availability attribute at the head
of the declaration holds; these attributes are those of the collected lines and
those in front of the declaration itself.  A decoded modifier stems from such a
signature, and is unavailable exactly where the signature is.
-/
theorem Compilation.availability_is_conjunction (c : Configuration)
    (wanted : Option (List String)) (source : String) :
    (∀ (a b : Availability) (allowed : PlatformSet) (p : Platform) (v : Version),
        ((a.merge b).holds p v = true ↔ a.holds p v = true ∧ b.holds p v = true) ∧
          ((a.restrict allowed).holds p v = true ↔ a.holds p v = true ∧ p ∈ allowed)) ∧
      (∀ targets, ∀ s ∈ (extract targets source).1,
        (∃ d : Site, d.Declares targets (Text.lines source) s) ∧
          ∀ d : Site, d.Declares targets (Text.lines source) s →
            headAttributes (d.text targets) =
                (d.scanner targets).decorations.flatMap headAttributes ++
                  headAttributes d.ownText ∧
              ∀ p v, s.availability.holds p v = true ↔ d.Allows targets p v) ∧
      ∀ m, (ofInterface c wanted source).table.Decodes m →
        ∃ s ∈ (extract c.targets source).1,
          StemsFrom c (ofInterface c wanted source).table m s ∧
          ∀ d : Site, d.Declares c.targets (Text.lines source) s →
            ∀ {τ : Type} (act : τ → ResolvedModifier → τ) (host : Host) (e : Element)
              (target : τ) (cells : CellStore),
              (m.apply act host e target cells).2.1 = .unavailable ↔
                ¬ d.Allows c.targets host.platform host.version := by
  have hallows : ∀ targets, ∀ s ∈ (extract targets source).1,
      ∀ d : Site, d.Declares targets (Text.lines source) s → ∀ p v,
        (s.availability.holds p v = true ↔ d.Allows targets p v) := by
    intro targets s hs d hd
    rcases Site.exists_of_mem_run (mem_run_of_mem_extract hs) with ⟨found, hfound, hholds⟩
    rw [hfound.unique hd]
    exact hholds
  refine ⟨?_, ?_, ?_⟩
  · intro a b allowed p v
    exact ⟨Availability.holds_merge_iff, Availability.holds_restrict_iff⟩
  · intro targets s hs
    rcases Site.exists_of_mem_run (mem_run_of_mem_extract hs) with ⟨found, hfound, -⟩
    refine ⟨⟨found, hfound⟩, ?_⟩
    intro d hd
    exact ⟨hd.headAttributes_text, hallows targets s hs d hd⟩
  · intro m hm
    rcases exists_stemsFrom hm with ⟨s, hs, hstems⟩
    refine ⟨s, hs, hstems, ?_⟩
    intro d hd τ act host e target cells
    rw [Invocation.apply_eq_unavailable_iff, hstems.availability_eq, hallows c.targets s hs d hd]

/-- An attribute in front of a condition counts for the declaration behind it. -/
example :
    (extract defaultTargets
      "@available(macOS 13, *)\n#if os(iOS) || os(macOS)\n@available(iOS 16, *)\nfunc f()").1.map
        (fun s => (s.availability.holds .iOS ⟨16, 0, 0⟩, s.availability.holds .macOS ⟨12, 0, 0⟩,
          s.availability.holds .tvOS ⟨18, 0, 0⟩)) =
      [(true, false, false)] := by
  decide +kernel

end ViewModifiers
