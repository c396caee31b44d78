import ViewModifiers.Proofs.Interface.Directives

/-!
# Branches of conditional blocks

A conditional block is a chain of branches.  What is declared directly in a branch
is for the platforms of its own condition, behind `#else` for those of no
condition, as far as the conditions around the chain allow them.  An `#elseif`
does not leave out the platforms of the conditions before it: the branches
exclude each other on a platform if and only if no two conditions have it.
-/

namespace ViewModifiers
namespace Interface

open TypeExpr.Grammar (headAttributes)

section
variable {targets before lines : List String}

/-!
## Positions in an interface
-/

/-- The state of the scanner behind the first lines of an interface. -/
def behind (targets lines : List String) : Scanner :=
  Scanner.start.after targets 1 lines

/-- How many blocks lines open and do not close; none if they end or turn one opened before. -/
def openBehind (targets before lines : List String) : Option Nat :=
  Directive.openBlocks 0 ((behind targets before).directives targets (before.length + 1) lines)

theorem behind_append (targets lines more : List String) :
    behind targets (lines ++ more) =
      (behind targets lines).after targets (lines.length + 1) more := by
  rw [behind, Scanner.after_append, Nat.add_comm]
  rfl

theorem exists_blocks_behind {n : Nat} (h : openBehind targets before lines = some n) :
    ∃ inner, (behind targets (before ++ lines)).blocks =
      inner ++ (behind targets before).blocks ∧ inner.length = n := by
  rw [behind_append]
  exact Scanner.exists_blocks_after h

theorem blocks_behind_of_closed (h : openBehind targets before lines = some 0) :
    (behind targets (before ++ lines)).blocks = (behind targets before).blocks := by
  rcases exists_blocks_behind h with ⟨inner, hblocks, hlength⟩
  rw [List.length_eq_zero_iff.mp hlength] at hblocks
  exact hblocks

theorem blocks_behind_concat (targets lines : List String) (line : String) :
    (behind targets (lines ++ [line])).blocks =
      ((behind targets lines).directiveOf line).change (behind targets lines).blocks := by
  rw [behind, Scanner.after_concat]
  exact Scanner.blocks_feed targets _ _ line

/-!
## Chains of branches
-/

/--
Lines that make up the branches of one block behind `before`, each with the line of
its directive, and the platforms of their conditions.  If the chain is complete,
its last branch is the one for the rest, which has no condition.
-/
inductive Chain (targets before : List String) :
    Bool → List (List String) → List PlatformSet → Prop where
  | opened {head : String} {body : List String} {set : PlatformSet} :
      (behind targets before).directiveOf head = .opens (some set) →
      openBehind targets (before ++ [head]) body = some 0 →
      Chain targets before false [head :: body] [set]
  | turned {branches : List (List String)} {sets : List PlatformSet} {head : String}
      {body : List String} {set : PlatformSet} : Chain targets before false branches sets →
      (behind targets (before ++ branches.flatten)).directiveOf head = .turns (some set) →
      openBehind targets (before ++ branches.flatten ++ [head]) body = some 0 →
      Chain targets before false (branches ++ [head :: body]) (sets ++ [set])
  | completed {branches : List (List String)} {sets : List PlatformSet} {head : String}
      {body : List String} : Chain targets before false branches sets →
      (behind targets (before ++ branches.flatten)).directiveOf head = .otherwise →
      openBehind targets (before ++ branches.flatten ++ [head]) body = some 0 →
      Chain targets before true (branches ++ [head :: body]) sets

/-- The platforms of a branch: those of its condition, or those that no condition has. -/
def branchSet (sets : List PlatformSet) (k : Nat) : PlatformSet :=
  match sets[k]? with
  | some set => set
  | none => (sets.foldl PlatformSet.union .empty).compl

def AtMostOne (sets : List PlatformSet) (p : Platform) : Prop :=
  ∀ i j (hi : i < sets.length) (hj : j < sets.length), p ∈ sets[i] → p ∈ sets[j] → i = j

section
variable {complete : Bool} {branches : List (List String)} {sets : List PlatformSet}
  {p : Platform} {k : Nat}

theorem branchSet_of_lt (h : k < sets.length) : branchSet sets k = sets[k] := by
  rw [branchSet, List.getElem?_eq_getElem h]

theorem branchSet_length : branchSet sets sets.length =
    (sets.foldl PlatformSet.union .empty).compl := by
  rw [branchSet, List.getElem?_eq_none (Nat.le_refl _)]

theorem branchSet_append_of_lt (h : k < sets.length) (set : PlatformSet) :
    branchSet (sets ++ [set]) k = branchSet sets k := by
  rw [branchSet_of_lt h, branchSet, List.getElem?_append_left h, List.getElem?_eq_getElem h]

theorem mem_branchSet_length : p ∈ branchSet sets sets.length ↔ ∀ set ∈ sets, p ∉ set := by
  have hunion : p ∈ sets.foldl PlatformSet.union .empty ↔
      p ∈ PlatformSet.empty ∨ ∃ set ∈ sets, p ∈ set :=
    PlatformSet.mem_foldl_union (f := id)
  rw [branchSet_length, PlatformSet.mem_compl, hunion]
  simp [PlatformSet.not_mem_empty]

theorem otherwise_eq (sets : List PlatformSet) (current : Option PlatformSet) :
    Block.otherwise ⟨sets.map some, current⟩ = some (branchSet sets sets.length) := by
  have hsets : (sets.map some).mapM id = some sets := by
    induction sets with
    | nil => rfl
    | cons set rest ih => simp [ih]
  unfold Block.otherwise
  rw [hsets, branchSet_length]
  rfl

theorem Chain.length_eq (h : Chain targets before complete branches sets) :
    branches.length = sets.length + complete.toNat := by
  induction h with
  | opened => rfl
  | turned _ _ _ ih =>
      rw [List.length_append, List.length_append, ih]
      rfl
  | completed _ _ _ ih =>
      rw [List.length_append, ih]
      rfl

theorem getElem?_concat_cases {α : Type} {xs : List α} {x y : α} (h : (xs ++ [x])[k]? = some y) :
    (xs[k]? = some y ∧ (xs ++ [x]).take k = xs.take k) ∨
      (k = xs.length ∧ y = x ∧ (xs ++ [x]).take k = xs) := by
  rcases Nat.lt_or_ge k xs.length with hk | hk
  · left
    rw [List.getElem?_append_left hk] at h
    exact ⟨h, List.take_append_of_le_length (Nat.le_of_lt hk)⟩
  · right
    have hlt : k < (xs ++ [x]).length := (List.getElem?_eq_some_iff.mp h).1
    rw [List.length_append, List.length_singleton] at hlt
    have hk : k = xs.length := by omega
    subst hk
    rw [List.getElem?_concat_length] at h
    exact ⟨rfl, (Option.some.inj h).symm, List.take_left⟩

/-!
## Blocks in a chain
-/

theorem Chain.exists_blocks (h : Chain targets before complete branches sets) :
    ∃ current, (behind targets (before ++ branches.flatten)).blocks =
      ⟨sets.map some, current⟩ :: (behind targets before).blocks := by
  induction h with
  | opened hhead hbody =>
      next head body set =>
      refine ⟨some set, ?_⟩
      rw [List.flatten_singleton, List.append_cons, blocks_behind_of_closed hbody,
        blocks_behind_concat, hhead]
      rfl
  | turned _ hhead hbody ih =>
      next head body set _ =>
      rcases ih with ⟨current, hblocks⟩
      refine ⟨some set, ?_⟩
      rw [List.flatten_concat, ← List.append_assoc, List.append_cons,
        blocks_behind_of_closed hbody, blocks_behind_concat, hhead, hblocks, List.map_append]
      rfl
  | completed _ hhead hbody ih =>
      next sets head body _ =>
      rcases ih with ⟨current, hblocks⟩
      refine ⟨Block.otherwise ⟨sets.map some, current⟩, ?_⟩
      rw [List.flatten_concat, ← List.append_assoc, List.append_cons,
        blocks_behind_of_closed hbody, blocks_behind_concat, hhead, hblocks]
      rfl

theorem Chain.exists_blocks_head {head : String} {body : List String}
    (h : Chain targets before complete branches sets) (hk : branches[k]? = some (head :: body)) :
    ∃ conditions, (behind targets (before ++ (branches.take k).flatten ++ [head])).blocks =
      ⟨conditions, some (branchSet sets k)⟩ :: (behind targets before).blocks := by
  induction h with
  | opened hhead hbody =>
      next first _ set =>
      cases k with
      | zero =>
          cases hk
          refine ⟨[some set], ?_⟩
          rw [List.take_zero, List.flatten_nil, List.append_nil, blocks_behind_concat, hhead]
          rfl
      | succ k => cases hk
  | turned hchain hhead hbody ih =>
      next branches sets _ _ set =>
      have hlength : branches.length = sets.length := hchain.length_eq
      rcases getElem?_concat_cases hk with ⟨hold, htake⟩ | ⟨rfl, hnew, htake⟩
      · have hlt : k < sets.length := hlength ▸ (List.getElem?_eq_some_iff.mp hold).1
        rw [htake, branchSet_append_of_lt hlt]
        exact ih hold
      · cases hnew
        rcases hchain.exists_blocks with ⟨current, hblocks⟩
        refine ⟨sets.map some ++ [some set], ?_⟩
        rw [htake, blocks_behind_concat, hhead, hblocks, hlength, branchSet,
          List.getElem?_concat_length]
        rfl
  | completed hchain hhead hbody ih =>
      next branches sets _ _ =>
      have hlength : branches.length = sets.length := hchain.length_eq
      rcases getElem?_concat_cases hk with ⟨hold, htake⟩ | ⟨rfl, hnew, htake⟩
      · rw [htake]
        exact ih hold
      · cases hnew
        rcases hchain.exists_blocks with ⟨current, hblocks⟩
        refine ⟨sets.map some, ?_⟩
        rw [htake, blocks_behind_concat, hhead, hblocks, hlength, ← otherwise_eq sets current]
        rfl

/-!
## Declarations in a branch
-/

/-- The site stands in a branch of a chain, with so many blocks of the branch around it. -/
def Site.InBranch (targets before : List String) (branches : List (List String)) (k n : Nat)
    (d : Site) : Prop :=
  ∃ head inner rest, branches[k]? = some (head :: (inner ++ d.first :: rest)) ∧
    d.before = before ++ (branches.take k).flatten ++ head :: inner ∧
    openBehind targets (before ++ (branches.take k).flatten ++ [head]) inner = some n

/-- No attribute at the head of the declaration is about availability. -/
def Site.Unconditioned (targets : List String) (d : Site) : Prop :=
  ∀ a ∈ headAttributes (d.text targets), a.name ≠ "available"

def Scanner.platforms (s : Scanner) : PlatformSet :=
  s.restriction.getD .everything

theorem Scanner.mem_platforms_iff {s : Scanner} : p ∈ s.platforms ↔ s.Permits p := by
  rw [permits_iff_restriction, platforms]
  cases s.restriction with
  | none => simp [PlatformSet.mem_everything]
  | some allowed => simp

/-- Where a block around is about platforms, what is always available is so on those allowed. -/
theorem Scanner.restrict_always {s : Scanner} {block : Block} {set : PlatformSet}
    (hblock : block ∈ s.blocks) (hcurrent : block.current = some set) :
    s.restrict .always = ⟨some s.platforms, fun _ => none, .empty⟩ := by
  have hmem : set ∈ s.blocks.reverse.filterMap Block.current :=
    List.mem_filterMap.mpr ⟨block, List.mem_reverse.mpr hblock, hcurrent⟩
  unfold restrict platforms restriction
  cases hsets : s.blocks.reverse.filterMap Block.current with
  | nil => exact absurd (hsets ▸ hmem) List.not_mem_nil
  | cons first more => rfl

def branchPlatforms (targets before : List String) (sets : List PlatformSet) (k : Nat) :
    PlatformSet :=
  (behind targets before).platforms.inter (branchSet sets k)

theorem Chain.platforms_scanner {n : Nat} {d : Site}
    (h : Chain targets before complete branches sets)
    (hd : d.InBranch targets before branches k n) :
    (d.scanner targets).restrict .always =
        ⟨some (d.scanner targets).platforms, fun _ => none, .empty⟩ ∧
      (∀ p ∈ (d.scanner targets).platforms, p ∈ branchPlatforms targets before sets k) ∧
      (n = 0 → (d.scanner targets).platforms = branchPlatforms targets before sets k) := by
  rcases hd with ⟨head, inner, rest, hk, hbefore, hinner⟩
  rcases h.exists_blocks_head hk with ⟨conditions, hhead⟩
  rcases exists_blocks_behind hinner with ⟨nested, hblocks, hlength⟩
  have hscanner : (d.scanner targets).blocks =
      nested ++ ⟨conditions, some (branchSet sets k)⟩ :: (behind targets before).blocks := by
    rw [← hhead, ← hblocks, Site.scanner, hbefore, behind, List.append_cons]
  have hmem : ∀ p, p ∈ (d.scanner targets).platforms ↔
      (∀ block ∈ nested, ∀ allowed, block.current = some allowed → p ∈ allowed) ∧
        p ∈ branchPlatforms targets before sets k := by
    intro p
    rw [branchPlatforms, PlatformSet.mem_inter, Scanner.mem_platforms_iff,
      Scanner.mem_platforms_iff, Scanner.Permits, hscanner, List.forall_mem_append,
      List.forall_mem_cons, Scanner.Permits]
    simp only [Option.some.injEq, forall_eq']
    rw [and_comm (a := p ∈ branchSet sets k)]
  refine ⟨?_, ?_, ?_⟩
  · exact Scanner.restrict_always (hscanner ▸ List.mem_append_cons_self) rfl
  · intro p hp
    exact ((hmem p).mp hp).2
  · intro hn
    have hnested : nested = [] := List.length_eq_zero_iff.mp (hlength.trans hn)
    rw [hnested] at hmem
    apply PlatformSet.eq_of_forall_mem_iff
    intro p
    exact (hmem p).trans (and_iff_right (fun _ hblock => absurd hblock List.not_mem_nil))

theorem Chain.availability_declared {n : Nat} {d : Site} {source : String} {declared : Signature}
    (h : Chain targets before complete branches sets) (hd : d.InBranch targets before branches k n)
    (hdeclares : d.Declares targets (Text.lines source) declared)
    (hmem : declared ∈ (extract targets source).1) (hplain : d.Unconditioned targets) :
    ∃ set, declared.availability = ⟨some set, fun _ => none, .empty⟩ ∧
      (∀ p ∈ set, p ∈ branchPlatforms targets before sets k) ∧
      (n = 0 → set = branchPlatforms targets before sets k) := by
  rcases Site.exists_stated_of_mem_run (mem_run_of_mem_extract hmem) with ⟨found, hfound, hstated⟩
  cases hfound.unique hdeclares
  rcases h.platforms_scanner hd with ⟨hrestrict, hplatforms⟩
  rw [Signature.Grammar.statedAvailability_eq_always hplain, hrestrict] at hstated
  exact ⟨_, hstated, hplatforms⟩

/-!
## Exclusive branches
-/

def firstBranch (sets : List PlatformSet) (p : Platform) : Nat :=
  sets.findIdx fun set => set.contains p

theorem mem_getElem_firstBranch (h : firstBranch sets p < sets.length) :
    p ∈ sets[firstBranch sets p] :=
  List.findIdx_getElem (p := fun set : PlatformSet => set.contains p)

theorem mem_branchSet_firstBranch (sets : List PlatformSet) (p : Platform) :
    p ∈ branchSet sets (firstBranch sets p) := by
  rcases Nat.lt_or_ge (firstBranch sets p) sets.length with hlt | hge
  · rw [branchSet_of_lt hlt]
    exact mem_getElem_firstBranch hlt
  · have heq : firstBranch sets p = sets.length :=
      Nat.le_antisymm List.findIdx_le_length hge
    rw [heq, mem_branchSet_length]
    intro set hset hp
    have hnot := List.findIdx_eq_length.mp heq set hset
    exact Bool.false_ne_true (hnot.symm.trans hp)

/-- The first branch is the only one if and only if no two conditions have the platform. -/
theorem forall_mem_branchSet_iff {n : Nat} (hn : sets.length ≤ n) (hn' : n ≤ sets.length + 1) :
    (∀ k < n, p ∈ branchSet sets k ↔ k = firstBranch sets p) ↔ AtMostOne sets p := by
  constructor
  · intro h i j hi hj hpi hpj
    rw [← branchSet_of_lt hi] at hpi
    rw [← branchSet_of_lt hj] at hpj
    rw [(h i (Nat.lt_of_lt_of_le hi hn)).mp hpi, (h j (Nat.lt_of_lt_of_le hj hn)).mp hpj]
  · intro h k hk
    constructor
    · intro hp
      rcases Nat.lt_or_ge k sets.length with hlt | hge
      · rw [branchSet_of_lt hlt] at hp
        have hfirst : firstBranch sets p < sets.length :=
          List.findIdx_lt_length_of_exists ⟨sets[k], List.getElem_mem hlt, hp⟩
        exact h k _ hlt hfirst hp (mem_getElem_firstBranch hfirst)
      · have heq : k = sets.length := by omega
        rw [heq, mem_branchSet_length] at hp
        rw [heq]
        refine (List.findIdx_eq_length.mpr ?_).symm
        intro set hset
        exact Bool.eq_false_iff.mpr (hp set hset)
    · rintro rfl
      exact mem_branchSet_firstBranch sets p

/--
What is declared directly in a branch of a chain is for the platforms of the branch
that the conditions around the chain allow, and without a further condition.  The
first branch whose condition has an allowed platform is for this platform, and of a
complete chain some branch is.  It is the only branch for the platform if and only
if no other condition of the chain has it.
-/
theorem Chain.exclusive_iff_atMostOne (h : Chain targets before complete branches sets) :
    (∀ (source : String) (k n : Nat) (d : Site) (declared : Signature),
        d.InBranch targets before branches k n →
        d.Declares targets (Text.lines source) declared →
        declared ∈ (extract targets source).1 → d.Unconditioned targets →
        ∃ set, declared.availability = ⟨some set, fun _ => none, .empty⟩ ∧
          (∀ p ∈ set, p ∈ branchPlatforms targets before sets k) ∧
          (n = 0 → set = branchPlatforms targets before sets k)) ∧
      ∀ p ∈ (behind targets before).platforms,
        p ∈ branchPlatforms targets before sets (firstBranch sets p) ∧
          (complete = true → firstBranch sets p < branches.length) ∧
          ((∀ k < branches.length,
              p ∈ branchPlatforms targets before sets k ↔ k = firstBranch sets p) ↔
            AtMostOne sets p) := by
  have hlength := h.length_eq
  refine ⟨?_, ?_⟩
  · intro source k n d declared hd hdeclares hmem hplain
    exact h.availability_declared hd hdeclares hmem hplain
  · intro p hp
    have hbranch : ∀ k, p ∈ branchPlatforms targets before sets k ↔ p ∈ branchSet sets k := by
      intro k
      rw [branchPlatforms, PlatformSet.mem_inter]
      exact and_iff_right hp
    simp only [hbranch]
    refine ⟨mem_branchSet_firstBranch sets p, ?_, ?_⟩
    · rintro rfl
      rw [hlength]
      exact Nat.lt_succ_of_le List.findIdx_le_length
    · apply forall_mem_branchSet_iff
      · omega
      · have hone := complete.toNat_le
        omega

/-- The second of three branches, where the conditions exclude each other. -/
theorem exclusive_iff_atMostOne_of_systems :
    Chain [] [] true
        [["#if os(iOS)", "func f()"], ["#elseif os(macOS)", "func g()"], ["#else", "func h()"]]
        [.ofList [.iOS, .macCatalyst], .ofList [.macOS]] ∧
      (extract [] "#if os(iOS)\nfunc f()\n#elseif os(macOS)\nfunc g()\n#else\nfunc h()").1.map
          Signature.line = [2, 4, 6] ∧
      ∀ declared ∈ (extract []
          "#if os(iOS)\nfunc f()\n#elseif os(macOS)\nfunc g()\n#else\nfunc h()").1,
        declared.line = 4 →
          declared.availability = ⟨some (.ofList [.macOS]), fun _ => none, .empty⟩ := by
  have hchain : Chain [] [] true
      [["#if os(iOS)", "func f()"], ["#elseif os(macOS)", "func g()"], ["#else", "func h()"]]
      [.ofList [.iOS, .macCatalyst], .ofList [.macOS]] :=
    ((Chain.opened (by decide +kernel) (by decide +kernel)).turned
      (by decide +kernel) (by decide +kernel)).completed (by decide +kernel) (by decide +kernel)
  refine ⟨hchain, by decide +kernel, ?_⟩
  intro declared hmem hline
  rcases Site.exists_of_mem_run (mem_run_of_mem_extract hmem) with ⟨⟨before, first, more⟩, hd, -⟩
  rcases hd.lines_eq with ⟨rest, hlines⟩
  have hsource : Text.lines
      "#if os(iOS)\nfunc f()\n#elseif os(macOS)\nfunc g()\n#else\nfunc h()" =
        ["#if os(iOS)", "func f()", "#elseif os(macOS)"] ++ ["func g()", "#else", "func h()"] := by
    decide +kernel
  rw [hsource, List.append_assoc] at hlines
  have hlength : before.length + 1 = 4 := hd.line_eq.symm.trans hline
  rcases List.append_inj hlines.symm (Nat.succ.inj hlength) with ⟨rfl, hbehind⟩
  rcases List.cons_eq_cons.mp hbehind with ⟨rfl, -⟩
  have hmore : more = [] := by
    by_contra hne
    have hheld : (Scanner.after [] (behind [] ["#if os(iOS)", "func f()", "#elseif os(macOS)"]) 4
        ["func g()"]).pending.isSome = true :=
      hd.spans.held [] List.nil_prefix (Ne.symm hne)
    exact absurd hheld (by decide +kernel)
  subst hmore
  have hplain : Site.Unconditioned []
      ⟨["#if os(iOS)", "func f()", "#elseif os(macOS)"], "func g()", []⟩ := by
    unfold Site.Unconditioned
    decide +kernel
  rcases (Chain.exclusive_iff_atMostOne hchain).1 _ 1 0 _ declared
    ⟨"#elseif os(macOS)", [], [], rfl, rfl, rfl⟩ hd hmem hplain with
    ⟨set, havailability, -, hset⟩
  rw [havailability, hset rfl]
  decide +kernel

/-- The branch on iOS and macOS is for iOS, although the branch in front of it is, too. -/
theorem not_exclusive_of_overlap :
    (extract defaultTargets
        "#if os(iOS)\nfunc a()\n#elseif os(iOS) || os(macOS)\nfunc b()\n#endif\n").1.map
      (fun s => (s.name, s.availability.platforms)) =
        [("a", some (.ofList [.iOS, .macCatalyst])),
          ("b", some (.ofList [.iOS, .macOS, .macCatalyst]))] := by
  decide +kernel

end

end

end Interface
end ViewModifiers
