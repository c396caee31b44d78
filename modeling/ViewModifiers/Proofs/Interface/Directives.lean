import ViewModifiers.Proofs.Interface.Sites

/-!
# Directives

To the scanner of an interface, a line is a directive only outside declarations.
The conditional blocks behind lines are determined by the directives among them,
and directives that close what they open leave the blocks in front of them alone.
-/

namespace ViewModifiers
namespace Interface

inductive Directive where
  /-- A block starts with a branch on its condition. -/
  | opens (set : Option PlatformSet)
  /-- The innermost block goes on with a branch on another condition. -/
  | turns (set : Option PlatformSet)
  /-- The innermost block goes on with the branch for the rest. -/
  | otherwise
  | closes
  | other
deriving DecidableEq

namespace Directive

/-- The directive that a line without its comment spells. -/
def ofLine (line : List Char) : Directive :=
  let (keyword, condition) := Scanner.splitDirective line
  if keyword = "#if" then .opens (PlatformCondition.platforms condition)
  else if keyword = "#elseif" then .turns (PlatformCondition.platforms condition)
  else if keyword = "#else" then .otherwise
  else if keyword = "#endif" then .closes
  else .other

def change : Directive → List Block → List Block
  | opens set, blocks => ⟨[set], set⟩ :: blocks
  | turns set, block :: blocks => ⟨block.branches ++ [set], set⟩ :: blocks
  | otherwise, block :: blocks => { block with current := block.otherwise } :: blocks
  | closes, _ :: blocks => blocks
  | _, blocks => blocks

def changeAll (ds : List Directive) (blocks : List Block) : List Block :=
  ds.foldl (fun blocks d => d.change blocks) blocks

/--
How many blocks are open behind directives, if so many are open in front of them;
none if one of the directives is about a block that is not counted.
-/
def openBlocks : Nat → List Directive → Option Nat
  | n, [] => some n
  | n, opens _ :: ds => openBlocks (n + 1) ds
  | n, other :: ds => openBlocks n ds
  | n + 1, closes :: ds => openBlocks n ds
  | n + 1, turns _ :: ds => openBlocks (n + 1) ds
  | n + 1, otherwise :: ds => openBlocks (n + 1) ds
  | 0, _ :: _ => none

theorem change_other (blocks : List Block) : other.change blocks = blocks := by
  cases blocks <;> rfl

/-- Counted blocks are changed only; those behind them stay. -/
theorem exists_changeAll_append {ds : List Directive} {n : Nat} (blocks outer : List Block)
    (h : openBlocks blocks.length ds = some n) :
    ∃ inner, changeAll ds (blocks ++ outer) = inner ++ outer ∧ inner.length = n := by
  induction ds generalizing blocks with
  | nil =>
      refine ⟨blocks, rfl, ?_⟩
      exact Option.some.inj h
  | cons d ds ih =>
      cases d with
      | opens set => exact ih (⟨[set], set⟩ :: blocks) h
      | other =>
          cases blocks with
          | nil =>
              show ∃ inner, changeAll ds (other.change outer) = _ ∧ _
              rw [change_other]
              exact ih [] h
          | cons block blocks => exact ih (block :: blocks) h
      | closes =>
          cases blocks with
          | nil => cases h
          | cons block blocks => exact ih blocks h
      | turns set =>
          cases blocks with
          | nil => cases h
          | cons block blocks => exact ih (⟨block.branches ++ [set], set⟩ :: blocks) h
      | otherwise =>
          cases blocks with
          | nil => cases h
          | cons block blocks =>
              exact ih ({ block with current := block.otherwise } :: blocks) h

/-!
## Lines that are no directive
-/

theorem splitDirective_fst_ne {line word : List Char} {keyword : String}
    (h : line.head? ≠ some '#') (hkeyword : keyword.toList = '#' :: word) :
    (Scanner.splitDirective line).1 ≠ keyword := by
  rintro rfl
  have hword : line.takeWhile (fun c => !Text.isBlank c) = '#' :: word :=
    String.toList_ofList.symm.trans hkeyword
  cases line with
  | nil => cases hword
  | cons c rest =>
      rw [List.takeWhile_cons] at hword
      split at hword
      · cases hword
        exact h rfl
      · cases hword

theorem ofLine_eq_other {line : List Char} (h : line.head? ≠ some '#') : ofLine line = other := by
  unfold ofLine
  dsimp only
  rw [if_neg (splitDirective_fst_ne h rfl), if_neg (splitDirective_fst_ne h rfl),
    if_neg (splitDirective_fst_ne h rfl), if_neg (splitDirective_fst_ne h rfl)]

end Directive

namespace Scanner

section
variable {targets : List String} {s : Scanner} {number : Nat}

def directiveOf (s : Scanner) (line : String) : Directive :=
  if s.pending.isSome then .other else .ofLine (significantText line)

theorem directiveOf_of_some {p : Pending} (h : s.pending = some p) (line : String) :
    s.directiveOf line = .other := by
  rw [directiveOf, h]
  rfl

theorem directiveOf_of_none (h : s.pending = none) (line : String) :
    s.directiveOf line = .ofLine (significantText line) := by
  rw [directiveOf, h]
  rfl

def directives (targets : List String) (s : Scanner) (number : Nat) : List String → List Directive
  | [] => []
  | line :: lines =>
      s.directiveOf line :: (s.feed targets number line).1.directives targets (number + 1) lines

theorem blocks_directive (s : Scanner) (line : List Char) :
    (s.directive line).blocks = (Directive.ofLine line).change s.blocks := by
  unfold directive Directive.ofLine
  dsimp only
  by_cases hif : (splitDirective line).1 = "#if"
  · rw [if_pos hif, if_pos hif]
    rfl
  · rw [if_neg hif, if_neg hif]
    cases hblocks : s.blocks with
    | nil =>
        split_ifs <;> exact hblocks
    | cons block blocks =>
        dsimp only
        split_ifs
        · rfl
        · rfl
        · rfl
        · exact hblocks

theorem blocks_continuePending (s : Scanner) (p : Pending) (line : List Char) :
    (s.continuePending p line).1.blocks = s.blocks :=
  (s.settles_settle _ none line).blocks_eq

theorem blocks_startDeclaration (s : Scanner) (number : Nat) (line fromFunc : List Char) :
    (s.startDeclaration number line fromFunc).1.blocks = s.blocks := by
  unfold startDeclaration
  dsimp only
  split
  · exact (settles_settle { s with decorations := [] } _ none line).blocks_eq
  · rfl

theorem blocks_feed (targets : List String) (s : Scanner) (number : Nat) (line : String) :
    (s.feed targets number line).1.blocks = (s.directiveOf line).change s.blocks := by
  unfold feed
  dsimp only
  split
  · next p hpending =>
      rw [directiveOf_of_some hpending, Directive.change_other]
      exact s.blocks_continuePending p _
  · next hpending =>
      rw [directiveOf_of_none hpending]
      by_cases hhash : (significantText line).head? = some '#'
      · rw [if_neg (List.ne_nil_of_mem (List.mem_of_mem_head? hhash)), if_pos hhash]
        exact s.blocks_directive _
      · rw [Directive.ofLine_eq_other hhash, Directive.change_other, if_neg hhash]
        split
        · rfl
        · split
          · rfl
          · split
            · exact s.blocks_startDeclaration number _ _
            · rfl

theorem blocks_after (targets : List String) (s : Scanner) (number : Nat) (lines : List String) :
    (s.after targets number lines).blocks =
      Directive.changeAll (s.directives targets number lines) s.blocks := by
  induction lines generalizing s number with
  | nil => rfl
  | cons line rest ih =>
      rw [after, ih, blocks_feed]
      rfl

/-- Lines that count the blocks they open leave those around them as they are. -/
theorem exists_blocks_after {lines : List String} {n : Nat}
    (h : Directive.openBlocks 0 (s.directives targets number lines) = some n) :
    ∃ inner, (s.after targets number lines).blocks = inner ++ s.blocks ∧ inner.length = n := by
  rw [blocks_after]
  exact Directive.exists_changeAll_append [] s.blocks h

end

end Scanner
end Interface
end ViewModifiers
