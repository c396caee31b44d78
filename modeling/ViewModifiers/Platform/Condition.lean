import ViewModifiers.Platform.Basic

/-!
# Platform conditions

A condition of a conditional block is a disjunction of conjunctions of terms.
Terms that name an operating system or the Catalyst environment select a set of
platforms; a condition without such a term restricts nothing, and other terms
count as true.
-/

namespace ViewModifiers
namespace PlatformCondition

open Text

def callArgument (function term : List Char) : Option String :=
  match (dropPrefix? function term).map dropBlanks with
  | some ('(' :: inner) =>
      some (String.ofList (trimChars (inner.takeWhile (· ≠ ')'))))
  | _ => none

def systemPlatforms (p : Platform) : PlatformSet :=
  if p = .iOS then .ofList [.iOS, .macCatalyst] else .ofList [p]

/-- The platforms that a term without negation selects, if it is about platforms. -/
def atomPlatforms (term : List Char) : Option PlatformSet :=
  match callArgument "os".toList term with
  | some name => (Platform.ofName? name).map systemPlatforms
  | none =>
      match callArgument "targetEnvironment".toList term with
      | some name => if name = "macCatalyst" then some (.ofList [.macCatalyst]) else none
      | none => none

def bareTerm (term : List Char) : List Char :=
  let opened := (trimChars term).dropWhile (· == '(')
  trimChars (opened.reverse.dropWhile (· == ')')).reverse

def termPlatforms (term : List Char) : Option PlatformSet :=
  match bareTerm term with
  | '!' :: inner => (atomPlatforms (trimChars inner)).map PlatformSet.compl
  | bare => atomPlatforms bare

/-- The platforms that a condition selects; `none` if it is not about platforms. -/
def platforms (condition : String) : Option PlatformSet :=
  let disjuncts := (splitAtPair '|' condition.toList).map fun d =>
    (splitAtPair '&' d).filterMap termPlatforms
  if disjuncts.all List.isEmpty then none
  else
    some (disjuncts.foldl
      (fun union terms => union.union (terms.foldl PlatformSet.inter .everything)) .empty)

end PlatformCondition
end ViewModifiers
