import ViewModifiers.Text.Split

/-!
# Type expressions

Types as an interface writes them: names with generic arguments, optionals,
arrays, dictionaries, tuples, functions, and the forms with a word in front.
-/

namespace ViewModifiers

inductive TypeExpr where
  /-- `A.B.C<Arguments>`; the arguments belong to the last name. -/
  | named (path : List String) (generics : List TypeExpr)
  /-- `T?` or `T!` -/
  | optional (inner : TypeExpr)
  /-- `[T]` -/
  | array (element : TypeExpr)
  /-- `[K: V]` -/
  | dictionary (key value : TypeExpr)
  /-- `(A, B)` -/
  | tuple (items : List TypeExpr)
  /-- `(A, B) async throws -> R` -/
  | function (parameters : List TypeExpr) (result : TypeExpr) (isAsync throws : Bool)
  /-- `some P` -/
  | someOf (constraint : TypeExpr)
  /-- `any P` -/
  | anyOf (constraint : TypeExpr)
  /-- `inout T` -/
  | inoutOf (inner : TypeExpr)

namespace TypeExpr

/-- Forms that stand in parentheses before a question mark. -/
def isCompound : TypeExpr → Bool
  | function _ _ _ _ | someOf _ | anyOf _ => true
  | _ => false

mutual

def text : TypeExpr → String
  | named path [] => String.intercalate "." path
  | named path (g :: generics) =>
      String.intercalate "." path ++ "<" ++ textList (g :: generics) ++ ">"
  | optional inner =>
      if inner.isCompound then "(" ++ inner.text ++ ")?" else inner.text ++ "?"
  | array element => "[" ++ element.text ++ "]"
  | dictionary key value => "[" ++ key.text ++ ": " ++ value.text ++ "]"
  | tuple items => "(" ++ textList items ++ ")"
  | function parameters result isAsync throws =>
      "(" ++ textList parameters ++ ")" ++ (if isAsync then " async" else "") ++
        (if throws then " throws" else "") ++ " -> " ++ result.text
  | someOf constraint => "some " ++ constraint.text
  | anyOf constraint => "any " ++ constraint.text
  | inoutOf inner => "inout " ++ inner.text

def textList : List TypeExpr → String
  | [] => ""
  | [t] => t.text
  | t :: rest => t.text ++ ", " ++ textList rest

end

/-- The modules that a name may be qualified with without changing what it names. -/
def knownModules : List String :=
  ["Swift", "SwiftUI", "SwiftUICore", "Foundation", "CoreFoundation", "CoreGraphics", "CoreText",
    "Combine", "UIKit", "AppKit"]

/-- A path without the modules in front of it; the last name is always kept. -/
def unqualifiedPath : List String → List String
  | [] => []
  | [name] => [name]
  | first :: second :: rest =>
      if first ∈ knownModules then unqualifiedPath (second :: rest) else first :: second :: rest

/-- A name without modules and generic arguments; other types in full. -/
def unqualifiedName : TypeExpr → String
  | named path _ => String.intercalate "." (unqualifiedPath path)
  | t => t.text

def normalizedName : TypeExpr → String
  | named (first :: second :: rest) _ => (second :: rest).getLastD first
  | t => t.text

def genericArguments : TypeExpr → List TypeExpr
  | named _ generics => generics
  | _ => []

def isFunction : TypeExpr → Bool
  | function _ _ _ _ => true
  | _ => false

def arity? : TypeExpr → Option Nat
  | function parameters _ _ _ => some parameters.length
  | _ => none

def optionalInner? : TypeExpr → Option TypeExpr
  | optional inner => some inner
  | named path [g] => if (named path [g]).unqualifiedName = "Optional" then some g else none
  | _ => none

/-- The name with its parts between points, without arguments. -/
def ofPath (path : String) (generics : List TypeExpr) : TypeExpr :=
  named ((Text.splitAt '.' path.toList).map String.ofList) generics

end TypeExpr
end ViewModifiers
