/-!
# String literals in running text

Scanners that count brackets or look for separators must not look inside string
literals.  A literal starts at a double quote and ends at the next one that no
backslash escapes.
-/

namespace ViewModifiers
namespace Text

/-- Whether the next character belongs to a literal, and if so whether it is escaped. -/
inductive Quoting where
  | outside
  | inside (escaped : Bool)
deriving DecidableEq

def Quoting.step : Quoting → Char → Quoting
  | outside, c => if c = '"' then inside false else outside
  | inside true, _ => inside false
  | inside false, c =>
      if c = '\\' then inside true else if c = '"' then outside else inside false

theorem Quoting.step_outside {c : Char} (h : c ≠ '"') : Quoting.outside.step c = .outside :=
  if_neg h

def Quoting.after (q : Quoting) (cs : List Char) : Quoting :=
  cs.foldl step q

@[simp] theorem Quoting.after_nil (q : Quoting) : q.after [] = q := rfl

@[simp] theorem Quoting.after_cons (q : Quoting) (c : Char) (cs : List Char) :
    q.after (c :: cs) = (q.step c).after cs := rfl

theorem Quoting.after_append (q : Quoting) (cs ds : List Char) :
    q.after (cs ++ ds) = (q.after cs).after ds := by
  simp [Quoting.after]

end Text
end ViewModifiers
