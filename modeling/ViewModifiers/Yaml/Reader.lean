import ViewModifiers.Decimal.Numeral

/-!
# YAML texts

The part of YAML that configurations are written in: block mappings and lists,
flow mappings and lists, plain and quoted scalars, comments.  A reader works on
the characters that are left and on the column where they start; the structure
of blocks follows from the columns alone.  Anchors, tags, block scalars and keys
that are not scalars are refused.
-/

namespace ViewModifiers

/-- A YAML tree; whether a scalar was quoted decides what it may stand for. -/
inductive Yaml where
  | scalar (text : String) (quoted : Bool)
  | sequence (items : List Yaml)
  | mapping (entries : List (String × Yaml))

namespace Yaml

/-- The scalar that stands where nothing is written. -/
def empty : Yaml := scalar "" false

/-! ## Places -/

/-- The characters that are left, their column, and whether only indentation stands before them. -/
structure Spot where
  rest : List Char
  column : Nat
  fresh : Bool

def isBreak (c : Char) : Bool :=
  c == '\n' || c == '\r'

def isSpace (c : Char) : Bool :=
  c == ' ' || c == '\t'

def endsToken : List Char → Bool
  | [] => true
  | c :: _ => isSpace c || isBreak c

def isFlowMark (c : Char) : Bool :=
  c == ',' || c == '[' || c == ']' || c == '\x7b' || c == '\x7d'

/-- Skips blanks, breaks and comments; in a block, tabs do not indent. -/
def skip (flow : Bool) (comment afterBlank fresh : Bool) : List Char → Nat → Spot
  | [], column => ⟨[], column, fresh⟩
  | c :: rest, column =>
      if isBreak c then skip flow false true true rest 0
      else if comment then skip flow true true fresh rest (column + 1)
      else if c = ' ' ∨ (c = '\t' ∧ (flow ∨ !fresh)) then
        skip flow false true fresh rest (column + 1)
      else if c = '#' ∧ afterBlank then skip flow true true fresh rest (column + 1)
      else ⟨c :: rest, column, fresh⟩

def Spot.next (flow : Bool) (s : Spot) (afterBlank : Bool) : Spot :=
  skip flow false afterBlank s.fresh s.rest s.column

def Spot.advance (s : Spot) (n : Nat) : Spot :=
  ⟨s.rest.drop n, s.column + n, false⟩

/-! ## Scalars -/

/-- The first character of a plain scalar; three marks count only before a blank. -/
def startsPlain (flow : Bool) : List Char → Bool
  | [] => false
  | c :: rest =>
      if c = '-' ∨ c = '?' ∨ c = ':' then
        !endsToken rest && !(flow && rest.head?.any isFlowMark)
      else
        !(isSpace c || isBreak c || isFlowMark c || c == '#' || c == '&' || c == '*' || c == '!'
          || c == '|' || c == '>' || c == '\'' || c == '"' || c == '%' || c == '@' || c == '\x60')

def plainRun (flow : Bool) (afterBlank : Bool) : List Char → List Char
  | [] => []
  | c :: rest =>
      if isBreak c then []
      else if flow && isFlowMark c then []
      else if c = ':' ∧ (endsToken rest ∨ (flow ∧ rest.head?.any isFlowMark)) then []
      else if c = '#' ∧ afterBlank then []
      else c :: plainRun flow (isSpace c) rest

def trimRun (cs : List Char) : List Char :=
  (cs.reverse.dropWhile isSpace).reverse

/-- The content behind line breaks, and the number of breaks before it. -/
def nextLine : List Char → Nat → Nat → Nat × Nat × List Char
  | [], breaks, column => (breaks, column, [])
  | c :: rest, breaks, column =>
      if isBreak c then
        if c = '\r' ∧ rest.head? = some '\n' then nextLine rest breaks 0
        else nextLine rest (breaks + 1) 0
      else if isSpace c then nextLine rest breaks (column + 1)
      else (breaks, column, c :: rest)

def folded (breaks : Nat) : List Char :=
  if breaks ≤ 1 then [' '] else List.replicate (breaks - 1) '\n'

def plainLines (flow : Bool) (parent : Int) : Nat → Spot → List Char × Spot
  | 0, s => ([], s)
  | fuel + 1, s =>
      let run := trimRun (plainRun flow false s.rest)
      let behind := s.advance run.length
      let (breaks, column, rest) := nextLine behind.rest 0 behind.column
      let continues := breaks > 0 && (flow || decide (parent < column)) && rest.head? != some '#'
        && !(plainRun flow true rest).isEmpty
      if continues then
        let (more, last) := plainLines flow parent fuel ⟨rest, column, false⟩
        (run ++ folded breaks ++ more, last)
      else (run, behind)

def codeEscape (n : Nat) (cs : List Char) : Option Char := do
  let digits := cs.take n
  if digits.length < n then none
  else
    let code ← digits.foldlM (fun v c => (hexValue c).map (16 * v + ·)) 0
    if code.isValidChar then some (Char.ofNat code) else none

def escape : List Char → Option (List Char × Nat)
  | '0' :: _ => some (['\x00'], 1)
  | 'a' :: _ => some (['\x07'], 1)
  | 'b' :: _ => some (['\x08'], 1)
  | 't' :: _ => some (['\t'], 1)
  | '\t' :: _ => some (['\t'], 1)
  | 'n' :: _ => some (['\n'], 1)
  | 'v' :: _ => some (['\x0b'], 1)
  | 'f' :: _ => some (['\x0c'], 1)
  | 'r' :: _ => some (['\r'], 1)
  | 'e' :: _ => some (['\x1b'], 1)
  | ' ' :: _ => some ([' '], 1)
  | '"' :: _ => some (['"'], 1)
  | '/' :: _ => some (['/'], 1)
  | '\\' :: _ => some (['\\'], 1)
  | 'N' :: _ => some (['\u0085'], 1)
  | '_' :: _ => some (['\u00a0'], 1)
  | 'L' :: _ => some (['\u2028'], 1)
  | 'P' :: _ => some (['\u2029'], 1)
  | 'x' :: rest => (codeEscape 2 rest).map fun c => ([c], 3)
  | 'u' :: rest => (codeEscape 4 rest).map fun c => ([c], 5)
  | 'U' :: rest => (codeEscape 8 rest).map fun c => ([c], 9)
  | _ => none

/-- The content of a quoted scalar up to its closing quote; `fuel` bounds its characters. -/
def quotedBody (quote : Char) : Nat → Spot → Option (List Char × Spot)
  | 0, _ => none
  | fuel + 1, s =>
      match s.rest with
      | [] => none
      | c :: rest =>
          let further (text : List Char) (s : Spot) :=
            (quotedBody quote fuel s).map fun r => (text ++ r.1, r.2)
          if c = quote then
            if quote = '\'' ∧ rest.head? = some '\'' then further ['\''] (s.advance 2)
            else some ([], s.advance 1)
          else if c = '\\' ∧ quote = '"' then
            if rest.head?.any isBreak then
              let (breaks, column, rest) := nextLine rest 0 0
              further (List.replicate (breaks - 1) '\n') ⟨rest, column, false⟩
            else
              match escape rest with
              | some (text, n) => further text (s.advance (n + 1))
              | none => none
          else if isSpace c ∨ isBreak c then
            let blanks := s.rest.takeWhile isSpace
            let behind := s.rest.dropWhile isSpace
            if behind.head?.any isBreak then
              let (breaks, column, rest) := nextLine behind 0 0
              further (folded breaks) ⟨rest, column, false⟩
            else further blanks (s.advance blanks.length)
          else further [c] (s.advance 1)

def quoted? (s : Spot) : Option (String × Spot) :=
  match s.rest with
  | c :: rest =>
      if c = '"' ∨ c = '\'' then
        (quotedBody c (rest.length + 1) (s.advance 1)).map fun r => (String.ofList r.1, r.2)
      else none
  | [] => none

def scalar? (flow : Bool) (parent : Int) (s : Spot) : Option (Yaml × Spot) :=
  match quoted? s with
  | some (text, behind) => some (scalar text true, behind)
  | none =>
      if startsPlain flow s.rest then
        let (text, behind) := plainLines flow parent (s.rest.length + 1) s
        some (scalar (String.ofList text) false, behind)
      else none

/-! ## Flow collections -/

mutual

def flowNode : Nat → Spot → Option (Yaml × Spot)
  | 0, _ => none
  | fuel + 1, s =>
      match s.rest with
      | '[' :: _ =>
          (flowItems fuel ((s.advance 1).next true true)).map fun r => (sequence r.1, r.2)
      | '\x7b' :: _ =>
          (flowEntries fuel ((s.advance 1).next true true)).map fun r => (mapping r.1, r.2)
      | _ => scalar? true (-1) s

def flowItems : Nat → Spot → Option (List Yaml × Spot)
  | 0, _ => none
  | fuel + 1, s =>
      if s.rest.head? = some ']' then some ([], s.advance 1)
      else
        match flowNode fuel s with
        | none => none
        | some (item, behind) =>
            let s := behind.next true false
            match s.rest with
            | ',' :: _ =>
                (flowItems fuel ((s.advance 1).next true true)).map fun r => (item :: r.1, r.2)
            | ']' :: _ => some ([item], s.advance 1)
            | _ => none

def flowEntries : Nat → Spot → Option (List (String × Yaml) × Spot)
  | 0, _ => none
  | fuel + 1, s =>
      if s.rest.head? = some '\x7d' then some ([], s.advance 1)
      else
        match scalar? true (-1) s with
        | some (.scalar key _, behind) =>
            let s := behind.next true false
            let found :=
              if s.rest.head? = some ':' then
                let s := (s.advance 1).next true true
                if s.rest.head? = some ',' ∨ s.rest.head? = some '\x7d' then some (empty, s)
                else flowNode fuel s
              else some (empty, s)
            match found with
            | none => none
            | some (value, behind) =>
                let s := behind.next true false
                match s.rest with
                | ',' :: _ =>
                    (flowEntries fuel ((s.advance 1).next true true)).map fun r =>
                      ((key, value) :: r.1, r.2)
                | '\x7d' :: _ => some ([(key, value)], s.advance 1)
                | _ => none
        | _ => none

end

/-! ## Blocks -/

def startsItem (s : Spot) : Bool :=
  s.rest.head? = some '-' && endsToken (s.rest.drop 1)

def blockKey? (s : Spot) : Option (String × Spot) :=
  let found :=
    match quoted? s with
    | some (text, behind) => some (text, behind)
    | none =>
        if startsPlain false s.rest then
          let run := trimRun (plainRun false false s.rest)
          some (String.ofList run, s.advance run.length)
        else none
  match found with
  | none => none
  | some (key, behind) =>
      let colon := behind.advance (behind.rest.takeWhile isSpace).length
      if colon.rest.head? = some ':' ∧ endsToken (colon.rest.drop 1)
          ∧ !(s.rest.take (s.rest.length - colon.rest.length)).any isBreak then
        some (key, colon.advance 1)
      else none

mutual

/-- A value deeper than the column `parent`; on the line of a key it is no block collection. -/
def blockNode (block : Bool) (parent : Int) : Nat → Spot → Option (Yaml × Spot)
  | 0, _ => none
  | fuel + 1, s =>
      if block && startsItem s then
        (blockItems s.column fuel s).map fun r => (sequence r.1, r.2)
      else
        match (if block then blockKey? s else none) with
        | some _ => (blockEntries s.column fuel s).map fun r => (mapping r.1, r.2)
        | none =>
            if s.rest.head? = some '[' ∨ s.rest.head? = some '\x7b' then
              flowNode (2 * s.rest.length + 2) s
            else scalar? false parent s

def blockItems (column : Nat) : Nat → Spot → Option (List Yaml × Spot)
  | 0, _ => none
  | fuel + 1, s =>
      let content := (s.advance 1).next false true
      let found :=
        if content.rest.isEmpty then some (empty, content)
        else if content.fresh then
          if content.column > column then blockNode true column fuel content
          else some (empty, content)
        else blockNode true column fuel content
      match found with
      | none => none
      | some (item, behind) =>
          let s := behind.next false false
          if s.rest.isEmpty then some ([item], s)
          else if !s.fresh then none
          else if s.column = column ∧ startsItem s then
            (blockItems column fuel s).map fun r => (item :: r.1, r.2)
          else if s.column > column then none
          else some ([item], s)

def blockEntries (column : Nat) : Nat → Spot → Option (List (String × Yaml) × Spot)
  | 0, _ => none
  | fuel + 1, s =>
      match blockKey? s with
      | none => none
      | some (key, colon) =>
          let content := colon.next false true
          let found :=
            if content.rest.isEmpty then some (empty, content)
            else if content.fresh then
              if content.column > column then blockNode true column fuel content
              else if content.column = column ∧ startsItem content then
                (blockItems column fuel content).map fun r => (sequence r.1, r.2)
              else some (empty, content)
            else blockNode false column fuel content
          match found with
          | none => none
          | some (value, behind) =>
              let s := behind.next false false
              if s.rest.isEmpty then some ([(key, value)], s)
              else if !s.fresh then none
              else if s.column = column then
                (blockEntries column fuel s).map fun r => ((key, value) :: r.1, r.2)
              else if s.column > column then none
              else some ([(key, value)], s)

end

def documentStart (s : Spot) : Spot :=
  if s.column = 0 ∧ s.rest.take 3 = ['-', '-', '-'] ∧ endsToken (s.rest.drop 3) then
    (s.advance 3).next false true
  else s

def read? (text : String) : Option Yaml :=
  let cs := text.toList
  let s := documentStart ((⟨cs, 0, true⟩ : Spot).next false true)
  match blockNode true (-1) (2 * cs.length + 2) s with
  | none => none
  | some (value, behind) =>
      if (behind.next false false).rest.isEmpty then some value else none

/-! ## Views -/

def string? : Yaml → Option String
  | scalar text _ => some text
  | _ => none

def bool? : Yaml → Option Bool
  | scalar text false =>
      if text ∈ ["true", "True", "TRUE"] then some true
      else if text ∈ ["false", "False", "FALSE"] then some false
      else none
  | _ => none

def items? : Yaml → Option (List Yaml)
  | sequence items => some items
  | scalar "" false => some []
  | _ => none

def entries? : Yaml → Option (List (String × Yaml))
  | mapping entries => some entries
  | scalar "" false => some []
  | _ => none

/-- The value of a key that does not occur twice; `some none` if it is missing. -/
def field? (entries : List (String × Yaml)) (key : String) : Option (Option Yaml) :=
  match entries.filter fun e => e.1 == key with
  | [] => some none
  | [e] => some (some e.2)
  | _ => none

end Yaml
end ViewModifiers
