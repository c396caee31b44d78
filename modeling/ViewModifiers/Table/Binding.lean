import ViewModifiers.Platform.Availability
import ViewModifiers.Value.Decoding

/-!
# Binding arguments

An overload takes the arguments of a modifier one parameter after the other.  A
parameter takes the next argument if its label fits and its value decodes, and
falls back to its default otherwise; a variadic parameter takes as many
arguments as it can.  The binding fails if a parameter stays without a value or
an argument is left over.
-/

namespace ViewModifiers

structure ParameterDecoder where
  name : String
  /-- Without a label the argument is written bare. -/
  label : Option String
  kind : ValueKind
  /-- The type as the interface declares it. -/
  declaredType : String
  default : Option Value
  isVariadic : Bool
deriving BEq

structure BoundArgument where
  name : String
  label : Option String
  reference : Reference

namespace ParameterDecoder

def selectorLabel (p : ParameterDecoder) : String :=
  p.label.getD "_"

/-- The default, or a failure where there is none. -/
def fallback (p : ParameterDecoder) (failure : BindError) : Except BindError Reference :=
  match p.default with
  | some v => .ok (.constant v)
  | none => .error failure

def takeOne (p : ParameterDecoder) :
    List Argument → Except BindError (Reference × List Argument)
  | [] => (p.fallback (.missing p.selectorLabel)).map fun r => (r, [])
  | a :: rest =>
      if a.label = p.label then
        match p.kind.decodeArgument a.value with
        | .ok r => .ok (r.withDefault p.default, rest)
        | .error cause =>
            (p.fallback (.undecodable p.selectorLabel cause)).map fun r => (r, a :: rest)
      else (p.fallback (.missing p.selectorLabel)).map fun r => (r, a :: rest)

/-- The values of the arguments that decode; only the first one has a label. -/
def takeMany (kind : ValueKind) : Option String → List Argument → List Value × List Argument
  | _, [] => ([], [])
  | label, a :: rest =>
      if a.label = label then
        match kind.decodeConstant a.value with
        | .ok v =>
            let (vs, left) := takeMany kind none rest
            (v :: vs, left)
        | .error _ => ([], a :: rest)
      else ([], a :: rest)

def take (p : ParameterDecoder) (arguments : List Argument) :
    Except BindError (Reference × List Argument) :=
  if p.isVariadic then
    let (items, left) := takeMany p.kind p.label arguments
    .ok (.constant (.array items), left)
  else p.takeOne arguments

/-- Binds the parameters in order; no argument may be left over. -/
def bindAll : List ParameterDecoder → List Argument → Except BindError (List BoundArgument)
  | [], [] => .ok []
  | [], extra :: _ => .error (.unexpected extra.render)
  | p :: ps, arguments => do
      let (reference, left) ← p.take arguments
      return ⟨p.name, p.label, reference⟩ :: (← bindAll ps left)

end ParameterDecoder

structure Overload where
  /-- Its place in the order of declaration. -/
  index : Nat
  /-- Its name with its labels, such as `background(alignment:content:)`. -/
  selector : String
  parameters : List ParameterDecoder
  availability : Availability
  /-- The line of its declaration. -/
  line : Nat
deriving BEq

def Overload.bind (o : Overload) (arguments : List Argument) :
    Except BindError (List BoundArgument) :=
  ParameterDecoder.bindAll o.parameters arguments

end ViewModifiers
