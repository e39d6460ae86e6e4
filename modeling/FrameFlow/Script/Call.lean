/-
# Calls of a script

A call gives some arguments by place and others by name. A signature says which
parameters there are and how each argument is converted. That every parameter
has just one argument, and every argument a parameter, is seen to before any
argument is converted; then they are converted in the order of the parameters.

Key definitions:
* `Arguments`, `Signature`, `Signature.needed`, `Signature.optional`, `Signature.bind`.
-/
import FrameFlow.Script.Value

namespace FrameFlow.Script

/-- The arguments of a call: those by place, and those by name. -/
structure Arguments where
  placed : List Value
  named : List (String × Value)
deriving Inhabited

/-- A parameter, and whether it has to be given. -/
structure Parameter where
  name : String
  needed : Bool
deriving DecidableEq, Repr

/-- Parameters, and what their arguments are converted to. -/
structure Signature (α : Type) where
  parameters : List Parameter
  /-- Converts the arguments, one place for each parameter. -/
  convert : List (Option Value) → Except Failure α

namespace Signature

variable {α β : Type}

/-- No parameters. -/
def nil : Signature Unit := ⟨[], fun _ => .ok ()⟩

/-- One more parameter, in front, with what it is when it is not given. -/
def cons (name : String) (missing : Option α) (convert : Value → Except Failure α)
    (rest : Signature β) : Signature (α × β) where
  parameters := ⟨name, missing.isNone⟩ :: rest.parameters
  convert arguments := do
    let a ← match arguments.headD none, missing with
      | some v, _ => convert v
      | none, some a => .ok a
      | none, none => .error .wrongType
    let b ← rest.convert arguments.tail
    return (a, b)

/-- A parameter that has to be given. -/
def needed (name : String) (convert : Value → Except Failure α) (rest : Signature β) :
    Signature (α × β) := cons name none convert rest

/-- A parameter that may be none or left out. -/
def optional (name : String) (convert : Value → Except Failure α) (rest : Signature β) :
    Signature (Option α × β) := cons name (some none) (Value.orNone convert) rest

/-- The argument for a parameter: the next by place, or else the one by name. There must not be
both, and not neither if it is needed. -/
def place (named : List (String × Value)) :
    List Parameter → List Value → Except Failure (List (Option Value))
  | [], [] => .ok []
  | [], _ :: _ => .error .wrongType
  | p :: ps, v :: vs =>
    if (named.lookup p.name).isSome then .error .wrongType
    else (some v :: ·) <$> place named ps vs
  | p :: ps, [] =>
    match named.lookup p.name with
    | none => if p.needed then .error .wrongType else (none :: ·) <$> place named ps []
    | some v => (some v :: ·) <$> place named ps []

/-- Converts the arguments of a call. -/
def bind (s : Signature α) (arguments : Arguments) : Except Failure α := do
  if arguments.named.any fun (name, _) => !(s.parameters.map Parameter.name).contains name then
    .error .wrongType
  else
    let values ← place arguments.named s.parameters arguments.placed
    s.convert values

end Signature
end FrameFlow.Script
