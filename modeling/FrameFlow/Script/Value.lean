/-
# Values of a script

A script hands over and receives values whose type is known only when they are
looked at. Taking a value for a number or a text follows fixed rules: a truth
value passes as an integer, an integer passes as a float, and nothing else is
converted.

Key definitions:
* `Value`, `Failure`.
* `Value.asText`, `Value.asInt64`, `Value.asIndex`, `Value.asSingle`, `Value.asIds`,
  `Value.asCorners`, `Value.orNone`.
-/
import FrameFlow.Box
import FrameFlow.Error

namespace FrameFlow.Script

/-- A value of a script. -/
inductive Value where
  | none
  | bool (b : Bool)
  | int (i : Int)
  | float (x : Double)
  | text (s : String)
  | list (items : List Value)
  | tuple (items : List Value)
  | dict (entries : List (String × Value))
deriving Inhabited

/-- Why a call of a script fails. -/
inductive Failure where
  | wrongType
  | overflow
  | wrongLength (expected found : Nat)
  | noSuchName
  | emptySlot
  | refused (cause : Error)
deriving DecidableEq

/-- The kinds of failure that a script can tell apart. -/
inductive FailureKind where
  | type
  | overflow
  | value
  | name
  | key
deriving DecidableEq, Repr

namespace Failure

def kind : Failure → FailureKind
  | wrongType => .type
  | overflow => .overflow
  | wrongLength .. | refused _ => .value
  | noSuchName => .name
  | emptySlot => .key

/-- What a failure about a value says. -/
def message? : Failure → Option String
  | wrongLength expected found =>
    some s!"expected tuple of length {expected}, but got tuple of length {found}"
  | refused cause => some cause.message
  | _ => Option.none

end Failure

namespace Value

/-- The integer that a value passes for. -/
def integer? : Value → Option Int
  | bool b => some (if b then 1 else 0)
  | int i => some i
  | _ => Option.none

def asText : Value → Except Failure String
  | text s => .ok s
  | _ => .error .wrongType

/-- A signed integer of 64 bits. -/
def asInt64 (v : Value) : Except Failure Int64 :=
  match v.integer? with
  | Option.none => .error .wrongType
  | some i =>
    if -0x8000000000000000 ≤ i ∧ i < 0x8000000000000000 then .ok (Int64.ofInt i)
    else .error .overflow

/-- An identifier of a frame or a batch. -/
def asId (v : Value) : Except Failure Int := Int64.toInt <$> v.asInt64

/-- An unsigned integer of 64 bits. -/
def asIndex (v : Value) : Except Failure Nat :=
  match v.integer? with
  | Option.none => .error .wrongType
  | some i => if 0 ≤ i ∧ i < 0x10000000000000000 then .ok i.toNat else .error .overflow

/-- A float, or the float next to an integer. -/
def asDouble : Value → Except Failure Double
  | float x => .ok x
  | v =>
    match v.integer? with
    | Option.none => .error .wrongType
    | some i =>
      let x : Double := .ofInt i
      if x.isFinite then .ok x else .error .overflow

/-- A float brought to single precision; what is too large becomes infinite. -/
def asSingle (v : Value) : Except Failure Single := Binary.convert <$> v.asDouble

/-- The items of a list or a tuple. -/
def items : Value → Except Failure (List Value)
  | list items | tuple items => .ok items
  | _ => .error .wrongType

def asIds (v : Value) : Except Failure (List Int) := do
  let items ← v.items
  items.mapM asId

/-- Centre and size of a box, given as a tuple. -/
def asCorners : Value → Except Failure (Single × Single × Single × Single)
  | tuple [xc, yc, width, height] => do
    return (← xc.asSingle, ← yc.asSingle, ← width.asSingle, ← height.asSingle)
  | tuple items => .error (.wrongLength 4 items.length)
  | _ => .error .wrongType

/-- A value that may also be none. -/
def orNone {α : Type} (convert : Value → Except Failure α) : Value → Except Failure (Option α)
  | none => .ok Option.none
  | v => some <$> convert v

/-! ### Answers -/

/-- A single precision number, widened. -/
def ofSingle (x : Single) : Value := .float x.convert

def ofOption {α : Type} (f : α → Value) : Option α → Value
  | Option.none => none
  | some a => f a

def ofIds (ids : List Int) : Value := .list (ids.map .int)

/-- A box by the names of its parts; the angle counts only where the box is turned. -/
def ofBox (b : Box) : Value :=
  .dict [("xc", ofSingle b.xc), ("yc", ofSingle b.yc), ("width", ofSingle b.width),
    ("height", ofSingle b.height), ("angle", ofOption ofSingle b.rotation),
    ("oriented", .bool b.oriented)]

def ofTrack (t : Track) : Value := .tuple [ofBox t.box, .int t.id.toInt]

end Value
end FrameFlow.Script
