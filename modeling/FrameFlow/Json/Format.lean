/-
# Formats

A `Format α` says how a type is written as JSON and how it is read back, straight
from a text or from a value that was read whole before its type was known. The
two ways of reading agree on what they accept but for the faults they report.
Formats of scalars, options and lists are given here; `depth` counts the levels
of nesting that a text may still open.

Key definitions:
* `Format`, `Format.parse`, `Format.render`.
* `Format.option`, `Format.list`, `Format.map`, `Format.choice`.
-/
import FrameFlow.Json.Value

namespace FrameFlow.Json

/-- How a type is written and read. -/
structure Format (α : Type) where
  write : α → List Char
  read : Nat → Reader α
  ofValue : Value → Except Fault α

namespace Format

variable {α β : Type}

/-- Reads a whole text. -/
def parse (f : Format α) (text : String) : Except Fault α := do
  let (a, rest) ← f.read depthLimit text.toList
  let _ ← endOfText rest
  return a

/-- Writes a text. -/
def render (f : Format α) (a : α) : String := String.ofList (f.write a)

/-- The format of a type that is another one in disguise. -/
def map (f : Format α) (wrap : α → β) (unwrap : β → α) : Format β where
  write b := f.write (unwrap b)
  read depth := wrap <$> f.read depth
  ofValue v := wrap <$> f.ofValue v

/-- The format of a type whose values begin with no bracket. -/
def scalar (write : α → List Char) (accept : Token → Except Fault α) : Format α where
  write := write
  read _ := Json.scalar accept
  ofValue v := accept v.token

end Format

/-! ### Scalars -/

/-- How a character stands in a quoted text. -/
def escapeChar (c : Char) : List Char :=
  if c = '"' then ['\\', '"']
  else if c = '\\' then ['\\', '\\']
  else if c = '\x08' then ['\\', 'b']
  else if c = '\x0c' then ['\\', 'f']
  else if c = '\n' then ['\\', 'n']
  else if c = '\r' then ['\\', 'r']
  else if c = '\t' then ['\\', 't']
  else if c.toNat < 0x20 then
    ['\\', 'u', '0', '0', Nat.digitChar (c.toNat / 16), Nat.digitChar (c.toNat % 16)]
  else [c]

/-- A text between double quotes. -/
def quoteText (s : String) : List Char := '"' :: (s.toList.flatMap escapeChar ++ ['"'])

/-- The keyword of a missing value. -/
def nullText : List Char := ['n', 'u', 'l', 'l']

/-- What a 64-bit signed integer accepts. -/
def acceptInt64 : Token → Except Fault Int64
  | .integer i =>
    if i < 0x8000000000000000 then .ok (Int64.ofInt i) else .error (.wrongValue (.integer i) "i64")
  | t => .error (.wrongType t "i64")

/-- What a 64-bit number accepts: integers are rounded. -/
def acceptDouble : Token → Except Fault Double
  | .integer i => .ok (.ofInt i)
  | .number x => .ok x
  | t => .error (.wrongType t "f64")

/-- What a 32-bit number accepts: integers are rounded once, other numbers are narrowed, and
what is too great becomes infinite. -/
def acceptSingle : Token → Except Fault Single
  | .integer i => .ok (.ofInt i)
  | .number x => .ok x.convert
  | t => .error (.wrongType t "f32")

def acceptText : Token → Except Fault String
  | .text s => .ok s
  | t => .error (.wrongType t "a string")

def acceptBool : Token → Except Fault Bool
  | .boolean b => .ok b
  | t => .error (.wrongType t "a boolean")

namespace Format

def bool : Format Bool :=
  .scalar (fun b => if b then ['t', 'r', 'u', 'e'] else ['f', 'a', 'l', 's', 'e']) acceptBool

def text : Format String := .scalar quoteText acceptText

def int64 : Format Int64 := .scalar (fun i => integerText i.toInt) acceptInt64

/-- Integers as far as 64 bits hold them. -/
def int : Format Int := .scalar integerText fun t => Int64.toInt <$> acceptInt64 t

/-- A number that is not finite is written as a missing value. -/
def double : Format Double :=
  .scalar (fun x => if x.isFinite then x.finiteText doubleStyle else nullText) acceptDouble

/-- A number that is not finite is written as a missing value. -/
def single : Format Single :=
  .scalar (fun x => if x.isFinite then x.finiteText singleStyle else nullText) acceptSingle

/-! ### Options and lists -/

variable {α : Type}

def option (f : Format α) : Format (Option α) where
  write
    | none => nullText
    | some a => f.write a
  read depth s :=
    match skipBlanks s with
    | 'n' :: r => keyword none ['u', 'l', 'l'] r
    | s => do
      let (a, rest) ← f.read depth s
      return (some a, rest)
  ofValue
    | .null => .ok none
    | v => some <$> f.ofValue v

/-- Pieces with commas between them. -/
def commaSeparated : List (List Char) → List Char
  | [] => []
  | [p] => p
  | p :: ps => p ++ ',' :: commaSeparated ps

/-- Stops because a value is not of the wanted type. -/
def refuse (expected : String) : Reader α := Json.scalar fun t => .error (.wrongType t expected)

/-- Opens a level of nesting: nothing is left of it at depth zero. -/
def nested (depth : Nat) (inner : Nat → Reader α) : Reader α :=
  match depth with
  | 0 => .fail .tooDeep
  | depth + 1 => inner depth

def list (f : Format α) : Format (List α) where
  write l := '[' :: (commaSeparated (l.map f.write) ++ [']'])
  read depth s :=
    match skipBlanks s with
    | '[' :: r => nested depth (fun depth s => do
        let (l, s) ← withFuel (items (f.read depth) · true) s
        let (_, s) ← closeList s
        return (l, s)) r
    | s => refuse "a sequence" s
  ofValue
    | .list vs => vs.mapM f.ofValue
    | v => .error (.wrongType v.token "a sequence")

end Format

/-! ### Names -/

/-- The place of a name among choices. -/
def acceptName (choices : List String) (name : String) : Except Fault Nat :=
  match choices.idxOf? name with
  | some i => .ok i
  | none => .error (.unknownVariant name choices)

/-- The place of a name that is read as a value of its own. -/
def acceptVariant (choices : List String) : Token → Except Fault Nat
  | .text name => acceptName choices name
  | t => .error (.wrongType t "variant identifier")

/-- The same of a value read whole, which may also be the place itself. -/
def variantOfValue (choices : List String) (v : Value) : Except Fault Nat :=
  match v.token with
  | .integer (.ofNat i) =>
    if i < choices.length then .ok i
    else .error (.wrongValue (.integer i) s!"variant index 0 <= i < {choices.length}")
  | t => acceptVariant choices t

def acceptUnit : Token → Except Fault Unit
  | .null => .ok ()
  | t => .error (.wrongType t "unit")

/-- The closing brace behind a name that is a key: nothing else may follow. -/
def closeName : Reader Unit := fun s =>
  match skipBlanks s with
  | [] => .error (.endOf .object)
  | c :: r => if c = '}' then .ok ((), r) else .error .expectedValue

/-- A name as the key of a missing value, from behind the opening brace. -/
def readNameKey (choices : List String) : Reader Nat := do
  if ← objectGoesOn true then
    let i ← scalar (acceptVariant choices)
    colon
    scalar acceptUnit
    closeName
    return i
  else .fail .expectedValue

/-- The place of a name among choices, written as a text or as the key of a missing value. -/
def readName (choices : List String) (depth : Nat) : Reader Nat := fun s =>
  match skipBlanks s with
  | [] => .error (.endOf .value)
  | '"' :: r => scalar (acceptVariant choices) ('"' :: r)
  | '{' :: r => Format.nested depth (fun _ => readNameKey choices) r
  | _ => .error .expectedValue

/-- The same of a value read whole, where the key may also have an empty object. -/
def nameOfValue (choices : List String) : Value → Except Fault Nat
  | .text name => acceptName choices name
  | .object [(name, v)] => do
    let i ← acceptName choices name
    match v with
    | .object [] => return i
    | v => do
      acceptUnit v.token
      return i
  | .object _ => .error (.wrongValue .object "map with a single key")
  | v => .error (.wrongType v.token "string or map")

/-- The format of a type with finitely many values, which have names. -/
def Format.choice {α : Type} [Inhabited α] (all : List α) (name : α → String) : Format α where
  write a := quoteText (name a)
  read depth := (fun i => all.getD i default) <$> readName (all.map name) depth
  ofValue v := (fun i => all.getD i default) <$> nameOfValue (all.map name) v

end FrameFlow.Json
