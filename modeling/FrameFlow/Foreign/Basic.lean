/-
# Arguments and answers of foreign calls

Foreign callers pass texts as octets that end at a zero, and memory that may be
missing. They get plain numbers and truth values: a refusal is told to the log,
and the answer is a value that no success has.

Key definitions:
* `Cell`, `TextCell`, `textOf?`, `Span`.
* `report`, `perform`, `changed`.
-/
import FrameFlow.Host.Reading

namespace FrameFlow.Foreign

/-- Memory of the caller that holds a value, or no memory at all. -/
abbrev Cell (α : Type) := Option α

/-- Memory with the octets of a text, which ends at the first zero. -/
abbrev TextCell := Cell (List UInt8)

/-- The text in memory, if there is any and it is valid. -/
def textOf? (cell : TextCell) : Option String := do
  let octets ← cell
  String.fromUTF8? ⟨(octets.takeWhile (· != 0)).toArray⟩

/-- Items in memory, or no memory with the count that was given for it. -/
inductive Span (α : Type) where
  | items (list : List α)
  | missing (count : Nat)
deriving DecidableEq, Repr

/-- No memory will do for no items. -/
def Span.toList? {α : Type} : Span α → Option (List α)
  | items list => some list
  | missing 0 => some []
  | missing _ => none

/-- Runs something on a buffer; missing memory is an empty buffer, and stays missing. -/
def withBuffer {α β : Type} (buffer : Cell (List α)) (f : List α → β × List α × Host) :
    β × Cell (List α) × Host :=
  let (answer, filled, h) := f (buffer.getD [])
  (answer, buffer.map fun _ => filled, h)

/-- Tells of a refusal, and hands on what was not refused. -/
def report {α : Type} (call : String) : Except Error α × Host → Option α × Host
  | (.ok a, h) => (some a, h)
  | (.error e, h) => (none, h.tell (.refused call e))

/-- Carries out an operation with arguments that may turn out to be unusable. Nothing is told of
an unknown handle or of unusable arguments. -/
def perform {α β : Type} (call : String) (h : Host) (handle : Handle) (arguments : Option α)
    (operation : α → Pipeline → Outcome β) : Option β × Host :=
  match h.lookUp handle some with
  | (none, h) => (none, h)
  | (some _, h) =>
    match arguments with
    | none => (none, h)
    | some a => report call (h.run handle (operation a))

/-- Changes a detection and answers whether it is there. -/
def changed (h : Host) (handle : Handle) (operation : Pipeline → Bool × Pipeline) : Bool × Host :=
  match h.change handle operation with
  | (.ok done, h) => (done, h)
  | (.error _, h) => (false, h)

end FrameFlow.Foreign
