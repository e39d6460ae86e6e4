/-
# Foreign access to detections

Fields of a detection are copied to and from memory of the caller. Memory is
written only when there is something to write, and nothing is looked up where
memory that is needed is missing.

Key definitions:
* `getConfidence`, `setConfidence`, `getText`, `getBox`, `setBox`, `getTrack`, `setTrack`.
* `VectorCells`, `getVector`.
-/
import FrameFlow.Foreign.Basic

namespace FrameFlow.Foreign

/-- Looks something up and writes it to memory. -/
def fetch {α : Type} (h : Host) (handle : Handle) (out : Cell α) (look : Pipeline → Option α) :
    Bool × Cell α × Host :=
  match out with
  | none => (false, none, h)
  | some _ =>
    match h.lookUp handle look with
    | (none, h) => (false, out, h)
    | (some a, h) => (true, some a, h)

def getConfidence (h : Host) (handle : Handle) (frame : Int) (id : Int64) (out : Cell Single) :
    Bool × Cell Single × Host :=
  fetch h handle out (·.confidence? frame id)

/-- Sets the confidence, or clears it. -/
def setConfidence (h : Host) (handle : Handle) (frame : Int) (id : Int64)
    (confidence : Option Single) : Bool × Host :=
  changed h handle (·.setConfidence frame id confidence)

/-- Copies a text with a closing zero, and answers the size of both. -/
def getText (h : Host) (handle : Handle) (frame : Int) (id : Int64) (field : TextField)
    (buffer : TextCell) : Nat × TextCell × Host :=
  withBuffer buffer fun octets =>
    let (transfer, octets, h) := h.readText handle frame id field octets
    ((transfer.map Transfer.size).getD 0, octets, h)

def getBox (h : Host) (handle : Handle) (frame : Int) (id : Int64) (out : Cell Box) :
    Bool × Cell Box × Host :=
  fetch h handle out (·.box? frame id)

def setBox (h : Host) (handle : Handle) (frame : Int) (id : Int64) (box : Cell Box) : Bool × Host :=
  match box with
  | none => (false, h)
  | some box => changed h handle (·.setBox frame id box)

/-- Writes the box of a track and its identifier, or neither. -/
def getTrack (h : Host) (handle : Handle) (frame : Int) (id : Int64) (box : Cell Box)
    (track : Cell Int64) : Bool × Cell Box × Cell Int64 × Host :=
  match box, track with
  | some _, some _ =>
    match h.lookUp handle (·.track? frame id) with
    | (none, h) => (false, box, track, h)
    | (some t, h) => (true, some t.box, some t.id, h)
  | _, _ => (false, box, track, h)

def setTrack (h : Host) (handle : Handle) (frame : Int) (id : Int64) (box : Cell Box)
    (track : Int64) : Bool × Host :=
  match box with
  | none => (false, h)
  | some box => changed h handle (·.setTrack frame id (some ⟨box, track⟩))

def clearTrack (h : Host) (handle : Handle) (frame : Int) (id : Int64) : Bool × Host :=
  changed h handle (·.setTrack frame id none)

/-- The memory that a vector is read into: room for numbers, how many fit and then how many there
are, a confidence, and whether it is set. -/
structure VectorCells where
  numbers : Cell (List Double)
  count : Cell Nat
  confidence : Cell Single
  confident : Cell Bool
deriving DecidableEq

/-- Copies the numbers of a vector and its confidence if there is room for the numbers. If there
is not, only their count is written. -/
def getVector (h : Host) (handle : Handle) (frame : Int) (id : Int64) (scope name : TextCell)
    (index : Nat) (out : VectorCells) : Bool × VectorCells × Host :=
  match out.count, out.confidence, out.confident, textOf? scope, textOf? name with
  | some room, some _, some _, some scope, some name =>
    let numbers := out.numbers.getD []
    match h.readVector handle frame id scope name index (numbers.take room) with
    | (.absent, _, h) => (false, out, h)
    | (.needs count, _, h) => (false, { out with count := some count }, h)
    | (.copied count confidence, filled, h) =>
      (true,
        { numbers := out.numbers.map fun _ => filled ++ numbers.drop room
          count := some count
          confidence := confidence.or out.confidence
          confident := some confidence.isSome },
        h)
  | _, _, _, _, _ => (false, out, h)

end FrameFlow.Foreign
