/-
# Foreign calls on pipelines

Building and releasing pipelines, taking in frames and updates, moving, packing,
unpacking and committing, as foreign callers do it. A handle that could not be
made is zero, an identifier or a count that could not be had is minus one, and a
required size that does not exist is zero.

Key definitions:
* `checkVersion`, `setUpLogging`, `create`, `release`.
* `addFrame`, `enqueue`, `enqueueBatched`, `stageSize`, `delete`.
* `move`, `pack`, `unpack`, `commit`, `discard`.
-/
import FrameFlow.Foreign.Basic
import FrameFlow.Host.Ingest

namespace FrameFlow.Foreign

/-- Whether the caller expects this version. -/
def checkVersion (expected : TextCell) : Bool := textOf? expected == some version

/-- Sets the log up, unless it has been. -/
def setUpLogging (h : Host) (level file : TextCell) : Host :=
  h.setUpLogging (.parse (textOf? level)) (textOf? file)

/-- Builds a pipeline and answers the number of its handle. Callers have words of 64 bits, so the
number, which has two halves of 32 bits, fits into one, and no pipeline that was built has to be
given up because its caller could not be told its handle. -/
def create (h : Host) (config : TextCell) : Nat × Host :=
  match textOf? config with
  | none => (0, h.tell .unreadableConfig)
  | some text =>
    let (handle, h) := report "pipeline_create" (h.createFromJson text)
    ((handle.map Handle.number).getD 0, h)

def release (h : Host) (handle : Handle) : Bool × Host := h.release handle

/-- Takes in a frame and answers its identifier. -/
def addFrame (h : Host) (handle : Handle) (stage frame : TextCell) : Int × Host :=
  match textOf? stage, textOf? frame with
  | some stage, some frame =>
    let (id, h) := report "pipeline_add_frame_json" (h.addFrame handle stage frame)
    (id.getD (-1), h)
  | _, _ => (-1, h)

/-- Stages an update under a single frame. -/
def enqueue (h : Host) (handle : Handle) (id : Int) (update : TextCell) : Bool × Host :=
  match textOf? update with
  | none => (false, h)
  | some update =>
    let (done, h) := report "pipeline_add_frame_update_json" (h.enqueue handle id update)
    (done.isSome, h)

/-- Stages an update under a batch for one of its members. -/
def enqueueBatched (h : Host) (handle : Handle) (batch id : Int) (update : TextCell) :
    Bool × Host :=
  match textOf? update with
  | none => (false, h)
  | some update =>
    let (done, h) :=
      report "pipeline_add_batched_frame_update_json" (h.enqueueBatched handle batch id update)
    (done.isSome, h)

/-- How much is resident in a stage. -/
def stageSize (h : Host) (handle : Handle) (stage : TextCell) : Int × Host :=
  let (size, h) := h.lookUp handle fun p => (textOf? stage).bind p.stageSize?
  ((size.map Int.ofNat).getD (-1), h)

def delete (h : Host) (handle : Handle) (id : Int) : Bool × Host :=
  let (done, h) := perform "pipeline_delete" h handle (some id) fun id p => p.delete id
  (done.isSome, h)

/-- The name of a stage and identifiers. -/
def destination? (stage : TextCell) (ids : Span Int) : Option (String × List Int) := do
  let stage ← textOf? stage
  let ids ← ids.toList?
  return (stage, ids)

/-- Moves frames or batches and answers how many were moved. -/
def move (h : Host) (handle : Handle) (stage : TextCell) (ids : Span Int) : Int × Host :=
  let (count, h) := perform "pipeline_move_as_is" h handle (destination? stage ids)
    fun (stage, ids) p => p.move stage ids
  ((count.map Int.ofNat).getD (-1), h)

/-- Packs frames and answers the identifier of the batch. -/
def pack (h : Host) (handle : Handle) (stage : TextCell) (ids : Span Int) : Int × Host :=
  let (id, h) := perform "pipeline_move_and_pack_frames" h handle (destination? stage ids)
    fun (stage, ids) p => p.pack stage ids
  (id.getD (-1), h)

/-- Unpacks a batch if the buffer has room for its members, and answers their number. -/
def unpack (h : Host) (handle : Handle) (stage : TextCell) (batch : Int)
    (buffer : Cell (List Int)) : Nat × Cell (List Int) × Host :=
  match textOf? stage with
  | none => (0, buffer, h)
  | some stage =>
    withBuffer buffer fun slots =>
      let (answer, slots, h) := h.unpackInto handle stage batch slots
      let (transfer, h) := report "pipeline_move_and_unpack_batch" (answer, h)
      ((transfer.map Transfer.size).getD 0, slots, h)

/-- Commits what waits under an identifier, and answers whether anything took effect. -/
def commit (h : Host) (handle : Handle) (id : Int) : Bool × Host :=
  let (done, h) := perform "pipeline_apply_updates" h handle (some id) fun id p => p.commit id
  (done.getD false, h)

/-- Drops what waits under an identifier, and answers whether there was anything. -/
def discard (h : Host) (handle : Handle) (id : Int) : Bool × Host := changed h handle (·.discard id)

end FrameFlow.Foreign
