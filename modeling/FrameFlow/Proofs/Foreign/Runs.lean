/-
# Foreign calls as data

A foreign call is kept as data, with its arguments. Memory of the caller that it
writes to is an argument too, so that what a call leaves is an answer, the call
again with memory as it is left, and the host.

Key definitions: `Foreign.Call`, `Foreign.Answer`, `Foreign.Return`, `Foreign.Call.run`.
-/
import FrameFlow.Foreign.Accessors
import FrameFlow.Foreign.Calls

namespace FrameFlow.Foreign

/-- A foreign call with its arguments. -/
inductive Call where
  | checkVersion (expected : TextCell)
  | setUpLogging (level file : TextCell)
  | create (config : TextCell)
  | release (handle : Handle)
  | addFrame (handle : Handle) (stage frame : TextCell)
  | enqueue (handle : Handle) (id : Int) (update : TextCell)
  | enqueueBatched (handle : Handle) (batch id : Int) (update : TextCell)
  | stageSize (handle : Handle) (stage : TextCell)
  | delete (handle : Handle) (id : Int)
  | move (handle : Handle) (stage : TextCell) (ids : Span Int)
  | pack (handle : Handle) (stage : TextCell) (ids : Span Int)
  | unpack (handle : Handle) (stage : TextCell) (batch : Int) (buffer : Cell (List Int))
  | commit (handle : Handle) (id : Int)
  | discard (handle : Handle) (id : Int)
  | getConfidence (handle : Handle) (frame : Int) (id : Int64) (out : Cell Single)
  | setConfidence (handle : Handle) (frame : Int) (id : Int64) (confidence : Option Single)
  | getText (handle : Handle) (frame : Int) (id : Int64) (field : TextField) (buffer : TextCell)
  | getBox (handle : Handle) (frame : Int) (id : Int64) (out : Cell Box)
  | setBox (handle : Handle) (frame : Int) (id : Int64) (box : Cell Box)
  | getTrack (handle : Handle) (frame : Int) (id : Int64) (box : Cell Box) (track : Cell Int64)
  | setTrack (handle : Handle) (frame : Int) (id : Int64) (box : Cell Box) (track : Int64)
  | clearTrack (handle : Handle) (frame : Int) (id : Int64)
  | getVector (handle : Handle) (frame : Int) (id : Int64) (scope name : TextCell) (index : Nat)
      (out : VectorCells)
deriving DecidableEq

/-- What a foreign call answers. -/
inductive Answer where
  | nothing
  | flag (yes : Bool)
  | natural (n : Nat)
  | integer (i : Int)
deriving DecidableEq, Repr

/-- What a foreign call leaves: its answer, the call with memory as it is then, and the host. -/
structure Return where
  answer : Answer
  call : Call
  host : Host

/-- What a call leaves that writes to no memory. -/
def Call.made {α : Type} (c : Call) (form : α → Answer) (r : α × Host) : Return :=
  ⟨form r.1, c, r.2⟩

/-- What a call leaves that writes to one piece of memory. -/
def Call.wrote {α β : Type} (call : β → Call) (form : α → Answer) (r : α × β × Host) : Return :=
  ⟨form r.1, call r.2.1, r.2.2⟩

/-- Carries out a foreign call. -/
def Call.run (h : Host) (c : Call) : Return :=
  match c with
  | .checkVersion expected => ⟨.flag (Foreign.checkVersion expected), c, h⟩
  | .setUpLogging level file => ⟨.nothing, c, Foreign.setUpLogging h level file⟩
  | .create config => c.made .natural (Foreign.create h config)
  | .release handle => c.made .flag (Foreign.release h handle)
  | .addFrame handle stage frame => c.made .integer (Foreign.addFrame h handle stage frame)
  | .enqueue handle id update => c.made .flag (Foreign.enqueue h handle id update)
  | .enqueueBatched handle batch id update =>
    c.made .flag (Foreign.enqueueBatched h handle batch id update)
  | .stageSize handle stage => c.made .integer (Foreign.stageSize h handle stage)
  | .delete handle id => c.made .flag (Foreign.delete h handle id)
  | .move handle stage ids => c.made .integer (Foreign.move h handle stage ids)
  | .pack handle stage ids => c.made .integer (Foreign.pack h handle stage ids)
  | .unpack handle stage batch buffer =>
    wrote (.unpack handle stage batch) .natural (Foreign.unpack h handle stage batch buffer)
  | .commit handle id => c.made .flag (Foreign.commit h handle id)
  | .discard handle id => c.made .flag (Foreign.discard h handle id)
  | .getConfidence handle frame id out =>
    wrote (.getConfidence handle frame id) .flag (Foreign.getConfidence h handle frame id out)
  | .setConfidence handle frame id confidence =>
    c.made .flag (Foreign.setConfidence h handle frame id confidence)
  | .getText handle frame id field buffer =>
    wrote (.getText handle frame id field) .natural (Foreign.getText h handle frame id field buffer)
  | .getBox handle frame id out =>
    wrote (.getBox handle frame id) .flag (Foreign.getBox h handle frame id out)
  | .setBox handle frame id box => c.made .flag (Foreign.setBox h handle frame id box)
  | .getTrack handle frame id box track =>
    let r := Foreign.getTrack h handle frame id box track
    ⟨.flag r.1, .getTrack handle frame id r.2.1 r.2.2.1, r.2.2.2⟩
  | .setTrack handle frame id box track =>
    c.made .flag (Foreign.setTrack h handle frame id box track)
  | .clearTrack handle frame id => c.made .flag (Foreign.clearTrack h handle frame id)
  | .getVector handle frame id scope name index out =>
    wrote (.getVector handle frame id scope name index) .flag
      (Foreign.getVector h handle frame id scope name index out)

end FrameFlow.Foreign
