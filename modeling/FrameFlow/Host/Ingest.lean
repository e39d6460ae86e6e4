/-
# Taking in text

Frames and updates come in as JSON. The texts of detections are read back through
buffers that end at the first NUL, so a text that contains one is refused at the
door: when the JSON has been read, and before the pipeline is looked up.

Key definitions:
* `Frame.admissible`, `Update.admissible`.
* `Host.addFrame`, `Host.enqueue`, `Host.enqueueBatched`.
-/
import FrameFlow.Host.Basic
import FrameFlow.Pipeline.Movement
import FrameFlow.Pipeline.Staging

namespace FrameFlow

/-- A text of a detection must not contain a NUL. -/
def checkText (id : Int64) (text : String) : Except Error Unit :=
  if text.toList.contains '\x00' then .error (.interiorNul id) else .ok ()

/-- The scope, the label and the label to draw of a detection. -/
def Detection.checkTexts (d : Detection) : Except Error Unit := do
  checkText d.id d.scope
  checkText d.id d.label
  match d.drawLabel with
  | none => return ()
  | some label => checkText d.id label

/-- The texts that a command brings into a frame. -/
def Command.checkTexts : Command → Except Error Unit
  | addDetection d _ => d.checkTexts
  | setLabel id label => checkText id label
  | setDrawLabel id (some label) => checkText id label
  | _ => .ok ()

/-- Goes through items up to the first that is refused. -/
def checkEach {α : Type} (check : α → Except Error Unit) : List α → Except Error Unit
  | [] => .ok ()
  | a :: as =>
    match check a with
    | .error e => .error e
    | .ok () => checkEach check as

/-- Reads a frame whose texts are free of NULs. -/
def Frame.admissible (text : String) : Except Error Frame :=
  match Frame.ofJson text with
  | .error e => .error (.json e)
  | .ok f => do
    checkEach Detection.checkTexts f.detections
    return f

/-- Reads an update whose texts are free of NULs. -/
def Update.admissible (text : String) : Except Error Update :=
  match Update.ofJson text with
  | .error e => .error (.json e)
  | .ok u => do
    checkEach Command.checkTexts u.commands
    return u

namespace Host

/-- Goes on with what was read, if it could be. -/
def whenRead {α β : Type} (h : Host) (read : Except Error α) (next : α → Except Error β × Host) :
    Except Error β × Host :=
  match read with
  | .error e => (.error e, h)
  | .ok a => next a

/-- Puts the frame of a text into a stage. -/
def addFrame (h : Host) (handle : Handle) (stage text : String) : Except Error Int × Host :=
  h.whenRead (Frame.admissible text) fun f => h.run handle (·.addFrame stage f)

/-- Stages the update of a text under a single frame. -/
def enqueue (h : Host) (handle : Handle) (id : Int) (text : String) : Except Error Unit × Host :=
  h.whenRead (Update.admissible text) fun u => h.run handle (·.enqueue id u)

/-- Stages the update of a text under a batch for one of its members. -/
def enqueueBatched (h : Host) (handle : Handle) (batch id : Int) (text : String) :
    Except Error Unit × Host :=
  h.whenRead (Update.admissible text) fun u => h.run handle (·.enqueueBatched batch id u)

end Host
end FrameFlow
