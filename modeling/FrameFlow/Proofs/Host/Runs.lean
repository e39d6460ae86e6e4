/-
# Runs of a process

Whatever a process can be asked for is kept as data: by the library's own callers,
by foreign callers, and by a script. All of them share one host, so a run may mix
them. A host is reachable when a run of a new process leaves it.

What comes in as text is checked at the door. An operation is checked when what
it brings in has come through the door, and so are the requests of a run when
nothing is brought in past it.

Key definitions: `Operation.outcome`, `Operation.Checked`, `Request`, `Request.Within`,
`Script.Session.after`, `Host.Reachable`.
-/
import FrameFlow.Proofs.Foreign.Runs
import FrameFlow.Proofs.Pipeline.Runs
import FrameFlow.Script.Session

namespace FrameFlow

namespace Operation

/-- What the log is told of an operation. -/
def events (p : Pipeline) : Operation → List Event
  | addFrame stage frame => (p.addFrame stage frame).events
  | delete id => (p.delete id).events
  | move stage ids => (p.move stage ids).events
  | pack stage ids => (p.pack stage ids).events
  | unpack stage batch => (p.unpack stage batch).events
  | unpackIf stage batch accept => (p.unpackIf stage batch accept).events
  | enqueue frame update => (p.enqueue frame update).events
  | enqueueBatched batch frame update => (p.enqueueBatched batch frame update).events
  | commit id => (p.commit id).events
  | _ => []

/-- An operation as a host carries it out; a refusal is one of its replies. -/
def outcome (op : Operation) (p : Pipeline) : Outcome Reply :=
  ⟨.ok (op.run p).1, (op.run p).2, op.events p⟩

/-- Whether what an operation brings in has been read from a text and passed the check of its
texts. -/
def Checked : Operation → Prop
  | addFrame _ frame => ∃ text, Frame.admissible text = .ok frame
  | enqueue _ update => ∃ text, Update.admissible text = .ok update
  | enqueueBatched _ _ update => ∃ text, Update.admissible text = .ok update
  | _ => True

end Operation

/-- What a process can be asked for. -/
inductive Request where
  /-- The library's own callers build pipelines and operate on them without any text. -/
  | build (c : Config)
  | operate (handle : Handle) (op : Operation)
  | foreign (call : Foreign.Call)
  /-- A script has objects in slots, and calls their methods and functions of the module. -/
  | new (slot : Int) (arguments : Script.Arguments)
  | drop (slot : Int)
  | share (slot target : Int)
  | method (slot : Int) (name : String) (arguments : Script.Arguments)
  | function (name : String) (arguments : Script.Arguments)

namespace Request

/-- The process after a request. -/
def run (s : Script.Session) : Request → Script.Session
  | build c => { s with host := (s.host.create c).2 }
  | operate handle op => { s with host := (s.host.run handle op.outcome).2 }
  | foreign call => { s with host := (call.run s.host).host }
  | new slot arguments => (s.new slot arguments).2
  | drop slot => (s.drop slot).2
  | share slot target => (s.share slot target).2
  | method slot name arguments => (s.callMethod slot name arguments).2
  | function name arguments => (s.callFunction name arguments).2

/-- Whether the operations that are asked for directly are among some. -/
def Within (allowed : Operation → Prop) : Request → Prop
  | operate _ op => allowed op
  | _ => True

end Request

/-- The process after some requests, one after another. -/
def Script.Session.after (s : Script.Session) : List Request → Script.Session
  | [] => s
  | request :: requests => (request.run s).after requests

/-- A host that some requests leave, starting from a process that has done nothing yet. -/
def Host.Reachable (h : Host) : Prop :=
  ∃ surroundings requests, h = ((Script.Session.fresh surroundings).after requests).host

/-! ### A run -/

/-- Memory with a text and a zero behind it. -/
def Foreign.closed (s : String) : TextCell := some (utf8 s ++ [0])

namespace Host

/-- A car has been found in a frame. -/
def sampleFrame : String :=
  "\x7b\"source_id\":\"camera\",\"objects\":[\x7b\"id\":7,\"namespace\":\"a\",\"label\":\"car\"," ++
    "\"detection_box\":\x7b\"xc\":1,\"yc\":1,\"width\":2,\"height\":2\x7d\x7d]\x7d"

/-- A pipeline is built, two frames come in, and they are packed in the other order. -/
def sampleRequests : List Request :=
  [.build Pipeline.sampleConfig,
    .foreign (.addFrame ⟨1, 0⟩ (Foreign.closed "in") (Foreign.closed sampleFrame)),
    .foreign (.addFrame ⟨1, 0⟩ (Foreign.closed "in")
      (Foreign.closed "\x7b\"source_id\":\"camera\"\x7d")),
    .foreign (.pack ⟨1, 0⟩ (Foreign.closed "packs") (.items [2, 1]))]

/-- The host that the run leaves. -/
def sample : Host := ((Script.Session.fresh ⟨false, fun _ => none⟩).after sampleRequests).host

theorem reachable_sample : sample.Reachable := ⟨_, sampleRequests, rfl⟩

end Host
end FrameFlow
