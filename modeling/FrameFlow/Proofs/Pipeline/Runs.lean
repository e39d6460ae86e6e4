/-
# Runs of a pipeline

An operation is kept as data, with its arguments, so that runs of operations can
be spoken of: what each of them answers, and the pipeline that the run leaves. A
pipeline is reachable when a run from an accepted configuration leaves it.

Key definitions: `Operation`, `Reply`, `Operation.run`, `Pipeline.after`,
`Pipeline.Reachable`.
-/
import FrameFlow.Pipeline.Access
import FrameFlow.Pipeline.Movement
import FrameFlow.Pipeline.Staging

namespace FrameFlow

/-- An operation that may change a pipeline. -/
inductive Operation where
  | addFrame (stage : String) (frame : Frame)
  | delete (id : Int)
  | move (stage : String) (ids : List Int)
  | pack (stage : String) (ids : List Int)
  | unpack (stage : String) (batch : Int)
  | unpackIf (stage : String) (batch : Int) (accept : Nat → Bool)
  | enqueue (frame : Int) (update : Update)
  | enqueueBatched (batch frame : Int) (update : Update)
  | commit (id : Int)
  | discard (id : Int)
  | setConfidence (frame : Int) (detection : Int64) (confidence : Option Single)
  | setBox (frame : Int) (detection : Int64) (box : Box)
  | setTrack (frame : Int) (detection : Int64) (track : Option Track)

/-- What an operation answers. -/
inductive Reply where
  | refused (cause : Error)
  | issued (id : Int)
  | done
  | moved (count : Nat)
  | members (ids : List Int)
  | unpacked (result : Pipeline.Unpacked)
  | flag (yes : Bool)
deriving DecidableEq

namespace Reply

/-- What is answered for an outcome. -/
def ofExcept {α : Type} (form : α → Reply) : Except Error α → Reply
  | .ok a => form a
  | .error e => refused e

/-- Whether a reply says that nothing was done: an error, a request for more room, or a no. -/
def isRefusal : Reply → Bool
  | refused _ | unpacked (.needs _) | flag false => true
  | _ => false

end Reply

/-- The reply of an outcome, and the pipeline afterwards. -/
def Outcome.replied {α : Type} (o : Outcome α) (form : α → Reply) : Reply × Pipeline :=
  (Reply.ofExcept form o.answer, o.next)

/-- The reply of an answer of yes or no, and the pipeline afterwards. -/
def Reply.ofFlag (r : Bool × Pipeline) : Reply × Pipeline := (.flag r.1, r.2)

namespace Operation

/-- What an operation answers, and the pipeline afterwards. -/
def run (p : Pipeline) : Operation → Reply × Pipeline
  | addFrame stage frame => (p.addFrame stage frame).replied .issued
  | delete id => (p.delete id).replied fun _ => .done
  | move stage ids => (p.move stage ids).replied .moved
  | pack stage ids => (p.pack stage ids).replied .issued
  | unpack stage batch => (p.unpack stage batch).replied .members
  | unpackIf stage batch accept => (p.unpackIf stage batch accept).replied .unpacked
  | enqueue frame update => (p.enqueue frame update).replied fun _ => .done
  | enqueueBatched batch frame update =>
    (p.enqueueBatched batch frame update).replied fun _ => .done
  | commit id => (p.commit id).replied .flag
  | discard id => Reply.ofFlag (p.discard id)
  | setConfidence frame detection confidence =>
    Reply.ofFlag (p.setConfidence frame detection confidence)
  | setBox frame detection box => Reply.ofFlag (p.setBox frame detection box)
  | setTrack frame detection track => Reply.ofFlag (p.setTrack frame detection track)

end Operation

namespace Pipeline

/-- The pipeline after some operations, one after another. -/
def after (p : Pipeline) : List Operation → Pipeline
  | [] => p
  | op :: ops => (op.run p).2.after ops

/-- A pipeline that some operations leave, starting from one that was created. -/
def Reachable (p : Pipeline) : Prop :=
  ∃ c q e ops, create c = .ok (q, e) ∧ p = q.after ops

theorem after_append (p : Pipeline) : ∀ ops ops' : List Operation,
    p.after (ops ++ ops') = (p.after ops).after ops'
  | [], _ => rfl
  | op :: ops, ops' => after_append (op.run p).2 ops ops'

theorem create_of_check {c : Config} (h : c.check = .ok ()) :
    create c = .ok (ofConfig c, .created c.name c.stages.length) := by
  unfold create
  rw [h]
  rfl

/-- Only a configuration that passes its check makes a pipeline, and that is an empty one. -/
theorem check_of_create {c : Config} {q : Pipeline} {e : Event} (h : create c = .ok (q, e)) :
    c.check = .ok () ∧ q = ofConfig c := by
  unfold create at h
  rcases hc : c.check with _ | ⟨⟩
  · rw [hc] at h; cases h
  · rw [hc] at h; cases h; exact ⟨rfl, rfl⟩

/-- What holds of a new pipeline and is kept by every operation holds of every reachable
pipeline. -/
theorem Reachable.induct {P : Pipeline → Prop} (new : ∀ c, Config.check c = .ok () → P (ofConfig c))
    (step : ∀ p op, P p → P (Operation.run p op).2) {p : Pipeline} (h : p.Reachable) : P p := by
  obtain ⟨c, q, e, ops, made, rfl⟩ := h
  obtain ⟨hc, rfl⟩ := check_of_create made
  have run : ∀ (ops : List Operation) (q : Pipeline), P q → P (q.after ops) := by
    intro ops
    induction ops with
    | nil => exact fun q hq => hq
    | cons op ops ih => exact fun q hq => ih _ (step q op hq)
  exact run ops _ (new c hc)

theorem Reachable.after {p : Pipeline} (h : p.Reachable) (ops : List Operation) :
    (p.after ops).Reachable := by
  obtain ⟨c, q, e, ops', hc, rfl⟩ := h
  exact ⟨c, q, e, ops' ++ ops, hc, (after_append q ops' ops).symm⟩

/-! ### A run -/

/-- A stage for frames, one for batches, and one for frames again. -/
def sampleConfig : Config :=
  ⟨"sample", [⟨"in", .frame⟩, ⟨"packs", .batch⟩, ⟨"out", .frame⟩], .skip, none⟩

def sampleAttribute : Attribute := ⟨"model", "seen", [⟨none, .integer 1⟩], none, true⟩

def sampleDetection : Detection := .plain 7 "model" "car" default

/-- Two frames come in, an update waits for each, which adds an attribute to the one and a detection
to the other, and they are packed in the other order. -/
def sampleRun : List Operation :=
  [.addFrame "in" (.blank "camera" 0), .addFrame "in" (.blank "camera" 1),
    .enqueue 1 ⟨[.setFrameAttribute sampleAttribute .refuse]⟩,
    .enqueue 2 ⟨[.addDetection sampleDetection .refuse]⟩, .pack "packs" [2, 1]]

/-- The pipeline that the run leaves. -/
def sample : Pipeline := (ofConfig sampleConfig).after sampleRun

theorem reachable_sample : sample.Reachable :=
  ⟨sampleConfig, _, _, sampleRun, create_of_check rfl, rfl⟩

end Pipeline
end FrameFlow
