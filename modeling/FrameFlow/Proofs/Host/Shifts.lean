/-
# What a process does to its pipelines

However a process is asked, its pipelines change in few ways only: an empty one
of an accepted configuration comes in, one is let go, or one is replaced by what
an operation leaves of it. What foreign callers and scripts bring in has been
checked. So what holds of a new pipeline, and is kept by every operation that may
be carried out, holds of all pipelines of a process at any time.

Key definition: `Host.Shift`.
Key theorems: `Host.shift_call`, `Host.shift_method`, `Host.shifts_request`,
`Host.keeps_after`, `Host.Reachable.keeps`.
-/
import FrameFlow.Proofs.Host.Steps
import Mathlib.Logic.Relation

namespace FrameFlow
namespace Host

/-- One change of the pipelines of a host, by an operation among those allowed. -/
inductive Shift (allowed : Operation → Prop) (r : Registry Pipeline) :
    Registry Pipeline → Prop where
  | stay : Shift allowed r r
  | create (c : Config) (checked : c.check = .ok ()) :
      Shift allowed r (r.insert (.ofConfig c)).2
  | release (k : Handle) : Shift allowed r (r.remove k).2
  | operate (k : Handle) {p : Pipeline} (live : r.get? k = some p) (op : Operation)
      (good : allowed op) : Shift allowed r (r.replace k (op.run p).2)

/-- Some changes, one after another. -/
abbrev Shifts (allowed : Operation → Prop) := Relation.ReflTransGen (Shift allowed)

theorem Shift.of_eq {allowed : Operation → Prop} {r r' : Registry Pipeline} (same : r' = r) :
    Shift allowed r r' := by
  rw [same]
  exact .stay

theorem Shift.mono {allowed allowed' : Operation → Prop} (all : ∀ op, allowed op → allowed' op)
    {r r' : Registry Pipeline} (s : Shift allowed r r') : Shift allowed' r r' := by
  cases s with
  | stay => exact .stay
  | create c checked => exact .create c checked
  | release k => exact .release k
  | operate k live op good => exact .operate k live op (all op good)

variable {α β : Type} {h : Host} {k : Handle} {allowed : Operation → Prop}

/-! ### Coming and going -/

/-- Only a configuration that passes its check brings in a pipeline. -/
theorem create_cases (h : Host) (c : Config) :
    (∃ e, Pipeline.create c = .error e ∧ (h.create c).1 = .error e ∧
        (h.create c).2.pipelines = h.pipelines) ∨
      c.check = .ok () ∧ (h.create c).1 = .ok (h.pipelines.insert (.ofConfig c)).1 ∧
        (h.create c).2.pipelines = (h.pipelines.insert (.ofConfig c)).2 := by
  unfold create
  rcases made : Pipeline.create c with e | ⟨p, event⟩
  · exact .inl ⟨e, rfl, rfl, h.pipelines_setUpFor c⟩
  · obtain ⟨checked, rfl⟩ := Pipeline.check_of_create made
    have same : ((h.setUpFor c).tell event).openRegistry.pipelines = h.pipelines := by
      rw [pipelines_openRegistry, pipelines_tell, pipelines_setUpFor]
    refine .inr ⟨checked, ?_, ?_⟩
    · simp only [same]
    · simp only [same, pipelines_tell]

theorem shift_create (c : Config) : Shift allowed h.pipelines (h.create c).2.pipelines := by
  rcases h.create_cases c with ⟨e, -, -, next⟩ | ⟨checked, -, next⟩
  · rw [next]
    exact .stay
  · rw [next]
    exact .create c checked

theorem shift_createFromJson (text : String) :
    Shift allowed h.pipelines (h.createFromJson text).2.pipelines := by
  unfold createFromJson
  split
  · exact .stay
  · exact shift_create _

theorem release_eq (h : Host) (k : Handle) : (h.release k).1 = (h.pipelines.get? k).isSome ∧
    (h.release k).2.pipelines = (h.pipelines.remove k).2 := by
  have same : h.openRegistry.pipelines = h.pipelines := h.pipelines_openRegistry
  unfold release
  simp only [same]
  rcases Registry.remove_cases h.pipelines k with ⟨nothing, done⟩ | ⟨p, slots, there, done, -⟩
  · rw [done, nothing]
    exact ⟨rfl, trivial⟩
  · rw [done, Registry.get?_eq_some_iff.mpr there]
    exact ⟨rfl, trivial⟩

theorem shift_release (k : Handle) : Shift allowed h.pipelines (h.release k).2.pipelines := by
  rw [(h.release_eq k).2]
  exact .release k

/-! ### Operations -/

/-- Carrying out an operation that is allowed is such a change. -/
theorem shift_run (op : Operation) (good : allowed op) {operation : Pipeline → Outcome α}
    (same : ∀ p, (operation p).next = (op.run p).2) :
    Shift allowed h.pipelines (h.run k operation).2.pipelines := by
  rcases found : h.pipelines.get? k with _ | p
  · rw [(run_unknown found operation).2]
    exact .stay
  · rw [(run_known found operation).2, same p]
    exact .operate k found op good

theorem shift_change (op : Operation) (good : allowed op) {operation : Pipeline → α × Pipeline}
    (same : ∀ p, (operation p).2 = (op.run p).2) :
    Shift allowed h.pipelines (h.change k operation).2.pipelines :=
  shift_run op good same

theorem shift_perform (op : α → Operation) (good : ∀ a, allowed (op a)) (call : String)
    (arguments : Option α) {operation : α → Pipeline → Outcome β}
    (same : ∀ a p, (operation a p).next = ((op a).run p).2) :
    Shift allowed h.pipelines (Foreign.perform call h k arguments operation).2.pipelines := by
  rcases found : h.pipelines.get? k with _ | p
  · rw [(Foreign.perform_unknown found call arguments operation).2]
    exact .stay
  · rcases arguments with _ | a
    · rw [(Foreign.perform_unusable call operation).2]
      exact .stay
    · rw [(Foreign.perform_known found call a operation).2, same a p]
      exact .operate k found (op a) (good a)

theorem shift_changed (op : Operation) (good : allowed op)
    {operation : Pipeline → Bool × Pipeline} (same : ∀ p, (operation p).2 = (op.run p).2) :
    Shift allowed h.pipelines (Foreign.changed h k operation).2.pipelines := by
  rw [Foreign.changed_eq]
  exact shift_change op good same

/-! ### Texts that come in -/

theorem shift_addFrame (stage text : String) :
    Shift Operation.Checked h.pipelines (h.addFrame k stage text).2.pipelines := by
  unfold addFrame whenRead
  split
  · exact .stay
  · next f read => exact shift_run (.addFrame stage f) ⟨text, read⟩ fun _ => rfl

theorem shift_enqueue (id : Int) (text : String) :
    Shift Operation.Checked h.pipelines (h.enqueue k id text).2.pipelines := by
  unfold enqueue whenRead
  split
  · exact .stay
  · next u read => exact shift_run (.enqueue id u) ⟨text, read⟩ fun _ => rfl

theorem shift_enqueueBatched (batch id : Int) (text : String) :
    Shift Operation.Checked h.pipelines (h.enqueueBatched k batch id text).2.pipelines := by
  unfold enqueueBatched whenRead
  split
  · exact .stay
  · next u read => exact shift_run (.enqueueBatched batch id u) ⟨text, read⟩ fun _ => rfl

theorem shift_unpackInto (stage : String) (batch : Int) (buffer : List Int) :
    Shift Operation.Checked h.pipelines (h.unpackInto k stage batch buffer).2.2.pipelines := by
  have shift : Shift Operation.Checked h.pipelines
      (h.run k (·.unpackIf stage batch fun n => n ≤ buffer.length)).2.pipelines :=
    shift_run (.unpackIf stage batch fun n => n ≤ buffer.length) trivial fun _ => rfl
  unfold unpackInto
  rcases answer : h.run k (·.unpackIf stage batch fun n => n ≤ buffer.length) with ⟨e | ids | n, h'⟩
  · rw [answer] at shift
    exact shift
  · rw [answer] at shift
    exact shift
  · rw [answer] at shift
    exact shift

/-! ### Foreign calls -/

/-- A foreign call changes one pipeline at most, and what it brings in has been checked. -/
theorem shift_call (h : Host) (c : Foreign.Call) :
    Shift Operation.Checked h.pipelines (c.run h).host.pipelines := by
  cases c with
  | checkVersion expected => exact .stay
  | setUpLogging level file => exact .stay
  | create config =>
    change Shift _ _ (Foreign.create h config).2.pipelines
    unfold Foreign.create
    split
    · exact .stay
    · rw [Foreign.pipelines_report]
      exact shift_createFromJson _
  | release k => exact shift_release k
  | addFrame k stage frame =>
    change Shift _ _ (Foreign.addFrame h k stage frame).2.pipelines
    unfold Foreign.addFrame
    split
    · rw [Foreign.pipelines_report]
      exact shift_addFrame _ _
    · exact .stay
  | enqueue k id update =>
    change Shift _ _ (Foreign.enqueue h k id update).2.pipelines
    unfold Foreign.enqueue
    split
    · exact .stay
    · rw [Foreign.pipelines_report]
      exact shift_enqueue id _
  | enqueueBatched k batch id update =>
    change Shift _ _ (Foreign.enqueueBatched h k batch id update).2.pipelines
    unfold Foreign.enqueueBatched
    split
    · exact .stay
    · rw [Foreign.pipelines_report]
      exact shift_enqueueBatched batch id _
  | stageSize k stage => exact .of_eq (pipelines_lookUp _)
  | delete k id =>
    change Shift _ _
      (Foreign.perform "pipeline_delete" h k (some id) fun id p => p.delete id).2.pipelines
    exact shift_perform (fun a => Operation.delete a) (fun _ => trivial) _ _ fun _ _ => rfl
  | move k stage ids =>
    exact shift_perform (fun a => Operation.move a.1 a.2) (fun _ => trivial) _ _ fun _ _ => rfl
  | pack k stage ids =>
    exact shift_perform (fun a => Operation.pack a.1 a.2) (fun _ => trivial) _ _ fun _ _ => rfl
  | unpack k stage batch buffer =>
    change Shift _ _ (Foreign.unpack h k stage batch buffer).2.2.pipelines
    unfold Foreign.unpack Foreign.withBuffer
    split
    · exact .stay
    · rw [Foreign.pipelines_report]
      exact shift_unpackInto _ batch _
  | commit k id =>
    change Shift _ _
      (Foreign.perform "pipeline_apply_updates" h k (some id) fun id p => p.commit id).2.pipelines
    exact shift_perform (fun a => Operation.commit a) (fun _ => trivial) _ _ fun _ _ => rfl
  | discard k id => exact shift_changed (.discard id) trivial fun _ => rfl
  | getConfidence k frame id out => exact .of_eq (Foreign.fetch_eq out _).2.2
  | setConfidence k frame id confidence =>
    exact shift_changed (.setConfidence frame id confidence) trivial fun _ => rfl
  | getText k frame id field buffer => exact .of_eq (pipelines_readText frame id field _)
  | getBox k frame id out => exact .of_eq (Foreign.fetch_eq out _).2.2
  | setBox k frame id box =>
    change Shift _ _ (Foreign.setBox h k frame id box).2.pipelines
    unfold Foreign.setBox
    split
    · exact .stay
    · next box => exact shift_changed (.setBox frame id box) trivial fun _ => rfl
  | getTrack k frame id box track =>
    obtain ⟨_, -, -, -, -, same⟩ := Foreign.getTrack_eq (h := h) (k := k) frame id box track
    exact .of_eq same
  | setTrack k frame id box track =>
    change Shift _ _ (Foreign.setTrack h k frame id box track).2.pipelines
    unfold Foreign.setTrack
    split
    · exact .stay
    · next box => exact shift_changed (.setTrack frame id (some ⟨box, track⟩)) trivial fun _ => rfl
  | clearTrack k frame id => exact shift_changed (.setTrack frame id none) trivial fun _ => rfl
  | getVector k frame id scope name index out =>
    exact .of_eq (Foreign.pipelines_getVector frame id scope name index out)

end Host

/-! ### Methods of a script -/

namespace Script

open Signature Value Host

/-- Whether a method changes one pipeline at most, and has checked what it brings in. -/
def Method.Shifts (m : Method) : Prop :=
  ∀ k arguments h, Shift Operation.Checked h.pipelines (m.call k arguments h).2.pipelines

namespace Method.Shifts

variable {α β : Type} {name : String} {signature : Signature α} {answer : β → Value}

theorem of {body : α → Handle → Host → Except Error β × Host}
    (shift : ∀ a k h, Shift Operation.Checked h.pipelines (body a k h).2.pipelines) :
    (Method.of name signature body answer).Shifts := by
  intro k arguments h
  unfold Method.of
  simp only
  split
  · exact .stay
  · next a bound =>
    have after := shift a k h
    split
    · next result => rw [result] at after; exact after
    · next result => rw [result] at after; exact after

theorem operation (op : α → Operation) (good : ∀ a, (op a).Checked)
    {operation : α → Pipeline → Outcome β}
    (same : ∀ a p, (operation a p).next = ((op a).run p).2) :
    (Method.operation name signature operation answer).Shifts :=
  .of fun a _ _ => shift_run (op a) (good a) (same a)

theorem look {look : α → Pipeline → β} : (Method.look name signature look answer).Shifts :=
  .of fun _ _ _ => .of_eq (pipelines_view _)

theorem change (op : α → Operation) (good : ∀ a, (op a).Checked)
    {change : α → Pipeline → Bool × Pipeline} (same : ∀ a p, (change a p).2 = ((op a).run p).2) :
    (Method.change name signature change).Shifts :=
  .of fun a _ _ => shift_change (op a) (good a) (same a)

end Method.Shifts

theorem stageMethods_shift : ∀ m ∈ stageMethods, m.Shifts := by
  simp only [stageMethods, List.forall_mem_cons]
  exact ⟨.look, .look, .look, List.forall_mem_nil _⟩

theorem frameMethods_shift : ∀ m ∈ frameMethods, m.Shifts := by
  simp only [frameMethods, List.forall_mem_cons]
  refine ⟨.of fun _ _ _ => shift_addFrame _ _, .look, ?_, List.forall_mem_nil _⟩
  exact .operation (fun a => .delete a.1) (fun _ => trivial) fun _ _ => rfl

theorem movementMethods_shift : ∀ m ∈ movementMethods, m.Shifts := by
  simp only [movementMethods, List.forall_mem_cons]
  refine ⟨?move, ?pack, ?unpack, List.forall_mem_nil _⟩
  case move => exact .operation (fun a => .move a.1 a.2.1) (fun _ => trivial) fun _ _ => rfl
  case pack => exact .operation (fun a => .pack a.1 a.2.1) (fun _ => trivial) fun _ _ => rfl
  case unpack => exact .operation (fun a => .unpack a.1 a.2.1) (fun _ => trivial) fun _ _ => rfl

theorem updateMethods_shift : ∀ m ∈ updateMethods, m.Shifts := by
  simp only [updateMethods, List.forall_mem_cons]
  refine ⟨.of fun _ _ _ => shift_enqueue _ _, .of fun _ _ _ => shift_enqueueBatched _ _ _,
    ?commit, ?discard, List.forall_mem_nil _⟩
  case commit => exact .operation (fun a => .commit a.1) (fun _ => trivial) fun _ _ => rfl
  case discard => exact .change (fun a => .discard a.1) (fun _ => trivial) fun _ _ => rfl

theorem fieldMethods_shift : ∀ m ∈ fieldMethods, m.Shifts := by
  simp only [fieldMethods, textMethod, List.forall_mem_cons]
  refine ⟨.look, ?set, ?clear, .look, .look, .look, .look, ?box, .look, ?track, ?untrack,
    List.forall_mem_nil _⟩
  case set =>
    exact .change (fun a => .setConfidence a.1 a.2.1 (some a.2.2.1)) (fun _ => trivial)
      fun _ _ => rfl
  case clear =>
    exact .change (fun a => .setConfidence a.1 a.2.1 Option.none) (fun _ => trivial) fun _ _ => rfl
  case box =>
    exact .change (fun a => .setBox a.1 a.2.1 (boxOf a.2.2.1 a.2.2.2.1)) (fun _ => trivial)
      fun _ _ => rfl
  case track =>
    exact .change
      (fun a => .setTrack a.1 a.2.1 (some ⟨boxOf a.2.2.1 a.2.2.2.2.1, a.2.2.2.1⟩))
      (fun _ => trivial) fun _ _ => rfl
  case untrack =>
    exact .change (fun a => .setTrack a.1 a.2.1 Option.none) (fun _ => trivial) fun _ _ => rfl

theorem releaseMethod_shift : releaseMethod.Shifts := by
  intro k arguments h
  unfold releaseMethod
  simp only
  split
  · exact .stay
  · exact shift_release k

/-- Every method changes one pipeline at most, and what it brings in has been checked. -/
theorem shift_method : ∀ m ∈ methods, m.Shifts := by
  simp only [methods, List.forall_mem_cons, List.forall_mem_append]
  exact ⟨releaseMethod_shift, .look, ⟨⟨⟨stageMethods_shift, frameMethods_shift⟩,
    movementMethods_shift⟩, updateMethods_shift⟩, fieldMethods_shift⟩

/-! ### Requests -/

namespace Session

variable {allowed : Operation → Prop} (s : Session)

theorem shift_settle (object : Option Handle) :
    Shift allowed s.host.pipelines (s.settle object).host.pipelines := by
  unfold settle
  split
  · exact .stay
  · split
    · exact .stay
    · exact shift_release _

theorem shift_put (slot : Int) (object : Handle) :
    Shift allowed s.host.pipelines (s.put slot object).host.pipelines :=
  shift_settle { s with slots := s.slots.set slot object } _

theorem shift_build (arguments : Arguments) :
    Shift allowed s.host.pipelines (s.build arguments).2.host.pipelines := by
  unfold build
  split
  · exact .stay
  · next config _ =>
    have shift : Shift allowed s.host.pipelines (s.host.createFromJson config).2.pipelines :=
      shift_createFromJson config
    split
    · next made => rw [made] at shift; exact shift
    · next made => rw [made] at shift; exact shift

/-- A new object may push another one out of its slot, whose pipeline goes then. -/
theorem shifts_new (slot : Int) (arguments : Arguments) :
    Shifts allowed s.host.pipelines (s.new slot arguments).2.host.pipelines := by
  have shift : Shift allowed _ _ := s.shift_build arguments
  unfold new
  split
  · next built => rw [built] at shift; exact .single shift
  · next built =>
    rw [built] at shift
    exact .tail (.single shift) (shift_put _ slot _)

theorem shift_drop (slot : Int) :
    Shift allowed s.host.pipelines (s.drop slot).2.host.pipelines := by
  unfold drop
  split
  · exact .stay
  · next object _ => exact shift_settle { s with slots := s.slots.erase slot } (some object)

theorem shift_share (slot target : Int) :
    Shift allowed s.host.pipelines (s.share slot target).2.host.pipelines := by
  unfold share
  split
  · exact .stay
  · exact s.shift_put target _

theorem shift_callMethod (slot : Int) (name : String) (arguments : Arguments) :
    Shift Operation.Checked s.host.pipelines
      (s.callMethod slot name arguments).2.host.pipelines := by
  unfold callMethod
  split
  · exact .stay
  · next object _ =>
    split
    · exact .stay
    · split
      · exact .stay
      · next m found =>
        exact shift_method m (List.mem_of_find?_eq_some found) object arguments s.host

theorem shifts_callClass (arguments : Arguments) :
    Shifts allowed s.host.pipelines (s.callClass arguments).2.host.pipelines := by
  have shift : Shift allowed _ _ := s.shift_build arguments
  unfold callClass
  split
  · next built => rw [built] at shift; exact .single shift
  · next built =>
    rw [built] at shift
    exact .tail (.single shift) (shift_settle _ _)

theorem shifts_callFunction (name : String) (arguments : Arguments) :
    Shifts allowed s.host.pipelines (s.callFunction name arguments).2.host.pipelines := by
  unfold callFunction
  split
  · split
    · exact .refl
    · exact .refl
  · split
    · exact .refl
    · exact .refl
  · split
    · exact s.shifts_callClass arguments
    · split
      · exact .refl
      · exact .refl

end Session
end Script

namespace Host

variable {allowed : Operation → Prop}

/-- What a request brings in has been checked, unless it is an operation itself. -/
theorem shifts_request (all : ∀ op : Operation, op.Checked → allowed op) (s : Script.Session)
    (request : Request) (within : request.Within allowed) :
    Shifts allowed s.host.pipelines (request.run s).host.pipelines := by
  cases request with
  | build c => exact .single (shift_create c)
  | operate k op => exact .single (shift_run op within fun _ => rfl)
  | foreign call => exact .single ((shift_call s.host call).mono all)
  | new slot arguments => exact s.shifts_new slot arguments
  | drop slot => exact .single (s.shift_drop slot)
  | share slot target => exact .single (s.shift_share slot target)
  | method slot name arguments => exact .single ((s.shift_callMethod slot name arguments).mono all)
  | function name arguments => exact s.shifts_callFunction name arguments

/-! ### What holds of all pipelines -/

section Keeping

variable {P : Pipeline → Prop} (new : ∀ c : Config, c.check = .ok () → P (.ofConfig c))
    (step : ∀ p op, allowed op → P p → P (Operation.run p op).2)
include new step

/-- What one change keeps of all pipelines. -/
theorem Shift.keeps {r r' : Registry Pipeline} (s : Shift allowed r r') (h : r.Keeps P) :
    r'.Keeps P := by
  cases s with
  | stay => exact h
  | create c checked => exact h.insert (new c checked)
  | release k => exact h.remove k
  | operate k live op good => exact h.replace k (step _ op good (h.each live))

theorem Shifts.keeps {r r' : Registry Pipeline} (s : Shifts allowed r r') (h : r.Keeps P) :
    r'.Keeps P := by
  induction s with
  | refl => exact h
  | tail _ shift kept => exact shift.keeps new step kept

/-- What all changes of a run keep of all pipelines. -/
theorem keeps_after (all : ∀ op : Operation, op.Checked → allowed op) (requests : List Request) :
    ∀ s : Script.Session, (∀ request ∈ requests, request.Within allowed) →
      s.host.pipelines.Keeps P → (s.after requests).host.pipelines.Keeps P := by
  -- The session is general in the induction, since each request starts from what the last one left.
  induction requests with
  | nil => exact fun s _ h => h
  | cons request requests ih =>
    intro s within h
    obtain ⟨first, rest⟩ := List.forall_mem_cons.mp within
    exact ih (request.run s) rest (Shifts.keeps new step (shifts_request all s request first) h)

end Keeping

/-- All pipelines of a reachable host are reachable by operations. -/
theorem Reachable.keeps {h : Host} (reachable : h.Reachable) :
    h.pipelines.Keeps Pipeline.Reachable := by
  obtain ⟨surroundings, requests, rfl⟩ := reachable
  have new : ∀ c : Config, c.check = .ok () → Pipeline.Reachable (.ofConfig c) :=
    fun c checked => ⟨c, _, _, [], Pipeline.create_of_check checked, rfl⟩
  have step : ∀ (p : Pipeline) (op : Operation), True → p.Reachable → (op.run p).2.Reachable :=
    fun _ op _ old => old.after [op]
  refine keeps_after new step (fun _ _ => trivial) requests _ (fun request _ => ?_) .empty
  cases request with
  | operate k op => exact trivial
  | _ => exact trivial

end Host
end FrameFlow
