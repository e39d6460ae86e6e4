/-
# What a call sees of a host

A call by a handle sees the pipeline behind it, and nothing else of its host. So two
hosts with the same pipeline behind two handles tell the same when they are called
alike by these handles, and the same becomes of both pipelines. With nothing behind
its handle, a call answers as failures do.

Key definitions: `Host.Agrees`, `Foreign.Return.Agrees`.
Key theorems: `Host.agrees_run`, `Host.agrees_release`, `Foreign.Call.run_agrees`,
`Foreign.Call.run_failed`.
-/
import FrameFlow.Proofs.Foreign.Failures
import FrameFlow.Proofs.Host.Asks
import FrameFlow.Proofs.Registry.Outline

namespace FrameFlow
namespace Host

/-- Two calls, each by its own handle on its own host, tell the same and do the same. -/
structure Agrees {α : Type} (k k' : Handle) (h h' : Host) (alike : α → α → Prop)
    (x y : α × Host) : Prop where
  told : alike x.1 y.1
  done : Registry.Together k k' h.pipelines h'.pipelines x.2.pipelines y.2.pipelines

/-- The same is told of both, up to the number of an unknown handle. -/
abbrev AgreesUp {α : Type} (k k' : Handle) (h h' : Host) (x y : Except Error α × Host) : Prop :=
  Agrees k k' h h' (Answered k k' Error.unknownHandle) x y

variable {α β : Type} {h h' : Host} {k k' : Handle}

theorem Answered.toOption {ε : Type} {unknown : Nat → ε} {x y : Except ε α}
    (answered : Answered k k' unknown x y) : x.toOption = y.toOption := by
  cases answered with
  | same => rfl
  | unknown =>
    show (none : Option α) = none
    rfl

theorem Agrees.map {x y : α × Host} (agrees : Agrees k k' h h' Eq x y) (f : α → β) :
    Agrees k k' h h' Eq (f x.1, x.2) (f y.1, y.2) :=
  ⟨congrArg f agrees.told, agrees.done⟩

/-! ### Reaching a pipeline -/

section Same

variable (same : h.pipelines.get? k = h'.pipelines.get? k')
include same

theorem agrees_run (operation : Pipeline → Outcome α) :
    AgreesUp k k' h h' (h.run k operation) (h'.run k' operation) := by
  rcases live : h.pipelines.get? k with _ | p
  · have live' := same.symm.trans live
    obtain ⟨answer, next⟩ := run_unknown live operation
    obtain ⟨answer', next'⟩ := run_unknown live' operation
    constructor
    · rw [answer, answer']
      exact .unknown
    · exact .of_same next next'
  · have live' := same.symm.trans live
    obtain ⟨answer, next⟩ := run_known live operation
    obtain ⟨answer', next'⟩ := run_known live' operation
    constructor
    · rw [answer, answer']
      exact .same _
    · rw [next, next']
      exact .replace _

theorem agrees_change (operation : Pipeline → α × Pipeline) :
    AgreesUp k k' h h' (h.change k operation) (h'.change k' operation) :=
  agrees_run same _

theorem agrees_view (look : Pipeline → α) :
    AgreesUp k k' h h' (h.view k look) (h'.view k' look) :=
  agrees_change same _

/-- What cannot be read is refused whatever there is behind the handle. -/
theorem agrees_whenRead (read : Except Error α) (operation : α → Pipeline → Outcome β) :
    AgreesUp k k' h h' (h.whenRead read fun a => h.run k (operation a))
      (h'.whenRead read fun a => h'.run k' (operation a)) := by
  rcases read with e | a
  · exact ⟨.same _, .stay⟩
  · exact agrees_run same (operation a)

theorem agrees_lookUp (look : Pipeline → Option α) :
    Agrees k k' h h' Eq (h.lookUp k look) (h'.lookUp k' look) := by
  constructor
  · rw [lookUp_fst, lookUp_fst, same]
  · exact .of_same (pipelines_lookUp look) (pipelines_lookUp look)

theorem agrees_release : Agrees k k' h h' Eq (h.release k) (h'.release k') := by
  obtain ⟨answer, next⟩ := h.release_eq k
  obtain ⟨answer', next'⟩ := h'.release_eq k'
  constructor
  · rw [answer, answer', same]
  · rw [next, next']
    exact .remove

end Same

/-- Nothing is let go that is not there. -/
theorem release_unknown (dead : h.pipelines.get? k = none) : (h.release k).1 = false := by
  rw [(h.release_eq k).1, dead]
  rfl

end Host

/-! ### Foreign calls -/

namespace Foreign

open Host

variable {α β : Type} {h h' : Host} {k k' : Handle}

theorem agrees_report {x y : Except Error α × Host} (agrees : AgreesUp k k' h h' x y)
    (call : String) : Agrees k k' h h' Eq (report call x) (report call y) := by
  constructor
  · rw [report_fst, report_fst]
    exact agrees.told.toOption
  · rw [pipelines_report, pipelines_report]
    exact agrees.done

/-- Two foreign calls, each by its own handle on its own host, leave the same. -/
structure Return.Agrees (k k' : Handle) (h h' : Host) (x y : Return) : Prop where
  answer : y.answer = x.answer
  call : y.call = x.call.aim k'
  done : Registry.Together k k' h.pipelines h'.pipelines x.host.pipelines y.host.pipelines

theorem agrees_made {c : Call} {form : α → Answer} {x y : α × Host}
    (agrees : Host.Agrees k k' h h' Eq x y) :
    Return.Agrees k k' h h' (c.made form x) ((c.aim k').made form y) :=
  ⟨congrArg form agrees.told.symm, rfl, agrees.done⟩

theorem agrees_wrote {call call' : β → Call} (aimed : ∀ memory, (call memory).aim k' = call' memory)
    {form : α → Answer} {x y : α × β × Host} (answer : x.1 = y.1) (memory : x.2.1 = y.2.1)
    (done : Registry.Together k k' h.pipelines h'.pipelines x.2.2.pipelines y.2.2.pipelines) :
    Return.Agrees k k' h h' (Call.wrote call form x) (Call.wrote call' form y) where
  answer := congrArg form answer.symm
  call := by
    show call' y.2.1 = (call x.2.1).aim k'
    rw [aimed, memory]
  done := done

/-- What a call leaves in memory is memory of a call by the same handle. -/
theorem Call.handle?_run (h : Host) (c : Call) : (c.run h).call.handle? = c.handle? := by
  cases c with
  | _ => rfl

section Same

variable (same : h.pipelines.get? k = h'.pipelines.get? k')
include same

theorem agrees_perform (call : String) (arguments : Option α)
    (operation : α → Pipeline → Outcome β) :
    Host.Agrees k k' h h' Eq (perform call h k arguments operation)
      (perform call h' k' arguments operation) := by
  constructor
  · rw [perform_fst, perform_fst, same]
  · rcases live : h.pipelines.get? k with _ | p
    · have live' := same.symm.trans live
      exact .of_same (perform_unknown live call arguments operation).2
        (perform_unknown live' call arguments operation).2
    · rcases arguments with _ | a
      · exact .of_same (perform_unusable call operation).2 (perform_unusable call operation).2
      · rw [(perform_known live call a operation).2,
          (perform_known (same.symm.trans live) call a operation).2]
        exact .replace _

theorem agrees_changed (operation : Pipeline → Bool × Pipeline) :
    Host.Agrees k k' h h' Eq (changed h k operation) (changed h' k' operation) := by
  have agrees := agrees_change same operation
  rw [changed_eq, changed_eq]
  exact ⟨congrArg (·.getD false) agrees.told.toOption, agrees.done⟩

theorem agrees_addFrame (stage frame : TextCell) :
    Host.Agrees k k' h h' Eq (Foreign.addFrame h k stage frame)
      (Foreign.addFrame h' k' stage frame) := by
  unfold Foreign.addFrame
  rcases textOf? stage with _ | s
  · exact ⟨rfl, .stay⟩
  · rcases textOf? frame with _ | text
    · exact ⟨rfl, .stay⟩
    · exact (agrees_report (agrees_whenRead same _ _) _).map fun id => id.getD (-1)

theorem agrees_enqueue (id : Int) (update : TextCell) :
    Host.Agrees k k' h h' Eq (Foreign.enqueue h k id update)
      (Foreign.enqueue h' k' id update) := by
  unfold Foreign.enqueue
  rcases textOf? update with _ | text
  · exact ⟨rfl, .stay⟩
  · exact (agrees_report (agrees_whenRead same _ _) _).map Option.isSome

theorem agrees_enqueueBatched (batch id : Int) (update : TextCell) :
    Host.Agrees k k' h h' Eq (Foreign.enqueueBatched h k batch id update)
      (Foreign.enqueueBatched h' k' batch id update) := by
  unfold Foreign.enqueueBatched
  rcases textOf? update with _ | text
  · exact ⟨rfl, .stay⟩
  · exact (agrees_report (agrees_whenRead same _ _) _).map Option.isSome

theorem agrees_setBox (frame : Int) (id : Int64) (box : Cell Box) :
    Host.Agrees k k' h h' Eq (Foreign.setBox h k frame id box)
      (Foreign.setBox h' k' frame id box) := by
  rcases box with _ | box
  · exact ⟨rfl, .stay⟩
  · exact agrees_changed same _

theorem agrees_setTrack (frame : Int) (id : Int64) (box : Cell Box) (track : Int64) :
    Host.Agrees k k' h h' Eq (Foreign.setTrack h k frame id box track)
      (Foreign.setTrack h' k' frame id box track) := by
  rcases box with _ | box
  · exact ⟨rfl, .stay⟩
  · exact agrees_changed same _

/-! What is read is written to memory in the same way. -/

theorem fetch_agrees {call call' : Cell α → Call} (aimed : ∀ out, (call out).aim k' = call' out)
    (out : Cell α) (look : Pipeline → Option α) :
    Return.Agrees k k' h h' (Call.wrote call .flag (fetch h k out look))
      (Call.wrote call' .flag (fetch h' k' out look)) := by
  obtain ⟨answer, memory, next⟩ := fetch_eq (h := h) (k := k) out look
  obtain ⟨answer', memory', next'⟩ := fetch_eq (h := h') (k := k') out look
  refine agrees_wrote aimed ?_ ?_ ?_
  · rw [answer, answer', same]
  · rw [memory, memory', same]
  · exact .of_same next next'

theorem getText_agrees (frame : Int) (id : Int64) (field : TextField) (buffer : TextCell) :
    Return.Agrees k k' h h' ((Call.getText k frame id field buffer).run h)
      ((Call.getText k' frame id field buffer).run h') := by
  have told : (getText h k frame id field buffer).1 = (getText h' k' frame id field buffer).1 ∧
      (getText h k frame id field buffer).2.1 = (getText h' k' frame id field buffer).2.1 := by
    rw [getText_eq, getText_eq, same]
    rcases (h'.pipelines.get? k').bind (·.text? frame id field) with _ | text
    · exact ⟨rfl, rfl⟩
    · exact ⟨rfl, rfl⟩
  refine agrees_wrote (fun _ => rfl) told.1 told.2 ?_
  exact .of_same (pipelines_readText frame id field _) (pipelines_readText frame id field _)

theorem getTrack_agrees (frame : Int) (id : Int64) (box : Cell Box) (track : Cell Int64) :
    Return.Agrees k k' h h' ((Call.getTrack k frame id box track).run h)
      ((Call.getTrack k' frame id box track).run h') := by
  obtain ⟨found, known, answer, box₁, track₁, next⟩ :=
    getTrack_eq (h := h) (k := k) frame id box track
  obtain ⟨found', known', answer', box₂, track₂, next'⟩ :=
    getTrack_eq (h := h') (k := k') frame id box track
  have all : found' = found := by rw [known', known, same]
  subst all
  refine ⟨congrArg Answer.flag (answer'.trans answer.symm), ?_, ?_⟩
  · exact congrArg₂ (Call.getTrack k' frame id) (box₂.trans box₁.symm) (track₂.trans track₁.symm)
  · exact .of_same next next'

theorem getVector_agrees (frame : Int) (id : Int64) (scope name : TextCell) (index : Nat)
    (out : VectorCells) :
    Return.Agrees k k' h h' ((Call.getVector k frame id scope name index out).run h)
      ((Call.getVector k' frame id scope name index out).run h') := by
  have told : (getVector h k frame id scope name index out).1 =
        (getVector h' k' frame id scope name index out).1 ∧
      (getVector h k frame id scope name index out).2.1 =
        (getVector h' k' frame id scope name index out).2.1 := by
    unfold getVector
    split
    · next room _ _ scope name _ _ _ _ _ =>
      simp only [Host.readVector_eq, Host.lookUp_fst, same]
      rcases ((h'.pipelines.get? k').bind fun p => p.reading? frame id scope name index).bind
        fun r => r.vector?.map fun numbers => (numbers, r.confidence) with _ | ⟨numbers, confidence⟩
      · exact ⟨rfl, rfl⟩
      · simp only
        by_cases short : ((out.numbers.getD []).take room).length < numbers.length
        · simp only [if_pos short]
          exact ⟨trivial, trivial⟩
        · simp only [if_neg short]
          exact ⟨trivial, trivial⟩
    · exact ⟨rfl, rfl⟩
  refine agrees_wrote (fun _ => rfl) told.1 told.2 ?_
  exact .of_same (pipelines_getVector ..) (pipelines_getVector ..)

theorem unpack_agrees (stage : TextCell) (batch : Int) (buffer : Cell (List Int)) :
    Return.Agrees k k' h h' ((Call.unpack k stage batch buffer).run h)
      ((Call.unpack k' stage batch buffer).run h') := by
  rcases noUnpacking_or h k stage batch with cause | ⟨s, p, ids, read, live, plain⟩
  · have cause' : NoUnpacking h' k' stage batch := by
      unfold NoUnpacking at cause ⊢
      rwa [← same]
    have nothing : FailsToUnpack h k stage batch buffer := failsToUnpack cause
    have nothing' : FailsToUnpack h' k' stage batch buffer := failsToUnpack cause'
    refine agrees_wrote (fun _ => rfl) ?_ ?_ ?_
    · rw [nothing.answer, nothing'.answer]
    · rw [nothing.memory, nothing'.memory]
    · exact .of_same nothing.pipelines nothing'.pipelines
  · have live' := same.symm.trans live
    rcases Nat.lt_or_ge (buffer.getD []).length ids.length with short | room
    · obtain ⟨answer, memory, next⟩ := unpack_small read live plain short
      obtain ⟨answer', memory', next'⟩ := unpack_small read live' plain short
      exact agrees_wrote (fun _ => rfl) (answer.trans answer'.symm) (memory.trans memory'.symm)
        (.of_same next next')
    · have fits := unpack_fits read live plain room
      have fits' := unpack_fits read live' plain room
      refine agrees_wrote (fun _ => rfl) ?_ ?_ ?_
      · rw [fits, fits']
      · rw [fits, fits']
      · rw [fits, fits']
        exact (agrees_run same (·.unpack s batch)).done

/-- A foreign call sees of its host only what is behind its handle. -/
theorem Call.run_agrees {c : Call} (about : c.handle? = some k) :
    Return.Agrees k k' h h' (c.run h) ((c.aim k').run h') := by
  cases c with
  | checkVersion | setUpLogging | create => cases about
  | release => cases about; exact agrees_made (agrees_release same)
  | addFrame _ stage frame => cases about; exact agrees_made (agrees_addFrame same stage frame)
  | enqueue _ id update => cases about; exact agrees_made (agrees_enqueue same id update)
  | enqueueBatched _ batch id update =>
    cases about
    exact agrees_made (agrees_enqueueBatched same batch id update)
  | stageSize _ stage =>
    cases about
    exact agrees_made ((agrees_lookUp same _).map fun size => (size.map Int.ofNat).getD (-1))
  | delete _ id =>
    cases about
    have agrees := agrees_perform same "pipeline_delete" (some id) fun id p => p.delete id
    exact agrees_made (agrees.map Option.isSome)
  | move _ stage ids =>
    cases about
    exact agrees_made ((agrees_perform same _ _ _).map fun count => (count.map Int.ofNat).getD (-1))
  | pack _ stage ids =>
    cases about
    exact agrees_made ((agrees_perform same _ _ _).map fun id => id.getD (-1))
  | unpack _ stage batch buffer => cases about; exact unpack_agrees same stage batch buffer
  | commit _ id =>
    cases about
    have agrees := agrees_perform same "pipeline_apply_updates" (some id) fun id p => p.commit id
    exact agrees_made (agrees.map fun done => done.getD false)
  | discard _ id => cases about; exact agrees_made (agrees_changed same _)
  | getConfidence _ frame id out => cases about; exact fetch_agrees same (fun _ => rfl) out _
  | setConfidence _ frame id confidence => cases about; exact agrees_made (agrees_changed same _)
  | getText _ frame id field buffer => cases about; exact getText_agrees same frame id field buffer
  | getBox _ frame id out => cases about; exact fetch_agrees same (fun _ => rfl) out _
  | setBox _ frame id box => cases about; exact agrees_made (agrees_setBox same frame id box)
  | getTrack _ frame id box track => cases about; exact getTrack_agrees same frame id box track
  | setTrack _ frame id box track =>
    cases about
    exact agrees_made (agrees_setTrack same frame id box track)
  | clearTrack _ frame id => cases about; exact agrees_made (agrees_changed same _)
  | getVector _ frame id scope name index out =>
    cases about
    exact getVector_agrees same frame id scope name index out

end Same

/-! ### Nothing behind the handle -/

section Dead

variable (dead : h.pipelines.get? k = none)
include dead

theorem fetch_unknown (out : Cell α) (look : Pipeline → Option α) :
    (fetch h k out look).1 = false ∧ (fetch h k out look).2.1 = out := by
  obtain ⟨answer, memory, -⟩ := fetch_eq (h := h) (k := k) out look
  have nothing : (out.bind fun _ => (h.pipelines.get? k).bind look) = none := by
    rw [dead]
    rcases out with _ | old
    · rfl
    · rfl
  rw [nothing] at answer memory
  exact ⟨answer, memory⟩

theorem getVector_unknown (frame : Int) (id : Int64) (scope name : TextCell) (index : Nat)
    (out : VectorCells) : (getVector h k frame id scope name index out).1 = false ∧
      (getVector h k frame id scope name index out).2.1 = out := by
  unfold getVector
  split
  · simp only [Host.readVector_eq, Host.lookUp_fst, dead, Option.bind_none]
    exact ⟨trivial, trivial⟩
  · exact ⟨rfl, rfl⟩

theorem setBox_unknown (frame : Int) (id : Int64) (box : Cell Box) :
    (Foreign.setBox h k frame id box).1 = false := by
  rcases box with _ | box
  · rfl
  · exact (changed_unknown dead _).1

theorem setTrack_unknown (frame : Int) (id : Int64) (box : Cell Box) (track : Int64) :
    (Foreign.setTrack h k frame id box track).1 = false := by
  rcases box with _ | box
  · rfl
  · exact (changed_unknown dead _).1

/-- A call with nothing behind its handle answers as failures do, and leaves memory as it was. -/
theorem Call.run_failed {c : Call} (about : c.handle? = some k) :
    (c.run h).answer = c.sentinel ∧ (c.run h).call = c := by
  have folded : c.Folds → (c.run h).answer = c.sentinel := by
    intro folds
    have unusable : c.Unusable h := .inr (.inr ⟨k, about, dead⟩)
    rw [answer_eq folds, (core?_eq_none_iff folds).mpr unusable]
    rfl
  cases c with
  | checkVersion | setUpLogging | create => cases about
  | addFrame | enqueue | enqueueBatched | stageSize | delete | move | pack =>
    exact ⟨folded trivial, rfl⟩
  | unpack _ stage batch buffer =>
    cases about
    have nothing : FailsToUnpack h k stage batch buffer := failsToUnpack (.inr (.inl dead))
    exact ⟨folded trivial, congrArg (unpack k stage batch) nothing.memory⟩
  | release =>
    cases about
    exact ⟨congrArg Answer.flag (release_unknown dead), rfl⟩
  | commit _ id =>
    cases about
    have nothing := (perform_unknown dead "pipeline_apply_updates" (some id)
      fun id p => p.commit id).1
    have no : (Foreign.commit h k id).1 = false := by
      unfold Foreign.commit
      simp only [nothing]
      rfl
    exact ⟨congrArg Answer.flag no, rfl⟩
  | discard | setConfidence | clearTrack =>
    cases about
    exact ⟨congrArg Answer.flag (changed_unknown dead _).1, rfl⟩
  | setBox _ frame id box =>
    cases about
    exact ⟨congrArg Answer.flag (setBox_unknown dead frame id box), rfl⟩
  | setTrack _ frame id box track =>
    cases about
    exact ⟨congrArg Answer.flag (setTrack_unknown dead frame id box track), rfl⟩
  | getConfidence _ frame id out =>
    cases about
    obtain ⟨no, memory⟩ := fetch_unknown dead out (·.confidence? frame id)
    exact ⟨congrArg Answer.flag no, congrArg (getConfidence k frame id) memory⟩
  | getBox _ frame id out =>
    cases about
    obtain ⟨no, memory⟩ := fetch_unknown dead out (·.box? frame id)
    exact ⟨congrArg Answer.flag no, congrArg (getBox k frame id) memory⟩
  | getText _ frame id field buffer =>
    cases about
    have told : Foreign.getText h k frame id field buffer = _ := getText_eq buffer
    rw [dead, Option.bind_none] at told
    constructor
    · exact congrArg (fun r => Answer.natural r.1) told
    · exact congrArg (fun r => getText k frame id field r.2.1) told
  | getTrack _ frame id box track =>
    cases about
    rcases getTrack_cases (h := h) k frame id box track rfl with failed | ⟨p, -, live, -⟩
    · exact failed
    · cases dead.symm.trans live
  | getVector _ frame id scope name index out =>
    cases about
    obtain ⟨no, memory⟩ := getVector_unknown dead frame id scope name index out
    exact ⟨congrArg Answer.flag no, congrArg (getVector k frame id scope name index) memory⟩

end Dead
end Foreign
end FrameFlow
