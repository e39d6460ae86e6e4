/-
# Failed calls leave everything as it was

Where a foreign call answers as failures do, no pipeline has changed and none has
come or gone, since what an operation checks it checks before it changes
anything. The memory of the caller is as before too. There is one exception, a
vector for which there is not enough room: the caller learns how many numbers it
has. Calls that read a detection change no pipeline at all.

Key definitions: `Call.tooLong?`, `Call.FoldsErrors`.
Key theorems: `Call.pipelines_of_fails`, `Call.pipelines_of_sentinel`,
`Call.memory_of_sentinel`, `Call.errors_folded`.
-/
import FrameFlow.Proofs.Foreign.Answers
import FrameFlow.Proofs.Host.Texts
import FrameFlow.Proofs.Pipeline.Refusals

namespace FrameFlow

/-! ### Operations that do nothing -/

namespace Host

variable {α β : Type} {h : Host} {k : Handle}

theorem pipelines_run_of_same {operation : Pipeline → Outcome α}
    (same : ∀ p, h.pipelines.get? k = some p → (operation p).next = p) :
    (h.run k operation).2.pipelines = h.pipelines := by
  rcases live : h.pipelines.get? k with _ | p
  · exact (run_unknown live operation).2
  · rw [(run_known live operation).2, same p live]
    exact Registry.replace_self live

theorem pipelines_whenRead_run_of_same {read : Except Error α}
    {operation : α → Pipeline → Outcome β}
    (same : ∀ a p, read = .ok a → h.pipelines.get? k = some p → (operation a p).next = p) :
    (h.whenRead read fun a => h.run k (operation a)).2.pipelines = h.pipelines := by
  rcases read with e | a
  · rfl
  · exact pipelines_run_of_same fun p => same a p rfl

end Host

namespace Foreign

theorem pipelines_perform_of_same {α β : Type} {h : Host} {k : Handle} {call : String}
    {arguments : Option α} {operation : α → Pipeline → Outcome β}
    (same : ∀ a p, arguments = some a → h.pipelines.get? k = some p → (operation a p).next = p) :
    (perform call h k arguments operation).2.pipelines = h.pipelines := by
  rcases live : h.pipelines.get? k with _ | p
  · exact (perform_unknown live call arguments operation).2
  · rcases arguments with _ | a
    · exact (perform_unusable call operation).2
    · rw [(perform_known live call a operation).2, same a p rfl live]
      exact Registry.replace_self live

/-- A change that does nothing where it answers no leaves all pipelines alone there. -/
theorem pipelines_changed_of_no {h : Host} {k : Handle} {operation : Pipeline → Bool × Pipeline}
    (same : ∀ p, h.pipelines.get? k = some p → (operation p).1 = false → (operation p).2 = p)
    (no : (changed h k operation).1 = false) :
    (changed h k operation).2.pipelines = h.pipelines := by
  rcases live : h.pipelines.get? k with _ | p
  · exact (changed_unknown live operation).2
  · obtain ⟨answer, next⟩ := changed_known live operation
    rw [answer] at no
    rw [next, same p live no]
    exact Registry.replace_self live

namespace Call

variable {h : Host} {c : Call}

/-- A call that fails does nothing. -/
theorem pipelines_of_fails (keeps : h.pipelines.Keeps Pipeline.Reachable) (folds : c.Folds)
    (fails : ∀ a, c.core? h ≠ some (.ok a)) : (c.run h).host.pipelines = h.pipelines := by
  cases c with
  | create config =>
    change (Foreign.create h config).2.pipelines = _
    unfold Foreign.create
    rcases read : textOf? config with _ | text
    · rfl
    · rw [Foreign.pipelines_report]
      unfold Host.createFromJson
      rcases parsed : Config.ofJson text with e | c
      · rfl
      · rcases h.create_cases c with ⟨e, -, -, same⟩ | ⟨checked, -, -⟩
        · exact same
        · -- With an accepted configuration the call would not have failed.
          have made : (Except.ok c >>= Pipeline.create) = _ := Pipeline.create_of_check checked
          refine absurd ?_ (fails (.natural (h.pipelines.insert (.ofConfig c)).1.number))
          simp only [core?, read, Option.pure_def, Option.bind_eq_bind, Option.bind_some, parsed,
            made]
          rfl
  | addFrame k stage frame =>
    change (Foreign.addFrame h k stage frame).2.pipelines = _
    unfold Foreign.addFrame
    rcases read : textOf? stage with _ | s
    · rfl
    · rcases read' : textOf? frame with _ | text
      · rfl
      · rw [Foreign.pipelines_report]
        refine Host.pipelines_whenRead_run_of_same fun f p admitted live => ?_
        have given : (do return (← textOf? stage, ← textOf? frame)) = some (s, text) := by
          rw [read, read']
          rfl
        obtain ⟨e, refused⟩ := error_of_comesTo? fails given live
        have refused : (Frame.admissible text >>= fun f => (p.addFrame s f).answer) = _ := refused
        rw [admitted] at refused
        exact Pipeline.addFrame_error refused
  | enqueue k id update =>
    change (Foreign.enqueue h k id update).2.pipelines = _
    unfold Foreign.enqueue
    rcases read : textOf? update with _ | text
    · rfl
    · rw [Foreign.pipelines_report]
      refine Host.pipelines_whenRead_run_of_same fun u p admitted live => ?_
      obtain ⟨e, refused⟩ := error_of_comesTo? fails read live
      rw [admitted] at refused
      exact Pipeline.enqueue_error refused
  | enqueueBatched k batch id update =>
    change (Foreign.enqueueBatched h k batch id update).2.pipelines = _
    unfold Foreign.enqueueBatched
    rcases read : textOf? update with _ | text
    · rfl
    · rw [Foreign.pipelines_report]
      refine Host.pipelines_whenRead_run_of_same fun u p admitted live => ?_
      obtain ⟨e, refused⟩ := error_of_comesTo? fails read live
      rw [admitted] at refused
      exact Pipeline.enqueueBatched_error (keeps.each live).consistent refused
  | stageSize k stage => exact Host.pipelines_lookUp _
  | delete k id =>
    change (perform "pipeline_delete" h k (some id) fun id p => p.delete id).2.pipelines = _
    refine pipelines_perform_of_same fun id p given live => ?_
    obtain ⟨e, refused⟩ := error_of_comesTo? fails given live
    exact Pipeline.delete_error (keeps.each live).consistent refused
  | move k stage ids =>
    refine pipelines_perform_of_same fun arguments p given live => ?_
    obtain ⟨e, refused⟩ := error_of_comesTo? fails given live
    exact Pipeline.move_error refused
  | pack k stage ids =>
    refine pipelines_perform_of_same fun arguments p given live => ?_
    obtain ⟨e, refused⟩ := error_of_comesTo? fails given live
    exact Pipeline.pack_error refused
  | unpack k stage batch buffer =>
    rcases noUnpacking_or h k stage batch with cause | ⟨s, p, ids, read, live, plain⟩
    · exact (failsToUnpack cause).pipelines
    · obtain ⟨e, refused⟩ := error_of_comesTo? fails read live
      cases plain.symm.trans refused
  | _ => exact folds.elim

/-- Calls that read a detection change no pipeline. -/
def Looks : Call → Prop
  | getConfidence .. | getText .. | getBox .. | getTrack .. | getVector .. => True
  | _ => False

theorem pipelines_of_looks (looks : c.Looks) : (c.run h).host.pipelines = h.pipelines := by
  cases c with
  | getConfidence k frame id out => exact (fetch_eq out _).2.2
  | getText k frame id field buffer => exact Host.pipelines_readText frame id field _
  | getBox k frame id out => exact (fetch_eq out _).2.2
  | getTrack k frame id box track =>
    obtain ⟨_, -, -, -, -, same⟩ := getTrack_eq (h := h) (k := k) frame id box track
    exact same
  | getVector k frame id scope name index out =>
    exact pipelines_getVector frame id scope name index out
  | _ => exact looks.elim

/-- A call that answers as failures do leaves all pipelines as they were. -/
theorem pipelines_of_sentinel (keeps : h.pipelines.Keeps Pipeline.Reachable)
    (failed : (c.run h).answer = c.sentinel) : (c.run h).host.pipelines = h.pipelines := by
  have fails : c.Folds → ∀ a, c.core? h ≠ some (.ok a) := by
    intro folds a done
    rw [answer_eq folds, done] at failed
    exact core_ne_sentinel keeps folds done failed
  cases c with
  | checkVersion expected => rfl
  | setUpLogging level file => rfl
  | create | addFrame | enqueue | enqueueBatched | stageSize | delete | move | pack | unpack =>
    exact pipelines_of_fails keeps trivial (fails trivial)
  | getConfidence | getText | getBox | getTrack | getVector => exact pipelines_of_looks trivial
  | release k =>
    have gone : (h.release k).1 = false := Answer.flag.inj failed
    obtain ⟨answer, next⟩ := h.release_eq k
    rw [answer] at gone
    rcases Registry.remove_cases h.pipelines k with ⟨-, done⟩ | ⟨p, slots, there, -⟩
    · exact next.trans (by rw [done])
    · rw [Registry.get?_eq_some_iff.mpr there] at gone
      cases gone
  | commit k id =>
    have no : (Foreign.commit h k id).1 = false := Answer.flag.inj failed
    change (perform "pipeline_apply_updates" h k (some id) fun id p => p.commit id).2.pipelines = _
    refine pipelines_perform_of_same fun id' p given live => ?_
    cases given
    refine Pipeline.commit_refused fun yes => ?_
    unfold Foreign.commit at no
    simp [perform_fst, live, yes, Except.toOption] at no
  | discard k id =>
    have no : (Foreign.discard h k id).1 = false := Answer.flag.inj failed
    exact pipelines_changed_of_no
      (fun p live => Pipeline.discard_no (keeps.each live).addressed.tight) no
  | setConfidence k frame id confidence =>
    have no : (Foreign.setConfidence h k frame id confidence).1 = false := Answer.flag.inj failed
    exact pipelines_changed_of_no (fun p _ => Pipeline.edit_no) no
  | setBox k frame id box =>
    have no : (Foreign.setBox h k frame id box).1 = false := Answer.flag.inj failed
    change (Foreign.setBox h k frame id box).2.pipelines = _
    unfold Foreign.setBox at no ⊢
    rcases box with _ | box
    · rfl
    · exact pipelines_changed_of_no (fun p _ => Pipeline.edit_no) no
  | setTrack k frame id box track =>
    have no : (Foreign.setTrack h k frame id box track).1 = false := Answer.flag.inj failed
    change (Foreign.setTrack h k frame id box track).2.pipelines = _
    unfold Foreign.setTrack at no ⊢
    rcases box with _ | box
    · rfl
    · exact pipelines_changed_of_no (fun p _ => Pipeline.edit_no) no
  | clearTrack k frame id =>
    have no : (Foreign.clearTrack h k frame id).1 = false := Answer.flag.inj failed
    exact pipelines_changed_of_no (fun p _ => Pipeline.edit_no) no

/-! ### Memory -/

/-- How many numbers a vector has that is there, where a call asks for it with too little room. -/
def tooLong? (h : Host) : Call → Option Nat
  | getVector k frame id scope name index out => do
    let room ← out.count
    let _ ← out.confidence
    let _ ← out.confident
    let scope ← textOf? scope
    let name ← textOf? name
    let p ← h.pipelines.get? k
    let r ← p.reading? frame id scope name index
    let numbers ← r.vector?
    if ((out.numbers.getD []).take room).length < numbers.length then return numbers.length
    else none
  | _ => none

/-- A call that asks for a vector, with a count in its memory. -/
def withCount (n : Nat) : Call → Call
  | getVector k frame id scope name index out =>
    getVector k frame id scope name index { out with count := some n }
  | c => c

theorem fetch_failed {α : Type} {k : Handle} {out : Cell α} {look : Pipeline → Option α}
    (failed : (fetch h k out look).1 = false) : (fetch h k out look).2.1 = out := by
  obtain ⟨answer, memory, -⟩ := fetch_eq (h := h) (k := k) out look
  rw [answer] at failed
  have nothing : (out.bind fun _ => (h.pipelines.get? k).bind look) = none := by simpa using failed
  rw [memory, nothing, Option.none_or]

/-- A vector is copied, or its count is written, or nothing is. -/
theorem getVector_cases (k : Handle) (frame : Int) (id : Int64) (scope name : TextCell)
    (index : Nat) (out : VectorCells) :
    match (getVector k frame id scope name index out).tooLong? h with
    | none => (Foreign.getVector h k frame id scope name index out).1 = false →
      (Foreign.getVector h k frame id scope name index out).2.1 = out
    | some n => (Foreign.getVector h k frame id scope name index out).1 = false ∧
      (Foreign.getVector h k frame id scope name index out).2.1 = { out with count := some n } := by
  obtain ⟨numbers, count, confidence, confident⟩ := out
  -- What is missing among memory, names and values answers no before anything is written.
  unfold Foreign.getVector
  simp only [tooLong?]
  rcases count with _ | room
  · exact fun _ => rfl
  rcases confidence with _ | old
  · exact fun _ => rfl
  rcases confident with _ | set
  · exact fun _ => rfl
  rcases textOf? scope with _ | scope
  · exact fun _ => rfl
  rcases textOf? name with _ | name
  · exact fun _ => rfl
  simp only [Host.readVector_eq, Host.lookUp_fst, Option.bind_eq_bind, Option.bind_some]
  rcases h.pipelines.get? k with _ | p
  · exact fun _ => rfl
  simp only [Option.bind_some]
  rcases p.reading? frame id scope name index with _ | r
  · exact fun _ => rfl
  simp only [Option.bind_some]
  rcases r.vector? with _ | there
  · exact fun _ => rfl
  simp only [Option.map_some, Option.bind_some]
  rcases Nat.lt_or_ge ((numbers.getD []).take room).length there.length with short | enough
  · simp only [if_pos short, Option.pure_def]
    exact ⟨trivial, trivial⟩
  · simp only [if_neg (Nat.not_lt.mpr enough)]
    exact fun copied => by cases copied

/-- A track is written to both pieces of memory, or to neither. -/
theorem getTrack_cases (k : Handle) (frame : Int) (id : Int64) (box : Cell Box) (track : Cell Int64)
    (asked : c = getTrack k frame id box track) :
    ((c.run h).answer = .flag false ∧ (c.run h).call = c) ∨
      ∃ p t, h.pipelines.get? k = some p ∧ p.track? frame id = some t ∧
        (c.run h).answer = .flag true ∧
        (c.run h).call = getTrack k frame id (some t.box) (some t.id) := by
  subst asked
  obtain ⟨found, known, answer, box', track', -⟩ := getTrack_eq (h := h) (k := k) frame id box track
  rcases found with _ | t
  · refine .inl ⟨congrArg Answer.flag answer, ?_⟩
    exact congrArg₂ (getTrack k frame id) box' track'
  · have known := known.symm
    simp only [Option.bind_eq_bind, Option.bind_eq_some_iff] at known
    obtain ⟨_, -, _, -, p, live, there⟩ := known
    refine .inr ⟨p, t, live, there, congrArg Answer.flag answer, ?_⟩
    exact congrArg₂ (getTrack k frame id) box' track'

/-- A call that answers as failures do leaves memory as it was, but that it may tell the size of a
vector. -/
theorem memory_of_sentinel (keeps : h.pipelines.Keeps Pipeline.Reachable)
    (failed : (c.run h).answer = c.sentinel) (room : c.tooLong? h = none) : (c.run h).call = c := by
  cases c with
  | unpack k stage batch buffer =>
    have zero : (Foreign.unpack h k stage batch buffer).1 = 0 := Answer.natural.inj failed
    have consistent : ∀ p, h.pipelines.get? k = some p → p.Consistent :=
      fun _ live => (keeps.each live).consistent
    have cause := (unpacksInto consistent).fails.mp zero
    exact congrArg (unpack k stage batch) (failsToUnpack cause).memory
  | getConfidence k frame id out =>
    exact congrArg (getConfidence k frame id) (fetch_failed (Answer.flag.inj failed))
  | getText k frame id field buffer =>
    have zero : (Foreign.getText h k frame id field buffer).1 = 0 := Answer.natural.inj failed
    refine congrArg (getText k frame id field) ?_
    rw [getText_eq] at zero ⊢
    rcases found : (h.pipelines.get? k).bind (·.text? frame id field) with _ | text
    · rfl
    · rw [found] at zero
      cases zero
  | getBox k frame id out =>
    exact congrArg (getBox k frame id) (fetch_failed (Answer.flag.inj failed))
  | getTrack k frame id box track =>
    rcases getTrack_cases (h := h) k frame id box track rfl with ⟨-, same⟩ | ⟨_, _, -, -, yes, -⟩
    · exact same
    · cases yes.symm.trans failed
  | getVector k frame id scope name index out =>
    have told := getVector_cases (h := h) k frame id scope name index out
    rw [room] at told
    exact congrArg (getVector k frame id scope name index) (told (Answer.flag.inj failed))
  | _ => rfl

/-- For a vector that is there and does not fit, the caller learns its size and nothing else. -/
theorem memory_of_tooLong {n : Nat} (large : c.tooLong? h = some n) :
    (c.run h).answer = .flag false ∧ (c.run h).call = c.withCount n := by
  cases c with
  | getVector k frame id scope name index out =>
    have told := getVector_cases (h := h) k frame id scope name index out
    rw [large] at told
    obtain ⟨no, count⟩ := told
    exact ⟨congrArg Answer.flag no, congrArg (getVector k frame id scope name index) count⟩
  | _ => cases large

/-! ### All calls -/

/-- How a foreign call on a host deals with what fails. -/
structure FoldsErrors (h : Host) (c : Call) : Prop where
  /-- A call that makes, takes in, moves or counts something fails for one of two reasons. -/
  answer : c.Folds → ((c.run h).answer = c.sentinel ↔
    c.Unusable h ∨ ∃ e, c.core? h = some (.error e))
  /-- It cannot succeed with the answer that stands for a failure. -/
  success : c.Folds → ∀ a, c.core? h = some (.ok a) → (c.run h).answer = a ∧ a ≠ c.sentinel
  pipelines : (c.run h).answer = c.sentinel → (c.run h).host.pipelines = h.pipelines
  memory : (c.run h).answer = c.sentinel → c.tooLong? h = none → (c.run h).call = c
  tooLong : ∀ n, c.tooLong? h = some n →
    (c.run h).answer = .flag false ∧ (c.run h).call = c.withCount n
  track : ∀ k frame id box track, c = getTrack k frame id box track →
    ((c.run h).answer = .flag false ∧ (c.run h).call = c) ∨
      ∃ p t, h.pipelines.get? k = some p ∧ p.track? frame id = some t ∧
        (c.run h).answer = .flag true ∧
        (c.run h).call = getTrack k frame id (some t.box) (some t.id)
  looks : c.Looks → (c.run h).host.pipelines = h.pipelines

/-- **Failures are told apart from successes and leave nothing behind.** On a reachable host, a
call answers as failures do exactly when an argument is of no use or what it is about is refused,
and no success is answered in that way. A call that answers so leaves all pipelines and the memory
of the caller as they were, but for the size of a vector that does not fit. A track is written to
memory whole or not at all, and reading changes no pipeline. -/
theorem errors_folded {h : Host} (reachable : h.Reachable) (c : Call) : c.FoldsErrors h where
  answer := answer_eq_sentinel_iff reachable.keeps
  success folds a done := by
    refine ⟨?_, core_ne_sentinel reachable.keeps folds done⟩
    rw [answer_eq folds, done]
    rfl
  pipelines := pipelines_of_sentinel reachable.keeps
  memory := memory_of_sentinel reachable.keeps
  tooLong _ := memory_of_tooLong
  track k frame id box track asked := getTrack_cases k frame id box track asked
  looks := pipelines_of_looks

/-- Without memory for the two frames that are announced, nothing is packed. -/
theorem errors_folded_sample : Host.sample.Reachable ∧
    (pack ⟨1, 0⟩ (closed "packs") (.missing 2)).FoldsErrors Host.sample ∧
    ((pack ⟨1, 0⟩ (closed "packs") (.missing 2)).run Host.sample).answer = .integer (-1) ∧
    ((stageSize ⟨1, 0⟩ (closed "packs")).run Host.sample).answer = .integer 1 :=
  ⟨Host.reachable_sample, errors_folded Host.reachable_sample _, by decide +kernel,
    by decide +kernel⟩

end Call
end Foreign
end FrameFlow
