/-
# Answers that stand for failures

A foreign call that makes, takes in, moves or counts something has one answer for
all of its failures: a handle or a size of zero, minus one, or a no. The call
fails where an argument is of no use, or where what it is about is refused. What
is made and counted never comes out as that answer: handles are not zero,
identifiers start at one, and no batch is empty.

Key definitions: `Foreign.comesTo?`, `Call.Folds`, `Call.sentinel`, `Call.Unusable`,
`Call.core?`.
Key theorems: `Call.core?_eq_none_iff`, `Call.answer_eq`, `Call.core_ne_sentinel`,
`Call.answer_eq_sentinel_iff`.
-/
import FrameFlow.Proofs.Host.Unpacking
import FrameFlow.Proofs.Pipeline.Identifiers

namespace FrameFlow

/-! ### Answers of pipelines -/

namespace Pipeline

variable {p : Pipeline} {stage : String} {id : Int}

/-- Identifiers that are issued start at one. -/
theorem one_le_of_counts (consistent : p.Consistent) {q : Pipeline}
    (counts : Counts p q (some id)) : 1 ≤ id := by
  have counted := consistent.counted
  obtain ⟨-⟩ := counts
  omega

theorem one_le_addFrame (consistent : p.Consistent) {f : Frame}
    (issued : (p.addFrame stage f).answer = .ok id) : 1 ≤ id := by
  have counts := counts_addFrame (p := p) stage f
  rw [issued] at counts
  exact one_le_of_counts consistent counts

theorem one_le_pack (consistent : p.Consistent) {ids : List Int}
    (issued : (p.pack stage ids).answer = .ok id) : 1 ≤ id := by
  have counts := counts_pack (p := p) stage ids
  rw [issued] at counts
  exact one_le_of_counts consistent counts

end Pipeline

/-! ### Answers of hosts -/

namespace Host

variable {α β : Type} (h : Host) (k : Handle)

/-- A host answers as the pipeline behind the handle does. -/
theorem toOption_run (operation : Pipeline → Outcome α) : (h.run k operation).1.toOption =
    (h.pipelines.get? k).bind fun p => (operation p).answer.toOption := by
  rcases found : h.pipelines.get? k with _ | p
  · rw [(run_unknown found operation).1]
    rfl
  · rw [(run_known found operation).1]
    rfl

/-- A text that is refused is refused behind every handle. -/
theorem toOption_whenRead_run (read : Except Error α) (operation : α → Pipeline → Outcome β) :
    (h.whenRead read fun a => h.run k (operation a)).1.toOption =
      (h.pipelines.get? k).bind fun p => (read >>= fun a => (operation a p).answer).toOption := by
  rcases read with e | a
  · rcases h.pipelines.get? k with _ | p
    · rfl
    · rfl
  · exact h.toOption_run k (operation a)

/-- A new pipeline is answered by its handle. -/
theorem toOption_createFromJson (text : String) : (h.createFromJson text).1.toOption =
    (Config.ofJson text >>= Pipeline.create).toOption.map fun made =>
      (h.pipelines.insert made.1).1 := by
  unfold createFromJson
  rcases Config.ofJson text with e | c
  · rfl
  · rcases h.create_cases c with ⟨e, refused, answer, -⟩ | ⟨checked, answer, -⟩
    · have failed : (Except.ok c >>= Pipeline.create) = .error e := refused
      simp only [answer, failed]
      rfl
    · have made : (Except.ok c >>= Pipeline.create) = _ := Pipeline.create_of_check checked
      simp only [answer, made]
      rfl

end Host

namespace Foreign

theorem perform_fst {α β : Type} (call : String) (h : Host) (k : Handle) (arguments : Option α)
    (operation : α → Pipeline → Outcome β) : (perform call h k arguments operation).1 =
      arguments.bind fun a => (h.pipelines.get? k).bind fun p =>
        (operation a p).answer.toOption := by
  rcases found : h.pipelines.get? k with _ | p
  · rw [(perform_unknown found call arguments operation).1]
    rcases arguments with _ | a
    · rfl
    · rfl
  · rcases arguments with _ | a
    · exact (perform_unusable call operation).1
    · exact (perform_known found call a operation).1

/-! ### Operations behind a handle -/

section Behind

variable {α β : Type} {h : Host} {k : Handle} {arguments : Option α}
  {operation : α → Pipeline → Except Error β} {form : β → Answer}

/-- What an operation comes to on the pipeline behind a handle, if there is one and the arguments
can be used. -/
def comesTo? (h : Host) (k : Handle) (arguments : Option α)
    (operation : α → Pipeline → Except Error β) (form : β → Answer) :
    Option (Except Error Answer) := do
  let a ← arguments
  let p ← h.pipelines.get? k
  return (operation a p).map form

theorem comesTo?_eq_none_iff : comesTo? h k arguments operation form = none ↔
    arguments = none ∨ h.pipelines.get? k = none := by
  unfold comesTo?
  rcases arguments with _ | a
  · simp
  · rcases h.pipelines.get? k with _ | p
    · simp
    · simp

theorem comesTo?_known {a : α} {p : Pipeline} (given : arguments = some a)
    (live : h.pipelines.get? k = some p) :
    comesTo? h k arguments operation form = some ((operation a p).map form) := by
  unfold comesTo?
  rw [given, live]
  rfl

/-- An operation that succeeds does so on a pipeline. -/
theorem comesTo?_ok {answer : Answer}
    (done : comesTo? h k arguments operation form = some (.ok answer)) :
    ∃ a p b, arguments = some a ∧ h.pipelines.get? k = some p ∧ operation a p = .ok b ∧
      form b = answer := by
  rcases arguments with _ | a
  · cases done
  · rcases live : h.pipelines.get? k with _ | p
    · rw [comesTo?_eq_none_iff.mpr (.inr live)] at done
      cases done
    · rw [comesTo?_known rfl live] at done
      rcases result : operation a p with e | b
      · rw [result] at done
        cases done
      · rw [result] at done
        cases done
        exact ⟨a, p, b, rfl, rfl, result, rfl⟩

/-- What does not succeed is refused by the pipeline. -/
theorem error_of_comesTo? (fails : ∀ a, comesTo? h k arguments operation form ≠ some (.ok a))
    {a : α} {p : Pipeline} (given : arguments = some a) (live : h.pipelines.get? k = some p) :
    ∃ e, operation a p = .error e := by
  rcases result : operation a p with e | b
  · exact ⟨e, rfl⟩
  · refine absurd ?_ (fails (form b))
    rw [comesTo?_known given live, result]
    rfl

theorem toOption_comesTo? : (comesTo? h k arguments operation form).bind Except.toOption =
    (arguments.bind fun a => (h.pipelines.get? k).bind fun p => (operation a p).toOption).map
      form := by
  unfold comesTo?
  rcases arguments with _ | a
  · rfl
  · rcases h.pipelines.get? k with _ | p
    · rfl
    · simp only [Option.pure_def, Option.bind_eq_bind, Option.bind_some]
      rcases operation a p with e | b
      · rfl
      · rfl

/-- Whether there is something is told by a yes or a no. -/
theorem flag_isSome (x : Option α) :
    Answer.flag x.isSome = (x.map fun _ => .flag true).getD (.flag false) := by
  rcases x with _ | a
  · rfl
  · rfl

end Behind

namespace Call

/-! ### What a call needs and what it is about -/

/-- The calls that make, take in, move or count something. -/
def Folds : Call → Prop
  | create .. | addFrame .. | enqueue .. | enqueueBatched .. | stageSize .. | delete .. | move ..
  | pack .. | unpack .. => True
  | _ => False

/-- The answer that stands for a failure. -/
def sentinel : Call → Answer
  | create .. | unpack .. | getText .. => .natural 0
  | addFrame .. | stageSize .. | move .. | pack .. => .integer (-1)
  | setUpLogging .. => .nothing
  | _ => .flag false

/-- The texts that a call cannot do without. -/
def texts : Call → List TextCell
  | create config => [config]
  | addFrame _ stage frame => [stage, frame]
  | enqueue _ _ update | enqueueBatched _ _ _ update => [update]
  | stageSize _ stage | move _ stage _ | pack _ stage _ | unpack _ stage _ _ => [stage]
  | _ => []

/-- The identifiers that a call goes through. -/
def spans : Call → List (Span Int)
  | move _ _ ids | pack _ _ ids => [ids]
  | _ => []

/-- The handle by which a call reaches a pipeline. -/
def handle? : Call → Option Handle
  | checkVersion _ | setUpLogging .. | create _ => none
  | release k | addFrame k .. | enqueue k .. | enqueueBatched k .. | stageSize k _ | delete k _
  | move k .. | pack k .. | unpack k .. | commit k _ | discard k _ | getConfidence k ..
  | setConfidence k .. | getText k .. | getBox k .. | setBox k .. | getTrack k .. | setTrack k ..
  | clearTrack k .. | getVector k .. => some k

/-- A text is missing or not valid, there is no memory for identifiers that were announced, or the
handle has nothing behind it. -/
def Unusable (h : Host) (c : Call) : Prop :=
  (∃ text ∈ c.texts, textOf? text = none) ∨ (∃ ids ∈ c.spans, ids.toList? = none) ∨
    ∃ k, c.handle? = some k ∧ h.pipelines.get? k = none

/-- What a call is about comes to, if all of its arguments can be used. -/
def core? (h : Host) : Call → Option (Except Error Answer)
  | create config => do
    let text ← textOf? config
    return (Config.ofJson text >>= Pipeline.create).map fun made =>
      .natural (h.pipelines.insert made.1).1.number
  | addFrame k stage frame =>
    comesTo? h k (do return (← textOf? stage, ← textOf? frame))
      (fun (stage, text) p => do (p.addFrame stage (← Frame.admissible text)).answer) .integer
  | enqueue k id update =>
    comesTo? h k (textOf? update)
      (fun text p => do (p.enqueue id (← Update.admissible text)).answer) fun _ => .flag true
  | enqueueBatched k batch id update =>
    comesTo? h k (textOf? update)
      (fun text p => do (p.enqueueBatched batch id (← Update.admissible text)).answer)
      fun _ => .flag true
  | stageSize k stage =>
    comesTo? h k (textOf? stage)
      (fun stage p => match p.stageSize? stage with
        | none => .error (.stageNotFound stage)
        | some n => .ok n)
      fun n : Nat => .integer n
  | delete k id => comesTo? h k (some id) (fun id p => (p.delete id).answer) fun _ => .flag true
  | move k stage ids =>
    comesTo? h k (destination? stage ids) (fun (stage, ids) p => (p.move stage ids).answer)
      fun count : Nat => .integer count
  | pack k stage ids =>
    comesTo? h k (destination? stage ids) (fun (stage, ids) p => (p.pack stage ids).answer) .integer
  | unpack k stage batch _ =>
    comesTo? h k (textOf? stage) (fun stage p => (p.unpack stage batch).answer)
      fun ids => .natural ids.length
  | _ => none

variable {h : Host} {c : Call}

/-- Two arguments can be used when both of them can. -/
theorem both_eq_none_iff {α β : Type} {x : Option α} {y : Option β} :
    (do return (← x, ← y) : Option (α × β)) = none ↔ x = none ∨ y = none := by
  rcases x with _ | a
  · simp
  · rcases y with _ | b
    · simp
    · simp

/-- Nothing comes of a call exactly when an argument is of no use. -/
theorem core?_eq_none_iff (folds : c.Folds) : c.core? h = none ↔ c.Unusable h := by
  unfold Unusable
  cases c with
  | create config =>
    rcases read : textOf? config with _ | text
    · simp [core?, texts, spans, handle?, read]
    · simp [core?, texts, spans, handle?, read]
  | enqueue | enqueueBatched | stageSize | delete | unpack =>
    refine comesTo?_eq_none_iff.trans ?_
    simp [texts, spans, handle?]
  | addFrame =>
    refine comesTo?_eq_none_iff.trans ((or_congr_left both_eq_none_iff).trans ?_)
    simp [texts, spans, handle?]
  | move | pack =>
    refine comesTo?_eq_none_iff.trans ((or_congr_left both_eq_none_iff).trans ?_)
    simp [texts, spans, handle?, or_assoc]
  | _ => exact folds.elim

/-- A call answers what it comes to, and otherwise as all failures do. -/
theorem answer_eq (folds : c.Folds) :
    (c.run h).answer = ((c.core? h).bind Except.toOption).getD c.sentinel := by
  cases c with
  | create config =>
    change Answer.natural (Foreign.create h config).1 = _
    simp only [core?, Foreign.create, sentinel]
    rcases textOf? config with _ | text
    · rfl
    · simp only [report_fst, Host.toOption_createFromJson, Option.pure_def, Option.bind_eq_bind,
        Option.bind_some]
      rcases Config.ofJson text >>= Pipeline.create with e | made
      · rfl
      · rfl
  | addFrame k stage frame =>
    change Answer.integer (Foreign.addFrame h k stage frame).1 = _
    simp only [core?, toOption_comesTo?, sentinel, Foreign.addFrame]
    rcases textOf? stage with _ | stage
    · rfl
    · rcases textOf? frame with _ | text
      · rfl
      · simp only [report_fst, Host.addFrame, Host.toOption_whenRead_run]
        exact (Option.getD_map Answer.integer (-1) _).symm
  | enqueue k id update =>
    change Answer.flag (Foreign.enqueue h k id update).1 = _
    simp only [core?, toOption_comesTo?, sentinel, Foreign.enqueue]
    rcases textOf? update with _ | text
    · rfl
    · simp only [report_fst, Host.enqueue, Host.toOption_whenRead_run]
      exact flag_isSome _
  | enqueueBatched k batch id update =>
    change Answer.flag (Foreign.enqueueBatched h k batch id update).1 = _
    simp only [core?, toOption_comesTo?, sentinel, Foreign.enqueueBatched]
    rcases textOf? update with _ | text
    · rfl
    · simp only [report_fst, Host.enqueueBatched, Host.toOption_whenRead_run]
      exact flag_isSome _
  | stageSize k stage =>
    change Answer.integer (Foreign.stageSize h k stage).1 = _
    simp only [core?, toOption_comesTo?, sentinel, Foreign.stageSize, Host.lookUp_fst]
    rcases h.pipelines.get? k with _ | p
    · rcases textOf? stage with _ | s
      · rfl
      · rfl
    · rcases textOf? stage with _ | s
      · rfl
      · simp only [Option.bind_some]
        rcases p.stageSize? s with _ | n
        · rfl
        · rfl
  | delete k id =>
    change Answer.flag (Foreign.delete h k id).1 = _
    simp only [core?, toOption_comesTo?, sentinel, Foreign.delete, perform_fst]
    exact flag_isSome _
  | move k stage ids =>
    change Answer.integer (Foreign.move h k stage ids).1 = _
    simp only [core?, toOption_comesTo?, sentinel, Foreign.move, perform_fst]
    rw [← Option.getD_map Answer.integer, Option.map_map]
    rfl
  | pack k stage ids =>
    change Answer.integer (Foreign.pack h k stage ids).1 = _
    simp only [core?, toOption_comesTo?, sentinel, Foreign.pack, perform_fst]
    exact (Option.getD_map Answer.integer (-1) _).symm
  | unpack k stage batch buffer =>
    change Answer.natural (Foreign.unpack h k stage batch buffer).1 = _
    rcases noUnpacking_or h k stage batch with cause | ⟨s, p, ids, read, live, plain⟩
    · rw [(failsToUnpack cause).answer]
      rcases cause with unreadable | dead | ⟨s, p, e, read, live, plain⟩
      · rw [core?, comesTo?_eq_none_iff.mpr (.inl unreadable)]
        rfl
      · rw [core?, comesTo?_eq_none_iff.mpr (.inr dead)]
        rfl
      · rw [core?, comesTo?_known read live, plain]
        rfl
    · rw [unpack_count read live plain, core?, comesTo?_known read live, plain]
      rfl
  | _ => exact folds.elim

/-! ### Successes -/

/-- A successful answer is told apart from all failures. -/
theorem core_ne_sentinel (keeps : h.pipelines.Keeps Pipeline.Reachable) {a : Answer}
    (folds : c.Folds) (done : c.core? h = some (.ok a)) : a ≠ c.sentinel := by
  cases c with
  | create config =>
    simp only [core?, Option.bind_eq_bind, Option.pure_def, Option.bind_eq_some_iff,
      Option.some.injEq] at done
    obtain ⟨text, -, done⟩ := done
    rcases made : Config.ofJson text >>= Pipeline.create with e | ⟨p, event⟩
    · rw [made] at done
      cases done
    · rw [made] at done
      cases done
      have number := keeps.number_ne_zero p
      simpa [sentinel] using number
  | addFrame k stage frame =>
    obtain ⟨⟨stage, text⟩, p, id, -, live, taken, rfl⟩ := comesTo?_ok done
    have taken : (Frame.admissible text >>= fun f => (p.addFrame stage f).answer) = .ok id := taken
    rcases read : Frame.admissible text with e | f
    · rw [read] at taken
      cases taken
    · rw [read] at taken
      have pos : 1 ≤ id := Pipeline.one_le_addFrame (keeps.each live).consistent taken
      have ne : id ≠ -1 := by omega
      simpa [sentinel] using ne
  | pack k stage ids =>
    obtain ⟨⟨stage, ids⟩, p, id, -, live, packed, rfl⟩ := comesTo?_ok done
    have pos := Pipeline.one_le_pack (keeps.each live).consistent packed
    have ne : id ≠ -1 := by omega
    simpa [sentinel] using ne
  | unpack k stage batch buffer =>
    obtain ⟨stage, p, ids, -, live, plain, rfl⟩ := comesTo?_ok done
    have filled := Pipeline.unpack_filled (keeps.each live).consistent plain
    have ne : ids.length ≠ 0 := by omega
    simpa [sentinel] using ne
  | stageSize | move =>
    obtain ⟨-, -, n, -, -, -, rfl⟩ := comesTo?_ok done
    simp [sentinel]
  | enqueue | enqueueBatched | delete =>
    obtain ⟨-, -, -, -, -, -, rfl⟩ := comesTo?_ok done
    simp [sentinel]
  | _ => exact folds.elim

/-- A call answers as failures do exactly when it fails. -/
theorem answer_eq_sentinel_iff (keeps : h.pipelines.Keeps Pipeline.Reachable) (folds : c.Folds) :
    (c.run h).answer = c.sentinel ↔ c.Unusable h ∨ ∃ e, c.core? h = some (.error e) := by
  rw [answer_eq folds, ← core?_eq_none_iff folds]
  rcases core : c.core? h with _ | ⟨e | a⟩
  · simp
  · simp [Except.toOption]
  · have ne := core_ne_sentinel keeps folds core
    simpa [Except.toOption] using ne

end Call
end Foreign
end FrameFlow
