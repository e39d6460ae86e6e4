/-
# What a call does to the pipelines of a host

Telling, setting the log up and opening the registry leave all pipelines alone. A
call reaches one pipeline by its handle: with nothing behind the handle it is
refused, and with a pipeline there it answers as the operation does, and the
pipeline that the operation leaves replaces the one before.

Key theorems: `Host.run_unknown`, `Host.run_known`, `Host.lookUp_fst`,
`Foreign.perform_unknown`, `Foreign.perform_known`, `Foreign.changed_known`.
-/
import FrameFlow.Proofs.Host.Runs
import FrameFlow.Proofs.Registry.Keeping

namespace FrameFlow

/-! ### Buffers -/

theorem fill_of_le {α : Type} {items buffer : List α} (room : items.length ≤ buffer.length) :
    fill items buffer = (.written items.length, items ++ buffer.drop items.length) :=
  if_neg (Nat.not_lt.mpr room)

theorem fill_of_lt {α : Type} {items buffer : List α} (small : buffer.length < items.length) :
    fill items buffer = (.needs items.length, buffer) :=
  if_pos small

namespace Host

variable {α β : Type} (h : Host) (k : Handle)

/-! ### Telling -/

@[simp] theorem pipelines_tell (e : Event) : (h.tell e).pipelines = h.pipelines := rfl

@[simp] theorem pipelines_tellAll (es : List Event) : (h.tellAll es).pipelines = h.pipelines := by
  unfold tellAll
  induction es generalizing h with
  | nil => rfl
  | cons e es ih => rw [List.foldl_cons, ih, pipelines_tell]

@[simp] theorem pipelines_setUpFor (c : Config) : (h.setUpFor c).pipelines = h.pipelines := by
  unfold setUpFor
  split
  · rfl
  · rfl

@[simp] theorem pipelines_openRegistry : h.openRegistry.pipelines = h.pipelines := by
  unfold openRegistry
  split
  · rfl
  · rfl

/-! ### Reaching a pipeline -/

variable {h k} {p : Pipeline}

/-- Nothing is done with a handle that has no pipeline. -/
theorem run_unknown (dead : h.pipelines.get? k = none) (operation : Pipeline → Outcome α) :
    (h.run k operation).1 = .error (.unknownHandle k.number) ∧
      (h.run k operation).2.pipelines = h.pipelines := by
  unfold run
  simp only [h.pipelines_openRegistry, dead]
  exact ⟨trivial, trivial⟩

theorem run_eq (live : h.pipelines.get? k = some p) (operation : Pipeline → Outcome α) :
    h.run k operation = ((operation p).answer,
      { h.openRegistry with pipelines := h.pipelines.replace k (operation p).next }.tellAll
        (operation p).events) := by
  unfold run
  simp only [h.pipelines_openRegistry, live]

/-- The pipeline behind a handle is replaced by the one that the operation leaves. -/
theorem run_known (live : h.pipelines.get? k = some p) (operation : Pipeline → Outcome α) :
    (h.run k operation).1 = (operation p).answer ∧
      (h.run k operation).2.pipelines = h.pipelines.replace k (operation p).next := by
  rw [run_eq live]
  exact ⟨rfl, pipelines_tellAll _ _⟩

theorem change_unknown (dead : h.pipelines.get? k = none) (operation : Pipeline → α × Pipeline) :
    (h.change k operation).1 = .error (.unknownHandle k.number) ∧
      (h.change k operation).2.pipelines = h.pipelines :=
  run_unknown dead _

theorem change_known (live : h.pipelines.get? k = some p) (operation : Pipeline → α × Pipeline) :
    (h.change k operation).1 = .ok (operation p).1 ∧
      (h.change k operation).2.pipelines = h.pipelines.replace k (operation p).2 :=
  run_known live _

/-! ### Looking -/

theorem view_known (live : h.pipelines.get? k = some p) (look : Pipeline → α) :
    (h.view k look).1 = .ok (look p) :=
  (change_known live _).1

@[simp] theorem pipelines_view (look : Pipeline → α) :
    (h.view k look).2.pipelines = h.pipelines := by
  rcases found : h.pipelines.get? k with _ | p
  · exact (change_unknown found _).2
  · refine (change_known found _).2.trans ?_
    exact Registry.replace_self found

theorem lookUp_eq (look : Pipeline → Option α) :
    h.lookUp k look = ((h.view k look).1.toOption.join, (h.view k look).2) := by
  unfold lookUp
  rcases h.view k look with ⟨e | found, h'⟩
  · rfl
  · rfl

/-- What is looked up is what is there; behind an unknown handle there is nothing. -/
theorem lookUp_fst (look : Pipeline → Option α) :
    (h.lookUp k look).1 = (h.pipelines.get? k).bind look := by
  rw [lookUp_eq]
  rcases found : h.pipelines.get? k with _ | p
  · rw [view, (change_unknown found _).1]
    rfl
  · rw [view_known found]
    rfl

@[simp] theorem pipelines_lookUp (look : Pipeline → Option α) :
    (h.lookUp k look).2.pipelines = h.pipelines := by
  rw [lookUp_eq]
  exact pipelines_view look

theorem readText_eq (frame : Int) (id : Int64) (field : TextField) (buffer : List UInt8) :
    h.readText k frame id field buffer =
      match (h.lookUp k (·.text? frame id field)).1 with
      | none => (none, buffer, (h.lookUp k (·.text? frame id field)).2)
      | some text => (some (fillText text buffer).1, (fillText text buffer).2,
          (h.lookUp k (·.text? frame id field)).2) := by
  unfold readText
  rcases h.lookUp k (·.text? frame id field) with ⟨_ | text, h'⟩
  · rfl
  · rfl

@[simp] theorem pipelines_readText (frame : Int) (id : Int64) (field : TextField)
    (buffer : List UInt8) : (h.readText k frame id field buffer).2.2.pipelines = h.pipelines := by
  rw [readText_eq]
  split
  · exact pipelines_lookUp _
  · exact pipelines_lookUp _

/-- A vector is copied when there is room for all of its numbers. -/
theorem readVector_eq (frame : Int) (id : Int64) (scope name : String) (index : Nat)
    (buffer : List Double) : h.readVector k frame id scope name index buffer =
      match (h.lookUp k (·.reading? frame id scope name index)).1.bind fun r =>
        r.vector?.map fun numbers => (numbers, r.confidence) with
      | none => (.absent, buffer, (h.lookUp k (·.reading? frame id scope name index)).2)
      | some (numbers, confidence) =>
        if buffer.length < numbers.length then
          (.needs numbers.length, buffer, (h.lookUp k (·.reading? frame id scope name index)).2)
        else (.copied numbers.length confidence, numbers ++ buffer.drop numbers.length,
          (h.lookUp k (·.reading? frame id scope name index)).2) := by
  unfold readVector
  rcases h.lookUp k (·.reading? frame id scope name index) with ⟨_ | r, h'⟩
  · rfl
  · simp only [Option.bind_some]
    rcases r.vector? with _ | numbers
    · rfl
    · simp only [Option.map_some]
      rcases Nat.lt_or_ge buffer.length numbers.length with small | room
      · simp only [fill_of_lt small, if_pos small]
      · simp only [fill_of_le room, if_neg (Nat.not_lt.mpr room)]

@[simp] theorem pipelines_readVector (frame : Int) (id : Int64) (scope name : String) (index : Nat)
    (buffer : List Double) :
    (h.readVector k frame id scope name index buffer).2.2.pipelines = h.pipelines := by
  rw [readVector_eq]
  split
  · exact pipelines_lookUp _
  · split
    · exact pipelines_lookUp _
    · exact pipelines_lookUp _

end Host

namespace Foreign

variable {α β : Type} {h : Host} {k : Handle} {p : Pipeline}

/-! ### Foreign calls -/

theorem report_fst (call : String) (r : Except Error α × Host) :
    (report call r).1 = r.1.toOption := by
  rcases r with ⟨e | a, h'⟩
  · rfl
  · rfl

@[simp] theorem pipelines_report (call : String) (r : Except Error α × Host) :
    (report call r).2.pipelines = r.2.pipelines := by
  rcases r with ⟨e | a, h'⟩
  · rfl
  · rfl

theorem perform_eq (call : String) (arguments : Option α) (operation : α → Pipeline → Outcome β) :
    perform call h k arguments operation =
      match (h.lookUp k some).1, arguments with
      | some _, some a => report call ((h.lookUp k some).2.run k (operation a))
      | _, _ => (none, (h.lookUp k some).2) := by
  unfold perform
  rcases h.lookUp k some with ⟨_ | p, h'⟩
  · rfl
  · rcases arguments with _ | a
    · rfl
    · rfl

theorem perform_unknown (dead : h.pipelines.get? k = none) (call : String) (arguments : Option α)
    (operation : α → Pipeline → Outcome β) :
    (perform call h k arguments operation).1 = none ∧
      (perform call h k arguments operation).2.pipelines = h.pipelines := by
  rw [perform_eq, Host.lookUp_fst, dead]
  exact ⟨rfl, Host.pipelines_lookUp _⟩

/-- Nothing is done when the arguments cannot be used. -/
theorem perform_unusable (call : String) (operation : α → Pipeline → Outcome β) :
    (perform call h k none operation).1 = none ∧
      (perform call h k none operation).2.pipelines = h.pipelines := by
  rw [perform_eq]
  split
  · next none => cases none
  · exact ⟨rfl, Host.pipelines_lookUp _⟩

theorem perform_known (live : h.pipelines.get? k = some p) (call : String) (a : α)
    (operation : α → Pipeline → Outcome β) :
    (perform call h k (some a) operation).1 = (operation a p).answer.toOption ∧
      (perform call h k (some a) operation).2.pipelines =
        h.pipelines.replace k (operation a p).next := by
  have same : (h.lookUp k some).2.pipelines = h.pipelines := Host.pipelines_lookUp _
  rw [← same] at live
  obtain ⟨answer, next⟩ := Host.run_known live (operation a)
  rw [same] at live next
  rw [perform_eq, Host.lookUp_fst, live, Option.bind_some]
  simp only
  rw [report_fst, pipelines_report, answer, next]
  exact ⟨rfl, rfl⟩

theorem changed_eq (operation : Pipeline → Bool × Pipeline) :
    changed h k operation =
      ((h.change k operation).1.toOption.getD false, (h.change k operation).2) := by
  unfold changed
  rcases h.change k operation with ⟨e | yes, h'⟩
  · rfl
  · rfl

theorem changed_unknown (dead : h.pipelines.get? k = none)
    (operation : Pipeline → Bool × Pipeline) : (changed h k operation).1 = false ∧
      (changed h k operation).2.pipelines = h.pipelines := by
  obtain ⟨answer, next⟩ := Host.change_unknown dead operation
  rw [changed_eq, answer]
  exact ⟨rfl, next⟩

theorem changed_known (live : h.pipelines.get? k = some p)
    (operation : Pipeline → Bool × Pipeline) : (changed h k operation).1 = (operation p).1 ∧
      (changed h k operation).2.pipelines = h.pipelines.replace k (operation p).2 := by
  obtain ⟨answer, next⟩ := Host.change_known live operation
  rw [changed_eq, answer]
  exact ⟨rfl, next⟩

/-- What is found is written to memory, if there is any. -/
theorem fetch_eq (out : Cell α) (look : Pipeline → Option α) :
    (fetch h k out look).1 = ((out.bind fun _ => (h.pipelines.get? k).bind look).isSome) ∧
      (fetch h k out look).2.1 = (out.bind fun _ => (h.pipelines.get? k).bind look).or out ∧
      (fetch h k out look).2.2.pipelines = h.pipelines := by
  have found := Host.lookUp_fst (h := h) (k := k) look
  have same := Host.pipelines_lookUp (h := h) (k := k) look
  unfold fetch
  rcases out with _ | old
  · exact ⟨rfl, rfl, rfl⟩
  · rw [Option.bind_some, ← found]
    rcases looked : h.lookUp k look with ⟨_ | a, h'⟩
    · rw [looked] at same
      exact ⟨rfl, rfl, same⟩
    · rw [looked] at same
      exact ⟨rfl, rfl, same⟩

/-- A track is written to both pieces of memory, or to neither. -/
theorem getTrack_eq (frame : Int) (id : Int64) (box : Cell Box) (track : Cell Int64) :
    ∃ found, (found = do
        let _ ← box
        let _ ← track
        let p ← h.pipelines.get? k
        p.track? frame id) ∧
      (getTrack h k frame id box track).1 = found.isSome ∧
      (getTrack h k frame id box track).2.1 = (found.map Track.box).or box ∧
      (getTrack h k frame id box track).2.2.1 = (found.map Track.id).or track ∧
      (getTrack h k frame id box track).2.2.2.pipelines = h.pipelines := by
  have found := Host.lookUp_fst (h := h) (k := k) (·.track? frame id)
  have same := Host.pipelines_lookUp (h := h) (k := k) (·.track? frame id)
  refine ⟨_, rfl, ?_⟩
  unfold getTrack
  rcases box with _ | box
  · exact ⟨rfl, rfl, rfl, rfl⟩
  · rcases track with _ | track
    · exact ⟨rfl, rfl, rfl, rfl⟩
    · simp only [Option.bind_eq_bind, Option.bind_some, ← found]
      rcases looked : h.lookUp k (·.track? frame id) with ⟨_ | t, h'⟩
      · rw [looked] at same
        exact ⟨rfl, rfl, rfl, same⟩
      · rw [looked] at same
        exact ⟨rfl, rfl, rfl, same⟩

@[simp] theorem pipelines_getVector (frame : Int) (id : Int64) (scope name : TextCell) (index : Nat)
    (out : VectorCells) :
    (getVector h k frame id scope name index out).2.2.pipelines = h.pipelines := by
  unfold getVector
  split
  · next room _ _ scope name _ _ _ _ _ =>
    have same := Host.pipelines_readVector (h := h) (k := k) frame id scope name index
      ((out.numbers.getD []).take room)
    simp only
    split
    · next answer => rw [answer] at same; exact same
    · next answer => rw [answer] at same; exact same
    · next answer => rw [answer] at same; exact same
  · rfl

end Foreign
end FrameFlow
