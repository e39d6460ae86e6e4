/-
# Refusals are invisible

An operation that answers with an error, asks for more room or says no has done
nothing: what was checked late was checked before anything changed, and what was
taken from the queue is put back as it stood. So refused operations can be left
out of a run, and all others answer the same and leave the same pipelines.

Key definitions: `Pipeline.history`, `Pipeline.accepted`.
Key theorem: `Pipeline.refusals_invisible`.
-/
import FrameFlow.Proofs.Pipeline.Addressed

namespace FrameFlow

/-- A reply for an outcome is a refusal only when the answer is an error, or stands for one. -/
theorem Outcome.replied_refused {α : Type} {o : Outcome α} {form : α → Reply} {p : Pipeline}
    (error : ∀ e, o.answer = .error e → o.next = p)
    (no : ∀ a, o.answer = .ok a → (form a).isRefusal → o.next = p)
    (h : (o.replied form).1.isRefusal) : (o.replied form).2 = p := by
  unfold replied at h ⊢
  rcases answer : o.answer with e | a
  · exact error e answer
  · rw [answer] at h
    exact no a answer h

namespace Pipeline

variable {p : Pipeline}

/-! ### Operations that answer with an error -/

theorem addFrame_error {stage : String} {f : Frame} {e : Error}
    (h : (p.addFrame stage f).answer = .error e) : (p.addFrame stage f).next = p := by
  unfold addFrame at h ⊢
  split
  · rfl
  · next hd =>
    rw [hd] at h
    cases h

theorem delete_error (consistent : p.Consistent) {id : Int} {e : Error}
    (h : (p.delete id).answer = .error e) : (p.delete id).next = p := by
  rcases delete_cases consistent id with ⟨e', hd⟩ | ⟨_, -, answer, -⟩
  · rw [hd]; rfl
  · rw [answer] at h
    cases h

theorem move_error {stage : String} {ids : List Int} {e : Error}
    (h : (p.move stage ids).answer = .error e) : (p.move stage ids).next = p := by
  unfold move at h ⊢
  split
  · rfl
  · next dest s hd =>
    rw [hd] at h
    simp only at h
    split
    · rfl
    · next hne =>
      rw [if_neg hne] at h
      split
      · rfl
      · next hp =>
        rw [hp] at h
        cases h

theorem pack_error {stage : String} {ids : List Int} {e : Error}
    (h : (p.pack stage ids).answer = .error e) : (p.pack stage ids).next = p := by
  unfold pack at h ⊢
  split
  · rfl
  · next hne =>
    rw [if_neg hne] at h
    simp only at h ⊢
    split
    · rfl
    · next hp =>
      rw [hp] at h
      cases h

theorem unpack_error {stage : String} {id : Int} {e : Error}
    (h : (p.unpack stage id).answer = .error e) : (p.unpack stage id).next = p := by
  unfold unpack at h ⊢
  split
  · rfl
  · next hr =>
    rw [hr] at h
    cases h

/-- An unpacking that asks first does something only when it answers with members. -/
theorem unpackIf_refused {stage : String} {id : Int} {accept : Nat → Bool}
    (h : ∀ ids, (p.unpackIf stage id accept).answer ≠ .ok (.members ids)) :
    (p.unpackIf stage id accept).next = p := by
  unfold unpackIf at h ⊢
  split
  · rfl
  · next source dest b hr =>
    rw [hr] at h
    simp only at h ⊢
    split
    · next yes =>
      rw [if_pos yes] at h
      exact absurd rfl (h b.members)
    · rfl

theorem enqueue_error {id : Int} {u : Update} {e : Error}
    (h : (p.enqueue id u).answer = .error e) : (p.enqueue id u).next = p := by
  rcases enqueue_cases (p := p) id u with ⟨e', he⟩ | ⟨_, -, -, he⟩
  · rw [he]; rfl
  · rw [he] at h
    cases h

theorem enqueueBatched_error (consistent : p.Consistent) {batch id : Int} {u : Update} {e : Error}
    (h : (p.enqueueBatched batch id u).answer = .error e) :
    (p.enqueueBatched batch id u).next = p := by
  rcases enqueueBatched_cases consistent batch id u with ⟨e', he⟩ | ⟨-, -, he⟩
  · rw [he]; rfl
  · rw [he] at h
    cases h

/-- A commit does something only when it answers yes. -/
theorem commit_refused {id : Int} (h : (p.commit id).answer ≠ .ok true) :
    (p.commit id).next = p := by
  rcases commit_cases (p := p) id with
    ⟨-, next, -⟩ | ⟨_, -, -, ⟨e, -, -, next⟩ | ⟨_, -, answer, -⟩⟩
  · exact next
  · exact next
  · exact absurd answer h

/-! ### Operations that answer no -/

/-- Dropping nothing leaves the queue as it was, since nothing has an empty entry. -/
theorem discard_no (tight : p.queue.Tight) {id : Int} (h : (p.discard id).1 = false) :
    (p.discard id).2 = p := by
  unfold discard at h ⊢
  rw [Queue.clear_eq] at h ⊢
  have waits : p.queue.under id = [] := by simpa using h
  simp only [Queue.put_nil tight waits]

theorem edit_no {frame : Int} {id : Int64} {change : Detection → Detection}
    (h : (p.edit frame id change).1 = false) : (p.edit frame id change).2 = p := by
  rcases edit_cases (p := p) frame id change with he | ⟨_, -, he⟩
  · rw [he]
  · rw [he] at h
    cases h

/-- The reply to an answer of yes or no is a refusal when it is a no. -/
theorem flag_refused {r : Bool × Pipeline} (no : r.1 = false → r.2 = p)
    (h : (Reply.ofFlag r).1.isRefusal) : (Reply.ofFlag r).2 = p := by
  rcases r with ⟨_ | _, q⟩
  · exact no rfl
  · cases h

/-! ### All operations -/

/-- An operation that is refused leaves the pipeline as it was. -/
theorem run_refused (h : p.Consistent) (a : p.Addressed) (op : Operation)
    (refused : (op.run p).1.isRefusal) : (op.run p).2 = p := by
  cases op with
  | addFrame stage f =>
    exact Outcome.replied_refused (fun _ => addFrame_error) (fun _ _ no => by cases no) refused
  | delete id =>
    exact Outcome.replied_refused (fun _ => delete_error h) (fun _ _ no => by cases no) refused
  | move stage ids =>
    exact Outcome.replied_refused (fun _ => move_error) (fun _ _ no => by cases no) refused
  | pack stage ids =>
    exact Outcome.replied_refused (fun _ => pack_error) (fun _ _ no => by cases no) refused
  | unpack stage batch =>
    exact Outcome.replied_refused (fun _ => unpack_error) (fun _ _ no => by cases no) refused
  | unpackIf stage batch accept =>
    refine Outcome.replied_refused (fun e answer => ?_) (fun r answer no => ?_) refused
    · exact unpackIf_refused fun ids => by rw [answer]; simp
    · cases r with
      | members ids => cases no
      | needs count => exact unpackIf_refused fun ids => by rw [answer]; simp
  | enqueue id u =>
    exact Outcome.replied_refused (fun _ => enqueue_error) (fun _ _ no => by cases no) refused
  | enqueueBatched batch id u =>
    exact Outcome.replied_refused (fun _ => enqueueBatched_error h) (fun _ _ no => by cases no)
      refused
  | commit id =>
    refine Outcome.replied_refused (fun e answer => ?_) (fun yes answer no => ?_) refused
    · exact commit_refused (by rw [answer]; simp)
    · cases yes with
      | true => cases no
      | false => exact commit_refused (by rw [answer]; simp)
  | discard id => exact flag_refused (discard_no a.tight) refused
  | setConfidence frame id confidence => exact flag_refused edit_no refused
  | setBox frame id box => exact flag_refused edit_no refused
  | setTrack frame id track => exact flag_refused edit_no refused

/-! ### Runs -/

/-- What is seen of a run: each operation with its reply and the pipeline that it leaves. -/
def history (p : Pipeline) : List Operation → List (Operation × Reply × Pipeline)
  | [] => []
  | op :: ops => (op, op.run p) :: history (op.run p).2 ops

/-- The operations of a run that are not refused in it. -/
def accepted (p : Pipeline) (ops : List Operation) : List Operation :=
  ((p.history ops).filter fun e => !e.2.1.isRefusal).map Prod.fst

/-- Without its refused operations, a run goes as it went. -/
theorem history_accepted (ops : List Operation) (h : p.Consistent) (a : p.Addressed) :
    p.history (p.accepted ops) = (p.history ops).filter (fun e => !e.2.1.isRefusal) ∧
      p.after (p.accepted ops) = p.after ops := by
  induction ops generalizing p with
  | nil => exact ⟨rfl, rfl⟩
  | cons op ops ih =>
    have e := effect_run h op
    obtain ⟨same, after⟩ := ih (h.effect e) (a.effect h e)
    by_cases refused : (op.run p).1.isRefusal
    · have stays := run_refused h a op refused
      have rest : p.accepted (op :: ops) = (op.run p).2.accepted ops := by
        simp [accepted, history, refused]
      rw [rest, history, List.filter_cons_of_neg (by simpa using refused), ← same, Pipeline.after,
        ← after, stays]
      exact ⟨rfl, rfl⟩
    · have rest : p.accepted (op :: ops) = op :: (op.run p).2.accepted ops := by
        simp [accepted, history, refused]
      rw [rest, history, history, List.filter_cons_of_pos (by simpa using refused), same]
      exact ⟨rfl, after⟩

/-- **A refused operation is invisible.** It leaves a reachable pipeline as it was, in all its
parts. So a run without its refused operations has the same replies to all others, in particular
the same new identifiers, and leaves the same pipelines. -/
theorem refusals_invisible (reachable : p.Reachable) :
    (∀ op : Operation, (op.run p).1.isRefusal → (op.run p).2 = p) ∧
      ∀ ops, p.history (p.accepted ops) = (p.history ops).filter (fun e => !e.2.1.isRefusal) ∧
        p.after (p.accepted ops) = p.after ops := by
  have h := reachable.consistent
  have a := reachable.addressed
  exact ⟨run_refused h a, fun ops => history_accepted ops h a⟩

/-- A packed frame cannot be deleted, and nothing comes of trying. -/
theorem refusals_invisible_sample : sample.Reachable ∧
    ((Operation.delete 1).run sample).1.isRefusal ∧ ((Operation.delete 1).run sample).2 = sample :=
  ⟨reachable_sample, by decide, (refusals_invisible reachable_sample).1 (.delete 1) (by decide)⟩

end Pipeline
end FrameFlow
