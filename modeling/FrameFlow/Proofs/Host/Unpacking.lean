/-
# Unpacking into a buffer

A batch is unpacked into a buffer of the caller, if its members fit. The question
is asked before anything changes: where they fit, all goes as in a plain
unpacking, and where they do not, nothing happens but that the caller learns how
much room is needed. No batch is empty, so a count of zero stands for a failure.

Key definitions: `Pipeline.UnpacksIf`, `Foreign.NoUnpacking`, `Foreign.FailsToUnpack`,
`Foreign.UnpacksInto`.
Key theorems: `Pipeline.unpackIf_ok`, `Host.unpackInto_fits`, `Host.unpackInto_small`,
`Foreign.unpacking_negotiated`.
-/
import FrameFlow.Proofs.Host.Shifts
import FrameFlow.Proofs.Pipeline.Addressed

namespace FrameFlow

/-! ### Pipelines -/

namespace Pipeline

variable {p : Pipeline} {stage : String} {k : Int}

theorem unpackIf_error {e : Error} (h : (p.unpack stage k).answer = .error e)
    (accept : Nat → Bool) : p.unpackIf stage k accept = .refuse p e [] := by
  unfold unpack at h
  unfold unpackIf
  rcases route : p.unpackRoute stage k with e' | ⟨source, dest, b⟩
  · rw [route] at h
    cases h
    rfl
  · rw [route] at h
    cases h

/-- An accepted unpacking is a plain one, and another one does nothing. -/
theorem unpackIf_ok {ids : List Int} (h : (p.unpack stage k).answer = .ok ids)
    (accept : Nat → Bool) : p.unpackIf stage k accept =
      if accept ids.length then
        ⟨.ok (.members ids), (p.unpack stage k).next, (p.unpack stage k).events⟩
      else ⟨.ok (.needs ids.length), p, []⟩ := by
  unfold unpack at h ⊢
  unfold unpackIf
  rcases route : p.unpackRoute stage k with e | ⟨source, dest, b⟩
  · rw [route] at h
    cases h
  · rw [route] at h
    cases h
    rfl

theorem unpack_members {ids : List Int} (h : (p.unpack stage k).answer = .ok ids) :
    ∃ b, p.batch? k = some b ∧ ids = b.members := by
  unfold unpack at h
  split at h
  · cases h
  · next route =>
    cases h
    exact ⟨_, (unpackRoute_ok route).2.2, rfl⟩

/-- What is unpacked is not nothing. -/
theorem unpack_filled (consistent : p.Consistent) {ids : List Int}
    (h : (p.unpack stage k).answer = .ok ids) : 1 ≤ ids.length := by
  obtain ⟨b, live, rfl⟩ := unpack_members h
  obtain ⟨-, -, filled, -⟩ := consistent.batch live
  exact List.length_pos_iff.mpr filled

/-- An unpacking that asks first agrees with the plain one. -/
structure UnpacksIf (p : Pipeline) (stage : String) (k : Int) (accept : Nat → Bool) : Prop where
  fails : ∀ e, (p.unpackIf stage k accept).answer = .error e ↔ (p.unpack stage k).answer = .error e
  failed : ∀ e, (p.unpack stage k).answer = .error e → (p.unpackIf stage k accept).next = p
  filled : ∀ ids, (p.unpack stage k).answer = .ok ids →
    1 ≤ ids.length ∧ ∃ b, p.batch? k = some b ∧ ids = b.members
  accepted : ∀ ids, (p.unpack stage k).answer = .ok ids → accept ids.length →
    (p.unpackIf stage k accept).answer = .ok (.members ids) ∧
      (p.unpackIf stage k accept).next = (p.unpack stage k).next
  refused : ∀ ids, (p.unpack stage k).answer = .ok ids → accept ids.length = false →
    (p.unpackIf stage k accept).answer = .ok (.needs ids.length) ∧
      (p.unpackIf stage k accept).next = p

theorem unpacksIf (consistent : p.Consistent) (stage : String) (k : Int) (accept : Nat → Bool) :
    p.UnpacksIf stage k accept where
  fails e := by
    constructor
    · intro failed
      rcases plain : (p.unpack stage k).answer with e' | ids
      · rw [unpackIf_error plain] at failed
        cases failed
        rfl
      · rw [unpackIf_ok plain] at failed
        split at failed
        · cases failed
        · cases failed
    · intro plain
      rw [unpackIf_error plain]
      rfl
  failed e plain := by
    rw [unpackIf_error plain]
    rfl
  filled ids plain := ⟨unpack_filled consistent plain, unpack_members plain⟩
  accepted ids plain yes := by
    rw [unpackIf_ok plain, if_pos yes]
    exact ⟨rfl, rfl⟩
  refused ids plain no := by
    rw [unpackIf_ok plain, if_neg (by simp [no])]
    exact ⟨rfl, rfl⟩

end Pipeline

/-! ### Hosts -/

namespace Host

variable {h : Host} {k : Handle} {p : Pipeline} {stage : String} {batch : Int} {buffer : List Int}

theorem unpackInto_eq : h.unpackInto k stage batch buffer =
    match h.run k (·.unpackIf stage batch fun n => n ≤ buffer.length) with
    | (.error e, h) => (.error e, buffer, h)
    | (.ok (.needs count), h) => (.ok (.needs count), buffer, h)
    | (.ok (.members ids), h) => (.ok (fill ids buffer).1, (fill ids buffer).2, h) := rfl

theorem unpackInto_unknown (dead : h.pipelines.get? k = none) :
    (∃ e, (h.unpackInto k stage batch buffer).1 = .error e) ∧
      (h.unpackInto k stage batch buffer).2.1 = buffer ∧
      (h.unpackInto k stage batch buffer).2.2.pipelines = h.pipelines := by
  obtain ⟨answer, same⟩ := run_unknown dead (·.unpackIf stage batch fun n => n ≤ buffer.length)
  rw [unpackInto_eq]
  rcases r : h.run k (·.unpackIf stage batch fun n => n ≤ buffer.length) with ⟨result, h'⟩
  rw [r] at answer same
  subst answer
  exact ⟨⟨_, rfl⟩, rfl, same⟩

theorem unpackInto_failed (live : h.pipelines.get? k = some p) {e : Error}
    (plain : (p.unpack stage batch).answer = .error e) :
    (h.unpackInto k stage batch buffer).1 = .error e ∧
      (h.unpackInto k stage batch buffer).2.1 = buffer ∧
      (h.unpackInto k stage batch buffer).2.2.pipelines = h.pipelines := by
  rw [unpackInto_eq, run_eq live, Pipeline.unpackIf_error plain]
  refine ⟨rfl, rfl, (pipelines_tellAll _ _).trans ?_⟩
  exact Registry.replace_self live

/-- Where the members fit, all goes as in a plain unpacking. -/
theorem unpackInto_fits (live : h.pipelines.get? k = some p) {ids : List Int}
    (plain : (p.unpack stage batch).answer = .ok ids) (room : ids.length ≤ buffer.length) :
    h.unpackInto k stage batch buffer =
      (.ok (.written ids.length), ids ++ buffer.drop ids.length,
        (h.run k (·.unpack stage batch)).2) := by
  rw [unpackInto_eq, run_eq live, run_eq live, Pipeline.unpackIf_ok plain,
    if_pos (by simpa using room)]
  simp only [fill_of_le room]

/-- Where they do not fit, nothing changes. -/
theorem unpackInto_small (live : h.pipelines.get? k = some p) {ids : List Int}
    (plain : (p.unpack stage batch).answer = .ok ids) (small : buffer.length < ids.length) :
    (h.unpackInto k stage batch buffer).1 = .ok (.needs ids.length) ∧
      (h.unpackInto k stage batch buffer).2.1 = buffer ∧
      (h.unpackInto k stage batch buffer).2.2.pipelines = h.pipelines := by
  rw [unpackInto_eq, run_eq live, Pipeline.unpackIf_ok plain, if_neg (by simpa using small)]
  refine ⟨rfl, rfl, (pipelines_tellAll _ _).trans ?_⟩
  exact Registry.replace_self live

end Host

/-! ### Foreign calls -/

namespace Foreign

variable {h : Host} {k : Handle} {p : Pipeline} {stage : TextCell} {s : String} {batch : Int}
  {buffer : Cell (List Int)}

theorem unpack_eq (read : textOf? stage = some s) : unpack h k stage batch buffer =
    let r := h.unpackInto k s batch (buffer.getD [])
    let t := report "pipeline_move_and_unpack_batch" (r.1, r.2.2)
    ((t.1.map Transfer.size).getD 0, buffer.map fun _ => r.2.1, t.2) := by
  unfold unpack
  rw [read]
  rfl

/-- A call of an unpacking answers zero and changes nothing. -/
structure FailsToUnpack (h : Host) (k : Handle) (stage : TextCell) (batch : Int)
    (buffer : Cell (List Int)) : Prop where
  answer : (unpack h k stage batch buffer).1 = 0
  memory : (unpack h k stage batch buffer).2.1 = buffer
  pipelines : (unpack h k stage batch buffer).2.2.pipelines = h.pipelines

theorem failsToUnpack_of_error (read : textOf? stage = some s)
    (failed : (∃ e, (h.unpackInto k s batch (buffer.getD [])).1 = .error e) ∧
      (h.unpackInto k s batch (buffer.getD [])).2.1 = buffer.getD [] ∧
      (h.unpackInto k s batch (buffer.getD [])).2.2.pipelines = h.pipelines) :
    FailsToUnpack h k stage batch buffer := by
  obtain ⟨⟨e, answer⟩, memory, same⟩ := failed
  have told : unpack h k stage batch buffer = _ := unpack_eq read
  simp only [answer, memory] at told
  refine ⟨?_, ?_, ?_⟩
  · rw [told]
    rfl
  · rw [told]
    rcases buffer with _ | slots
    · rfl
    · rfl
  · rw [told]
    exact same

/-- Without the name of a stage, nothing is looked up. -/
theorem failsToUnpack_of_unreadable (unreadable : textOf? stage = none) :
    FailsToUnpack h k stage batch buffer := by
  have done : unpack h k stage batch buffer = (0, buffer, h) := by
    unfold unpack
    rw [unreadable]
  refine ⟨?_, ?_, ?_⟩
  · rw [done]
  · rw [done]
  · rw [done]

/-- Why a batch may not be unpacked: there is no name of a stage, nothing behind the handle, or the
plain unpacking is refused. -/
def NoUnpacking (h : Host) (k : Handle) (stage : TextCell) (batch : Int) : Prop :=
  textOf? stage = none ∨ h.pipelines.get? k = none ∨
    ∃ s p e, textOf? stage = some s ∧ h.pipelines.get? k = some p ∧
      (p.unpack s batch).answer = .error e

theorem failsToUnpack (cause : NoUnpacking h k stage batch) :
    FailsToUnpack h k stage batch buffer := by
  rcases cause with unreadable | dead | ⟨s, p, e, read, live, plain⟩
  · exact failsToUnpack_of_unreadable unreadable
  · rcases read : textOf? stage with _ | s
    · exact failsToUnpack_of_unreadable read
    · exact failsToUnpack_of_error read (Host.unpackInto_unknown dead)
  · obtain ⟨answer, rest⟩ := Host.unpackInto_failed live plain
    exact failsToUnpack_of_error read ⟨⟨e, answer⟩, rest⟩

/-- Otherwise the plain unpacking succeeds. -/
theorem noUnpacking_or (h : Host) (k : Handle) (stage : TextCell) (batch : Int) :
    NoUnpacking h k stage batch ∨ ∃ s p ids, textOf? stage = some s ∧
      h.pipelines.get? k = some p ∧ (p.unpack s batch).answer = .ok ids := by
  rcases read : textOf? stage with _ | s
  · exact .inl (.inl read)
  rcases live : h.pipelines.get? k with _ | p
  · exact .inl (.inr (.inl live))
  rcases plain : (p.unpack s batch).answer with e | ids
  · exact .inl (.inr (.inr ⟨s, p, e, read, live, plain⟩))
  · exact .inr ⟨s, p, ids, rfl, rfl, plain⟩

/-- A plain unpacking carried out by a host is one of the pipeline behind the handle. -/
theorem unpack_of_run {ids : List Int} (plain : (h.run k (·.unpack s batch)).1 = .ok ids) :
    ∃ p, h.pipelines.get? k = some p ∧ (p.unpack s batch).answer = .ok ids := by
  rcases found : h.pipelines.get? k with _ | p
  · rw [(Host.run_unknown found _).1] at plain
    cases plain
  · rw [(Host.run_known found _).1] at plain
    exact ⟨p, rfl, plain⟩

section Succeeding

variable (read : textOf? stage = some s) (live : h.pipelines.get? k = some p) {ids : List Int}
  (plain : (p.unpack s batch).answer = .ok ids)
include read live plain

/-- Members that fit are written in front of what was in the buffer. -/
theorem unpack_fits (room : ids.length ≤ (buffer.getD []).length) :
    unpack h k stage batch buffer = (ids.length,
      buffer.map fun slots => ids ++ slots.drop ids.length, (h.run k (·.unpack s batch)).2) := by
  rw [unpack_eq read, Host.unpackInto_fits live plain room]
  rcases buffer with _ | slots
  · rfl
  · rfl

theorem unpack_small (small : (buffer.getD []).length < ids.length) :
    (unpack h k stage batch buffer).1 = ids.length ∧
      (unpack h k stage batch buffer).2.1 = buffer ∧
      (unpack h k stage batch buffer).2.2.pipelines = h.pipelines := by
  obtain ⟨answer, memory, same⟩ := Host.unpackInto_small live plain small
  have told : unpack h k stage batch buffer = _ := unpack_eq read
  simp only [answer, memory] at told
  rw [told]
  refine ⟨rfl, ?_, same⟩
  rcases buffer with _ | slots
  · rfl
  · rfl

theorem unpack_count : (unpack h k stage batch buffer).1 = ids.length := by
  rcases Nat.lt_or_ge (buffer.getD []).length ids.length with short | room
  · exact (unpack_small read live plain short).1
  · rw [unpack_fits read live plain room]

/-- With a buffer of the size that was answered, the next call succeeds. -/
theorem unpack_again (small : (buffer.getD []).length < ids.length) {slots : List Int}
    (size : slots.length = ids.length) : ∃ h',
    unpack (unpack h k stage batch buffer).2.2 k stage batch (some slots) =
      (ids.length, some ids, h') ∧
    h'.pipelines = (h.run k (·.unpack s batch)).2.pipelines := by
  obtain ⟨-, -, same⟩ := unpack_small read live plain small
  have live' : (unpack h k stage batch buffer).2.2.pipelines.get? k = some p := by rw [same, live]
  have room : ids.length ≤ ((some slots).getD []).length := Nat.le_of_eq size.symm
  have all : ids ++ slots.drop ids.length = ids := by
    rw [← size, List.drop_length, List.append_nil]
  refine ⟨((unpack h k stage batch buffer).2.2.run k (·.unpack s batch)).2, ?_, ?_⟩
  · rw [unpack_fits read live' plain room, Option.map_some, all]
  · rw [(Host.run_known live' _).2, (Host.run_known live _).2, same]

end Succeeding

/-- How an unpacking into a buffer goes, beside the plain unpacking by the same host. -/
structure UnpacksInto (h : Host) (k : Handle) (stage : TextCell) (batch : Int)
    (buffer : Cell (List Int)) : Prop where
  /-- Zero stands for a failure. -/
  fails : (unpack h k stage batch buffer).1 = 0 ↔ NoUnpacking h k stage batch
  failed : NoUnpacking h k stage batch → FailsToUnpack h k stage batch buffer
  /-- What is answered otherwise is the number of members. -/
  count : ∀ s ids, textOf? stage = some s → (h.run k (·.unpack s batch)).1 = .ok ids →
    1 ≤ ids.length ∧ (unpack h k stage batch buffer).1 = ids.length ∧
      ∃ p b, h.pipelines.get? k = some p ∧ p.batch? batch = some b ∧ ids = b.members
  fits : ∀ s ids, textOf? stage = some s → (h.run k (·.unpack s batch)).1 = .ok ids →
    ids.length ≤ (buffer.getD []).length →
    (unpack h k stage batch buffer).2.1 = buffer.map (fun slots => ids ++ slots.drop ids.length) ∧
      (unpack h k stage batch buffer).2.2 = (h.run k (·.unpack s batch)).2
  small : ∀ s ids, textOf? stage = some s → (h.run k (·.unpack s batch)).1 = .ok ids →
    (buffer.getD []).length < ids.length →
    (unpack h k stage batch buffer).2.1 = buffer ∧
      (unpack h k stage batch buffer).2.2.pipelines = h.pipelines
  again : ∀ s ids, textOf? stage = some s → (h.run k (·.unpack s batch)).1 = .ok ids →
    (buffer.getD []).length < ids.length → ∀ slots : List Int,
    slots.length = (unpack h k stage batch buffer).1 → ∃ h',
      unpack (unpack h k stage batch buffer).2.2 k stage batch (some slots) =
        (ids.length, some ids, h') ∧
      h'.pipelines = (h.run k (·.unpack s batch)).2.pipelines

theorem unpacksInto (consistent : ∀ p, h.pipelines.get? k = some p → p.Consistent) :
    UnpacksInto h k stage batch buffer where
  fails := by
    refine ⟨fun zero => ?_, fun cause => (failsToUnpack cause).answer⟩
    rcases noUnpacking_or h k stage batch with cause | ⟨s, p, ids, read, live, plain⟩
    · exact cause
    · have count : (unpack h k stage batch buffer).1 = _ := unpack_count read live plain
      have filled := Pipeline.unpack_filled (consistent p live) plain
      omega
  failed := failsToUnpack
  count s ids read carried := by
    obtain ⟨p, live, plain⟩ := unpack_of_run carried
    obtain ⟨b, there, members⟩ := Pipeline.unpack_members plain
    exact ⟨Pipeline.unpack_filled (consistent p live) plain, unpack_count read live plain,
      p, b, live, there, members⟩
  fits s ids read carried room := by
    obtain ⟨p, live, plain⟩ := unpack_of_run carried
    rw [unpack_fits read live plain room]
    exact ⟨rfl, rfl⟩
  small s ids read carried short := by
    obtain ⟨p, live, plain⟩ := unpack_of_run carried
    exact (unpack_small read live plain short).2
  again s ids read carried short slots size := by
    obtain ⟨p, live, plain⟩ := unpack_of_run carried
    rw [unpack_count read live plain] at size
    exact unpack_again read live plain short size

/-- **An unpacking into a buffer agrees with the plain one.** In a reachable host, it answers zero
and changes nothing where there is no name or no pipeline for it, or the plain one would fail.
Otherwise it answers with the number of members, which is not zero, and all goes as in the plain
one if there is room for them; if there is not, nothing changes, and the next call with enough
room succeeds. The same holds of a reachable pipeline with any condition on the number. -/
theorem unpacking_negotiated {h : Host} (reachable : h.Reachable) :
    (∀ k stage batch buffer, UnpacksInto h k stage batch buffer) ∧
      ∀ p : Pipeline, p.Reachable → ∀ stage k accept, p.UnpacksIf stage k accept :=
  ⟨fun _ _ _ _ => unpacksInto fun _ live => (reachable.keeps.each live).consistent,
    fun _ at' stage k accept => Pipeline.unpacksIf at'.consistent stage k accept⟩

/-- Both members of the batch are written into a buffer of three slots. -/
theorem unpacking_negotiated_sample : Host.sample.Reachable ∧
    UnpacksInto Host.sample ⟨1, 0⟩ (closed "out") 3 (some [9, 9, 9]) ∧
    (unpack Host.sample ⟨1, 0⟩ (closed "out") 3 (some [9, 9, 9])).2.1 = some [2, 1, 9] :=
  ⟨Host.reachable_sample, (unpacking_negotiated Host.reachable_sample).1 _ _ _ _, by decide +kernel⟩

end Foreign
end FrameFlow
