/-
# Identifiers are issued once

Frames and batches take their identifiers from one counter. The first that a run
issues is one, and each that comes after is one higher: what is refused in between
uses up none. So an identifier belongs to one frame or one batch. Before it is
issued, and as soon as a deletion or an unpacking takes it out, it is a stranger
to the pipeline (`Pipeline.Stranger`); and what was taken out stays a stranger,
whatever comes after.

Key definitions: `Operation.issued?`, `Pipeline.issued`, `Operation.Expels`,
`Pipeline.IssuesOnce`.
Key theorems: `Pipeline.lastId_run`, `Pipeline.issued_run`,
`Pipeline.identifiers_issued_once`.
-/
import FrameFlow.Proofs.Pipeline.Refusals
import FrameFlow.Proofs.Pipeline.Strangers

namespace FrameFlow

namespace Operation

/-- The identifier that an operation issues: a frame comes in, or frames are packed. -/
def issued? : Operation → Reply → Option Int
  | addFrame .., .issued id | pack .., .issued id => some id
  | _, _ => none

/-- Whether an operation with its reply takes an identifier out of a pipeline: it is deleted, alone
or with its batch, or it is a batch that is unpacked. -/
def Expels (p : Pipeline) (x : Int) : Operation → Reply → Prop
  | delete id, .done => x = id ∨ x ∈ p.membersOf id
  | unpack _ k, .members _ => x = k
  | unpackIf _ k _, .unpacked (.members _) => x = k
  | _, _ => False

end Operation

namespace Pipeline

/-- The identifiers that a run issues, in the order of its operations. -/
def issued (p : Pipeline) (ops : List Operation) : List Int :=
  (p.history ops).filterMap fun e => e.1.issued? e.2.1

variable {p : Pipeline}

/-! ### The counter -/

/-- An operation that issues an identifier counts one up, and issues what it has counted. -/
inductive Counts (p q : Pipeline) : Option Int → Prop where
  | none (same : q.lastId = p.lastId) : Counts p q none
  | one (next : q.lastId = p.lastId + 1) : Counts p q (some (p.lastId + 1))

theorem counts_addFrame (stage : String) (f : Frame) :
    Counts p (p.addFrame stage f).next
      ((Operation.addFrame stage f).issued?
        (Reply.ofExcept .issued (p.addFrame stage f).answer)) := by
  unfold addFrame
  split
  · exact .none rfl
  · exact .one rfl

theorem counts_pack (stage : String) (ids : List Int) :
    Counts p (p.pack stage ids).next
      ((Operation.pack stage ids).issued? (Reply.ofExcept .issued (p.pack stage ids).answer)) := by
  unfold pack
  split
  · exact .none rfl
  · simp only
    split
    · exact .none rfl
    · exact .one (lastId_bundle p _ _ ids)

theorem lastId_move (stage : String) (ids : List Int) :
    (p.move stage ids).next.lastId = p.lastId := by
  unfold move
  split
  · rfl
  · split
    · rfl
    · split
      · rfl
      · exact (reseated_relocate p _ _).lastId

theorem lastId_unpack (stage : String) (k : Int) : (p.unpack stage k).next.lastId = p.lastId := by
  unfold unpack
  split
  · rfl
  · exact lastId_dissolve p _ _ _

theorem lastId_unpackIf (stage : String) (k : Int) (accept : Nat → Bool) :
    (p.unpackIf stage k accept).next.lastId = p.lastId := by
  unfold unpackIf
  split
  · rfl
  · simp only
    split
    · exact lastId_dissolve p _ _ _
    · rfl

theorem lastId_edit (frame : Int) (id : Int64) (change : Detection → Detection) :
    (p.edit frame id change).2.lastId = p.lastId := by
  rcases edit_cases (p := p) frame id change with he | ⟨_, -, he⟩
  · rw [he]
  · rw [he]

/-- Every operation counts what it issues. -/
theorem lastId_run (h : p.Consistent) (op : Operation) :
    Counts p (op.run p).2 (op.issued? (op.run p).1) := by
  cases op with
  | addFrame stage f => exact counts_addFrame stage f
  | pack stage ids => exact counts_pack stage ids
  | move stage ids => exact .none (lastId_move stage ids)
  | unpack stage k => exact .none (lastId_unpack stage k)
  | unpackIf stage k accept => exact .none (lastId_unpackIf stage k accept)
  | delete id =>
    refine .none ?_
    simp only [Operation.run, Outcome.replied]
    rcases delete_cases h id with ⟨e, he⟩ | ⟨i, -, -, ⟨f, -, next⟩ | ⟨b, -, next⟩⟩
    · rw [he]; rfl
    · rw [next]; rfl
    · rw [next, dropBatch_eq]; rfl
  | enqueue id u =>
    refine .none ?_
    simp only [Operation.run, Outcome.replied]
    rcases enqueue_cases (p := p) id u with ⟨e, he⟩ | ⟨_, -, -, he⟩
    · rw [he]; rfl
    · rw [he]
  | enqueueBatched batch id u =>
    refine .none ?_
    simp only [Operation.run, Outcome.replied]
    rcases enqueueBatched_cases h batch id u with ⟨e, he⟩ | ⟨-, -, he⟩
    · rw [he]; rfl
    · rw [he]
  | commit id =>
    refine .none ?_
    simp only [Operation.run, Outcome.replied]
    rcases commit_cases (p := p) id with
      ⟨-, next, -⟩ | ⟨_, -, -, ⟨_, -, -, next⟩ | ⟨_, -, -, next⟩⟩
    · rw [next]
    · rw [next]
    · rw [next]
  | discard id => exact .none rfl
  | setConfidence frame id confidence => exact .none (lastId_edit frame id _)
  | setBox frame id box => exact .none (lastId_edit frame id _)
  | setTrack frame id track => exact .none (lastId_edit frame id _)

theorem issued_cons (op : Operation) (ops : List Operation) :
    p.issued (op :: ops) = (op.issued? (op.run p).1).toList ++ (op.run p).2.issued ops := by
  unfold issued
  rw [history, List.filterMap_cons]
  rcases op.issued? (op.run p).1 with _ | id
  · rfl
  · rfl

/-- A run issues the identifiers behind the last one, one after another, and counts them. -/
theorem issued_run (ops : List Operation) (h : p.Consistent) :
    p.issued ops = (List.range (p.issued ops).length).map (fun i => p.lastId + 1 + Int.ofNat i) ∧
      (p.after ops).lastId = p.lastId + Int.ofNat (p.issued ops).length := by
  -- The counter of the pipeline in between is where the rest of the run goes on counting.
  induction ops generalizing p with
  | nil => exact ⟨rfl, (Int.add_zero _).symm⟩
  | cons op ops ih =>
    obtain ⟨listed, counted⟩ := ih (h.effect (effect_run h op))
    have counts := lastId_run h op
    rw [issued_cons]
    generalize op.issued? (op.run p).1 = new at counts ⊢
    rcases new with _ | id
    · obtain ⟨same⟩ := counts
      rw [same] at listed counted
      exact ⟨listed, counted⟩
    · obtain ⟨next⟩ | ⟨next⟩ := counts
      rw [next] at listed counted
      constructor
      · simp only [Option.toList_some, List.singleton_append, List.length_cons,
          List.range_succ_eq_map, List.map_cons, List.map_map]
        rw [show p.lastId + 1 + Int.ofNat 0 = p.lastId + 1 from Int.add_zero _]
        refine congrArg (List.cons (p.lastId + 1)) ?_
        refine listed.trans (List.map_congr_left fun i _ => ?_)
        simp only [Function.comp_apply, Int.ofNat_eq_natCast, Nat.cast_succ]
        omega
      · simp only [Option.toList_some, List.singleton_append, List.length_cons, Pipeline.after]
        rw [counted]
        simp only [Int.ofNat_eq_natCast, Nat.cast_succ]
        omega

/-- What a run of a new pipeline has not issued has no place. -/
theorem place_of_not_issued (h : p.Consistent) (new : p.lastId = 0) (ops : List Operation) {x : Int}
    (out : x ∉ p.issued ops) (later : (p.after ops).Consistent) :
    (p.after ops).places.get? x = none := by
  obtain ⟨listed, counted⟩ := issued_run ops h
  rcases place : (p.after ops).places.get? x with _ | at'
  · rfl
  · obtain ⟨positive, most⟩ := later.issued place
    rw [counted, new] at most
    refine absurd ?_ out
    rw [listed, new, List.mem_map]
    refine ⟨(x - 1).toNat, List.mem_range.mpr ?_, ?_⟩
    · simp only [Int.ofNat_eq_natCast] at most
      omega
    · simp only [Int.ofNat_eq_natCast]
      omega

/-! ### What is taken out -/

/-- What an operation takes out had a place, and has none afterwards. -/
theorem places_of_expels (h : p.Consistent) (op : Operation) {x : Int}
    (out : op.Expels p x (op.run p).1) :
    (∃ place, p.places.get? x = some place) ∧ (op.run p).2.places.get? x = none := by
  cases op with
  | delete id =>
    simp only [Operation.run, Outcome.replied] at out ⊢
    rcases answer : (p.delete id).answer with e | ⟨⟩
    · rw [answer] at out
      cases out
    · rw [answer] at out
      exact places_delete h answer out
  | unpack stage k =>
    simp only [Operation.run, Outcome.replied] at out ⊢
    rcases answer : (p.unpack stage k).answer with e | ids
    · rw [answer] at out
      cases out
    · rw [answer] at out
      obtain rfl : x = k := out
      exact places_unpack h answer
  | unpackIf stage k accept =>
    simp only [Operation.run, Outcome.replied] at out ⊢
    rcases answer : (p.unpackIf stage k accept).answer with e | ids | count
    · rw [answer] at out
      cases out
    · rw [answer] at out
      obtain rfl : x = k := out
      exact places_unpackIf h answer
    · rw [answer] at out
      cases out
  | _ => cases out

/-- What an operation takes out is unknown after every run that follows. -/
theorem places_after_expels (h : p.Consistent) (op : Operation) (later : List Operation) {x : Int}
    (out : op.Expels p x (op.run p).1) : (p.after (op :: later)).places.get? x = none := by
  obtain ⟨⟨_, known⟩, gone⟩ := places_of_expels h op out
  have e := effect_run h op
  have old : x ≤ (op.run p).2.lastId := Int.le_trans (h.issued known).2 e.lastId_le
  exact unknown_after later (h.effect e) old gone

/-! ### Runs of a new pipeline -/

/-- After a run of a new pipeline, its identifiers are those that the run has issued, each for one
frame or one batch. -/
structure IssuesOnce (p : Pipeline) (ops : List Operation) : Prop where
  /-- They are one, two, three and so on, in the order of the operations. -/
  counted : p.issued ops = (List.range (p.issued ops).length).map fun i => 1 + Int.ofNat i
  /-- They fit into 64 bits, while there are not too many of them. -/
  fits : (p.issued ops).length < 2 ^ 63 - 1 → ∀ id ∈ p.issued ops, (Int64.ofInt id).toInt = id
  /-- An operation that would issue one and is refused issues none. -/
  refused : ∀ op : Operation, (op.run (p.after ops)).1.isRefusal →
    p.issued (ops ++ [op]) = p.issued ops
  unissued : ∀ x, x ∉ p.issued ops → (p.after ops).Stranger x
  expelled : ∀ before op later x, ops = before ++ op :: later →
    op.Expels (p.after before) x (op.run (p.after before)).1 → (p.after ops).Stranger x

theorem issued_append (ops ops' : List Operation) :
    p.issued (ops ++ ops') = p.issued ops ++ (p.after ops).issued ops' := by
  induction ops generalizing p with
  | nil => rfl
  | cons op ops ih =>
    rw [List.cons_append, issued_cons, issued_cons, ih, List.append_assoc]
    rfl

/-- **Identifiers are issued once.** From a configuration that passes its check, whatever operations
follow, with whatever arguments, the identifiers that are issued are one, two, three and so on. One
that was not issued, and one that was taken out at some time, is a stranger to the pipeline. -/
theorem identifiers_issued_once {c : Config} (hc : c.check = .ok ()) (ops : List Operation) :
    ∃ q e, create c = .ok (q, e) ∧ q.IssuesOnce ops := by
  have made := create_of_check hc
  have reachable : ∀ ops', ((ofConfig c).after ops').Reachable :=
    fun ops' => ⟨c, _, _, ops', made, rfl⟩
  have new : (ofConfig c).Consistent := consistent_ofConfig hc
  have later := reachable ops
  obtain ⟨listed, -⟩ := issued_run ops new
  have counted : (ofConfig c).issued ops =
      (List.range ((ofConfig c).issued ops).length).map fun i => 1 + Int.ofNat i := listed
  refine ⟨_, _, made,
    { counted := counted
      fits := ?fits
      refused := ?refused
      unissued := ?unissued
      expelled := ?expelled }⟩
  case fits =>
    intro room id hid
    rw [counted, List.mem_map] at hid
    obtain ⟨i, hi, rfl⟩ := hid
    have below := List.mem_range.mp hi
    rw [Int.ofNat_eq_natCast]
    exact Int64.toInt_ofInt_of_le (by omega) (by omega)
  case refused =>
    intro op refused
    have none : op.issued? (op.run ((ofConfig c).after ops)).1 = Option.none := by
      rcases reply : (op.run ((ofConfig c).after ops)).1 with _ | _ | _ | _ | _ | _ | _
      · cases op <;> rfl
      · rw [reply] at refused
        cases refused
      all_goals cases op <;> rfl
    rw [issued_append, issued_cons, none]
    exact List.append_nil _
  case unissued =>
    intro x out
    have place := place_of_not_issued new rfl ops out later.consistent
    exact stranger_of_place place later.consistent later.addressed
  case expelled =>
    rintro before op after x rfl out
    have place := places_after_expels (reachable before).consistent op after out
    rw [← after_append] at place
    exact stranger_of_place place later.consistent later.addressed

/-- Two frames and their batch get three identifiers, and the batch is a stranger once it is
unpacked. -/
theorem identifiers_issued_once_sample : sampleConfig.check = .ok () ∧
    (∃ q e, create sampleConfig = .ok (q, e) ∧ q.IssuesOnce (sampleRun ++ [.unpack "out" 3])) ∧
    (ofConfig sampleConfig).issued sampleRun = [1, 2, 3] ∧
    (Operation.unpack "out" 3).Expels sample 3 ((Operation.unpack "out" 3).run sample).1 :=
  ⟨rfl, identifiers_issued_once rfl _, by decide, rfl⟩

end Pipeline
end FrameFlow
