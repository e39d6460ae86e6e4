/-
# No operation comes to a dead end

A pipeline is looked up in several tables, and each look-up has to say what it does
when nothing is found. In a reachable pipeline that is never asked where one table
has already answered: an index that stands in a place or in the table of names is in
the list of stages, what stands in a stage is a frame or a batch, all that a commit is
about is there, and every update that waits is for one of its targets. So a commit
is refused for what one of its commands says only, and a route to unpack a batch
that is found can be taken.

Key definitions: `Error.OfCommand`, `Pipeline.NoDeadEnds`.
Key theorems: `Command.apply_error`, `Pipeline.no_dead_ends`.
-/
import FrameFlow.Proofs.Frame.Locality
import FrameFlow.Proofs.Pipeline.Identifiers
import FrameFlow.Proofs.Pipeline.Names
import FrameFlow.Proofs.Pipeline.Transactions

namespace FrameFlow

/-! ### What commands are refused for -/

/-- What a command on a frame can be refused for: for a detection of this frame, for the identifiers
of its detections, or for an attribute. -/
def Error.OfCommand (frame : Int) : Error → Prop
  | .detectionNotFound x _ | .detectionTaken x _ | .idsExhausted x => x = frame
  | .attributeTaken .. => True
  | _ => False

/-- A refused command says what is wrong with its own frame. -/
theorem Command.apply_error {c : Command} {x : Int} {f : Frame} {e : Error}
    (h : c.apply x f = .error e) : e.OfCommand x := by
  have refusal : c.Refusal x f e := apply_error_iff.mp h
  cases refusal with
  | absent about none => rfl
  | taken taken => rfl
  | exhausted taken full => rfl
  | attributeTaken found taken => trivial
  | frameAttributeTaken taken => trivial

namespace Pipeline

variable {p q : Pipeline}

namespace Consistent

variable (h : p.Consistent)
include h

/-- What has its place in a stage is resident there, and is seen there. -/
theorem placed {id : Int} {i : Nat} (place : p.places.get? id = some (.stage i)) :
    ∃ s, p.stages[i]? = some s ∧ id ∈ s.residents.toList ∧
      p.locate id = some (.stage s.name s.payload) := by
  obtain ⟨s, there, resident⟩ := h.resident.mp place
  refine ⟨s, there, resident, ?_⟩
  rw [locate, place]
  simp only [there, Option.map_some]

/-- A move that is refused because of an unknown identifier is so because this has no place. -/
theorem planMove_unknown {dest : Stage} {id : Int} (ids : List Int) : ∀ seen : List Int,
    (p.planMove dest seen ids).1 = .error (.unknownId id) → p.places.get? id = none := by
  induction ids with
  | nil => exact fun _ refused => by cases refused
  | cons x ids ih =>
    intro seen refused
    unfold planMove at refused
    split at refused
    · exact ih seen refused
    rcases place : p.places.get? x with _ | i | k
    · rw [place] at refused
      rcases policy : p.missingIds with _ | _
      · rw [policy] at refused
        exact ih (x :: seen) refused
      · rw [policy] at refused
        cases refused
        exact place
    · obtain ⟨source, there, -⟩ := h.placed place
      simp only [place, there] at refused
      rcases fits : expect dest source.payload with e | ⟨⟩
      · rw [fits] at refused
        unfold expect at fits
        split at fits
        · cases fits
        · cases fits
          cases refused
      · rw [fits] at refused
        refine ih (x :: seen) ?_
        rcases rest : (p.planMove dest (x :: seen) ids).1 with e | plan
        · simp only [rest] at refused
          cases refused
          rfl
        · simp only [rest] at refused
          cases refused
    · rw [place] at refused
      cases refused

theorem move_unknown {stage : String} {ids : List Int} {id : Int}
    (refused : (p.move stage ids).answer = .error (.unknownId id)) : p.places.get? id = none := by
  unfold move at refused
  split at refused
  · next e missing =>
    -- what has no destination is refused for the name of the stage
    cases refused
    unfold destination at missing
    split at missing
    · cases missing
    · split at missing
      · cases missing
      · cases missing
  · next dest s _ =>
    split at refused
    · cases refused
    · split at refused
      · next plan =>
        cases refused
        exact h.planMove_unknown _ [] (congrArg Prod.fst plan)
      · cases refused

/-- A batch for which there is a route is unpacked, or asked about with a number of members that is
not zero. -/
theorem unpack_of_route {stage : String} {id : Int} {source dest : Nat}
    (arrives : p.destinationFor stage .frame = .ok dest) (stands : p.batchStage id = .ok source) :
    ∃ b, p.batch? id = some b ∧ b.members ≠ [] ∧ (p.unpack stage id).answer = .ok b.members ∧
      ∀ accept, (p.unpackIf stage id accept).answer =
        .ok (if accept b.members.length then .members b.members else .needs b.members.length) := by
  obtain ⟨b, live⟩ := Option.isSome_iff_exists.mp (batchStage_ok stands).2
  have route : p.unpackRoute stage id = .ok (source, dest, b) := by
    rw [unpackRoute, arrives, stands, live]
    rfl
  obtain ⟨-, -, filled, -, -⟩ := h.batch live
  refine ⟨b, live, filled, ?_, fun accept => ?_⟩
  · rw [unpack, route]
  · rw [unpackIf, route]
    simp only
    split
    · rfl
    · rfl

/-- What is in the pipeline has targets, all of them frames. -/
theorem targets_of_place {id : Int} {place : Place} (known : p.places.get? id = some place) :
    ∃ xs, p.targets id = some xs ∧ ∀ x ∈ xs, (p.frames.get? x).isSome := by
  obtain ⟨xs, some⟩ : ∃ xs, p.targets id = Option.some xs := by
    unfold targets
    rw [known]
    simp only [Table.contains_eq]
    rcases h.known_iff.mp (Option.isSome_of_eq_some known) with frame | batch
    · exact ⟨[id], if_pos frame⟩
    · obtain ⟨b, live⟩ := Option.isSome_iff_exists.mp batch
      refine ⟨b.members, ?_⟩
      rw [h.frame_of_batch live, live]
      rfl
  exact ⟨xs, some, targets_live h some⟩

/-- A commit that is refused is so for what a command says of the target that it is for. -/
theorem commit_cause (a : p.Addressed) {id : Int} {e : Error}
    (refused : (p.commit id).answer = .error e) : ∃ x cause, e = .updateFailed id cause ∧
      x ∈ (p.targets id).getD [] ∧ cause.OfCommand x := by
  rcases commit_cases (p := p) id with ⟨no, -⟩ | ⟨_, -, waits, -⟩
  · rw [no] at refused
    cases refused
  have done := commit_execute h a waits
  rcases run : execute p.frames (script (p.queue.under id)) with cause | frames
  · rw [run] at done
    rw [done.1] at refused
    cases refused
    obtain ⟨before, x, c, later, mid, f, split, -, -, own⟩ := execute_error _ run
    -- the command belongs to an update that waits
    have member : (x, c) ∈ script (p.queue.under id) := by
      rw [split]
      exact List.mem_append_right _ List.mem_cons_self
    obtain ⟨u, hu, member⟩ := List.mem_flatMap.mp member
    obtain ⟨c', -, same⟩ := List.mem_map.mp member
    cases same
    exact ⟨u.frame, cause, rfl, (targeted h a hu).1, Command.apply_error own⟩
  · rw [run] at done
    rw [done.1] at refused
    cases refused

end Consistent

/-! ### Dead ends -/

/-- Whatever is looked up because another table says that it is there is found. The table of names
is the one that was built for the configuration `c`. -/
structure NoDeadEnds (p : Pipeline) (c : Config) : Prop where
  /-- The table of names has the index that a name has in the list of stages. -/
  table : ∀ name, c.build.2.get? name = p.indexOf? name
  /-- An index in it is that of a stage with this name, which is then the destination. -/
  named : ∀ name i, c.build.2.get? name = some i →
    ∃ s, p.stages[i]? = some s ∧ s.name = name ∧ p.destination name = .ok (i, s)
  /-- The stage before it is in the list, too, so that a move of everything in it finds it. -/
  before : ∀ name i, c.build.2.get? name = some (i + 1) →
    ∃ s, p.stages[i]? = some s ∧ p.requested (i + 1) [] = s.residents.toList
  /-- An index in a place is that of a stage, in which the identifier is resident. -/
  placed : ∀ id i, p.places.get? id = some (.stage i) → ∃ s, p.stages[i]? = some s ∧
    id ∈ s.residents.toList ∧ p.locate id = some (.stage s.name s.payload)
  /-- No operation changes the list of stages but for their residents. -/
  kept : ∀ op : Operation, (op.run p).2.shape = p.shape
  /-- What is resident in a stage is a frame or a batch. -/
  resident : ∀ s ∈ p.stages, ∀ id ∈ s.residents.toList, (p.frame? id).isSome ∨ (p.batch? id).isSome
  /-- A move calls an identifier unknown only if it has no place. -/
  moved : ∀ stage ids id, (p.move stage ids).answer = .error (.unknownId id) →
    p.places.get? id = none
  /-- A commit of what is there has targets, and each is a frame. -/
  targets : ∀ id place, p.places.get? id = some place →
    ∃ xs, p.targets id = some xs ∧ ∀ x ∈ xs, (p.frame? x).isSome
  /-- Every update that waits is for one of the targets. -/
  aimed : ∀ id, ∀ u ∈ p.queue.under id, ∃ xs, p.targets id = some xs ∧ u.frame ∈ xs
  /-- A commit is refused for what a command says of a target, and for nothing else. -/
  causes : ∀ id e, (p.commit id).answer = .error e → ∃ x cause, e = .updateFailed id cause ∧
    x ∈ (p.targets id).getD [] ∧ cause.OfCommand x ∧ ∀ k y, cause ≠ .notInBatch k y
  /-- Where there is a route to unpack a batch, it is taken, or asked about. -/
  unpacked : ∀ stage id source dest, p.destinationFor stage .frame = .ok dest →
    p.batchStage id = .ok source → ∃ b, p.batch? id = some b ∧
      (p.unpack stage id).answer = .ok b.members ∧ ∀ accept, (p.unpackIf stage id accept).answer =
        .ok (if accept b.members.length then .members b.members else .needs b.members.length)
  /-- Nobody is asked for room for no member. -/
  asked : ∀ stage id accept n, (p.unpackIf stage id accept).answer = .ok (.needs n) → n ≠ 0
  /-- The next identifier fits into 64 bits. -/
  counter : (Int64.ofInt (p.lastId + 1)).toInt = p.lastId + 1

/-- An unpacking that asks for room has a route. -/
theorem route_of_needs {stage : String} {id : Int} {accept : Nat → Bool} {n : Nat}
    (needs : (p.unpackIf stage id accept).answer = .ok (.needs n)) :
    ∃ source dest b, p.unpackRoute stage id = .ok (source, dest, b) ∧ n = b.members.length := by
  unfold unpackIf at needs
  rcases route : p.unpackRoute stage id with e | ⟨source, dest, b⟩
  · rw [route] at needs
    cases needs
  · rw [route] at needs
    simp only at needs
    split at needs
    · cases needs
    · cases needs
      exact ⟨source, dest, b, rfl, rfl⟩

/-- **No operation comes to a dead end**, in any run of a new pipeline that issues fewer than
`2 ^ 63 - 1` identifiers. -/
theorem no_dead_ends {c : Config} (hc : c.check = .ok ()) (ops : List Operation)
    (few : ((ofConfig c).issued ops).length < 2 ^ 63 - 1) :
    ((ofConfig c).after ops).NoDeadEnds c := by
  have reachable : ((ofConfig c).after ops).Reachable := ⟨c, _, _, ops, create_of_check hc, rfl⟩
  have h := reachable.consistent
  have a := reachable.addressed
  have counted := (issued_run ops (consistent_ofConfig hc)).2
  have table := table_after hc ops
  generalize (ofConfig c).after ops = p at h a counted table
  exact
    { table
      named := fun name i index => by
        rw [table] at index
        obtain ⟨s, there, same⟩ := indexOf?_eq_some index
        exact ⟨s, there, same, destination_eq_ok_iff.mpr ⟨index, there⟩⟩
      before := fun name i index => by
        rw [table] at index
        obtain ⟨s, there, -⟩ := indexOf?_eq_some index
        have below : i + 1 < p.stages.length := (List.getElem?_eq_some_iff.mp there).1
        have inside : p.stages[i]? = some p.stages[i] := List.getElem?_eq_getElem (by omega)
        refine ⟨_, inside, ?_⟩
        simp only [requested, List.isEmpty_nil, if_true, inside, Option.map_some, Option.getD_some]
      placed := fun id i => h.placed
      kept := fun op => (effect_run h op).shape
      resident := fun s hs id hid => by
        obtain ⟨i, there⟩ := List.mem_iff_getElem?.mp hs
        have place : p.places.get? id = some (.stage i) := h.resident.mpr ⟨s, there, hid⟩
        exact h.known_iff.mp (Option.isSome_of_eq_some place)
      moved := fun stage ids id => h.move_unknown
      targets := fun id place => h.targets_of_place
      aimed := fun id u hu => by
        have target := (targeted h a hu).1
        rcases some : p.targets id with _ | xs
        · rw [some] at target
          cases target
        · rw [some] at target
          exact ⟨xs, rfl, target⟩
      causes := fun id e refused => by
        obtain ⟨x, cause, about, target, own⟩ := h.commit_cause a refused
        refine ⟨x, cause, about, target, own, ?_⟩
        rintro k y rfl
        exact own
      unpacked := fun stage id source dest arrives stands => by
        obtain ⟨b, live, -, answers⟩ := h.unpack_of_route arrives stands
        exact ⟨b, live, answers⟩
      asked := fun stage id accept n needs => by
        obtain ⟨source, dest, b, route, rfl⟩ := route_of_needs needs
        have filled := (h.batch (unpackRoute_ok route).2.2).2.2.1
        exact fun none => filled (List.length_eq_zero_iff.mp none)
      counter := by
        have new : (ofConfig c).lastId = 0 := rfl
        rw [new] at counted
        apply Int64.toInt_ofInt_of_le <;> simp only [Int.ofNat_eq_natCast] at counted <;> omega }

/-- The run of the sample issues three identifiers. -/
theorem no_dead_ends_sample : sampleConfig.check = .ok () ∧
    ((ofConfig sampleConfig).issued sampleRun).length < 2 ^ 63 - 1 ∧
    sample.NoDeadEnds sampleConfig :=
  have few : ((ofConfig sampleConfig).issued sampleRun).length < 2 ^ 63 - 1 := by decide
  ⟨rfl, few, no_dead_ends rfl sampleRun few⟩

end Pipeline
end FrameFlow
