/-
# Identifiers that a pipeline does not know

An identifier without a place is a stranger: no table has it, no stage and no
batch lists it, and nothing waits under it. Whatever is asked by it is answered as
for something that does not exist. Nothing is read or written through it, a
deletion, a packing or an unpacking of it is refused, and a move leaves it out or
is refused, as the pipeline says.

Key definitions: `Pipeline.Unseen`, `Pipeline.Unread`, `Pipeline.Unmoved`,
`Pipeline.Stranger`.
Key theorem: `Pipeline.stranger_of_place`.
-/
import FrameFlow.Proofs.Pipeline.Anchored

namespace FrameFlow
namespace Pipeline

/-- An identifier is seen nowhere. -/
structure Unseen (p : Pipeline) (x : Int) : Prop where
  nowhere : p.locate x = none
  noFrame : p.frame? x = none
  noBatch : p.batch? x = none
  noResident : ∀ stage ids, p.stageIds? stage = some ids → x ∉ ids
  noMember : ∀ k b, p.batch? k = some b → x ∉ b.members
  nothing : p.pending x = 0

/-- No detection is reached by an identifier. -/
structure Unread (p : Pipeline) (x : Int) : Prop where
  confidence : ∀ d, p.confidence? x d = none
  box : ∀ d, p.box? x d = none
  track : ∀ d, p.track? x d = none
  text : ∀ d field, p.text? x d field = none
  reading : ∀ d scope name i, p.reading? x d scope name i = none
  frameReading : ∀ scope name i, p.frameReading? x scope name i = none
  setConfidence : ∀ d confidence, p.setConfidence x d confidence = (false, p)
  setBox : ∀ d box, p.setBox x d box = (false, p)
  setTrack : ∀ d track, p.setTrack x d track = (false, p)

/-- No operation takes an identifier for something that is there. -/
structure Unmoved (p : Pipeline) (x : Int) : Prop where
  delete : p.delete x = .refuse p (.unknownId x) []
  enqueue : ∀ u, p.enqueue x u = .refuse p (.unknownId x) []
  enqueueBatched : ∀ f u, p.enqueueBatched x f u = .refuse p (.notBatch x) []
  enqueueMember : ∀ k b u, p.batch? k = some b →
    p.enqueueBatched k x u = .refuse p (.notInBatch k x) []
  commit : p.commit x = ⟨.ok false, p, []⟩
  discard : p.discard x = (false, p)
  unpack : ∀ stage, p.payload? stage = some .frame →
    p.unpack stage x = .refuse p (.unknownId x) []
  unpackIf : ∀ stage accept, p.payload? stage = some .frame →
    p.unpackIf stage x accept = .refuse p (.unknownId x) []
  /-- It is what a packing is refused for, unless what stands before it is. -/
  pack : ∀ stage before later, p.payload? stage = some .batch →
    (before = [] ∨ ∃ k, (p.pack stage before).answer = .ok k) →
    p.pack stage (before ++ x :: later) = .refuse p (.unknownId x) []
  packRefused : ∀ stage ids, x ∈ ids → ∃ e, p.pack stage ids = .refuse p e []
  /-- It is what a move is refused for, unless what stands before it is. -/
  moveAbort : p.missingIds = .abort → ∀ stage payload before later,
    p.payload? stage = some payload →
    (before = [] ∨ ∃ n, (p.move stage before).answer = .ok n) →
    (p.move stage (before ++ x :: later)).answer = .error (.unknownId x)
  moveRefused : p.missingIds = .abort → ∀ stage ids, x ∈ ids →
    (∃ e, (p.move stage ids).answer = .error e) ∧ (p.move stage ids).next = p
  /-- A move goes as if it were not listed. -/
  moveSkip : p.missingIds = .skip → ∀ stage ids, ids.filter (· ≠ x) ≠ [] →
    (p.move stage ids).answer = (p.move stage (ids.filter (· ≠ x))).answer ∧
      (p.move stage ids).next = (p.move stage (ids.filter (· ≠ x))).next
  /-- A move that lists nothing else moves nothing. -/
  moveAlone : p.missingIds = .skip → ∀ stage payload ids, p.payload? stage = some payload →
    x ∈ ids → ids.filter (· ≠ x) = [] →
    (p.move stage ids).answer = .ok 0 ∧ (p.move stage ids).next = p

/-- An identifier that a pipeline does not know, whatever is asked. -/
structure Stranger (p : Pipeline) (x : Int) : Prop where
  unseen : p.Unseen x
  unread : p.Unread x
  unmoved : p.Unmoved x

variable {p : Pipeline} {x : Int}

/-! ### Looking -/

theorem unseen_of_place (h : p.Consistent) (a : p.Addressed) (place : p.places.get? x = none) :
    p.Unseen x := by
  have unknown : p.Unknown x := .of_place h a place
  refine ⟨unknown.nowhere, unknown.noFrame, unknown.noBatch, ?resident, ?member, ?nothing⟩
  case resident =>
    intro stage ids hids hx
    obtain ⟨s, found, rfl⟩ := Option.map_eq_some_iff.mp hids
    obtain ⟨i, there⟩ := List.mem_iff_getElem?.mp (h.stage?_eq_some_iff.mp found).1
    have stands := h.resident.mpr ⟨s, there, hx⟩
    rw [place] at stands
    cases stands
  case member =>
    intro k b live hx
    have packed := (h.batch live).2.2.2.2 x hx
    rw [place] at packed
    cases packed
  case nothing =>
    unfold pending Queue.count
    rw [a.under_unknown h place]
    rfl

theorem detection?_of_noFrame (none : p.frames.get? x = none) (d : Int64) :
    p.detection? x d = Option.none := by
  unfold detection?
  rw [none]
  rfl

theorem edit_of_noFrame (none : p.frames.get? x = none) (d : Int64)
    (change : Detection → Detection) :
    p.edit x d change = (false, p) := by
  unfold edit
  rw [none]

theorem unread_of_noFrame (none : p.frames.get? x = none) : p.Unread x := by
  have gone := detection?_of_noFrame none
  have kept := edit_of_noFrame none
  refine
    { confidence := fun d => ?_
      box := fun d => ?_
      track := fun d => ?_
      text := fun d field => ?_
      reading := fun d scope name i => ?_
      frameReading := fun scope name i => ?_
      setConfidence := fun d _ => kept d _
      setBox := fun d _ => kept d _
      setTrack := fun d _ => kept d _ }
  · rw [confidence?, gone]; rfl
  · rw [box?, gone]; rfl
  · rw [track?, gone]; rfl
  · rw [text?, gone]; rfl
  · rw [reading?, gone]; rfl
  · rw [frameReading?, none]; rfl

/-! ### Plans -/

/-- Where unknown identifiers are left out, a plan is the same without them. -/
theorem planMove_filter (skip : p.missingIds = .skip) (place : p.places.get? x = none)
    (dest : Stage) : ∀ (ids seen seen' : List Int), (∀ y, y ≠ x → (y ∈ seen ↔ y ∈ seen')) →
    (p.planMove dest seen ids).1 = (p.planMove dest seen' (ids.filter (· ≠ x))).1
  | [], _, _, _ => by simp [planMove]
  | id :: ids, seen, seen', same => by
    by_cases e : id = x
    · -- The unknown one is noted as seen on one side only, so the two sides agree on all others.
      rw [e, List.filter_cons_of_neg (by simp), planMove]
      split
      · exact planMove_filter skip place dest ids seen seen' same
      · rw [place, skip]
        have wider : ∀ y, y ≠ x → (y ∈ x :: seen ↔ y ∈ seen') := by
          intro y hy
          rw [List.mem_cons, or_iff_right hy]
          exact same y hy
        exact planMove_filter skip place dest ids (x :: seen) seen' wider
    · rw [List.filter_cons_of_pos (by simpa using e)]
      have again : seen.contains id = seen'.contains id := by
        rw [Bool.eq_iff_iff, List.contains_iff_mem, List.contains_iff_mem]
        exact same id e
      have wider : ∀ y, y ≠ x → (y ∈ id :: seen ↔ y ∈ id :: seen') := by
        intro y hy
        rw [List.mem_cons, List.mem_cons, same y hy]
      have ih := planMove_filter skip place dest ids (id :: seen) (id :: seen') wider
      unfold planMove
      rw [again]
      split
      · exact planMove_filter skip place dest ids seen seen' same
      · split
        · rw [skip]
          exact ih
        · rfl
        · split
          · rfl
          · split
            · rfl
            · simp only [ih]

/-- Where unknown identifiers are refused, a plan fails at the first of them. -/
theorem planMove_abort (abort : p.missingIds = .abort) (place : p.places.get? x = none)
    (dest : Stage) (later : List Int) : ∀ (before seen : List Int), x ∉ seen →
    (p.planMove dest seen (before ++ x :: later)).1 =
      (p.planMove dest seen before).1.bind fun _ => .error (.unknownId x)
  | [], seen, new => by
    have unseen : ¬seen.contains x := by simpa using new
    rw [List.nil_append]
    unfold planMove
    rw [if_neg unseen, place, abort]
    rfl
  | id :: before, seen, new => by
    rw [List.cons_append]
    unfold planMove
    split
    · exact planMove_abort abort place dest later before seen new
    · split
      · rw [abort]
        rfl
      · rfl
      · next i hp =>
        have other : x ∉ id :: seen := by
          rw [List.mem_cons, not_or]
          refine ⟨?_, new⟩
          rintro rfl
          rw [place] at hp
          cases hp
        have ih := planMove_abort abort place dest later before (id :: seen) other
        split
        · rfl
        · split
          · rfl
          · simp only [ih]
            rcases (p.planMove dest (id :: seen) before).1 with e | plan
            · rfl
            · rfl

/-- A plan of a packing fails at an unknown identifier, if not before. -/
theorem planPack_unknown (place : p.places.get? x = none) (later : List Int) :
    ∀ before seen : List Int, x ∉ seen →
    p.planPack seen (before ++ x :: later) =
      (p.planPack seen before).bind fun _ => .error (.unknownId x)
  | [], seen, new => by
    have unseen : ¬seen.contains x := by simpa using new
    have stands : p.independentStage x = .error (.unknownId x) := by
      unfold independentStage
      rw [place]
    rw [List.nil_append]
    unfold planPack
    rw [if_neg unseen, stands]
    rfl
  | id :: before, seen, new => by
    rw [List.cons_append]
    unfold planPack
    split
    · rfl
    · rcases stands : p.independentStage id with e | source
      · rfl
      · have other : x ∉ id :: seen := by
          rw [List.mem_cons, not_or]
          refine ⟨?_, new⟩
          rintro rfl
          rw [(independentStage_ok stands).1] at place
          cases place
        have ih := planPack_unknown place later before (id :: seen) other
        simp only [bind, Except.bind, ih]
        rcases p.planPack (id :: seen) before with e | plan
        · rfl
        · rfl

/-! ### Moving -/

/-- A named stage is a destination. -/
theorem destination_of_payload? {stage : String} {k : Payload} (h : p.payload? stage = some k) :
    ∃ i s, p.destination stage = .ok (i, s) := by
  obtain ⟨i, hi⟩ := destinationFor_of_payload? h
  obtain ⟨index, payload⟩ := destinationFor_eq_ok_iff.mp hi
  obtain ⟨s, there, -⟩ := Option.map_eq_some_iff.mp payload
  exact ⟨i, s, destination_eq_ok_iff.mpr ⟨index, there⟩⟩

/-- A move of listed identifiers answers with the length of its plan, or with what is wrong with
the plan. -/
theorem move_of_destination {stage : String} {i : Nat} {s : Stage}
    (found : p.destination stage = .ok (i, s)) {ids : List Int} (listed : ids ≠ []) :
    (p.move stage ids).answer = (p.planMove s [] ids).1.map List.length ∧
      (p.move stage ids).next =
        match (p.planMove s [] ids).1 with
        | .ok plan => p.relocate i plan
        | .error _ => p := by
  have some : ids.isEmpty = false := by simpa using listed
  unfold move
  rw [found]
  simp only [requested, some, Bool.false_and, Bool.false_eq_true, if_false]
  rcases p.planMove s [] ids with ⟨e | plan, events⟩
  · exact ⟨rfl, rfl⟩
  · exact ⟨rfl, rfl⟩

theorem move_of_noDestination {stage : String} {e : Error}
    (missing : p.destination stage = .error e) (ids : List Int) :
    p.move stage ids = .refuse p e [] := by
  unfold move
  rw [missing]

section Moving

variable (place : p.places.get? x = none)
include place

theorem move_abort (abort : p.missingIds = .abort) {stage : String} {k : Payload}
    {before : List Int} (later : List Int) (known : p.payload? stage = some k)
    (good : before = [] ∨ ∃ n, (p.move stage before).answer = .ok n) :
    (p.move stage (before ++ x :: later)).answer = .error (.unknownId x) := by
  obtain ⟨i, s, found⟩ := destination_of_payload? known
  have planned : ∃ plan, (p.planMove s [] before).1 = .ok plan := by
    by_cases some : before = []
    · rw [some]
      exact ⟨[], rfl⟩
    · obtain ⟨n, answer⟩ := good.resolve_left some
      rw [(move_of_destination found some).1] at answer
      rcases done : (p.planMove s [] before).1 with e | plan
      · rw [done] at answer
        cases answer
      · exact ⟨plan, rfl⟩
  obtain ⟨plan, planned⟩ := planned
  rw [(move_of_destination found (by simp)).1,
    planMove_abort abort place s later before [] List.not_mem_nil, planned]
  rfl

theorem move_refused (abort : p.missingIds = .abort) (stage : String) {ids : List Int}
    (hx : x ∈ ids) :
    (∃ e, (p.move stage ids).answer = .error e) ∧ (p.move stage ids).next = p := by
  rcases found : p.destination stage with e | ⟨i, s⟩
  · rw [move_of_noDestination found]
    exact ⟨⟨e, rfl⟩, rfl⟩
  · obtain ⟨before, later, rfl⟩ := List.append_of_mem hx
    have failed : ∃ e, (p.planMove s [] (before ++ x :: later)).1 = .error e := by
      rw [planMove_abort abort place s later before [] List.not_mem_nil]
      rcases (p.planMove s [] before).1 with e | plan
      · exact ⟨e, rfl⟩
      · exact ⟨_, rfl⟩
    obtain ⟨e, failed⟩ := failed
    obtain ⟨answer, next⟩ := move_of_destination found (List.ne_nil_of_mem hx)
    rw [answer, next, failed]
    exact ⟨⟨e, rfl⟩, rfl⟩

theorem move_skip (skip : p.missingIds = .skip) (stage : String) {ids : List Int}
    (others : ids.filter (· ≠ x) ≠ []) :
    (p.move stage ids).answer = (p.move stage (ids.filter (· ≠ x))).answer ∧
      (p.move stage ids).next = (p.move stage (ids.filter (· ≠ x))).next := by
  rcases found : p.destination stage with e | ⟨i, s⟩
  · rw [move_of_noDestination found, move_of_noDestination found]
    exact ⟨rfl, rfl⟩
  · have listed : ids ≠ [] := by
      rintro rfl
      exact others rfl
    obtain ⟨answer, next⟩ := move_of_destination found listed
    obtain ⟨answer', next'⟩ := move_of_destination found others
    have same := planMove_filter skip place s ids [] [] fun _ _ => Iff.rfl
    rw [answer, next, answer', next', same]
    exact ⟨rfl, rfl⟩

theorem move_alone (skip : p.missingIds = .skip) {stage : String} {k : Payload} {ids : List Int}
    (known : p.payload? stage = some k) (listed : x ∈ ids) (alone : ids.filter (· ≠ x) = []) :
    (p.move stage ids).answer = .ok 0 ∧ (p.move stage ids).next = p := by
  obtain ⟨i, s, found⟩ := destination_of_payload? known
  obtain ⟨answer, next⟩ := move_of_destination found (List.ne_nil_of_mem listed)
  have same := planMove_filter skip place s ids [] [] fun _ _ => Iff.rfl
  rw [alone] at same
  rw [answer, next, same]
  exact ⟨rfl, rfl⟩

theorem pack_unknown {stage : String} {before : List Int} (later : List Int)
    (known : p.payload? stage = some .batch)
    (good : before = [] ∨ ∃ k, (p.pack stage before).answer = .ok k) :
    p.pack stage (before ++ x :: later) = .refuse p (.unknownId x) [] := by
  obtain ⟨i, hi⟩ := destinationFor_of_payload? known
  have planned : ∃ plan, p.planPack [] before = .ok plan := by
    by_cases some : before = []
    · rw [some]
      exact ⟨[], rfl⟩
    · obtain ⟨k, answer⟩ := good.resolve_left some
      rcases done : p.planPack [] before with e | plan
      · have listed : before.isEmpty = false := by simpa using some
        unfold pack at answer
        rw [if_neg (by simp [listed]), hi, done] at answer
        cases answer
      · exact ⟨plan, rfl⟩
  obtain ⟨plan, planned⟩ := planned
  have failed := planPack_unknown place later before [] List.not_mem_nil
  rw [planned] at failed
  unfold pack
  rw [if_neg (by simp), hi, failed]
  rfl

theorem pack_refused (stage : String) {ids : List Int} (hx : x ∈ ids) :
    ∃ e, p.pack stage ids = .refuse p e [] := by
  have failed : ∃ e, p.planPack [] ids = .error e := by
    rcases done : p.planPack [] ids with e | plan
    · exact ⟨e, rfl⟩
    · obtain ⟨same, -, -, sources⟩ := planPack_ok ids [] done
      rw [← same] at hx
      obtain ⟨e, he, rfl⟩ := List.mem_map.mp hx
      rw [(sources e he).1] at place
      cases place
  obtain ⟨e, failed⟩ := failed
  have listed : ids.isEmpty = false := by simpa using List.ne_nil_of_mem hx
  unfold pack
  rw [if_neg (by simp [listed]), failed]
  rcases p.destinationFor stage .batch with e' | i
  · exact ⟨e', rfl⟩
  · exact ⟨e, rfl⟩

theorem unpackRoute_unknown {stage : String} (known : p.payload? stage = some .frame) :
    p.unpackRoute stage x = .error (.unknownId x) := by
  obtain ⟨i, hi⟩ := destinationFor_of_payload? known
  have stands : p.batchStage x = .error (.unknownId x) := by
    unfold batchStage
    rw [place]
  unfold unpackRoute
  rw [hi, stands]
  rfl

theorem unmoved_of_place (h : p.Consistent) (a : p.Addressed) : p.Unmoved x := by
  have unseen := unseen_of_place h a place
  have nothing := a.under_unknown h place
  obtain ⟨commit, discard⟩ := commit_discard_of_nil a nothing
  refine
    { delete := ?delete
      enqueue := fun u => ?enqueue
      enqueueBatched := fun f u => ?enqueueBatched
      enqueueMember := fun k b u live => ?enqueueMember
      commit := commit
      discard := discard
      unpack := fun stage known => ?unpack
      unpackIf := fun stage accept known => ?unpackIf
      pack := fun stage before later known good => pack_unknown place later known good
      packRefused := fun stage ids hx => pack_refused place stage hx
      moveAbort := fun abort stage k before later known good =>
        move_abort place abort later known good
      moveRefused := fun abort stage ids hx => move_refused place abort stage hx
      moveSkip := fun skip stage ids others => move_skip place skip stage others
      moveAlone := fun skip stage k ids known listed alone =>
        move_alone place skip known listed alone }
  case delete =>
    unfold Pipeline.delete
    rw [place]
  case enqueue =>
    have stands : p.independentStage x = .error (.unknownId x) := by
      unfold independentStage
      rw [place]
    unfold Pipeline.enqueue
    rw [stands]
  case enqueueBatched =>
    unfold Pipeline.enqueueBatched
    rw [show p.batches.get? x = none from unseen.noBatch]
  case enqueueMember =>
    have stranger : b.has x = false := by
      simpa [Batch.has] using unseen.noMember k b live
    unfold Pipeline.enqueueBatched
    rw [show p.batches.get? k = some b from live]
    simp only [stranger, Bool.false_eq_true, if_false]
  case unpack =>
    unfold Pipeline.unpack
    rw [unpackRoute_unknown place known]
  case unpackIf =>
    unfold Pipeline.unpackIf
    rw [unpackRoute_unknown place known]

/-- What has no place is a stranger. -/
theorem stranger_of_place (h : p.Consistent) (a : p.Addressed) : p.Stranger x where
  unseen := unseen_of_place h a place
  unread := unread_of_noFrame (h.unknown place).1
  unmoved := unmoved_of_place place h a

end Moving

end Pipeline
end FrameFlow
