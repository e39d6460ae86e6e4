/-
# Requests that are carried out

An operation checks what it is asked before it changes anything. Here the checks
are turned round: when a request names a stage that holds what it should, and
frames that stand in stages by themselves (`Pipeline.Independent`), it is carried
out, and what comes of it is one of the effects of `Pipeline.Movement`. The plan
of a packing and the plan of a move of the same frames are one plan.

Key definition: `Pipeline.Independent`.
Key theorems: `Pipeline.pack_accepts`, `Pipeline.unpack_accepts`,
`Pipeline.move_accepts`.
-/
import FrameFlow.Proofs.Pipeline.Consistency

namespace FrameFlow
namespace Pipeline

variable {p : Pipeline}

/-- A frame that stands in a stage by itself. -/
structure Independent (p : Pipeline) (id : Int) : Prop where
  frame : (p.frame? id).isSome
  single : ∃ stage payload, p.locate id = some (.stage stage payload)

/-! ### Single frames -/

/-- What callers see to be in a stage has its place there. -/
theorem place_of_locate {id : Int} {stage : String} {payload : Payload}
    (h : p.locate id = some (.stage stage payload)) : ∃ i, p.places.get? id = some (.stage i) := by
  unfold locate at h
  split at h
  · cases h
  · cases h
  · next i hp => exact ⟨i, hp⟩

theorem Independent.place {id : Int} (f : p.Independent id) :
    ∃ i, p.places.get? id = some (.stage i) := by
  obtain ⟨stage, payload, located⟩ := f.single
  exact place_of_locate located

/-- A frame is by itself when its place is a stage. -/
theorem Consistent.independent_iff (h : p.Consistent) {id : Int} :
    p.Independent id ↔ (p.frames.get? id).isSome ∧ ∃ i, p.places.get? id = some (.stage i) := by
  constructor
  · intro f
    exact ⟨f.frame, f.place⟩
  · rintro ⟨frame, i, hp⟩
    obtain ⟨s, hs, -⟩ := h.resident.mp hp
    refine ⟨frame, s.name, s.payload, ?_⟩
    unfold locate
    rw [hp]
    simp [hs]

theorem Independent.independentStage {id : Int} (f : p.Independent id) :
    ∃ i, p.independentStage id = .ok i := by
  obtain ⟨i, hp⟩ := f.place
  have frame : p.frames.contains id = true := by
    rw [Table.contains_eq]
    exact f.frame
  refine ⟨i, ?_⟩
  unfold Pipeline.independentStage
  rw [hp]
  simp only [frame, if_true]

/-! ### Stages -/

/-- The first item that a test accepts stands at the first index that it accepts. -/
theorem findIdx?_of_find? {α : Type} {q : α → Bool} {l : List α} {a : α} (h : l.find? q = some a) :
    ∃ i, l.findIdx? q = some i ∧ l[i]? = some a := by
  obtain ⟨accepted, i, hi, rfl, before⟩ := List.find?_eq_some_iff_getElem.mp h
  refine ⟨i, ?_, List.getElem?_eq_getElem hi⟩
  apply List.findIdx?_eq_some_iff_getElem.mpr
  exact ⟨hi, accepted, fun j hj => by simpa using before j hj⟩

theorem destination_eq_ok_iff {stage : String} {i : Nat} {s : Stage} :
    p.destination stage = .ok (i, s) ↔ p.indexOf? stage = some i ∧ p.stages[i]? = some s := by
  unfold destination
  rcases p.indexOf? stage with _ | j
  · simp
  · rcases hs : p.stages[j]? with _ | t
    · simp only [hs, reduceCtorEq, Option.some.injEq, false_iff, not_and]
      rintro rfl
      simp [hs]
    · simp only [hs, Except.ok.injEq, Prod.mk.injEq, Option.some.injEq]
      constructor
      · rintro ⟨rfl, rfl⟩
        exact ⟨rfl, hs⟩
      · rintro ⟨rfl, there⟩
        exact ⟨rfl, Option.some.inj (hs.symm.trans there)⟩

/-- A destination is where its name stands in the graph, and holds what is given. -/
theorem destinationFor_eq_ok_iff {stage : String} {k : Payload} {i : Nat} :
    p.destinationFor stage k = .ok i ↔
      p.indexOf? stage = some i ∧ p.payloadAt? i = some k := by
  constructor
  · intro h
    refine ⟨?_, destinationFor_ok h⟩
    unfold destinationFor at h
    rcases found : p.destination stage with e | ⟨j, s⟩
    · rw [found] at h
      cases h
    · rw [found] at h
      rcases fits : expect s k with e | ⟨⟩
      · simp only [bind, Except.bind, fits] at h
        cases h
      · simp only [bind, Except.bind, fits] at h
        cases h
        exact (destination_eq_ok_iff.mp found).1
  · rintro ⟨index, payload⟩
    obtain ⟨s, there, payload⟩ := Option.map_eq_some_iff.mp payload
    have found : p.destination stage = .ok (i, s) := destination_eq_ok_iff.mpr ⟨index, there⟩
    have fits : expect s k = .ok () := if_pos payload
    unfold destinationFor
    rw [found]
    simp only [bind, Except.bind, fits]
    rfl

/-- A stage that holds what is asked for is found. -/
theorem destinationFor_of_payload? {stage : String} {k : Payload} (h : p.payload? stage = some k) :
    ∃ i, p.destinationFor stage k = .ok i := by
  obtain ⟨s, found, payload⟩ := Option.map_eq_some_iff.mp h
  obtain ⟨i, index, there⟩ := findIdx?_of_find? found
  refine ⟨i, destinationFor_eq_ok_iff.mpr ⟨index, ?_⟩⟩
  rw [payloadAt?, there, Option.map_some, payload]

/-- Names stand for the same indices where the stages have the same names. -/
theorem indexOf?_congr {q : Pipeline} (shape : q.shape = p.shape) (name : String) :
    q.indexOf? name = p.indexOf? name := by
  have told : ∀ r : Pipeline, r.indexOf? name = r.shape.findIdx? fun s => s.1 == name := by
    intro r
    rw [indexOf?, Pipeline.shape, List.findIdx?_map]
    rfl
  rw [told, told, shape]

/-- A destination is the same in every pipeline with the same stages. -/
theorem destinationFor_congr {q : Pipeline} (shape : q.shape = p.shape) {stage : String}
    {k : Payload} {i : Nat} (h : p.destinationFor stage k = .ok i) :
    q.destinationFor stage k = .ok i := by
  rw [destinationFor_eq_ok_iff] at h ⊢
  rw [indexOf?_congr shape, payloadAt?_congr shape]
  exact h

/-! ### Plans -/

/-- Different single frames, none of them seen before, can be packed. -/
theorem planPack_of_independent : ∀ (ids seen : List Int), ids.Nodup → (∀ id ∈ ids, id ∉ seen) →
    (∀ id ∈ ids, p.Independent id) → ∃ plan, p.planPack seen ids = .ok plan
  | [], _, _, _, _ => ⟨[], rfl⟩
  | id :: ids, seen, nodup, unseen, single => by
    obtain ⟨fresh, nodup⟩ := List.nodup_cons.mp nodup
    obtain ⟨source, hs⟩ := (single id List.mem_cons_self).independentStage
    have unseen' : ∀ x ∈ ids, x ∉ id :: seen := by
      intro x hx hin
      rcases List.mem_cons.mp hin with rfl | hin
      · exact fresh hx
      · exact unseen x (List.mem_cons_of_mem _ hx) hin
    have single' : ∀ x ∈ ids, p.Independent x := fun x hx => single x (List.mem_cons_of_mem _ hx)
    obtain ⟨rest, hr⟩ := planPack_of_independent ids (id :: seen) nodup unseen' single'
    have new : ¬seen.contains id := by simpa using unseen id List.mem_cons_self
    refine ⟨(id, source) :: rest, ?_⟩
    unfold planPack
    rw [if_neg new, hs, hr]
    rfl

/-- A plan of a packing is about places, and about which frames there are. -/
theorem planPack_congr {q : Pipeline} (places : q.places = p.places)
    (frames : ∀ x, (q.frames.get? x).isSome = (p.frames.get? x).isSome) :
    ∀ ids seen : List Int, q.planPack seen ids = p.planPack seen ids
  | [], _ => by
    unfold planPack
    rfl
  | id :: ids, seen => by
    have stands : q.independentStage id = p.independentStage id := by
      unfold independentStage
      rw [places, Table.contains_eq, Table.contains_eq, frames]
    unfold planPack
    rw [stands, planPack_congr places frames ids (id :: seen)]

/-- Frames that can be packed can be moved to a stage for frames, from where they are. -/
theorem planMove_of_planPack (h : p.Consistent) {dest : Stage} (payload : dest.payload = .frame) :
    ∀ (ids seen : List Int) {plan : List (Int × Nat)}, p.planPack seen ids = .ok plan →
    p.planMove dest seen ids = (.ok plan, [])
  | [], _, plan, hp => by
    unfold planPack at hp
    cases hp
    rfl
  | id :: ids, seen, plan, hp => by
    unfold planPack at hp
    split at hp
    · cases hp
    next unseen =>
    rcases hs : p.independentStage id with _ | source
    · rw [hs] at hp; cases hp
    rcases hr : p.planPack (id :: seen) ids with _ | rest
    · rw [hs, hr] at hp; cases hp
    rw [hs, hr] at hp
    cases hp
    obtain ⟨place, frame⟩ := independentStage_ok hs
    obtain ⟨f, frame⟩ := Option.isSome_iff_exists.mp frame
    obtain ⟨s, there, -⟩ := h.resident.mp place
    have held : s.payload = .frame := by
      have := h.single place frame
      rw [payloadAt?, there] at this
      exact Option.some.inj this
    have fits : expect dest s.payload = .ok () := if_pos (payload.trans held.symm)
    have ih := planMove_of_planPack h payload ids (id :: seen) hr
    unfold planMove
    rw [if_neg unseen, place]
    simp only [there, fits, ih]
    rfl

/-! ### Requests -/

/-- Different single frames are packed into a stage for batches, under the next identifier. -/
theorem pack_accepts {stage : String} {dest : Nat} {ids : List Int}
    (hd : p.destinationFor stage .batch = .ok dest) (filled : ids ≠ []) (nodup : ids.Nodup)
    (single : ∀ id ∈ ids, p.Independent id) :
    ∃ plan, p.planPack [] ids = .ok plan ∧ (p.pack stage ids).answer = .ok (p.lastId + 1) ∧
      (p.pack stage ids).next = p.bundle ids plan dest := by
  obtain ⟨plan, hp⟩ := planPack_of_independent ids [] nodup (fun _ _ => List.not_mem_nil) single
  have some : ids.isEmpty = false := by simpa using filled
  refine ⟨plan, hp, ?_⟩
  unfold pack
  rw [if_neg (by simp [some]), hd, hp]
  exact ⟨rfl, rfl⟩

/-- A batch is dissolved into a stage for frames. -/
theorem unpack_accepts (h : p.Consistent) {stage : String} {dest : Nat} {id : Int} {b : Batch}
    (hd : p.destinationFor stage .frame = .ok dest) (hb : p.batches.get? id = some b) :
    ∃ source, p.places.get? id = some (.stage source) ∧
      (p.unpack stage id).answer = .ok b.members ∧
      (p.unpack stage id).next = p.dissolve source dest b := by
  obtain ⟨⟨source, place, -⟩, -⟩ := h.batch hb
  have live : p.batches.contains id = true := by rw [Table.contains_eq, hb]; rfl
  have stands : p.batchStage id = .ok source := by
    unfold batchStage
    rw [place]
    simp only [live, if_true]
  have route : p.unpackRoute stage id = .ok (source, dest, b) := by
    unfold unpackRoute
    rw [hd, stands, hb]
    rfl
  refine ⟨source, place, ?_⟩
  unfold unpack
  rw [route]
  exact ⟨rfl, rfl⟩

/-- Different single frames are moved to a stage for frames, as they would be packed. -/
theorem move_accepts (h : p.Consistent) {stage : String} {dest : Nat} {ids : List Int}
    {plan : List (Int × Nat)} (hd : p.destinationFor stage .frame = .ok dest) (filled : ids ≠ [])
    (hp : p.planPack [] ids = .ok plan) :
    (p.move stage ids).answer = .ok ids.length ∧
      (p.move stage ids).next = p.relocate dest plan := by
  have some : ids.isEmpty = false := by simpa using filled
  have listed : plan.length = ids.length := by
    obtain ⟨same, -⟩ := planPack_ok ids [] hp
    rw [← same, List.length_map]
  obtain ⟨index, payload⟩ := destinationFor_eq_ok_iff.mp hd
  obtain ⟨s, there, payload⟩ := Option.map_eq_some_iff.mp payload
  have found : p.destination stage = .ok (dest, s) := destination_eq_ok_iff.mpr ⟨index, there⟩
  have moves := planMove_of_planPack h payload ids [] hp
  unfold move
  rw [found]
  simp only [requested, some, Bool.false_and, Bool.false_eq_true, if_false, moves, listed]
  exact ⟨trivial, trivial⟩

end Pipeline
end FrameFlow
