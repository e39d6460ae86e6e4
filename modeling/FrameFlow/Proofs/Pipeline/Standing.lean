/-
# What an identifier can be

The tables of a pipeline are kept apart from one another, and go together in
this way: an identifier is unknown, a single frame in a stage for frames, a
frame packed in a batch, or a batch in a stage for batches
(`Pipeline.Standing`). A pipeline is consistent when every identifier has such a
standing, the residents of stages are those whose place it is, and all places
belong to identifiers that were issued.

Key definitions: `Pipeline.Standing`, `Pipeline.Consistent`, `Pipeline.keeper?`.
Key theorem: `Pipeline.Standing.keep`, a standing that nothing touches stays.
-/
import FrameFlow.Proofs.Pipeline.Views

namespace FrameFlow
namespace Pipeline

/-- What an identifier is, with all that the tables say about it. -/
inductive Standing (p : Pipeline) (id : Int) : Prop where
  | unknown (place : p.places.get? id = none) (frame : p.frames.get? id = none)
      (batch : p.batches.get? id = none)
  | single {i : Nat} {f : Frame} (place : p.places.get? id = some (.stage i))
      (payload : p.payloadAt? i = some .frame) (frame : p.frames.get? id = some f)
      (batch : p.batches.get? id = none)
  | packed {k : Int} {f : Frame} {b : Batch} (place : p.places.get? id = some (.batch k))
      (frame : p.frames.get? id = some f) (batch : p.batches.get? id = none)
      (live : p.batches.get? k = some b) (member : id ∈ b.members)
  | batch {i : Nat} {b : Batch} (place : p.places.get? id = some (.stage i))
      (payload : p.payloadAt? i = some .batch) (frame : p.frames.get? id = none)
      (batch : p.batches.get? id = some b) (label : b.id = id) (filled : b.members ≠ [])
      (distinct : b.members.Nodup)
      (members : ∀ m ∈ b.members, p.places.get? m = some (.batch id))

/-- The tables of a pipeline go together. -/
structure Consistent (p : Pipeline) : Prop where
  standing : ∀ id, p.Standing id
  resident : ∀ {id i}, p.places.get? id = some (.stage i) ↔ p.Holds i id
  issued : ∀ {id at'}, p.places.get? id = some at' → 0 < id ∧ id ≤ p.lastId
  counted : 0 ≤ p.lastId
  names : p.stageNames.Nodup

/-- The identifier under which updates for a frame wait: its own while it is single, and that of
its batch while it is packed. -/
def keeper? (p : Pipeline) (f : Int) : Option Int :=
  (p.places.get? f).map fun
    | .stage _ => f
    | .batch b => b

theorem keeper?_eq_some_iff {p : Pipeline} {f k : Int} : p.keeper? f = some k ↔
    (f = k ∧ ∃ i, p.places.get? f = some (.stage i)) ∨ p.places.get? f = some (.batch k) := by
  unfold keeper?
  rcases p.places.get? f with _ | i | b <;> simp

theorem keeper?_congr {p q : Pipeline} {f : Int} (h : q.places.get? f = p.places.get? f) :
    q.keeper? f = p.keeper? f := by
  rw [keeper?, h, keeper?]

/-- An identifier that nothing around it touches keeps its standing. -/
theorem Standing.keep {p q : Pipeline} {id : Int} (h : p.Standing id) (shape : q.shape = p.shape)
    (place : q.places.get? id = p.places.get? id)
    (frame : (q.frames.get? id).isSome = (p.frames.get? id).isSome)
    (batch : q.batches.get? id = p.batches.get? id)
    (around : ∀ k, p.places.get? id = some (.batch k) → q.batches.get? k = p.batches.get? k)
    (inside : ∀ m, p.places.get? m = some (.batch id) → q.places.get? m = p.places.get? m) :
    q.Standing id := by
  cases h with
  | unknown hp hf hb =>
    rw [hf] at frame
    exact .unknown (place.trans hp) (by simpa using frame) (batch.trans hb)
  | single hp hk hf hb =>
    rw [hf] at frame
    obtain ⟨f, hf⟩ := Option.isSome_iff_exists.mp frame
    exact .single (place.trans hp) ((payloadAt?_congr shape _).trans hk) hf (batch.trans hb)
  | packed hp hf hb hl hm =>
    rw [hf] at frame
    obtain ⟨f, hf⟩ := Option.isSome_iff_exists.mp frame
    exact .packed (place.trans hp) hf (batch.trans hb) ((around _ hp).trans hl) hm
  | batch hp hk hf hb label filled distinct members =>
    rw [hf] at frame
    exact .batch (place.trans hp) ((payloadAt?_congr shape _).trans hk) (by simpa using frame)
      (batch.trans hb) label filled distinct
      fun m hm => (inside m (members m hm)).trans (members m hm)

namespace Consistent

variable {p : Pipeline} (h : p.Consistent)
include h

/-! ### What the tables say of one another -/

theorem known_iff {id : Int} : (p.places.get? id).isSome ↔
    (p.frames.get? id).isSome ∨ (p.batches.get? id).isSome := by
  cases h.standing id <;> simp [*]

theorem batch_of_frame {id : Int} {f : Frame} (hf : p.frames.get? id = some f) :
    p.batches.get? id = none := by
  cases h.standing id <;> simp_all

theorem frame_of_batch {id : Int} {b : Batch} (hb : p.batches.get? id = some b) :
    p.frames.get? id = none := by
  cases h.standing id <;> simp_all

/-- A packed frame is a frame, and listed by its batch. -/
theorem packed {id k : Int} (hp : p.places.get? id = some (.batch k)) :
    ∃ f b, p.frames.get? id = some f ∧ p.batches.get? k = some b ∧ id ∈ b.members := by
  cases h.standing id with
  | packed place frame _ live member =>
    cases place.symm.trans hp
    exact ⟨_, _, frame, live, member⟩
  | _ => simp_all

/-- A batch is in a stage for batches, under its own identifier, and lists frames that are packed
in it, each once and at least one. -/
theorem batch {id : Int} {b : Batch} (hb : p.batches.get? id = some b) :
    (∃ i, p.places.get? id = some (.stage i) ∧ p.payloadAt? i = some .batch) ∧ b.id = id ∧
      b.members ≠ [] ∧ b.members.Nodup ∧ ∀ m ∈ b.members, p.places.get? m = some (.batch id) := by
  cases h.standing id with
  | batch place payload _ batch label filled distinct members =>
    cases batch.symm.trans hb
    exact ⟨⟨_, place, payload⟩, label, filled, distinct, members⟩
  | _ => simp_all

theorem packed_iff {id k : Int} : p.places.get? id = some (.batch k) ↔
    ∃ b, p.batches.get? k = some b ∧ id ∈ b.members := by
  constructor
  · intro hp
    obtain ⟨_, b, -, hb, hm⟩ := h.packed hp
    exact ⟨b, hb, hm⟩
  · rintro ⟨b, hb, hm⟩
    exact (h.batch hb).2.2.2.2 id hm

/-- A single frame stands in a stage for frames. -/
theorem single {id : Int} {i : Nat} {f : Frame} (hp : p.places.get? id = some (.stage i))
    (hf : p.frames.get? id = some f) : p.payloadAt? i = some .frame := by
  cases h.standing id with
  | single place payload => cases place.symm.trans hp; exact payload
  | _ => simp_all

/-- What stands in a stage is a frame or a batch, as the stage holds. -/
theorem of_stage {id : Int} {i : Nat} (hp : p.places.get? id = some (.stage i)) :
    (p.payloadAt? i = some .frame ∧ (p.frames.get? id).isSome ∧ p.batches.get? id = none) ∨
      (p.payloadAt? i = some .batch ∧ p.frames.get? id = none ∧ (p.batches.get? id).isSome) := by
  cases h.standing id with
  | single place payload frame batch =>
    cases place.symm.trans hp
    exact .inl ⟨payload, by simp [frame], batch⟩
  | batch place payload frame batch =>
    cases place.symm.trans hp
    exact .inr ⟨payload, frame, by simp [batch]⟩
  | _ => simp_all

/-- An identifier is in one stage at most. -/
theorem holds_unique {id : Int} {i j : Nat} (hi : p.Holds i id) (hj : p.Holds j id) : i = j := by
  have := (h.resident.mpr hi).symm.trans (h.resident.mpr hj)
  cases this
  rfl

theorem only {id : Int} {i j : Nat} (hp : p.places.get? id = some (.stage i)) (hj : p.Holds j id) :
    j = i :=
  h.holds_unique hj (h.resident.mp hp)

/-- The next identifier is unknown. -/
theorem fresh : p.places.get? (p.lastId + 1) = none := by
  rcases e : p.places.get? (p.lastId + 1) with _ | at'
  · rfl
  · have := (h.issued e).2
    omega

theorem unknown {id : Int} (hp : p.places.get? id = none) :
    p.frames.get? id = none ∧ p.batches.get? id = none := by
  cases h.standing id <;> simp_all

/-! ### Keepers -/

/-- A frame has a keeper. -/
theorem keeper_isSome {id : Int} (hf : (p.frames.get? id).isSome) : ∃ k, p.keeper? id = some k := by
  cases h.standing id <;> simp_all [keeper?]

/-- A keeper is in a stage. -/
theorem keeper_known {f k : Int} (hk : p.keeper? f = some k) :
    ∃ i, p.places.get? k = some (.stage i) := by
  rcases keeper?_eq_some_iff.mp hk with ⟨rfl, hp⟩ | hp
  · exact hp
  · obtain ⟨_, b, -, hb, -⟩ := h.packed hp
    obtain ⟨⟨i, hi, -⟩, -⟩ := h.batch hb
    exact ⟨i, hi⟩

/-- A frame keeps updates for itself only. -/
theorem keeper_self {f g : Int} (hf : (p.frames.get? f).isSome) (hg : p.keeper? g = some f) :
    g = f := by
  rcases keeper?_eq_some_iff.mp hg with ⟨e, -⟩ | hp
  · exact e
  · obtain ⟨_, b, -, hb, -⟩ := h.packed hp
    rw [h.frame_of_batch hb] at hf
    cases hf

/-- A batch keeps updates for its members. -/
theorem keeper_batch {f k : Int} {b : Batch} (hb : p.batches.get? k = some b)
    (hf : (p.frames.get? f).isSome) : p.keeper? f = some k ↔ f ∈ b.members := by
  obtain ⟨-, -, -, -, members⟩ := h.batch hb
  constructor
  · intro hk
    rcases keeper?_eq_some_iff.mp hk with ⟨rfl, -⟩ | hp
    · rw [h.frame_of_batch hb] at hf
      cases hf
    · obtain ⟨_, b', -, hb', hm⟩ := h.packed hp
      cases hb.symm.trans hb'
      exact hm
  · exact fun hm => keeper?_eq_some_iff.mpr (.inr (members f hm))

end Consistent

end Pipeline
end FrameFlow
