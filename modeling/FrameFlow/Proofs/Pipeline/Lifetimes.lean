/-
# How long frames are there

A frame is there from when it comes in until it is deleted, alone or with its
batch. No other operation takes a frame out, and since identifiers are issued in
increasing order, none that was taken out comes back. An identifier of whatever
kind that was issued and is unknown by now stays unknown.

Key theorems: `Pipeline.frames_stay`, `Pipeline.live_between`,
`Pipeline.unknown_after`.
-/
import FrameFlow.Proofs.Pipeline.Consistency

namespace FrameFlow
namespace Pipeline

variable {p q : Pipeline}

/-- What is a frame is not the next identifier. -/
theorem Consistent.frame_ne (h : p.Consistent) {x : Int} (hx : (p.frames.get? x).isSome) :
    p.lastId + 1 ≠ x := by
  rintro rfl
  rw [(h.unknown h.fresh).1] at hx
  cases hx

/-- A frame has an identifier that was issued. -/
theorem Consistent.frame_le (h : p.Consistent) {x : Int} (hx : (p.frames.get? x).isSome) :
    x ≤ p.lastId := by
  obtain ⟨k, hk⟩ := Option.isSome_iff_exists.mp (h.known_iff.mpr (.inl hx))
  exact (h.issued hk).2

theorem frames_dropFrame {id : Int} {i : Nat} (x : Int) : (p.dropFrame id i).frames.get? x =
    if id = x then none else p.frames.get? x :=
  Table.get?_erase _ _ x

/-! ### Steps -/

/-- Moving, packing and unpacking change no frame. -/
theorem Movement.frames (m : p.Movement q) {x : Int} (ne : p.lastId + 1 ≠ x) :
    q.frames.get? x = p.frames.get? x := by
  cases m with
  | stay => rfl
  | arrive f payload => exact Table.get?_set_ne _ _ ne
  | relocate payload distinct sources => rw [(reseated_relocate p _ _).frames]
  | bundle payload filled distinct sources => rw [frames_bundle]
  | dissolve payload place live => rw [frames_dissolve]

/-- The counter only grows. -/
theorem Effect.lastId_le (e : p.Effect q) : p.lastId ≤ q.lastId := by
  cases e with
  | movement m =>
    cases m with
    | stay => exact Int.le_refl _
    | arrive f payload =>
      change p.lastId ≤ p.lastId + 1
      omega
    | relocate payload distinct sources => exact Int.le_of_eq (reseated_relocate p _ _).lastId.symm
    | bundle payload filled distinct sources =>
      rw [lastId_bundle]
      omega
    | dissolve payload place live => exact Int.le_of_eq (lastId_dissolve p _ _ _).symm
  | dropFrame place frame => exact Int.le_refl _
  | dropBatch place live =>
    rw [dropBatch_eq]
    exact Int.le_refl _
  | enqueue frame keeper => exact Int.le_refl _
  | settle id same => exact Int.le_refl _
  | edit g frame => exact Int.le_refl _

/-- A frame that was taken out does not come back. -/
theorem Effect.gone (e : p.Effect q) {x : Int} (old : x ≤ p.lastId)
    (gone : p.frames.get? x = none) : q.frames.get? x = none := by
  cases e with
  | movement m =>
    rw [m.frames (by omega)]
    exact gone
  | dropFrame place frame => rw [frames_dropFrame, gone, ite_self]
  | dropBatch place live => rw [frames_dropBatch, gone, ite_self]
  | enqueue frame keeper => exact gone
  | settle id same =>
    have := same x
    rw [gone] at this
    simpa using this
  | @edit id f g frame =>
    have ne : id ≠ x := by
      rintro rfl
      rw [frame] at gone
      cases gone
    exact (Table.get?_set_ne _ _ ne).trans gone

/-- An identifier that was issued and has no place any more is given none again. -/
theorem Effect.unknown (h : p.Consistent) (e : p.Effect q) {x : Int} (old : x ≤ p.lastId)
    (unknown : p.places.get? x = none) : q.places.get? x = none := by
  have ne : p.lastId + 1 ≠ x := by omega
  -- what has a place is something else
  have other : ∀ {y at'}, p.places.get? y = some at' → y ≠ x := by
    rintro y at' hy rfl
    rw [unknown] at hy
    cases hy
  cases e with
  | movement m =>
    cases m with
    | stay => exact unknown
    | arrive f payload => exact (Table.get?_set_ne _ _ ne).trans unknown
    | relocate payload distinct sources =>
      rw [places_relocate, if_neg, unknown]
      intro hx
      obtain ⟨e, he, same⟩ := List.mem_map.mp hx
      exact other (sources e he).1 same
    | bundle payload filled distinct sources =>
      rw [places_bundle, if_neg ne, if_neg, unknown]
      intro hx
      obtain ⟨e, he, same⟩ := List.mem_map.mp hx
      exact other (sources e he).1 same
    | dissolve payload place live =>
      obtain ⟨-, -, -, -, members⟩ := h.batch live
      rw [places_dissolve, if_neg fun hx => other (members x hx) rfl, unknown, ite_self]
  | dropFrame place frame =>
    refine (Table.get?_erase _ _ x).trans ?_
    rw [unknown, ite_self]
  | dropBatch place live => rw [places_dropBatch, unknown, ite_self, ite_self]
  | enqueue frame keeper => exact unknown
  | settle id same => exact unknown
  | edit g frame => exact unknown

/-- Only a deletion takes frames out. -/
theorem frames_stay (h : p.Consistent) (op : Operation) (other : ∀ id, op ≠ .delete id) {f : Int}
    (hf : (p.frames.get? f).isSome) : ((op.run p).2.frames.get? f).isSome := by
  have moved : ∀ {q}, p.Movement q → (q.frames.get? f).isSome := by
    intro q m
    rw [m.frames (h.frame_ne hf)]
    exact hf
  have edited : ∀ g id change, ((p.edit g id change).2.frames.get? f).isSome := by
    intro g id change
    rcases edit_cases (p := p) g id change with he | ⟨_, -, he⟩
    · rw [he]; exact hf
    · rw [he, Table.get?_set]
      split
      · rfl
      · exact hf
  cases op with
  | addFrame stage g => exact moved (movement_addFrame stage g)
  | move stage ids => exact moved (movement_move stage ids)
  | pack stage ids => exact moved (movement_pack stage ids)
  | unpack stage batch => exact moved (movement_unpack h stage batch)
  | unpackIf stage batch accept => exact moved (movement_unpackIf h stage batch accept)
  | delete id => exact absurd rfl (other id)
  | enqueue g u =>
    simp only [Operation.run, Outcome.replied]
    rcases enqueue_cases (p := p) g u with ⟨e, he⟩ | ⟨_, -, -, he⟩
    · rw [he]; exact hf
    · rw [he]; exact hf
  | enqueueBatched batch g u =>
    simp only [Operation.run, Outcome.replied]
    rcases enqueueBatched_cases h batch g u with ⟨e, he⟩ | ⟨-, -, he⟩
    · rw [he]; exact hf
    · rw [he]; exact hf
  | commit id =>
    simp only [Operation.run, Outcome.replied]
    rcases commit_cases (p := p) id with
      ⟨-, next, -⟩ | ⟨ids, -, -, ⟨e, -, -, next⟩ | ⟨copies, -, -, next⟩⟩
    · rw [next]; exact hf
    · rw [next]; exact hf
    · rw [next, get?_overwrite]
      split
      · simp [hf]
      · exact hf
  | discard id => exact hf
  | setConfidence g id confidence => exact edited g id _
  | setBox g id box => exact edited g id _
  | setTrack g id track => exact edited g id _

/-! ### Runs -/

theorem gone_after (ops : List Operation) {x : Int} (h : p.Consistent) (old : x ≤ p.lastId)
    (gone : p.frames.get? x = none) : (p.after ops).frames.get? x = none := by
  induction ops generalizing p with
  | nil => exact gone
  | cons op ops ih =>
    have e := effect_run h op
    have old' : x ≤ (op.run p).2.lastId := Int.le_trans old e.lastId_le
    exact ih (h.effect e) old' (e.gone old gone)

/-- An identifier that was issued and is unknown stays unknown. -/
theorem unknown_after (ops : List Operation) {x : Int} (h : p.Consistent) (old : x ≤ p.lastId)
    (unknown : p.places.get? x = none) : (p.after ops).places.get? x = none := by
  induction ops generalizing p with
  | nil => exact unknown
  | cons op ops ih =>
    have e := effect_run h op
    have old' : x ≤ (op.run p).2.lastId := Int.le_trans old e.lastId_le
    exact ih (h.effect e) old' (e.unknown h old unknown)

/-- A frame that is there before and after a run is there after its first operation. -/
theorem live_between (h : p.Consistent) (op : Operation) (ops : List Operation) {x : Int}
    (before : (p.frames.get? x).isSome) (later : ((p.after (op :: ops)).frames.get? x).isSome) :
    ((op.run p).2.frames.get? x).isSome := by
  by_contra out
  have gone : (op.run p).2.frames.get? x = none := by simpa using out
  have e := effect_run h op
  have old : x ≤ (op.run p).2.lastId := Int.le_trans (h.frame_le before) e.lastId_le
  have none : (p.after (op :: ops)).frames.get? x = none := gone_after ops (h.effect e) old gone
  rw [none] at later
  cases later

end Pipeline
end FrameFlow
