/-
# Registries whose values change

Values are replaced behind their handles as they change. Which handles are issued
does not depend on the values: the outline of a registry, which tells of each slot
only whether it is filled, is a registry itself, and replacing a value leaves it as
it is. So a handle is issued once, whatever the values become, and what is done
behind one handle does not show behind another one.

Key definitions: `Registry.outline`, `Registry.Issues`, `Registry.Together`.
Key theorems: `Registry.Issues.insert`, `Registry.Issues.mem_of_get?`,
`Registry.Together.get?`, `Registry.Together.issues`.
-/
import FrameFlow.Proofs.Registry.Keeping

namespace FrameFlow

/-- Whether a slot is filled, and its generation. -/
def Slot.outline {α : Type} (s : Slot α) : Slot Unit := ⟨s.generation, s.value.map fun _ => ()⟩

namespace Registry

variable {α : Type} {r : Registry α}

/-! ### The outline of a registry -/

/-- A registry in which only the handles are left. -/
def outline (r : Registry α) : Registry Unit := ⟨r.slots.map Slot.outline, r.free, r.live⟩

theorem outline_slot (r : Registry α) (i : Nat) :
    r.outline.slots[i]? = r.slots[i]?.map Slot.outline :=
  List.getElem?_map

theorem outline_get? (r : Registry α) (k : Handle) :
    r.outline.get? k = (r.get? k).map fun _ => () := by
  unfold get?
  rw [outline_slot]
  rcases r.slots[k.index]? with _ | s
  · rfl
  · change (if s.generation = k.generation then s.value.map fun _ => () else none) = _
    simp only
    split
    · rfl
    · rfl

theorem outline_generationAt (r : Registry α) (i : Nat) :
    r.outline.generationAt i = r.generationAt i := by
  unfold generationAt
  rw [outline_slot]
  rcases r.slots[i]? with _ | s
  · rfl
  · rfl

/-- A change of one slot is seen in the outline as a change of the same slot. -/
theorem outline_modify (slots : List (Slot α)) (i : Nat) {f : Slot α → Slot α}
    {g : Slot Unit → Slot Unit} (same : ∀ s, (f s).outline = g s.outline) :
    (slots.modify i f).map Slot.outline = (slots.map Slot.outline).modify i g := by
  refine List.ext_getElem? fun j => ?_
  rw [List.getElem?_map, List.getElem?_modify, List.getElem?_modify, List.getElem?_map]
  rcases slots[j]? with _ | s
  · rfl
  · by_cases e : i = j
    · simp [e, same]
    · simp [e]

/-- The next handle does not depend on any value. -/
theorem outline_insert (r : Registry α) (a : α) :
    (r.outline.insert ()).1 = (r.insert a).1 ∧
      (r.outline.insert ()).2 = (r.insert a).2.outline := by
  obtain ⟨slots, free, live⟩ := r
  rcases free with _ | ⟨i, free⟩
  · constructor
    · exact congrArg (Handle.mk 1) (List.length_map _)
    · have appended : (slots ++ [(⟨1, some a⟩ : Slot α)]).map Slot.outline =
          slots.map Slot.outline ++ [⟨1, some ()⟩] := List.map_append
      exact congrArg (Registry.mk · [] (live + 1)) appended.symm
  · constructor
    · exact congrArg (Handle.mk · i) (outline_generationAt _ i)
    · have changed : (slots.modify i (·.holding a)).map Slot.outline =
          (slots.map Slot.outline).modify i (·.holding ()) := outline_modify slots i fun _ => rfl
      exact congrArg (Registry.mk · free (live + 1)) changed.symm

theorem outline_remove (r : Registry α) (k : Handle) :
    (r.outline.remove k).2 = (r.remove k).2.outline := by
  unfold remove
  rw [outline_get?]
  rcases r.get? k with _ | a
  · rfl
  · have changed : (r.slots.modify k.index Slot.emptied).map Slot.outline =
        (r.slots.map Slot.outline).modify k.index Slot.emptied :=
      outline_modify r.slots k.index fun _ => rfl
    exact congrArg (Registry.mk · (k.index :: r.free) (r.live - 1)) changed.symm

/-- Replacing a value leaves the outline as it is. -/
theorem outline_replace (r : Registry α) (k : Handle) (a : α) :
    (r.replace k a).outline = r.outline := by
  rcases replace_cases r k a with ⟨-, done⟩ | ⟨old, slots, there, done, slot⟩
  · rw [done]
  · rw [done]
    have same : slots.map Slot.outline = r.slots.map Slot.outline := by
      refine List.ext_getElem? fun j => ?_
      rw [List.getElem?_map, List.getElem?_map, slot j]
      by_cases e : k.index = j
      · rw [if_pos e, ← e, there]
        rfl
      · rw [if_neg e]
    show Registry.mk (slots.map Slot.outline) r.free r.live = _
    rw [same]
    rfl

theorem sound_of_outline (sound : r.outline.Sound) : r.Sound where
  nodup := sound.nodup
  free := by
    intro i
    refine sound.free.trans (exists_congr fun g => ?_)
    rw [outline_slot]
    rcases r.slots[i]? with _ | ⟨g', v⟩
    · simp
    · simp [Slot.outline]

/-! ### Handles are issued once -/

/-- The handles that have been issued, in order. -/
def Issues (r : Registry α) (ks : List Handle) : Prop :=
  ∃ t : History Unit, r.outline.Tracks t ∧ issued t = ks.map Handle.number ∧
    ∀ k ∈ ks, Handle.ofNumber k.number = k

theorem issues_empty : (empty : Registry α).Issues [] :=
  ⟨[], tracks_empty, rfl, fun _ none => by cases none⟩

namespace Issues

variable {ks : List Handle} (h : r.Issues ks)
include h

theorem sound : r.Sound := by
  obtain ⟨t, tracks, -, -⟩ := h
  exact sound_of_outline tracks.sound

/-- The next handle is a new one, and stands for its number, which is not zero. -/
theorem insert (a : α) (room : ks.length + 1 < Handle.span) :
    (r.insert a).1 ∉ ks ∧ (r.insert a).1.number ≠ 0 ∧
      Handle.ofNumber (r.insert a).1.number = (r.insert a).1 ∧
      (r.insert a).2.Issues (ks ++ [(r.insert a).1]) := by
  obtain ⟨t, tracks, numbers, named⟩ := h
  have length : (issued t).length = ks.length := by rw [numbers, List.length_map]
  have room : (issued t).length + 1 < Handle.span := by omega
  obtain ⟨handle, next⟩ := r.outline_insert a
  have told := tracks.insert () room
  rw [handle, next] at told
  obtain ⟨k, free, slots, n, done, -⟩ := insert_cases tracks.sound ()
  obtain ⟨own, fresh, positive⟩ := tracks.next n (Nat.lt_of_succ_lt room)
  have same : k = (r.insert a).1 := by rw [← handle, done]
  rw [same] at own fresh positive
  have different : (r.insert a).1 ∉ ks := fun old => fresh (numbers ▸ List.mem_map_of_mem old)
  have number : (r.insert a).1.number ≠ 0 := by
    have upper : 0 < (r.insert a).1.generation * Handle.span := Nat.mul_pos positive (by decide)
    unfold Handle.number
    omega
  refine ⟨different, number, own, _, told, ?_, fun j hj => ?_⟩
  · rw [issued_concat, numbers, List.map_append]
    rfl
  · rcases List.mem_append.mp hj with old | new
    · exact named j old
    · rw [List.mem_singleton.mp new]
      exact own

theorem remove (k : Handle) (room : ks.length + 1 < Handle.span) : (r.remove k).2.Issues ks := by
  rcases remove_cases r k with ⟨-, done⟩ | ⟨a, slots, there, -⟩
  · rw [done]
    exact h
  obtain ⟨t, tracks, numbers, named⟩ := h
  have length : (issued t).length = ks.length := by rw [numbers, List.length_map]
  have most := tracks.slots
  have few : r.outline.slots.length = r.slots.length := List.length_map _
  -- the handle stands for its number, since there are not that many slots
  have index : k.index < Handle.span := by
    have below := (List.getElem?_eq_some_iff.mp there).1
    omega
  have told := tracks.step (.remove k.number) (by
    show (issued t).length + 0 + 1 < Handle.span
    omega)
  simp only [Call.run, Handle.ofNumber_number index, outline_remove] at told
  refine ⟨_, told, ?_, named⟩
  rw [issued_concat, numbers]
  exact List.append_nil _

theorem replace (k : Handle) (a : α) : (r.replace k a).Issues ks := by
  unfold Issues
  rw [outline_replace]
  exact h

/-- Only what was issued has something behind it. -/
theorem mem_of_get? {k : Handle} {a : α} (live : r.get? k = some a)
    (room : ks.length < Handle.span) : k ∈ ks := by
  obtain ⟨t, tracks, numbers, named⟩ := h
  have length : (issued t).length = ks.length := by rw [numbers, List.length_map]
  have most := tracks.slots
  have few : r.outline.slots.length = r.slots.length := List.length_map _
  have index : k.index < Handle.span := by
    have below := (List.getElem?_eq_some_iff.mp (get?_eq_some_iff.mp live)).1
    omega
  have own := Handle.ofNumber_number index
  have there : r.outline.get? (.ofNumber k.number) = some () := by
    rw [own, outline_get?, live]
    rfl
  have number := issued_of_outstanding (tracks.held.mpr there)
  rw [numbers, List.mem_map] at number
  obtain ⟨j, known, same⟩ := number
  rw [← own, ← same, named j known]
  exact known

end Issues

/-! ### What is done behind a handle -/

/-- The same is done behind two handles, each in its own registry: nothing, what is there is taken
out, or it is replaced. -/
inductive Together (k k' : Handle) (r r' : Registry α) : Registry α → Registry α → Prop where
  | stay : Together k k' r r' r r'
  | remove : Together k k' r r' (r.remove k).2 (r'.remove k').2
  | replace (a : α) : Together k k' r r' (r.replace k a) (r'.replace k' a)

namespace Together

variable {k k' : Handle} {r' s s' : Registry α}

theorem of_same (left : s = r) (right : s' = r') : Together k k' r r' s s' := by
  rw [left, right]
  exact .stay

theorem symm (done : Together k k' r r' s s') : Together k' k r' r s' s := by
  cases done with
  | stay => exact .stay
  | remove => exact .remove
  | replace a => exact .replace a

/-- Behind the two handles there is the same afterwards, if there was before. -/
theorem get? (done : Together k k' r r' s s') (same : r.get? k = r'.get? k') :
    s.get? k = s'.get? k' := by
  cases done with
  | stay => exact same
  | remove => rw [get?_remove, get?_remove, if_pos rfl, if_pos rfl]
  | replace a =>
    rcases live : r.get? k with _ | old
    · have live' := same.symm.trans live
      unfold Registry.replace
      rw [live, live']
      exact same
    · have live' := same.symm.trans live
      rw [get?_replace live, get?_replace live', if_pos rfl, if_pos rfl]

/-- Where nothing is there, nothing is done. -/
theorem eq_of_dead (done : Together k k' r r' s s') (dead : r.get? k = none) : s = r := by
  cases done with
  | stay => rfl
  | remove =>
    unfold Registry.remove
    rw [dead]
  | replace a =>
    unfold Registry.replace
    rw [dead]

/-- Behind all other handles there is what was there before. -/
theorem get?_ne (done : Together k k' r r' s s') {j : Handle} (other : k ≠ j) :
    s.get? j = r.get? j := by
  cases done with
  | stay => rfl
  | remove => rw [get?_remove, if_neg other]
  | replace a =>
    rcases live : r.get? k with _ | old
    · unfold Registry.replace
      rw [live]
    · rw [get?_replace live, if_neg other]

theorem issues (done : Together k k' r r' s s') {ks : List Handle} (h : r.Issues ks)
    (room : ks.length + 1 < Handle.span) : s.Issues ks := by
  cases done with
  | stay => exact h
  | remove => exact h.remove k room
  | replace a => exact h.replace k a

end Together
end Registry
end FrameFlow
