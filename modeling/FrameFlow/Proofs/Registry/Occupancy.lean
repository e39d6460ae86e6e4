/-
# There are as many slots as there ever were values

A registry makes a slot only when none is free, and never gives one up. So no slot is lost: each
is free or has a value, and the counter is the number of those that have one
(`Registry.Balanced.live_eq`). A call leaves a slot more only if it leaves a value for every slot
(`Registry.Balanced.slots_step`). After a run there are therefore just as many slots as there were
values at one time when there were most of them (`Registry.isGreatest_slots`).

Key definitions: `Registry.filled`, `Registry.Balanced`, `Registry.AtOnce`, `Registry.KeepsSlots`.
Key theorems: `Registry.Sound.length_free`, `Registry.Balanced.slots_step`,
`Registry.isGreatest_slots`, `Registry.keeps_slots`.
-/
import FrameFlow.Proofs.Registry.Handles

namespace FrameFlow
namespace Registry

variable {α : Type} {r : Registry α}

/-! ### Free slots and filled slots -/

/-- How many slots have a value. -/
def filled (r : Registry α) : Nat := r.slots.countP fun s => s.value.isSome

/-- The free slots are those that a search for empty ones finds, in another order. -/
theorem Sound.free_perm (sound : r.Sound) :
    r.free.Perm (r.slots.findIdxs fun s => s.value.isNone) := by
  rw [List.perm_ext_iff_of_nodup sound.nodup List.nodup_findIdxs]
  intro i
  rw [sound.free, List.mem_findIdxs_iff_exists_getElem_pos]
  constructor
  · rintro ⟨g, there⟩
    obtain ⟨below, here⟩ := List.getElem?_eq_some_iff.mp there
    exact ⟨below, by rw [here]; rfl⟩
  · rintro ⟨below, empty⟩
    refine ⟨r.slots[i].generation, ?_⟩
    rw [List.getElem?_eq_getElem below, ← Option.isNone_iff_eq_none.mp empty]

/-- A slot is free or it has a value. -/
theorem Sound.length_free (sound : r.Sound) : r.free.length + r.filled = r.slots.length := by
  have empty : r.free.length = r.slots.countP fun s => s.value.isNone := by
    rw [sound.free_perm.length_eq, List.length_findIdxs]
  have others : r.slots.countP (fun s => decide ¬s.value.isNone) = r.filled :=
    List.countP_congr fun s _ => by cases s.value <;> simp
  have parts := List.length_eq_countP_add_countP (fun s : Slot α => s.value.isNone) (l := r.slots)
  omega

/-- The slots are in order, and the counter counts those that are not free. -/
structure Balanced (r : Registry α) : Prop where
  sound : r.Sound
  counted : r.free.length + r.live = r.slots.length

/-- A slot is made when none is free. -/
theorem length_insert (r : Registry α) (a : α) : (r.insert a).2.slots.length =
    if r.free = [] then r.slots.length + 1 else r.slots.length := by
  unfold insert
  rcases r.free with _ | ⟨i, free⟩
  · simp
  · simp

theorem live_insert (r : Registry α) (a : α) : (r.insert a).2.live = r.live + 1 := by
  unfold insert
  split
  · rfl
  · rfl

theorem length_remove (r : Registry α) (k : Handle) :
    (r.remove k).2.slots.length = r.slots.length := by
  rcases remove_cases r k with ⟨-, done⟩ | ⟨a, slots, -, done, length, -⟩
  · rw [done]
  · rw [done]
    exact length

namespace Balanced

theorem empty : (Registry.empty : Registry α).Balanced := ⟨tracks_empty.sound, rfl⟩

variable (b : r.Balanced)
include b

/-- The counter is the number of slots that have a value. -/
theorem live_eq : r.live = r.filled := by
  have parts := b.sound.length_free
  have counted := b.counted
  omega

/-- With a value behind some handle the counter is not zero. -/
theorem live_pos {k : Handle} {a : α} (held : r.get? k = some a) : 0 < r.live := by
  rw [b.live_eq, filled, List.countP_pos_iff]
  exact ⟨_, List.mem_of_getElem? (get?_eq_some_iff.mp held), rfl⟩

theorem insert (a : α) : (r.insert a).2.Balanced where
  sound := b.sound.insert a
  counted := by
    have counted := b.counted
    unfold Registry.insert
    rcases free : r.free with _ | ⟨i, rest⟩
    · rw [free] at counted
      simp only [List.length_append, List.length_nil, List.length_singleton] at counted ⊢
      omega
    · rw [free] at counted
      simp only [List.length_modify, List.length_cons] at counted ⊢
      omega

theorem remove (k : Handle) : (r.remove k).2.Balanced where
  sound := b.sound.remove k
  counted := by
    have counted := b.counted
    rcases remove_cases r k with ⟨-, done⟩ | ⟨a, slots, there, done, length, -⟩
    · rw [done]
      exact counted
    · have positive := b.live_pos (get?_eq_some_iff.mpr there)
      rw [done]
      simp only [List.length_cons]
      omega

theorem step (c : Call α) : (c.run r).2.Balanced := by
  cases c with
  | insert a => exact b.insert a
  | get n => exact b
  | remove n => exact b.remove (.ofNumber n)

/-- A call leaves the slots that there were, or one for each value if there are more of these. -/
theorem slots_step (c : Call α) :
    (c.run r).2.slots.length = max (c.run r).2.live r.slots.length := by
  have before := b.counted
  have after := (b.step c).counted
  cases c with
  | insert a =>
    have length := length_insert r a
    have live := live_insert r a
    simp only [Call.run] at after ⊢
    split at length
    · next none =>
      rw [none, List.length_nil] at before
      omega
    · omega
  | get n =>
    simp only [Call.run]
    omega
  | remove n =>
    have length := length_remove r (.ofNumber n)
    simp only [Call.run] at after ⊢
    omega

theorem after (cs : List (Call α)) : (r.after cs).Balanced := by
  induction cs generalizing r with
  | nil => exact b
  | cons c cs ih => exact ih (b.step c)

end Balanced

/-! ### How many values there were -/

/-- How many values there were at the same time, in the course of some calls. -/
def AtOnce (calls : List (Call α)) : Set Nat :=
  {n | ∃ before, before <+: calls ∧ n = (outstanding (empty.history before)).length}

theorem atOnce_nil : AtOnce ([] : List (Call α)) = {0} := by
  ext n
  simp [AtOnce, history, outstanding]

theorem atOnce_concat (calls : List (Call α)) (c : Call α) : AtOnce (calls ++ [c]) =
    Insert.insert (outstanding (empty.history (calls ++ [c]))).length (AtOnce calls) := by
  ext n
  simp only [AtOnce, List.prefix_concat_iff, Set.mem_ofPred_eq, Set.mem_insert_iff]
  constructor
  · rintro ⟨before, rfl | early, rfl⟩
    · exact .inl rfl
    · exact .inr ⟨before, early, rfl⟩
  · rintro (rfl | ⟨before, early, rfl⟩)
    · exact ⟨_, .inl rfl, rfl⟩
    · exact ⟨before, .inr early, rfl⟩

theorem insertions_concat_le (calls : List (Call α)) (c : Call α) :
    insertions calls ≤ insertions (calls ++ [c]) := by
  unfold insertions
  rw [List.countP_append]
  exact Nat.le_add_right _ _

/-- **There are as many slots as there ever were values.** -/
theorem isGreatest_slots {calls : List (Call α)} (room : insertions calls < 2 ^ 32 - 1) :
    IsGreatest (AtOnce calls) (empty.after calls).slots.length := by
  -- The induction is on the last call, since the greatest number is that of all states so far.
  induction calls using List.reverseRecOn with
  | nil =>
    rw [atOnce_nil]
    exact isGreatest_singleton
  | append_singleton calls c ih =>
    have earlier := ih (Nat.lt_of_le_of_lt (insertions_concat_le calls c) room)
    have step := (Balanced.empty.after calls).slots_step c
    have live := (tracks_after room).live
    rw [after_append] at live ⊢
    change ((c.run (empty.after calls)).2).live = _ at live
    change IsGreatest _ ((c.run (empty.after calls)).2).slots.length
    rw [atOnce_concat, step, live]
    exact earlier.insert _

/-! ### Slots -/

/-- After some calls on an empty registry, no slot is lost and none stands for two. -/
structure KeepsSlots (calls : List (Call α)) : Prop where
  /-- The empty slots are listed, each of them once. -/
  nodup : (empty.after calls).free.Nodup
  free : ∀ i, i ∈ (empty.after calls).free ↔
    ∃ s, (empty.after calls).slots[i]? = some s ∧ s.value = none
  /-- The counter is the number of the other ones. When a value is taken out it is not zero. -/
  live : (empty.after calls).live = (empty.after calls).filled
  positive : ∀ n a, ((empty.after calls).remove (.ofNumber n)).1 = some a →
    0 < (empty.after calls).live
  /-- The generation of a slot tells how often a value was taken out of it. -/
  generation : ∀ i s, (empty.after calls).slots[i]? = some s →
    1 ≤ s.generation ∧ s.generation = 1 + (vacated (empty.history calls)).count i
  /-- There are as many slots as there were values when there were most of them. -/
  slots : IsGreatest (AtOnce calls) (empty.after calls).slots.length
  issued : ∀ n ∈ issued (empty.history calls),
    (Handle.ofNumber n).index < (empty.after calls).slots.length
  /-- The next value gets a new slot only if none is free. -/
  made : ∀ a, (empty.after calls).slots.length < ((empty.after calls).insert a).2.slots.length ↔
    (empty.after calls).free = []
  /-- Both halves of a handle have room for what is put there. -/
  fits : (empty.after calls).slots.length < 2 ^ 32 ∧
    ∀ s ∈ (empty.after calls).slots, s.generation < 2 ^ 32

/-- **No slot is lost.** After any calls on an empty registry, with fewer than `2 ^ 32 - 1`
insertions among them, the free list names the empty slots, the counter is the number of the
others, and there are no more slots than values were there at one time. -/
theorem keeps_slots {calls : List (Call α)} (room : insertions calls < 2 ^ 32 - 1) :
    KeepsSlots calls := by
  have span : Handle.span = 2 ^ 32 := rfl
  have h := tracks_after room
  have b : (empty.after calls).Balanced := Balanced.empty.after calls
  have counted := length_issued_history calls (empty : Registry α)
  have generation : ∀ i s, (empty.after calls).slots[i]? = some s →
      s.generation = 1 + (vacated (empty.history calls)).count i :=
    fun i s there => (generationAt_of_some there).symm.trans (h.generation i)
  refine
    { nodup := b.sound.nodup
      free := fun i => ?free
      live := b.live_eq
      positive := fun n a taken => ?positive
      generation := fun i s there => ?generation
      slots := isGreatest_slots room
      issued := fun n known => ?issued
      made := fun a => ?made
      fits := ?fits }
  case free =>
    rw [b.sound.free]
    constructor
    · rintro ⟨g, there⟩
      exact ⟨_, there, rfl⟩
    · rintro ⟨⟨g, _⟩, there, rfl⟩
      exact ⟨g, there⟩
  case positive =>
    rcases remove_cases (empty.after calls) (.ofNumber n) with ⟨-, done⟩ | ⟨_, _, filled, -⟩
    · rw [done] at taken
      cases taken
    · exact b.live_pos (get?_eq_some_iff.mpr filled)
  case generation =>
    have raised := generation i s there
    exact ⟨by omega, raised⟩
  case issued =>
    obtain ⟨s, there, -⟩ := h.used known
    exact (List.getElem?_eq_some_iff.mp there).1
  case made =>
    rw [length_insert]
    split
    · next none => simp [none]
    · next some => simp [some]
  case fits =>
    have slots := h.slots
    refine ⟨by omega, fun s there => ?_⟩
    obtain ⟨i, there⟩ := List.mem_iff_getElem?.mp there
    have reached := h.generationAt_le i
    rw [generationAt_of_some there] at reached
    omega

/-- Of three slots two are emptied, and one of these is filled again. -/
def refilling : List (Call Char) :=
  [.insert 'a', .insert 'b', .insert 'c', .remove 0x100000000, .remove 0x100000000,
    .remove 0x100000002, .insert 'd', .get 7]

theorem keeps_slots_refilling : insertions refilling < 2 ^ 32 - 1 ∧ KeepsSlots refilling ∧
    (empty.after refilling).slots = [⟨2, none⟩, ⟨1, some 'b'⟩, ⟨2, some 'd'⟩] ∧
    (empty.after refilling).free = [0] ∧ (empty.after refilling).live = 2 :=
  ⟨by decide, keeps_slots (by decide), by decide, by decide, by decide⟩

end Registry
end FrameFlow
