/-
# What a registry keeps

A value behind a handle can be replaced by another one: it is there afterwards,
under the same handle, and all other handles have what they had. So a property
that all values have when they come in, and that replacements keep, is one of
everything behind a handle. Generations only start at one, so no handle that is
issued has the number zero.

Key definition: `Registry.Keeps`.
Key theorems: `Registry.get?_replace`, `Registry.replace_self`, `Registry.Keeps.insert`,
`Registry.Keeps.remove`, `Registry.Keeps.replace`, `Registry.Keeps.number_ne_zero`.
-/
import FrameFlow.Proofs.Registry.Handles

namespace FrameFlow
namespace Registry

variable {α : Type} {r : Registry α}

/-! ### Replacing -/

/-- A value that is there is replaced in its slot, and nothing else changes. -/
theorem replace_cases (r : Registry α) (k : Handle) (a : α) :
    (r.get? k = none ∧ r.replace k a = r) ∨
      ∃ old slots, r.slots[k.index]? = some ⟨k.generation, some old⟩ ∧
        r.replace k a = { r with slots := slots } ∧
        ∀ j, slots[j]? = if k.index = j then some ⟨k.generation, some a⟩ else r.slots[j]? := by
  unfold replace
  rcases held : r.get? k with _ | old
  · exact .inl ⟨rfl, rfl⟩
  · have there := get?_eq_some_iff.mp held
    refine .inr ⟨old, _, there, rfl, fun j => ?_⟩
    rw [List.getElem?_modify]
    by_cases e : k.index = j
    · subst e
      simp [there, Slot.holding]
    · simp [e]

/-- A value is replaced behind its handle, and the other handles have what they had. -/
theorem get?_replace {h : Handle} {old : α} (held : r.get? h = some old) (a : α) (k : Handle) :
    (r.replace h a).get? k = if h = k then some a else r.get? k := by
  rcases replace_cases r h a with ⟨nothing, -⟩ | ⟨_, slots, there, done, slot⟩
  · rw [held] at nothing
    cases nothing
  · rw [done]
    unfold get?
    simp only [slot]
    by_cases e : h.index = k.index
    · have same : h = k ↔ h.generation = k.generation := Handle.eq_iff.trans (and_iff_right e)
      rw [if_pos e, ← e, there]
      by_cases g : h.generation = k.generation
      · simp [same.mpr g]
      · simp [g, mt same.mp g]
    · have other : h ≠ k := fun same => e (same ▸ rfl)
      rw [if_neg e, if_neg other]

/-- Replacing a value by itself changes nothing. -/
theorem replace_self {k : Handle} {a : α} (held : r.get? k = some a) : r.replace k a = r := by
  rcases replace_cases r k a with ⟨-, done⟩ | ⟨_, slots, -, done, slot⟩
  · exact done
  · have there := get?_eq_some_iff.mp held
    have same : slots = r.slots := by
      refine List.ext_getElem? fun j => ?_
      rw [slot j]
      split
      · next e => rw [← e, there]
      · rfl
    rw [done, same]

theorem Sound.replace (sound : r.Sound) (k : Handle) (a : α) : (r.replace k a).Sound := by
  rcases replace_cases r k a with ⟨-, done⟩ | ⟨old, slots, there, done, slot⟩
  · rw [done]
    exact sound
  · rw [done]
    refine ⟨sound.nodup, fun {j} => ?_⟩
    change j ∈ r.free ↔ ∃ g, slots[j]? = some ⟨g, none⟩
    rw [sound.free, slot]
    by_cases e : k.index = j
    · subst e
      simp [there]
    · simp [e]

/-! ### Properties of all values -/

/-- No generation is followed by zero. -/
theorem one_le_nextGeneration (g : Nat) : 1 ≤ Slot.nextGeneration g := by
  unfold Slot.nextGeneration
  split
  · exact Nat.le_add_left 1 g
  · exact Nat.le_refl 1

/-- A registry in order, with a property of all its values. -/
structure Keeps (P : α → Prop) (r : Registry α) : Prop where
  sound : r.Sound
  /-- No slot has the generation zero. -/
  numbered : ∀ {i : Nat} {s : Slot α}, r.slots[i]? = some s → 1 ≤ s.generation
  each : ∀ {k : Handle} {a : α}, r.get? k = some a → P a

namespace Keeps

variable {P : α → Prop}

theorem empty : (Registry.empty : Registry α).Keeps P where
  sound := tracks_empty.sound
  numbered there := by cases there
  each held := by cases held

/-- The handle for the next value has a generation, too. -/
theorem one_le_generation (h : r.Keeps P) {k : Handle} {free : List Nat} (next : r.Next k free) :
    1 ≤ k.generation := by
  cases next with
  | new full => exact Nat.le_refl 1
  | recycled first there => exact h.numbered there

theorem insert (h : r.Keeps P) {a : α} (good : P a) : (r.insert a).2.Keeps P where
  sound := h.sound.insert a
  numbered := by
    intro i s there
    obtain ⟨k, free, slots, next, done, -, slot⟩ := insert_cases h.sound a
    rw [done] at there
    change slots[i]? = some s at there
    rw [slot] at there
    split at there
    · cases there
      exact h.one_le_generation next
    · exact h.numbered there
  each := by
    intro k b held
    rw [get?_insert h.sound] at held
    split at held
    · cases held
      exact good
    · exact h.each held

theorem remove (h : r.Keeps P) (k : Handle) : (r.remove k).2.Keeps P where
  sound := h.sound.remove k
  numbered := by
    intro i s there
    rcases remove_cases r k with ⟨-, done⟩ | ⟨a, slots, -, done, -, slot⟩
    · rw [done] at there
      exact h.numbered there
    · rw [done] at there
      change slots[i]? = some s at there
      rw [slot] at there
      split at there
      · cases there
        exact one_le_nextGeneration _
      · exact h.numbered there
  each := by
    intro k' b held
    rw [get?_remove] at held
    split at held
    · cases held
    · exact h.each held

theorem replace (h : r.Keeps P) (k : Handle) {a : α} (good : P a) : (r.replace k a).Keeps P where
  sound := h.sound.replace k a
  numbered := by
    intro i s there
    rcases replace_cases r k a with ⟨-, done⟩ | ⟨old, slots, before, done, slot⟩
    · rw [done] at there
      exact h.numbered there
    · rw [done] at there
      change slots[i]? = some s at there
      rw [slot] at there
      split at there
      · have least := h.numbered before
        cases there
        exact least
      · exact h.numbered there
  each := by
    intro k' b held
    rcases old : r.get? k with _ | a'
    · unfold Registry.replace at held
      rw [old] at held
      exact h.each held
    · rw [get?_replace old] at held
      split at held
      · cases held
        exact good
      · exact h.each held

/-- No handle that is issued has the number zero. -/
theorem number_ne_zero (h : r.Keeps P) (a : α) : (r.insert a).1.number ≠ 0 := by
  obtain ⟨k, free, slots, next, done, -⟩ := insert_cases h.sound a
  rw [done]
  have generation := h.one_le_generation next
  have span : 0 < Handle.span := by decide
  have upper : 0 < k.generation * Handle.span := Nat.mul_pos generation span
  change k.generation * Handle.span + k.index ≠ 0
  omega

end Keeps

end Registry
end FrameFlow
