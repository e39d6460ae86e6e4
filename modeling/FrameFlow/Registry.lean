/-
# The handle registry

Values live in numbered slots, and a handle names a slot together with the
slot's generation. Emptying a slot raises its generation before the slot is
used again, so a handle that has been removed names nothing from then on.
Generations start at one: the handle zero is never issued.

Key definitions:
* `Handle`, `Handle.number`, `Handle.ofNumber`.
* `Registry.insert`, `Registry.get?`, `Registry.remove`, `Registry.replace`.
-/

namespace FrameFlow

/-- The number of a slot, and its generation when it was filled. -/
structure Handle where
  generation : Nat
  index : Nat
deriving DecidableEq, Repr

namespace Handle

/-- How many values each half of a handle's number has. -/
def span : Nat := 0x100000000

/-- A handle as one number, the generation in the upper half. -/
def number (h : Handle) : Nat := h.generation * span + h.index

/-- The handle that a number stands for. -/
def ofNumber (n : Nat) : Handle := ⟨n / span, n % span⟩

theorem number_ofNumber (n : Nat) : (ofNumber n).number = n := by
  simp only [ofNumber, number, Nat.mul_comm _ span]
  exact Nat.div_add_mod n span

theorem ofNumber_number {h : Handle} (hi : h.index < span) : ofNumber h.number = h := by
  have hs : 0 < span := by decide
  simp only [ofNumber, number]
  rw [Nat.add_comm, Nat.add_mul_div_right _ _ hs, Nat.add_mul_mod_self_right, Nat.div_eq_of_lt hi,
    Nat.mod_eq_of_lt hi, Nat.zero_add]

end Handle

/-- A place for a value. -/
structure Slot (α : Type) where
  generation : Nat
  value : Option α
deriving DecidableEq, Repr

namespace Slot

variable {α : Type}

/-- The generation after another one; behind the last comes the first. -/
def nextGeneration (g : Nat) : Nat := if g + 1 < Handle.span then g + 1 else 1

/-- The slot after its value has been taken out. -/
def emptied (s : Slot α) : Slot α := ⟨nextGeneration s.generation, none⟩

/-- The slot with another value. -/
def holding (s : Slot α) (a : α) : Slot α := { s with value := some a }

end Slot

/-- Slots, the empty ones among them in the order of their next use, and how many are not empty. -/
structure Registry (α : Type) where
  slots : List (Slot α)
  free : List Nat
  live : Nat
deriving DecidableEq, Repr

namespace Registry

variable {α : Type}

/-- No slots. -/
def empty : Registry α := ⟨[], [], 0⟩

instance : Inhabited (Registry α) := ⟨empty⟩

/-- The generation of a slot. -/
def generationAt (r : Registry α) (i : Nat) : Nat := ((r.slots[i]?).map Slot.generation).getD 1

/-- Puts a value into the slot that was emptied last, or into a new one. -/
def insert (r : Registry α) (a : α) : Handle × Registry α :=
  match r.free with
  | [] => (⟨1, r.slots.length⟩, ⟨r.slots ++ [⟨1, some a⟩], [], r.live + 1⟩)
  | i :: free =>
    (⟨r.generationAt i, i⟩, ⟨r.slots.modify i (·.holding a), free, r.live + 1⟩)

/-- The value behind a handle. -/
def get? (r : Registry α) (h : Handle) : Option α :=
  match r.slots[h.index]? with
  | none => none
  | some s => if s.generation = h.generation then s.value else none

/-- Takes out the value behind a handle. -/
def remove (r : Registry α) (h : Handle) : Option α × Registry α :=
  match r.get? h with
  | none => (none, r)
  | some a => (some a, ⟨r.slots.modify h.index Slot.emptied, h.index :: r.free, r.live - 1⟩)

/-- Puts another value behind a handle that has one. -/
def replace (r : Registry α) (h : Handle) (a : α) : Registry α :=
  match r.get? h with
  | none => r
  | some _ => { r with slots := r.slots.modify h.index (·.holding a) }

/-- Whether nothing is held. -/
def isEmpty (r : Registry α) : Bool := r.live == 0

end Registry
end FrameFlow
