/-
# Likeness

Two values are alike when they hold the same data, floating point numbers being
compared as numbers: a NaN is unlike everything, itself included, and the two
zeros are alike.

Key definition:
* `Alike.alike`.
-/
import FrameFlow.Binary.Basic

namespace FrameFlow

/-- Comparison by data, with floating point numbers compared as numbers. -/
class Alike (α : Type) where
  alike : α → α → Bool

export Alike (alike)

instance {f : Layout} : Alike (Binary f) := ⟨Binary.sameValue⟩

instance {α : Type} [Alike α] : Alike (Option α) where
  alike
    | none, none => true
    | some a, some b => alike a b
    | _, _ => false

/-- Item by item, lists of different lengths being unlike. -/
def alikeLists {α : Type} [Alike α] : List α → List α → Bool
  | [], [] => true
  | a :: as, b :: bs => alike a b && alikeLists as bs
  | _, _ => false

instance {α : Type} [Alike α] : Alike (List α) := ⟨alikeLists⟩

end FrameFlow
