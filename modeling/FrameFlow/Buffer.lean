/-
# Buffers of the caller

A result of unknown length goes into a buffer that the caller provides. If it
fits, the buffer's front is overwritten; if not, the buffer stays as it was and
the caller learns how much room is needed.

Key definitions:
* `Transfer`, `Transfer.size`.
* `fill`, `fillText`, `utf8`.
-/

namespace FrameFlow

/-- What became of a result that was to go into a buffer. -/
inductive Transfer where
  | written (count : Nat)
  | needs (count : Nat)
deriving DecidableEq, Repr

/-- The size of the result, whether it was written or not. -/
def Transfer.size : Transfer → Nat
  | written count | needs count => count

/-- Copies items to the front of a buffer if all of them fit. -/
def fill {α : Type} (items buffer : List α) : Transfer × List α :=
  if buffer.length < items.length then (.needs items.length, buffer)
  else (.written items.length, items ++ buffer.drop items.length)

/-- The octets of a text. -/
def utf8 (s : String) : List UInt8 := s.toList.flatMap String.utf8EncodeChar

/-- Copies the octets of a text and a closing zero. -/
def fillText (s : String) (buffer : List UInt8) : Transfer × List UInt8 :=
  fill (utf8 s ++ [0]) buffer

/-! ### Small laws -/

theorem fill_size {α : Type} (items buffer : List α) :
    (fill items buffer).1.size = items.length := by
  unfold fill; split <;> rfl

end FrameFlow
