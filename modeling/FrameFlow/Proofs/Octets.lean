/-
# The octets of a text

The octets of a text are its UTF-8 encoding. Only the NUL has an octet that is
zero, so a text without NULs ends at the zero that is put behind it, and is the
text that is read back.

Key definition: `NulFree`.
Key theorems: `length_utf8`, `zero_not_mem_utf8`, `takeWhile_closed`, `textOf?_closed`.
-/
import FrameFlow.Foreign.Basic

namespace FrameFlow

/-- A text without a NUL. -/
def NulFree (text : String) : Prop := '\x00' ∉ text.toList

theorem utf8_eq (s : String) : (⟨(utf8 s).toArray⟩ : ByteArray) = s.toByteArray := by
  have encoded : s.toByteArray = (utf8 s).toByteArray := by
    conv => lhs; rw [← String.ofList_toList (s := s), String.toByteArray_ofList]
    rfl
  rw [encoded]
  exact ByteArray.ext List.data_toByteArray.symm

theorem length_utf8 (s : String) : (utf8 s).length = s.utf8ByteSize := by
  rw [String.utf8ByteSize, ← utf8_eq]
  rfl

/-! ### Zeros -/

theorem ofNat_ne_zero {n : Nat} (positive : 0 < n) (small : n < 256) : 0 ≠ UInt8.ofNat n := by
  intro zero
  have same := congrArg UInt8.toNat zero
  rw [UInt8.toNat_ofNat_of_lt' small] at same
  exact absurd same.symm (Nat.ne_of_gt positive)

/-- Of all characters, only the NUL has an octet that is zero. -/
theorem eq_nul_of_zero_mem {c : Char} (h : 0 ∈ String.utf8EncodeChar c) : c = '\x00' := by
  unfold String.utf8EncodeChar at h
  simp only at h
  split at h
  · rw [List.mem_singleton] at h
    rcases Nat.eq_zero_or_pos c.val.toNat with zero | positive
    · exact Char.ext (UInt32.toNat_inj.mp zero)
    · exact absurd h (ofNat_ne_zero positive (by omega))
  · -- all octets of a longer sequence have their highest bit set
    exfalso
    split at h
    · simp only [List.mem_cons, List.not_mem_nil, or_false] at h
      rcases h with h | h
      all_goals exact ofNat_ne_zero (by omega) (by omega) h
    · split at h
      · simp only [List.mem_cons, List.not_mem_nil, or_false] at h
        rcases h with h | h | h
        all_goals exact ofNat_ne_zero (by omega) (by omega) h
      · simp only [List.mem_cons, List.not_mem_nil, or_false] at h
        rcases h with h | h | h | h
        all_goals exact ofNat_ne_zero (by omega) (by omega) h

theorem zero_not_mem_utf8 {s : String} (h : NulFree s) : 0 ∉ utf8 s := by
  intro zero
  obtain ⟨c, hc, there⟩ := List.mem_flatMap.mp zero
  rw [eq_nul_of_zero_mem there] at hc
  exact h hc

/-- A text without NULs ends at the first zero behind it. -/
theorem takeWhile_closed {s : String} (h : NulFree s) (rest : List UInt8) :
    (utf8 s ++ 0 :: rest).takeWhile (· != 0) = utf8 s := by
  have passed : ∀ x ∈ utf8 s, (x != 0) = true := by
    intro x hx
    rw [bne_iff_ne]
    rintro rfl
    exact zero_not_mem_utf8 h hx
  rw [List.takeWhile_append_of_pos passed, List.takeWhile_cons_of_neg (by simp), List.append_nil]

/-- A text without NULs is read back from its octets and a zero. -/
theorem textOf?_closed {s : String} (h : NulFree s) (rest : List UInt8) :
    Foreign.textOf? (some (utf8 s ++ 0 :: rest)) = some s := by
  change String.fromUTF8? ⟨((utf8 s ++ 0 :: rest).takeWhile (· != 0)).toArray⟩ = some s
  rw [takeWhile_closed h, utf8_eq]
  unfold String.fromUTF8?
  rw [dif_pos s.isValidUTF8]
  rfl

end FrameFlow
