/-
# The order of texts

Texts are ordered character by character, a character by its code point. This
is also the order of their UTF-8 octets. `KeyOrder` is what the sorted tables
of this library ask of a key: a strict order in which any two keys compare.

Key definitions:
* `KeyOrder`: a decidable strict linear order.
* `charsBefore`: the order of lists of characters.
-/

namespace FrameFlow

/-- A strict order in which two keys that do not precede one another are equal. -/
class KeyOrder (κ : Type) where
  before : κ → κ → Bool
  irrefl : ∀ a, before a a = false
  trans : ∀ {a b c}, before a b = true → before b c = true → before a c = true
  connected : ∀ {a b}, before a b = false → before b a = false → a = b

instance : KeyOrder Int where
  before a b := decide (a < b)
  irrefl a := by simp
  trans h k := by simp only [decide_eq_true_eq] at *; omega
  connected h k := by simp only [decide_eq_false_iff_not] at *; omega

/-! ### Texts -/

/-- Character by character, a list coming before the longer ones it begins. -/
def charsBefore : List Char → List Char → Bool
  | _, [] => false
  | [], _ :: _ => true
  | a :: as, b :: bs => decide (a.toNat < b.toNat) || (decide (a = b) && charsBefore as bs)

theorem charsBefore_irrefl : ∀ as, charsBefore as as = false
  | [] => rfl
  | a :: as => by simp [charsBefore, charsBefore_irrefl as]

theorem charsBefore_trans : ∀ {as bs cs}, charsBefore as bs = true → charsBefore bs cs = true →
    charsBefore as cs = true
  | _, _, [], _, h => by simp [charsBefore] at h
  | _, [], _ :: _, h, _ => by simp [charsBefore] at h
  | [], _ :: _, _ :: _, _, _ => rfl
  | a :: as, b :: bs, c :: cs, h, k => by
    simp only [charsBefore, Bool.or_eq_true, Bool.and_eq_true, decide_eq_true_eq] at *
    rcases h with h | ⟨rfl, h⟩ <;> rcases k with k | ⟨rfl, k⟩
    · exact .inl (by omega)
    · exact .inl h
    · exact .inl k
    · exact .inr ⟨rfl, charsBefore_trans h k⟩

theorem charsBefore_connected : ∀ {as bs}, charsBefore as bs = false → charsBefore bs as = false →
    as = bs
  | [], [], _, _ => rfl
  | [], _ :: _, h, _ => by simp [charsBefore] at h
  | _ :: _, [], _, h => by simp [charsBefore] at h
  | a :: as, b :: bs, h, k => by
    simp only [charsBefore, Bool.or_eq_false_iff, Bool.and_eq_false_iff,
      decide_eq_false_iff_not] at h k
    have hab : a = b := Char.toNat_inj.mp (by omega)
    subst hab
    have tails : as = bs := charsBefore_connected (by simpa using h.2) (by simpa using k.2)
    rw [tails]

instance : KeyOrder String where
  before a b := charsBefore a.toList b.toList
  irrefl _ := charsBefore_irrefl _
  trans := charsBefore_trans
  connected h k := String.toList_inj.mp (charsBefore_connected h k)

/-- Pairs are ordered by the first component, then by the second. -/
instance {κ μ : Type} [KeyOrder κ] [KeyOrder μ] [DecidableEq κ] : KeyOrder (κ × μ) where
  before a b := KeyOrder.before a.1 b.1 || (decide (a.1 = b.1) && KeyOrder.before a.2 b.2)
  irrefl a := by simp [KeyOrder.irrefl]
  trans {a b c} h k := by
    simp only [Bool.or_eq_true, Bool.and_eq_true, decide_eq_true_eq] at *
    rcases h with h | ⟨h₁, h₂⟩ <;> rcases k with k | ⟨k₁, k₂⟩
    · exact .inl (KeyOrder.trans h k)
    · exact .inl (k₁ ▸ h)
    · exact .inl (h₁ ▸ k)
    · exact .inr ⟨h₁.trans k₁, KeyOrder.trans h₂ k₂⟩
  connected {a b} h k := by
    simp only [Bool.or_eq_false_iff, Bool.and_eq_false_iff, decide_eq_false_iff_not] at h k
    have h₁ : a.1 = b.1 := KeyOrder.connected h.1 k.1
    have h₂ : a.2 = b.2 := KeyOrder.connected (by simpa [h₁] using h.2) (by simpa [h₁] using k.2)
    exact Prod.ext h₁ h₂

end FrameFlow
