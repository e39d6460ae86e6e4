/-
# The order of texts is that of their octets

Texts are ordered character by character here, a character by its code point. The
octets of a character begin with one that tells how many follow, the more the later the
character, and hold its code point in base 64, the highest digit first. So an earlier
character has the earlier octets (`Utf8.encode_append_lt`), whatever comes behind either, and
two texts stand in the order of their octets (`before_iff_utf8`), as do two keys
(`before_iff_octets`).

Key definitions: `Utf8.following`, `Utf8.leading`, `OctetsBefore`.
Key theorems: `Utf8.following_append_lt`, `Utf8.encode_append_lt`, `before_iff_utf8`,
`before_iff_octets`.
-/
import FrameFlow.Proofs.Octets
import Mathlib.Data.List.Lex
import Mathlib.Algebra.Ring.Nat

namespace FrameFlow

namespace Utf8

/-! ### Octets that follow another -/

/-- The octets that hold the last digits of a number in base 64. -/
def following (v : Nat) : Nat → List UInt8
  | 0 => []
  | n + 1 => UInt8.ofNat (v / 64 ^ n % 64 + 128) :: following v n

theorem cons_lt_cons {a b : Nat} {l m : List UInt8} (ha : a < 256) (hb : b < 256)
    (h : a < b ∨ a = b ∧ l < m) : UInt8.ofNat a :: l < UInt8.ofNat b :: m := by
  rw [List.cons_lt_cons_iff, UInt8.lt_iff_toNat_lt, UInt8.toNat_ofNat_of_lt' ha,
    UInt8.toNat_ofNat_of_lt' hb]
  rcases h with lower | ⟨rfl, rest⟩
  · exact .inl lower
  · exact .inr ⟨rfl, rest⟩

/-- The higher digits decide first. -/
theorem lt_of_digits {v w b : Nat} (lower : v < w) :
    v / b < w / b ∨ v / b = w / b ∧ v % b < w % b := by
  rcases Nat.lt_or_ge (v / b) (w / b) with high | high
  · exact .inl high
  · have same : v / b = w / b := le_antisymm (Nat.div_le_div_right lower.le) high
    refine .inr ⟨same, ?_⟩
    have split := Nat.div_add_mod v b
    have split' := Nat.div_add_mod w b
    rw [same] at split
    omega

/-- Of two numbers with different last digits, the octets of the lower one come first. -/
theorem following_append_lt {v w : Nat} (l m : List UInt8) : ∀ n, v % 64 ^ n < w % 64 ^ n →
    following v n ++ l < following w n ++ m
  | 0, lower => by
    rw [pow_zero, Nat.mod_one, Nat.mod_one] at lower
    exact absurd lower (Nat.lt_irrefl 0)
  | n + 1, lower => by
    have digits := lt_of_digits (b := 64 ^ n) lower
    rw [pow_succ, Nat.mod_mul_right_div_self, Nat.mod_mul_right_div_self,
      Nat.mod_mul_right_mod, Nat.mod_mul_right_mod] at digits
    refine cons_lt_cons (by omega) (by omega) ?_
    rcases digits with high | ⟨same, low⟩
    · exact .inl (by omega)
    · exact .inr ⟨by omega, following_append_lt l m n low⟩

/-! ### Characters -/

/-- The first octet of a character with a number of octets that follow it. -/
def leading (v : Nat) : Nat → Nat
  | 0 => v
  | 1 => v / 64 + 192
  | 2 => v / 64 ^ 2 + 224
  | _ => v / 64 ^ 3 + 240

/-- How many octets follow the first one of a character. -/
def follows (v : Nat) : Nat :=
  if v ≤ 127 then 0 else if v ≤ 2047 then 1 else if v ≤ 65535 then 2 else 3

theorem toNat_lt (c : Char) : c.toNat < 0x110000 := by
  have valid : c.toNat.isValidChar := c.valid
  unfold Nat.isValidChar at valid
  omega

theorem encode_eq (c : Char) : String.utf8EncodeChar c =
    UInt8.ofNat (leading c.toNat (follows c.toNat)) :: following c.toNat (follows c.toNat) := by
  have bound := toNat_lt c
  have value : c.val.toNat = c.toNat := rfl
  unfold String.utf8EncodeChar follows
  simp only [value]
  split
  · rfl
  · split
    · have high : c.toNat / 64 % 32 = c.toNat / 64 := Nat.mod_eq_of_lt (by omega)
      simp [leading, following, high]
    · split
      · have high : c.toNat / 4096 % 16 = c.toNat / 4096 := Nat.mod_eq_of_lt (by omega)
        simp [leading, following, high]
      · have high : c.toNat / 262144 % 8 = c.toNat / 262144 := Nat.mod_eq_of_lt (by omega)
        simp [leading, following, high]

theorem leading_lt {v : Nat} (bound : v < 0x110000) : leading v (follows v) < 256 := by
  unfold follows
  split_ifs <;> simp only [leading] <;> omega

/-- The first octet tells how many follow: the more there are, the later it is. -/
theorem leading_lt_leading {v w : Nat} (bound : v < 0x110000) (more : follows v < follows w) :
    leading v (follows v) < leading w (follows w) := by
  unfold follows at more ⊢
  split_ifs at more ⊢ <;> simp only [leading] <;> omega

theorem follows_le_follows {v w : Nat} (le : v ≤ w) : follows v ≤ follows w := by
  unfold follows
  split_ifs <;> omega

/-- Of two characters with as many octets, the first octet of the later is not the earlier one. -/
theorem leading_of_lt {v w : Nat} (lower : v < w) (n : Nat) (few : n ≤ 3) :
    leading v n < leading w n ∨ leading v n = leading w n ∧ v % 64 ^ n < w % 64 ^ n := by
  have digits := lt_of_digits (b := 64 ^ n) lower
  match n with
  | 0 => exact .inl lower
  | 1 | 2 | 3 =>
    simp only [leading]
    omega

/-- An earlier character has the earlier octets. -/
theorem encode_append_lt {c d : Char} (lower : c.toNat < d.toNat) (l m : List UInt8) :
    String.utf8EncodeChar c ++ l < String.utf8EncodeChar d ++ m := by
  rw [encode_eq, encode_eq, List.cons_append, List.cons_append]
  refine cons_lt_cons (leading_lt (toNat_lt c)) (leading_lt (toNat_lt d)) ?_
  -- A later character has no fewer octets. If it has more, the first ones differ already.
  rcases Nat.lt_or_ge (follows c.toNat) (follows d.toNat) with more | less
  · exact .inl (leading_lt_leading (toNat_lt c) more)
  · have same := le_antisymm (follows_le_follows lower.le) less
    have few : follows d.toNat ≤ 3 := by
      unfold follows
      split_ifs <;> omega
    rw [same]
    rcases leading_of_lt lower (follows d.toNat) few with high | ⟨high, low⟩
    · exact .inl high
    · exact .inr ⟨high, following_append_lt l m _ low⟩

theorem encode_ne_nil (c : Char) : String.utf8EncodeChar c ≠ [] := by
  rw [encode_eq]
  exact List.cons_ne_nil _ _

end Utf8

/-! ### Texts -/

/-- Earlier texts have the earlier octets. -/
theorem utf8_lt_of_charsBefore : ∀ {as bs : List Char}, charsBefore as bs = true →
    as.flatMap String.utf8EncodeChar < bs.flatMap String.utf8EncodeChar
  | _, [], before => by simp [charsBefore] at before
  | [], b :: bs, _ => by
    obtain ⟨x, xs, octets⟩ := List.exists_cons_of_ne_nil (Utf8.encode_ne_nil b)
    rw [List.flatMap_cons, octets]
    exact List.nil_lt_cons _ _
  | a :: as, b :: bs, before => by
    simp only [charsBefore, Bool.or_eq_true, Bool.and_eq_true, decide_eq_true_eq] at before
    rw [List.flatMap_cons, List.flatMap_cons]
    rcases before with lower | ⟨rfl, rest⟩
    · exact Utf8.encode_append_lt lower _ _
    · exact List.append_left_lt (utf8_lt_of_charsBefore rest)

/-- **Texts stand in the order of their octets.** -/
theorem before_iff_utf8 {s t : String} : KeyOrder.before s t = true ↔ utf8 s < utf8 t := by
  constructor
  · exact utf8_lt_of_charsBefore
  · intro lower
    by_contra not
    rw [Bool.not_eq_true] at not
    rcases back : KeyOrder.before t s with _ | _
    · have same : s = t := KeyOrder.connected not back
      rw [same] at lower
      exact List.lt_irrefl _ lower
    · exact List.lt_asymm lower (utf8_lt_of_charsBefore back)

/-- Keys are compared by the octets of their scopes, and those of one scope by the octets of their
names. -/
def OctetsBefore (k l : String × String) : Prop :=
  utf8 k.1 < utf8 l.1 ∨ k.1 = l.1 ∧ utf8 k.2 < utf8 l.2

instance (k l : String × String) : Decidable (OctetsBefore k l) :=
  inferInstanceAs (Decidable (_ ∨ _))

/-- Keys stand in the order of their octets. -/
theorem before_iff_octets {k l : String × String} :
    KeyOrder.before k l = true ↔ OctetsBefore k l := by
  have pairs : KeyOrder.before k l =
      (KeyOrder.before k.1 l.1 || (decide (k.1 = l.1) && KeyOrder.before k.2 l.2)) := rfl
  rw [pairs, Bool.or_eq_true, Bool.and_eq_true, decide_eq_true_eq, before_iff_utf8, before_iff_utf8]
  rfl

namespace OctetsBefore

theorem irrefl (k : String × String) : ¬OctetsBefore k k := by
  rw [← before_iff_octets, KeyOrder.irrefl]
  exact Bool.false_ne_true

theorem trans {k l m : String × String} (one : OctetsBefore k l) (two : OctetsBefore l m) :
    OctetsBefore k m :=
  before_iff_octets.mp (KeyOrder.trans (before_iff_octets.mpr one) (before_iff_octets.mpr two))

theorem trichotomy (k l : String × String) : OctetsBefore k l ∨ k = l ∨ OctetsBefore l k := by
  rw [← before_iff_octets, ← before_iff_octets]
  rcases one : KeyOrder.before k l with _ | _
  · rcases two : KeyOrder.before l k with _ | _
    · exact .inr (.inl (KeyOrder.connected one two))
    · exact .inr (.inr rfl)
  · exact .inl rfl

/-! Keys that are equal or stand in order are ordered in the wide sense. -/

theorem eq_or_trans {k l m : String × String} (one : k = l ∨ OctetsBefore k l)
    (two : l = m ∨ OctetsBefore l m) : k = m ∨ OctetsBefore k m := by
  rcases one with rfl | one
  · exact two
  · rcases two with rfl | two
    · exact .inr one
    · exact .inr (one.trans two)

theorem eq_or_total (k l : String × String) :
    (k = l ∨ OctetsBefore k l) ∨ (l = k ∨ OctetsBefore l k) := by
  rcases trichotomy k l with one | same | two
  · exact .inl (.inr one)
  · exact .inl (.inl same)
  · exact .inr (.inr two)

theorem eq_or_antisymm {k l : String × String} (one : k = l ∨ OctetsBefore k l)
    (two : l = k ∨ OctetsBefore l k) : k = l := by
  rcases one with same | one
  · exact same
  · rcases two with same | two
    · exact same.symm
    · exact absurd (one.trans two) (irrefl k)

end OctetsBefore

end FrameFlow
