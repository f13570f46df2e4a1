import Mathlib.Data.Nat.ModEq
import Mathlib.Tactic.Common

/-!
# One's complement sums

A sum of words of `w` bits is kept to `w` bits by adding the carries back at the low end. The result
is the sum modulo `2 ^ w - 1`, and zero only for an empty sum, so a sum and its complement add up to
all ones.
-/

namespace OnesComplement

variable {w n : ℕ}

/-- One turn of the end-around carry. -/
def carryStep (w n : ℕ) : ℕ := n % 2 ^ w + n / 2 ^ w

theorem carryStep_modEq (w n : ℕ) : carryStep w n ≡ n [MOD 2 ^ w - 1] := by
  have hpow : 2 ^ w = 2 ^ w - 1 + 1 := (Nat.sub_add_cancel Nat.one_le_two_pow).symm
  have hsplit : n = n % 2 ^ w + n / 2 ^ w + (2 ^ w - 1) * (n / 2 ^ w) := by
    have hdiv := Nat.mod_add_div n (2 ^ w)
    calc n = n % 2 ^ w + 2 ^ w * (n / 2 ^ w) := hdiv.symm
      _ = n % 2 ^ w + (2 ^ w - 1 + 1) * (n / 2 ^ w) := by rw [← hpow]
      _ = n % 2 ^ w + n / 2 ^ w + (2 ^ w - 1) * (n / 2 ^ w) := by
        rw [Nat.add_mul, Nat.one_mul, Nat.add_assoc, Nat.add_comm (n / 2 ^ w)]
  rw [Nat.ModEq, carryStep]
  conv_rhs => rw [hsplit]
  rw [Nat.add_mul_mod_self_left]

theorem carryStep_lt (hw : 0 < w) (hn : 2 ^ w ≤ n) : carryStep w n < n := by
  have hpow : 2 ≤ 2 ^ w := Nat.le_self_pow hw.ne' 2
  have hpos : 0 < n / 2 ^ w := Nat.div_pos hn (Nat.two_pow_pos w)
  have hdouble : 2 * (n / 2 ^ w) ≤ 2 ^ w * (n / 2 ^ w) := Nat.mul_le_mul_right _ hpow
  have hdiv := Nat.mod_add_div n (2 ^ w)
  rw [carryStep]
  omega

theorem carryStep_eq_zero : carryStep w n = 0 ↔ n = 0 := by
  have hdiv := Nat.mod_add_div n (2 ^ w)
  constructor
  · intro h
    rw [carryStep, Nat.add_eq_zero_iff] at h
    rw [← hdiv, h.1, h.2]
    rfl
  · rintro rfl
    simp [carryStep]

/-- What the end-around carry leaves of a sum. -/
structure Folds (w n v : ℕ) : Prop where
  lt : v < 2 ^ w
  modEq : v ≡ n [MOD 2 ^ w - 1]
  zero : v = 0 ↔ n = 0

theorem Folds.self (hn : n < 2 ^ w) : Folds w n n := ⟨hn, Nat.ModEq.refl n, Iff.rfl⟩

theorem Folds.of_step {v : ℕ} (h : Folds w (carryStep w n) v) : Folds w n v where
  lt := h.lt
  modEq := h.modEq.trans (carryStep_modEq w n)
  zero := h.zero.trans carryStep_eq_zero

/-- A sum and the complement of its result add up to all ones. -/
theorem Folds.complement {v : ℕ} (hw : 0 < w) (h : Folds w n v) :
    Folds w (n + (2 ^ w - 1 - v)) (2 ^ w - 1) := by
  have hlt := h.lt
  have hpow : 2 ≤ 2 ^ w := Nat.le_self_pow hw.ne' 2
  refine ⟨by omega, ?_, ?_⟩
  · have hsum : n + (2 ^ w - 1 - v) ≡ v + (2 ^ w - 1 - v) [MOD 2 ^ w - 1] :=
      h.modEq.symm.add_right _
    rw [Nat.add_sub_cancel' (by omega)] at hsum
    exact hsum.symm
  · have hzero := h.zero
    omega

end OnesComplement
