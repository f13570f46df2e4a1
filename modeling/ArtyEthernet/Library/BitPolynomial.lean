import ArtyEthernet.Library.ShiftRegister
import Mathlib.Algebra.Polynomial.Div
import Mathlib.Algebra.CharP.Two
import Mathlib.Algebra.Field.ZMod
import Mathlib.Tactic.LinearCombination

/-!
# Bit strings as polynomials

A bit string is a polynomial over GF(2), first bit the highest coefficient, and a register is the
polynomial of its bits, lowest bit first. Shifting a string into the register divides: the register
holds the remainder modulo the generator whose lower coefficients are the feedback word.
-/

namespace ShiftRegister
open Polynomial

/-- The polynomial of a bit string, first bit highest. -/
noncomputable def stringPoly (bs : List Bool) : (ZMod 2)[X] :=
  bs.foldl (fun q b => X * q + C (b.toNat : ZMod 2)) 0

@[simp] theorem stringPoly_nil : stringPoly [] = 0 := rfl

theorem stringPoly_snoc (bs : List Bool) (b : Bool) :
    stringPoly (bs ++ [b]) = X * stringPoly bs + C (b.toNat : ZMod 2) := by
  simp [stringPoly]

theorem stringPoly_append (xs ys : List Bool) :
    stringPoly (xs ++ ys) = X ^ ys.length * stringPoly xs + stringPoly ys := by
  induction ys using List.reverseRecOn with
  | nil => simp
  | append_singleton ys y ih =>
    rw [← List.append_assoc, stringPoly_snoc, stringPoly_snoc, ih, List.length_append,
      List.length_singleton, pow_succ]
    ring

theorem stringPoly_cons (b : Bool) (bs : List Bool) :
    stringPoly (b :: bs) = X ^ bs.length * C (b.toNat : ZMod 2) + stringPoly bs := by
  rw [← List.singleton_append, stringPoly_append, ← List.nil_append [b], stringPoly_snoc,
    stringPoly_nil, mul_zero, zero_add]

theorem stringPoly_zeros (n : ℕ) : stringPoly (List.replicate n false) = 0 := by
  induction n with
  | zero => rfl
  | succ n ih => rw [List.replicate_succ, stringPoly_cons, ih]; simp

theorem toNat_xor (a b : Bool) : ((a ^^ b).toNat : ZMod 2) = a.toNat + b.toNat := by
  cases a <;> cases b <;> rfl

theorem stringPoly_add {xs ys : List Bool} (h : xs.length = ys.length) :
    stringPoly (add xs ys) = stringPoly xs + stringPoly ys := by
  induction xs generalizing ys with
  | nil =>
    rw [List.length_eq_zero_iff.mp h.symm]
    simp [add]
  | cons x xs ih =>
    cases ys with
    | nil => simp at h
    | cons y ys =>
      have hlen : xs.length = ys.length := by simpa using h
      have hsum : (add xs ys).length = ys.length := by simp [add, hlen]
      have hcons : add (x :: xs) (y :: ys) = (x ^^ y) :: add xs ys := rfl
      rw [hcons, stringPoly_cons, stringPoly_cons, stringPoly_cons, ih hlen, hsum, hlen, toNat_xor,
        C_add]
      ring

theorem coeff_stringPoly (bs : List Bool) (k : ℕ) :
    (stringPoly bs).coeff k = ((bs.reverse.getD k false).toNat : ZMod 2) := by
  induction bs using List.reverseRecOn generalizing k with
  | nil => simp
  | append_singleton bs b ih =>
    rw [stringPoly_snoc, coeff_add]
    cases k with
    | zero => simp
    | succ k => simp [coeff_X_mul, ih]

theorem degree_stringPoly_lt (bs : List Bool) : (stringPoly bs).degree < bs.length := by
  rw [degree_lt_iff_coeff_zero]
  intro k hk
  rw [coeff_stringPoly, List.getD_eq_default _ _ (by simpa using hk)]
  rfl

variable {w : ℕ} (p : BitVec w)

noncomputable def registerPoly (c : BitVec w) : (ZMod 2)[X] := stringPoly (bits c)

/-- The generator a feedback word stands for. -/
noncomputable def generator : (ZMod 2)[X] := X ^ w + registerPoly p

theorem degree_registerPoly_lt (c : BitVec w) : (registerPoly c).degree < w := by
  simpa [registerPoly] using degree_stringPoly_lt (bits c)

theorem generator_monic : (generator p).Monic := monic_X_pow_add (degree_registerPoly_lt p)

theorem degree_generator : (generator p).degree = w := by
  have hlt : (registerPoly p).degree < ((X : (ZMod 2)[X]) ^ w).degree := by
    rw [degree_X_pow]
    exact degree_registerPoly_lt p
  rw [generator, degree_add_eq_left_of_degree_lt hlt, degree_X_pow]

/-- Bit `k` of a register is the coefficient of `X ^ (w - 1 - k)`. -/
theorem coeff_registerPoly (c : BitVec w) {k : ℕ} (hk : k < w) :
    (registerPoly c).coeff (w - 1 - k) = ((c.getLsbD k).toNat : ZMod 2) := by
  have hlt : w - 1 - k < (bits c).reverse.length := by
    simp
    omega
  have hidx : w - 1 - (w - 1 - k) = k := by omega
  rw [registerPoly, coeff_stringPoly, List.getD_eq_getElem _ _ hlt, List.getElem_reverse,
    getElem_bits, length_bits, hidx]

theorem registerPoly_xor (c d : BitVec w) :
    registerPoly (c ^^^ d) = registerPoly c + registerPoly d := by
  rw [registerPoly, bits_xor, stringPoly_add (by simp)]
  rfl

theorem bits_shift (c : BitVec w) : bits c ++ [false] = c.getLsbD 0 :: bits (c >>> 1) := by
  apply List.ext_getElem
  · simp
  · intro i h1 h2
    have hi : i ≤ w := by simpa using h1
    cases i with
    | zero =>
      by_cases hw : 0 < w
      · rw [List.getElem_append_left (by simpa using hw)]
        simp
      · rw [List.getElem_append_right (by simpa using hw), List.getElem_cons_zero,
          BitVec.getLsbD_of_ge c 0 (by omega)]
        simp
    | succ i =>
      rw [List.getElem_cons_succ, getElem_bits, BitVec.getLsbD_ushiftRight, Nat.add_comm 1]
      by_cases hlt : i + 1 < w
      · rw [List.getElem_append_left (by simpa using hlt), getElem_bits]
      · rw [List.getElem_append_right (by simpa using hlt), BitVec.getLsbD_of_ge c _ (by omega)]
        simp

/-- One bit is shifted in, and the generator is subtracted when the top coefficient is set. -/
theorem registerPoly_step (c : BitVec w) (b : Bool) :
    X * registerPoly c + X ^ w * C (b.toNat : ZMod 2) =
      registerPoly (step p c b) + C ((c.getLsbD 0 ^^ b).toNat : ZMod 2) * generator p := by
  have hshift : X * registerPoly c =
      X ^ w * C ((c.getLsbD 0).toNat : ZMod 2) + registerPoly (c >>> 1) := by
    have hpoly := congrArg stringPoly (bits_shift c)
    rw [stringPoly_snoc, stringPoly_cons, length_bits] at hpoly
    simpa [registerPoly] using hpoly
  have hfeed : (C ((c.getLsbD 0 ^^ b).toNat : ZMod 2) : (ZMod 2)[X]) =
      C ((c.getLsbD 0).toNat : ZMod 2) + C (b.toNat : ZMod 2) := by
    rw [toNat_xor, C_add]
  have hstep : registerPoly (step p c b) =
      registerPoly (c >>> 1) + C ((c.getLsbD 0 ^^ b).toNat : ZMod 2) * registerPoly p := by
    unfold step
    cases c.getLsbD 0 ^^ b with
    | false => simp
    | true => simp [registerPoly_xor]
  have htwo : registerPoly p + registerPoly p = 0 := CharTwo.add_self_eq_zero _
  rw [hstep, hshift, generator]
  linear_combination (-X ^ w) * hfeed - C ((c.getLsbD 0 ^^ b).toNat : ZMod 2) * htwo

/-- Shifting in a string divides. -/
theorem registerPoly_fold (c : BitVec w) (bs : List Bool) :
    ∃ q, registerPoly (fold p c bs) + generator p * q =
      X ^ bs.length * registerPoly c + X ^ w * stringPoly bs := by
  induction bs using List.reverseRecOn with
  | nil => exact ⟨0, by simp⟩
  | append_singleton bs b ih =>
    obtain ⟨q, hq⟩ := ih
    have hstep := registerPoly_step p (fold p c bs) b
    refine ⟨X * q + C (((fold p c bs).getLsbD 0 ^^ b).toNat : ZMod 2), ?_⟩
    rw [fold_snoc, stringPoly_snoc, List.length_append, List.length_singleton, pow_succ]
    linear_combination X * hq - hstep

theorem registerPoly_fold_eq (c : BitVec w) (bs : List Bool) :
    (X ^ bs.length * registerPoly c + X ^ w * stringPoly bs) %ₘ generator p =
      registerPoly (fold p c bs) := by
  obtain ⟨q, hq⟩ := registerPoly_fold p c bs
  refine (div_modByMonic_unique q _ (generator_monic p) ⟨hq, ?_⟩).2
  rw [degree_generator]
  exact degree_registerPoly_lt _

/-- The string with its first `n` bits complemented. -/
def complementFirst (n : ℕ) (bs : List Bool) : List Bool := (bs.take n).map (!·) ++ bs.drop n

theorem complementFirst_eq_add {n : ℕ} {bs : List Bool} (h : n ≤ bs.length) :
    complementFirst n bs =
      add bs (List.replicate n true ++ List.replicate (bs.length - n) false) := by
  apply List.ext_getElem
  · simp [complementFirst, add]
    omega
  · intro i h1 h2
    have hlen : i < bs.length := by simpa [add, h] using h2
    by_cases hi : i < n
    · simp [complementFirst, add, hi, hlen]
    · have hidx : n + (i - n) = i := by omega
      simp [complementFirst, add, List.getElem_append, hi, Nat.min_eq_left h, hidx]

/-- Starting from all ones amounts to complementing the first `w` bits of the string followed by
`w` zeros, whose remainder the register then holds. -/
theorem remainder_eq (bs : List Bool) :
    stringPoly (complementFirst w (bs ++ List.replicate w false)) %ₘ generator p =
      registerPoly (fold p (BitVec.allOnes w) bs) := by
  have hones : bits (BitVec.allOnes w) = List.replicate w true := by
    apply List.ext_getElem
    · simp
    · intro i h1 h2
      have hi : i < w := by simpa using h1
      simp [hi]
  rw [complementFirst_eq_add (by simp), stringPoly_add (by simp; omega), stringPoly_append,
    stringPoly_append, stringPoly_zeros, stringPoly_zeros, ← registerPoly_fold_eq, registerPoly,
    hones]
  simp only [List.length_replicate, List.length_append, Nat.add_sub_cancel]
  congr 1
  ring

end ShiftRegister
