import Mathlib.Algebra.Ring.Nat
import Mathlib.Data.Finset.Card
import Mathlib.Data.Finset.Range
import Mathlib.Data.Nat.Notation
import Mathlib.Tactic.Common

/-!
# Bounded queues in a ring of flagged slots

A ring of `2 ^ b` slots stores a first-in first-out list: `xs` occupies the slots from the read
index up to the write index, and the valid flags mark exactly these. Both indices wrap; the flag
of the slot they share tells a full ring from an empty one.
-/

namespace CyclicFifo

variable {b : ℕ} {α : Type*}

structure Holds (valid : BitVec b → Bool) (cell : BitVec b → α) (readIdx writeIdx : BitVec b)
    (xs : List α) : Prop where
  length_le : xs.length ≤ 2 ^ b
  write_eq : writeIdx = readIdx + BitVec.ofNat b xs.length
  valid_eq : ∀ i, valid i = decide ((i - readIdx).toNat < xs.length)
  cell_eq : ∀ j (hj : j < xs.length), cell (readIdx + BitVec.ofNat b j) = xs[j]

theorem toNat_offset (r : BitVec b) {j : ℕ} (hj : j < 2 ^ b) :
    (r + BitVec.ofNat b j - r).toNat = j := by
  rw [BitVec.add_comm, BitVec.add_sub_cancel, BitVec.toNat_ofNat, Nat.mod_eq_of_lt hj]

/-- Every slot lies at its distance from the read index. -/
theorem eq_add_offset (r i : BitVec b) : i = r + BitVec.ofNat b (i - r).toNat := by
  rw [BitVec.ofNat_toNat, BitVec.setWidth_eq, BitVec.add_comm, BitVec.sub_add_cancel]

theorem advance (r : BitVec b) (j : ℕ) :
    r + 1 + BitVec.ofNat b j = r + BitVec.ofNat b (j + 1) := by
  rw [Nat.add_comm, BitVec.ofNat_add, ← BitVec.add_assoc]
  rfl

theorem ofNat_turn : BitVec.ofNat b (2 ^ b) = 0#b := by
  apply BitVec.eq_of_toNat_eq
  rw [BitVec.toNat_ofNat, Nat.mod_self, BitVec.toNat_ofNat, Nat.zero_mod]

theorem toNat_offset_succ (r i : BitVec b) :
    (i - (r + 1)).toNat = if i = r then 2 ^ b - 1 else (i - r).toNat - 1 := by
  have hpos := Nat.two_pow_pos b
  by_cases hi : i = r
  · have hwrap : r = r + 1 + BitVec.ofNat b (2 ^ b - 1) := by
      rw [advance, Nat.sub_add_cancel hpos, ofNat_turn, BitVec.add_zero]
    rw [if_pos hi, hi]
    rw [show r - (r + 1) = r + 1 + BitVec.ofNat b (2 ^ b - 1) - (r + 1) by rw [← hwrap],
      toNat_offset _ (by omega)]
  · have hne : (i - r).toNat ≠ 0 := by
      intro h0
      apply hi
      rw [eq_add_offset r i, h0]
      simp
    have hlt := (i - r).isLt
    have hback : i = r + 1 + BitVec.ofNat b ((i - r).toNat - 1) := by
      rw [advance, Nat.sub_add_cancel (by omega), ← eq_add_offset]
    rw [if_neg hi]
    conv_lhs => rw [hback]
    rw [toNat_offset _ (by omega)]

theorem Holds.empty {valid : BitVec b → Bool} (cell : BitVec b → α) (r : BitVec b)
    (hv : ∀ i, valid i = false) : Holds valid cell r r [] where
  length_le := Nat.zero_le _
  write_eq := by simp
  valid_eq i := by simp [hv]
  cell_eq j hj := by simp at hj

variable {valid : BitVec b → Bool} {cell : BitVec b → α} {readIdx writeIdx : BitVec b}
  {xs : List α}

namespace Holds

theorem valid_read (h : Holds valid cell readIdx writeIdx xs) :
    valid readIdx = decide (0 < xs.length) := by
  simpa using h.valid_eq readIdx

theorem valid_write (h : Holds valid cell readIdx writeIdx xs) :
    valid writeIdx = decide (xs.length = 2 ^ b) := by
  have hle := h.length_le
  rw [h.valid_eq, h.write_eq]
  by_cases hfull : xs.length = 2 ^ b
  · have hpos := Nat.two_pow_pos b
    simpa [BitVec.add_comm readIdx, hfull] using Nat.mod_lt _ hpos
  · rw [toNat_offset _ (by omega)]
    simp [hfull]

theorem read_valid_iff (h : Holds valid cell readIdx writeIdx xs) :
    valid readIdx = true ↔ xs ≠ [] := by
  rw [h.valid_read, decide_eq_true_iff, List.length_pos_iff]

/-- The write slot is free exactly while there is room. -/
theorem write_free_iff (h : Holds valid cell readIdx writeIdx xs) :
    valid writeIdx = false ↔ xs.length < 2 ^ b := by
  have hle := h.length_le
  rw [h.valid_write, decide_eq_false_iff_not]
  omega

theorem card_valid (h : Holds valid cell readIdx writeIdx xs) :
    ((Finset.range (2 ^ b)).filter fun i => valid (BitVec.ofNat b i) = true).card = xs.length := by
  rw [← Finset.card_range xs.length]
  refine Finset.card_nbij' (fun i => (BitVec.ofNat b i - readIdx).toNat)
    (fun j => (readIdx + BitVec.ofNat b j).toNat) ?_ ?_ ?_ ?_
  · intro i hi
    have hvalid := (Finset.mem_filter.mp hi).2
    rw [h.valid_eq, decide_eq_true_iff] at hvalid
    exact Finset.mem_coe.mpr (Finset.mem_range.mpr hvalid)
  · intro j hj
    have hlt : j < xs.length := Finset.mem_range.mp hj
    have hslot : valid (readIdx + BitVec.ofNat b j) = true := by
      rw [h.valid_eq, toNat_offset _ (Nat.lt_of_lt_of_le hlt h.length_le), decide_eq_true_iff]
      exact hlt
    refine Finset.mem_coe.mpr (Finset.mem_filter.mpr ⟨Finset.mem_range.mpr (BitVec.isLt _), ?_⟩)
    rw [BitVec.ofNat_toNat, BitVec.setWidth_eq]
    exact hslot
  · intro i hi
    have hlt : i < 2 ^ b := Finset.mem_range.mp (Finset.mem_filter.mp hi).1
    change (readIdx + BitVec.ofNat b (BitVec.ofNat b i - readIdx).toNat).toNat = i
    rw [← eq_add_offset, BitVec.toNat_ofNat, Nat.mod_eq_of_lt hlt]
  · intro j hj
    have hlt : j < xs.length := Finset.mem_range.mp hj
    change (BitVec.ofNat b (readIdx + BitVec.ofNat b j).toNat - readIdx).toNat = j
    rw [BitVec.ofNat_toNat, BitVec.setWidth_eq, toNat_offset _ (by have := h.length_le; omega)]

theorem cell_read {x : α} {rest : List α}
    (h : Holds valid cell readIdx writeIdx (x :: rest)) : cell readIdx = x := by
  have h0 := h.cell_eq 0 (by simp)
  simpa using h0

/-- Only the contents of the valid slots matter. -/
theorem congr_cell {cell' : BitVec b → α} (h : Holds valid cell readIdx writeIdx xs)
    (hc : ∀ i, valid i = true → cell' i = cell i) : Holds valid cell' readIdx writeIdx xs where
  length_le := h.length_le
  write_eq := h.write_eq
  valid_eq := h.valid_eq
  cell_eq j hj := by
    have hv : valid (readIdx + BitVec.ofNat b j) = true := by
      rw [h.valid_eq, toNat_offset _ (Nat.lt_of_lt_of_le hj h.length_le)]
      simpa using hj
    rw [hc _ hv, h.cell_eq j hj]

/-- Filling the free write slot and flagging it appends an element. -/
theorem push {valid' : BitVec b → Bool} {cell' : BitVec b → α} (a : α)
    (h : Holds valid cell readIdx writeIdx xs) (hroom : xs.length < 2 ^ b)
    (hv : ∀ i, valid' i = if i = writeIdx then true else valid i)
    (hw : cell' writeIdx = a) (hc : ∀ i, i ≠ writeIdx → cell' i = cell i) :
    Holds valid' cell' readIdx (writeIdx + 1) (xs ++ [a]) where
  length_le := by simp only [List.length_append, List.length_singleton]; omega
  write_eq := by
    rw [h.write_eq, List.length_append, List.length_singleton, BitVec.add_assoc, BitVec.ofNat_add]
    rfl
  valid_eq i := by
    have hiff : i = writeIdx ↔ (i - readIdx).toNat = xs.length := by
      constructor
      · rintro rfl
        rw [h.write_eq, toNat_offset _ hroom]
      · intro hi
        rw [eq_add_offset readIdx i, hi, h.write_eq]
    rw [hv, List.length_append, List.length_singleton]
    by_cases hi : i = writeIdx
    · rw [if_pos hi, hiff.mp hi]
      simp
    · have hne : (i - readIdx).toNat ≠ xs.length := fun he => hi (hiff.mpr he)
      rw [if_neg hi, h.valid_eq, decide_eq_decide]
      omega
  cell_eq j hj := by
    rw [List.length_append, List.length_singleton] at hj
    by_cases hlast : j = xs.length
    · subst hlast
      rw [← h.write_eq, hw]
      simp
    · have hlt : j < xs.length := by omega
      have hne : readIdx + BitVec.ofNat b j ≠ writeIdx := by
        intro he
        have hoff := congrArg (fun i => (i - readIdx).toNat) he
        simp only [h.write_eq] at hoff
        rw [toNat_offset _ hroom, toNat_offset _ (Nat.lt_trans hlt hroom)] at hoff
        exact hlast hoff
      rw [hc _ hne, h.cell_eq j hlt, List.getElem_append_left hlt]

/-- Clearing the flag of the read slot removes the head. -/
theorem pop {valid' : BitVec b → Bool} {x : α} {rest : List α}
    (h : Holds valid cell readIdx writeIdx (x :: rest))
    (hv : ∀ i, valid' i = if i = readIdx then false else valid i) :
    Holds valid' cell (readIdx + 1) writeIdx rest where
  length_le := by
    have hle := h.length_le
    simp only [List.length_cons] at hle
    omega
  write_eq := by
    rw [h.write_eq, List.length_cons, advance]
  valid_eq i := by
    have hle := h.length_le
    have hlt := (i - readIdx).isLt
    have hpos := Nat.two_pow_pos b
    simp only [List.length_cons] at hle
    rw [hv, h.valid_eq, toNat_offset_succ]
    by_cases hi : i = readIdx
    · simp only [hi, if_true, Bool.false_eq, decide_eq_false_iff_not]
      omega
    · have hne : (i - readIdx).toNat ≠ 0 := by
        intro h0
        apply hi
        rw [eq_add_offset readIdx i, h0]
        simp
      simp only [hi, if_false, List.length_cons, decide_eq_decide]
      omega
  cell_eq j hj := by
    have hnext := h.cell_eq (j + 1) (by simpa using hj)
    rw [advance, hnext, List.getElem_cons_succ]

end Holds
end CyclicFifo
