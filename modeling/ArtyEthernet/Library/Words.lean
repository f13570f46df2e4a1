import Mathlib.Algebra.Ring.Nat
import Mathlib.Data.List.Induction
import Mathlib.Tactic.Common

/-!
# Byte lanes of machine words

Lane `k` of a word is its `k`-th byte, counted from the least significant end. A word of
`8 * n` bits is determined by its `n` lanes, so partial-word writes and network-order reads are
both compared lane by lane. `ofBytes` and `toBytes` are the big-endian reader and writer.
-/

namespace Words

abbrev Byte := BitVec 8

variable {w n : ℕ}

/-- The `k`-th byte of a word, least significant first. -/
def lane (x : BitVec w) (k : ℕ) : Byte := x.extractLsb' (8 * k) 8

/-- Overwrite the bits of `x` from position `lo` upwards with the bits of `v`. -/
def setRange (x : BitVec w) (lo : ℕ) (v : BitVec n) : BitVec w :=
  (x &&& ~~~((BitVec.allOnes n).setWidth w <<< lo)) ||| (v.setWidth w <<< lo)

theorem getLsbD_setRange (x : BitVec w) (lo : ℕ) (v : BitVec n) (i : ℕ) :
    (setRange x lo v).getLsbD i =
      if lo ≤ i ∧ i < lo + n then decide (i < w) && v.getLsbD (i - lo) else x.getLsbD i := by
  by_cases hi : i < w
  · by_cases hlo : lo ≤ i
    · by_cases hn : i < lo + n
      · have h2 : i - lo < n := by omega
        have h3 : ¬ i < lo := by omega
        simp [setRange, hi, hlo, hn, h2, h3]
      · have h1 : ¬ i - lo < n := by omega
        have h2 : v.getLsbD (i - lo) = false := BitVec.getLsbD_of_ge _ _ (by omega)
        simp [setRange, hi, hn, h1, h2]
    · simp [setRange, hi, hlo, show i < lo by omega]
  · have hx : x.getLsbD i = false := BitVec.getLsbD_of_ge _ _ (by omega)
    simp [setRange, hi, hx]

theorem getLsbD_lane (x : BitVec w) (k i : ℕ) :
    (lane x k).getLsbD i = (decide (i < 8) && x.getLsbD (8 * k + i)) := by
  simp [lane]

theorem ext_lanes {x y : BitVec w} (hw : w = 8 * n) (h : ∀ k < n, lane x k = lane y k) :
    x = y := by
  apply BitVec.eq_of_getLsbD_eq
  intro i hi
  have hl := congrArg (fun b => b.getLsbD (i % 8)) (h (i / 8) (by omega))
  simpa only [getLsbD_lane, Nat.mod_lt i (show 0 < 8 by omega), decide_true, Bool.true_and,
    Nat.div_add_mod] using hl

theorem lane_setRange_self (x : BitVec w) (k : ℕ) (b : Byte) (hk : 8 * k + 8 ≤ w) :
    lane (setRange x (8 * k) b) k = b := by
  apply BitVec.eq_of_getLsbD_eq
  intro i hi
  have hin : 8 * k ≤ 8 * k + i ∧ 8 * k + i < 8 * k + 8 := by omega
  have hw : 8 * k + i < w := by omega
  simp only [getLsbD_lane, getLsbD_setRange, hi, hin, hw, and_self, if_true, decide_true,
    Bool.true_and, Nat.add_sub_cancel_left]

theorem lane_setRange_ne (x : BitVec w) (j k : ℕ) (b : Byte) (hjk : j ≠ k) :
    lane (setRange x (8 * j) b) k = lane x k := by
  apply BitVec.eq_of_getLsbD_eq
  intro i hi
  have hout : ¬ (8 * j ≤ 8 * k + i ∧ 8 * k + i < 8 * j + 8) := by omega
  simp only [getLsbD_lane, getLsbD_setRange, hi, if_neg hout]

theorem lane_setRange (x : BitVec w) (j k : ℕ) (b : Byte) (hj : 8 * j + 8 ≤ w) :
    lane (setRange x (8 * j) b) k = if k = j then b else lane x k := by
  by_cases hjk : k = j
  · rw [if_pos hjk, hjk, lane_setRange_self x j b hj]
  · rw [if_neg hjk, lane_setRange_ne x j k b (Ne.symm hjk)]

theorem lane_setRange_at (x : BitVec w) {lo : ℕ} (k : ℕ) (b : Byte) (h8 : lo % 8 = 0)
    (hw : lo + 8 ≤ w) : lane (setRange x lo b) k = if 8 * k = lo then b else lane x k := by
  obtain ⟨j, rfl⟩ := Nat.dvd_of_mod_eq_zero h8
  rw [lane_setRange x j k b hw]
  by_cases hkj : k = j
  · rw [if_pos hkj, if_pos (by rw [hkj])]
  · rw [if_neg hkj, if_neg (by omega)]

@[simp] theorem lane_zero (k : ℕ) : lane (0#w) k = 0#8 := by
  simp [lane]

/-- The word written by `bs`, most significant byte first. -/
def ofBytes (w : ℕ) (bs : List Byte) : BitVec w :=
  bs.foldl (fun acc b => (acc <<< 8) ||| b.setWidth w) 0

/-- The `n` lowest lanes of a word, most significant first. -/
def toBytes (n : ℕ) (x : BitVec w) : List Byte :=
  (List.range n).map fun i => lane x (n - 1 - i)

@[simp] theorem length_toBytes (x : BitVec w) : (toBytes n x).length = n := by
  simp [toBytes]

@[simp] theorem getElem_toBytes (x : BitVec w) (i : ℕ) (hi : i < (toBytes n x).length) :
    (toBytes n x)[i] = lane x (n - 1 - i) := by
  simp [toBytes]

theorem ofBytes_snoc (bs : List Byte) (b : Byte) :
    ofBytes w (bs ++ [b]) = (ofBytes w bs <<< 8) ||| b.setWidth w := by
  simp [ofBytes]

theorem lane_ofBytes (bs : List Byte) (k : ℕ) (hk : k < bs.length) (hw : 8 * k + 8 ≤ w) :
    lane (ofBytes w bs) k = bs[bs.length - 1 - k] := by
  induction bs using List.reverseRecOn generalizing k with
  | nil => simp at hk
  | append_singleton bs b ih =>
    rw [ofBytes_snoc]
    apply BitVec.eq_of_getLsbD_eq
    intro i hi
    rcases Nat.eq_zero_or_pos k with rfl | hpos
    · have hiw : 8 * 0 + i < w := by omega
      have hi8 : 8 * 0 + i < 8 := by omega
      simp only [getLsbD_lane, BitVec.getLsbD_or, BitVec.getLsbD_shiftLeft,
        BitVec.getLsbD_setWidth, hi, hiw, hi8]
      simp
    · have hlen : k - 1 < bs.length := by simp at hk; omega
      have hprev := congrArg (fun c => c.getLsbD i) (ih (k - 1) hlen (by omega))
      have hidx : bs.length - 1 - (k - 1) = bs.length - k := by omega
      have hlast : (bs ++ [b]).length - 1 - k < (bs ++ [b]).length := by
        rw [List.length_append, List.length_singleton]
        omega
      have hold : bs.length - k < bs.length := by omega
      have hget : (bs ++ [b])[(bs ++ [b]).length - 1 - k] = bs[bs.length - k] := by
        simp [List.getElem_append_left hold]
      simp only [getLsbD_lane, hi, decide_true, Bool.true_and, hidx] at hprev
      have hb : b.getLsbD (8 * k + i) = false := BitVec.getLsbD_of_ge _ _ (by omega)
      have hsub : 8 * k + i - 8 = 8 * (k - 1) + i := by omega
      simp only [getLsbD_lane, BitVec.getLsbD_or, BitVec.getLsbD_shiftLeft,
        BitVec.getLsbD_setWidth, hi, hb, hget, hsub, hprev, show 8 * k + i < w by omega,
        show ¬ 8 * k + i < 8 by omega, decide_true, decide_false, Bool.true_and, Bool.not_false,
        Bool.and_false, Bool.or_false]

theorem toBytes_ofBytes (bs : List Byte) (hw : 8 * bs.length ≤ w) :
    toBytes bs.length (ofBytes w bs) = bs := by
  apply List.ext_getElem (by simp)
  intro i h1 h2
  rw [getElem_toBytes, lane_ofBytes bs _ (by omega) (by omega)]
  congr 1
  omega

theorem ofBytes_toBytes (x : BitVec w) (hw : w = 8 * n) : ofBytes w (toBytes n x) = x := by
  apply ext_lanes hw
  intro k hk
  rw [lane_ofBytes _ k (by simpa using hk) (by omega), getElem_toBytes]
  congr 1
  simp
  omega

/-- Comparing a word with a constant is comparing its bytes. -/
theorem ofBytes_eq_iff (bs : List Byte) (x : BitVec w) (hw : w = 8 * bs.length) :
    ofBytes w bs = x ↔ bs = toBytes bs.length x := by
  constructor
  · rintro rfl
    exact (toBytes_ofBytes bs (Nat.le_of_eq hw.symm)).symm
  · intro h
    rw [h]
    exact ofBytes_toBytes x hw

/-- Machine counters that have not wrapped are equal only at equal counts. -/
theorem ofNat_eq_ofNat {a b : ℕ} (ha : a < 2 ^ w) (hb : b < 2 ^ w) :
    BitVec.ofNat w a = BitVec.ofNat w b ↔ a = b := by
  constructor
  · intro h
    have hnat := congrArg BitVec.toNat h
    simpa [Nat.mod_eq_of_lt ha, Nat.mod_eq_of_lt hb] using hnat
  · rintro rfl
    rfl

end Words
