import Mathlib.Data.List.GetD
import Mathlib.Tactic.Common

/-!
# Reflected feedback shift registers

The register moves its low bit out and, when that bit differs from the input bit, adds the
feedback word. The operation is linear over bits, takes a register fed with its own bits to zero,
and loses no information when the top feedback bit is set, so a nonzero input of at most `w` bits
always leaves a trace.
-/

namespace ShiftRegister

variable {w : ℕ} (p : BitVec w)

def step (c : BitVec w) (b : Bool) : BitVec w :=
  if c.getLsbD 0 ^^ b then (c >>> 1) ^^^ p else c >>> 1

def fold (c : BitVec w) (bs : List Bool) : BitVec w := bs.foldl (step p) c

def bits (c : BitVec w) : List Bool := (List.range w).map c.getLsbD

def add (xs ys : List Bool) : List Bool := List.zipWith (· ^^ ·) xs ys

@[simp] theorem fold_nil (c : BitVec w) : fold p c [] = c := rfl

@[simp] theorem fold_cons (c : BitVec w) (b : Bool) (bs : List Bool) :
    fold p c (b :: bs) = fold p (step p c b) bs := rfl

theorem fold_append (c : BitVec w) (xs ys : List Bool) :
    fold p c (xs ++ ys) = fold p (fold p c xs) ys :=
  List.foldl_append

theorem fold_snoc (c : BitVec w) (bs : List Bool) (b : Bool) :
    fold p c (bs ++ [b]) = step p (fold p c bs) b := by
  rw [fold_append, fold_cons, fold_nil]

@[simp] theorem length_bits (c : BitVec w) : (bits c).length = w := by simp [bits]

@[simp] theorem getElem_bits (c : BitVec w) {k : ℕ} (hk : k < (bits c).length) :
    (bits c)[k] = c.getLsbD k := by
  simp [bits]

theorem bits_xor (c d : BitVec w) : bits (c ^^^ d) = add (bits c) (bits d) := by
  apply List.ext_getElem
  · simp [add]
  · intro i h1 h2
    simp [add]

section Linear

theorem step_xor (c d : BitVec w) (b e : Bool) :
    step p (c ^^^ d) (b ^^ e) = step p c b ^^^ step p d e := by
  have hshift : (c ^^^ d) >>> 1 = (c >>> 1) ^^^ (d >>> 1) := BitVec.ushiftRight_xor_distrib c d 1
  have hfeed : ((c ^^^ d).getLsbD 0 ^^ (b ^^ e)) =
      ((c.getLsbD 0 ^^ b) ^^ (d.getLsbD 0 ^^ e)) := by
    rw [BitVec.getLsbD_xor]
    cases c.getLsbD 0 <;> cases d.getLsbD 0 <;> cases b <;> cases e <;> rfl
  unfold step
  rw [hfeed, hshift]
  cases c.getLsbD 0 ^^ b <;> cases d.getLsbD 0 ^^ e
  · simp
  · simp [BitVec.xor_assoc]
  · simp [BitVec.xor_assoc, BitVec.xor_comm p]
  · simp only [Bool.xor_self, Bool.false_eq_true, if_false, if_true]
    rw [BitVec.xor_assoc, ← BitVec.xor_assoc p, BitVec.xor_comm p, BitVec.xor_assoc _ p p,
      BitVec.xor_self, BitVec.xor_zero]

theorem fold_xor (c d : BitVec w) {xs ys : List Bool} (h : xs.length = ys.length) :
    fold p (c ^^^ d) (add xs ys) = fold p c xs ^^^ fold p d ys := by
  induction xs generalizing c d ys with
  | nil =>
    rw [List.length_eq_zero_iff.mp h.symm]
    rfl
  | cons x xs ih =>
    cases ys with
    | nil => simp at h
    | cons y ys =>
      have hlen : xs.length = ys.length := by simpa using h
      calc fold p (c ^^^ d) (add (x :: xs) (y :: ys))
          = fold p (step p c x ^^^ step p d y) (add xs ys) := by rw [← step_xor]; rfl
        _ = fold p c (x :: xs) ^^^ fold p d (y :: ys) := ih _ _ hlen

theorem fold_zeros (n : ℕ) : fold p 0#w (List.replicate n false) = 0#w := by
  induction n with
  | zero => rfl
  | succ n ih =>
    rw [List.replicate_succ, fold_cons]
    have hzero : step p 0#w false = 0#w := by simp [step]
    rw [hzero, ih]

end Linear

theorem fold_own_bits (c : BitVec w) (k : ℕ) :
    fold p c ((List.range k).map c.getLsbD) = c >>> k := by
  induction k with
  | zero => simp
  | succ k ih =>
    rw [List.range_succ, List.map_append, List.map_singleton, fold_snoc, ih]
    simp [step, BitVec.shiftRight_add]

theorem fold_bits (c : BitVec w) : fold p c (bits c) = 0#w := by
  rw [bits, fold_own_bits]
  apply BitVec.eq_of_getLsbD_eq
  intro i _
  rw [BitVec.getLsbD_ushiftRight, BitVec.getLsbD_of_ge c _ (by omega), BitVec.getLsbD_zero]

/-- Fed with the complement of its own bits, a register ends in a constant. -/
theorem fold_bits_not (c : BitVec w) :
    fold p c (bits (~~~c)) = fold p 0#w (List.replicate w true) := by
  have hbits : bits (~~~c) = add (bits c) (List.replicate w true) := by
    apply List.ext_getElem
    · simp [add]
    · intro i h1 h2
      have hi : i < w := by simpa using h1
      simp [add, hi]
  have hlin := fold_xor p c 0#w
    (show (bits c).length = (List.replicate w true).length by simp)
  rw [BitVec.xor_zero, fold_bits, BitVec.zero_xor] at hlin
  rw [hbits, hlin]

section Injective
variable {p}

theorem step_eq_zero (hp : p.getLsbD (w - 1) = true) {c : BitVec w}
    (h : step p c false = 0#w) : c = 0#w := by
  have hw : 0 < w := by
    by_contra hzero
    rw [BitVec.getLsbD_of_ge p _ (by omega)] at hp
    contradiction
  unfold step at h
  rw [Bool.xor_false] at h
  cases hlow : c.getLsbD 0 with
  | true =>
    rw [if_pos hlow] at h
    have htop := congrArg (fun x => x.getLsbD (w - 1)) h
    simp only [BitVec.getLsbD_xor, BitVec.getLsbD_ushiftRight, hp, BitVec.getLsbD_zero] at htop
    rw [BitVec.getLsbD_of_ge c _ (by omega)] at htop
    contradiction
  | false =>
    rw [if_neg (by simp [hlow])] at h
    apply BitVec.eq_of_getLsbD_eq
    intro i _
    cases i with
    | zero => rw [hlow, BitVec.getLsbD_zero]
    | succ i =>
      have hbit := congrArg (fun x => x.getLsbD i) h
      simpa [Nat.add_comm 1] using hbit

theorem fold_zeros_eq_zero (hp : p.getLsbD (w - 1) = true) {c : BitVec w} {n : ℕ}
    (h : fold p c (List.replicate n false) = 0#w) : c = 0#w := by
  induction n with
  | zero => exact h
  | succ n ih =>
    rw [List.replicate_succ', fold_snoc] at h
    exact ih (step_eq_zero hp h)

theorem exists_bits {bs : List Bool} (h : bs.length = w) : ∃ c : BitVec w, bits c = bs := by
  subst h
  refine ⟨BitVec.ofBoolListLE bs, List.ext_getElem (by simp) fun i h1 h2 => ?_⟩
  rw [getElem_bits, BitVec.getLsbD_ofBoolListLE, List.getD_eq_getElem _ _ h2]

/-- At most `w` bits that leave no trace are all zero. -/
theorem eq_zeros_of_fold (hp : p.getLsbD (w - 1) = true) {bs : List Bool} (hlen : bs.length ≤ w)
    (h : fold p 0#w bs = 0#w) : bs = List.replicate bs.length false := by
  have hpad : fold p 0#w (bs ++ List.replicate (w - bs.length) false) = 0#w := by
    rw [fold_append, h, fold_zeros]
  obtain ⟨c, hc⟩ : ∃ c : BitVec w, bits c = bs ++ List.replicate (w - bs.length) false :=
    exists_bits (by simp; omega)
  have hsame : add (bits c) (bits c) = List.replicate w false := by
    apply List.ext_getElem
    · simp [add]
    · simp [add]
  -- The register that holds these bits forgets them, and by linearity it was zero.
  have hlin := fold_xor p c 0#w (show (bits c).length = (bits c).length from rfl)
  rw [hsame, BitVec.xor_zero, fold_bits, hc, hpad, BitVec.xor_zero] at hlin
  have hzero := fold_zeros_eq_zero hp hlin
  rw [hzero] at hc
  apply List.eq_replicate_of_mem
  intro b hb
  have hmem : b ∈ bits (0#w) := by
    rw [hc]
    exact List.mem_append_left _ hb
  have hbit : (∃ x, x < w) ∧ b = false := by simpa [bits] using hmem
  exact hbit.2

theorem eq_zeros {bs : List Bool} (h : ∀ i : ℕ, bs[i]? ≠ some true) :
    bs = List.replicate bs.length false := by
  apply List.eq_replicate_of_mem
  intro b hb
  obtain ⟨i, hi⟩ := List.mem_iff_getElem?.mp hb
  cases b with
  | false => rfl
  | true => exact absurd hi (h i)

/-- All the ones of the string lie within `n` consecutive places. -/
def Burst (n : ℕ) (bs : List Bool) : Prop :=
  ∃ first, ∀ i : ℕ, bs[i]? = some true → first ≤ i ∧ i < first + n

/-- A burst of errors no longer than the register leaves a trace. -/
theorem fold_burst_ne_zero (hp : p.getLsbD (w - 1) = true) {bs : List Bool} (hburst : Burst w bs)
    (hone : true ∈ bs) : fold p 0#w bs ≠ 0#w := by
  obtain ⟨first, hfirst⟩ := hburst
  intro h
  have hsplit : bs = bs.take first ++ ((bs.drop first).take w ++ (bs.drop first).drop w) := by
    rw [List.take_append_drop, List.take_append_drop]
  have hbefore : bs.take first = List.replicate (bs.take first).length false := by
    apply eq_zeros
    intro i hi
    rw [List.getElem?_take] at hi
    split_ifs at hi with hlt
    have hge := (hfirst i hi).1
    omega
  have hafter : (bs.drop first).drop w = List.replicate ((bs.drop first).drop w).length false := by
    apply eq_zeros
    intro i hi
    rw [List.getElem?_drop, List.getElem?_drop] at hi
    have hlt := (hfirst _ hi).2
    omega
  rw [hsplit, fold_append, fold_append, hbefore, fold_zeros, hafter] at h
  have hwindow := eq_zeros_of_fold hp (List.length_take_le _ _) (fold_zeros_eq_zero hp h)
  rw [hsplit, hbefore, hwindow, hafter] at hone
  simp at hone

end Injective

end ShiftRegister
