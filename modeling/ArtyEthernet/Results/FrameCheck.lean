import ArtyEthernet.Library.BitPolynomial
import ArtyEthernet.Proofs.Framing

/-!
# The frame check sequence

`crc32_next_byte` shifts the eight bits of a byte, lowest first, into a register with feedback word
`0xEDB88320`. The remainder, the residue and the detection of bursts are then facts about registers.
-/

namespace ArtyEthernet
open Words ShiftRegister Polynomial

def wireBits (bs : List Byte) : List Bool := bs.flatMap bits

theorem wireBits_append (xs ys : List Byte) : wireBits (xs ++ ys) = wireBits xs ++ wireBits ys :=
  List.flatMap_append

theorem wireBits_cons (b : Byte) (bs : List Byte) : wireBits (b :: bs) = bits b ++ wireBits bs :=
  rfl

noncomputable def ethernetPoly : (ZMod 2)[X] :=
  X ^ 32 + X ^ 26 + X ^ 23 + X ^ 22 + X ^ 16 + X ^ 12 + X ^ 11 + X ^ 10 + X ^ 8 + X ^ 7 + X ^ 5 +
    X ^ 4 + X ^ 2 + X + 1

/-- The remainder of the message followed by 32 zeros, the first 32 bits complemented. -/
noncomputable def messageRemainder (m : List Byte) : (ZMod 2)[X] :=
  stringPoly (complementFirst 32 (wireBits m ++ List.replicate 32 false)) %ₘ ethernetPoly

def crcFeedback : BitVec 32 := 0xEDB88320#32

theorem generator_crcFeedback : generator crcFeedback = ethernetPoly := by
  have hbits : bits crcFeedback = [false, false, false, false, false, true, false, false,
      true, true, false, false, false, false, false, true,
      false, false, false, true, true, true, false, true,
      true, false, true, true, false, true, true, true] := by decide
  rw [generator, registerPoly, hbits, ethernetPoly]
  simp only [stringPoly, List.foldl_cons, List.foldl_nil, Bool.toNat_true, Bool.toNat_false,
    Nat.cast_zero, Nat.cast_one, C_0, C_1]
  ring

theorem crc32NextByte_eq_fold (c : BitVec 32) (b : Byte) :
    crc32NextByte c b = fold crcFeedback c (bits b) := by
  rw [fold, bits, List.foldl_map]
  rfl

theorem crc32_eq_fold (bs : List Byte) :
    crc32 bs = fold crcFeedback (BitVec.allOnes 32) (wireBits bs) := by
  induction bs using List.reverseRecOn with
  | nil => rfl
  | append_singleton bs b ih =>
    rw [crc32_snoc, ih, crc32NextByte_eq_fold, wireBits_append, fold_append]
    simp [wireBits]

theorem wireBits_fcsBytes (m : List Byte) : wireBits (fcsBytes m) = bits (~~~ crc32 m) := by
  rw [fcsBytes]
  generalize ~~~ crc32 m = x
  simp [wireBits, bits, lane, List.range_succ]

theorem residue_eq : fold crcFeedback 0#32 (List.replicate 32 true) = 0xDEBB20E3#32 := by
  decide +kernel

theorem crc32_append_fcs (m : List Byte) : crc32 (m ++ fcsBytes m) = 0xDEBB20E3#32 := by
  rw [crc32_eq_fold, wireBits_append, fold_append, ← crc32_eq_fold, wireBits_fcsBytes,
    fold_bits_not, residue_eq]

theorem wireBits_xor {xs ys : List Byte} (h : xs.length = ys.length) :
    wireBits (List.zipWith (· ^^^ ·) xs ys) = add (wireBits xs) (wireBits ys) := by
  induction xs generalizing ys with
  | nil =>
    rw [List.length_eq_zero_iff.mp h.symm]
    rfl
  | cons x xs ih =>
    cases ys with
    | nil => simp at h
    | cons y ys =>
      have hlen : xs.length = ys.length := by simpa using h
      rw [List.zipWith_cons_cons, wireBits_cons, wireBits_cons, wireBits_cons, ih hlen, bits_xor,
        add, add, add, List.zipWith_append (by simp)]

theorem length_wireBits (bs : List Byte) : (wireBits bs).length = 8 * bs.length := by
  induction bs with
  | nil => rfl
  | cons b bs ih =>
    rw [wireBits_cons, List.length_append, length_bits, ih, List.length_cons]
    omega

/-- The check sequence of a corrupted frame is off by the trace of the errors. -/
theorem crc32_xor {bs errors : List Byte} (h : bs.length = errors.length) :
    crc32 (List.zipWith (· ^^^ ·) bs errors) =
      crc32 bs ^^^ fold crcFeedback 0#32 (wireBits errors) := by
  have hlen : (wireBits bs).length = (wireBits errors).length := by
    rw [length_wireBits, length_wireBits, h]
  have hlin := fold_xor crcFeedback (BitVec.allOnes 32) 0#32 hlen
  rw [BitVec.xor_zero] at hlin
  rw [crc32_eq_fold, crc32_eq_fold, wireBits_xor h, hlin]

theorem crc32_burst_ne {m errors : List Byte} (hlen : errors.length = (m ++ fcsBytes m).length)
    (hone : true ∈ wireBits errors) (hburst : Burst 32 (wireBits errors)) :
    crc32 (List.zipWith (· ^^^ ·) (m ++ fcsBytes m) errors) ≠ 0xDEBB20E3#32 := by
  have hne := fold_burst_ne_zero (p := crcFeedback) (by decide) hburst hone
  rw [crc32_xor hlen.symm, crc32_append_fcs]
  intro h
  apply hne
  have hcancel := congrArg (0xDEBB20E3#32 ^^^ ·) h
  simpa only [← BitVec.xor_assoc, BitVec.xor_self, BitVec.zero_xor] using hcancel

theorem not_crc32_eq (m : List Byte) {k : ℕ} (hk : k < 32) :
    (~~~ crc32 m).getLsbD k = !decide ((messageRemainder m).coeff (31 - k) = 1) := by
  have hrem : messageRemainder m = registerPoly (crc32 m) := by
    rw [messageRemainder, ← generator_crcFeedback, remainder_eq, crc32_eq_fold]
  have hcoeff := coeff_registerPoly (crc32 m) hk
  rw [hrem, BitVec.getLsbD_not, decide_eq_true hk, Bool.true_and]
  simp only [Nat.add_one_sub_one] at hcoeff
  rw [hcoeff]
  cases (crc32 m).getLsbD k <;> simp

/-- The check sequence of a message is that of IEEE 802.3, closes to the residue, and detects every
error burst of at most 32 bits. -/
theorem fcs_is_crc32 (m : List Byte) :
    (∀ k < 32, (~~~ crc32 m).getLsbD k = !decide ((messageRemainder m).coeff (31 - k) = 1)) ∧
      crc32 (m ++ fcsBytes m) = 0xDEBB20E3#32 ∧
      ∀ errors : List Byte, errors.length = (m ++ fcsBytes m).length → true ∈ wireBits errors →
        Burst 32 (wireBits errors) →
          crc32 (List.zipWith (· ^^^ ·) (m ++ fcsBytes m) errors) ≠ 0xDEBB20E3#32 :=
  ⟨fun _ => not_crc32_eq m, crc32_append_fcs m, fun _ => crc32_burst_ne⟩

theorem fcs_is_crc32_flip :
    crc32 (List.zipWith (· ^^^ ·) ([0x5A] ++ fcsBytes [0x5A]) [1, 0, 0, 0, 0]) ≠ 0xDEBB20E3#32 := by
  have hbits : wireBits [1, 0, 0, 0, 0] = true :: List.replicate 39 false := by decide
  refine (fcs_is_crc32 [0x5A]).2.2 [1, 0, 0, 0, 0] rfl (by rw [hbits]; simp) ⟨0, fun i hi => ?_⟩
  rw [hbits] at hi
  cases i with
  | zero => simp
  | succ i =>
    rw [List.getElem?_cons_succ, List.getElem?_replicate] at hi
    split_ifs at hi
    simp at hi

end ArtyEthernet
