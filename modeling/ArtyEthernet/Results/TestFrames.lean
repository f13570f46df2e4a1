import ArtyEthernet.Proofs.Collecting
import ArtyEthernet.Proofs.TestbenchFrames

/-!
# Frames of any length

The framer on its own sends a payload of any length up to 1500 bytes as one valid frame, and is
ready for the next one when the test bench has drained the gap.
-/

namespace ArtyEthernet.Testbench
open Words Synchronous

def testHeader : EthHeader := ⟨0x112233445566, fpgaMac, ipv4Ethertype⟩

def testDst : List Byte := [0x11#8, 0x22#8, 0x33#8, 0x44#8, 0x55#8, 0x66#8]

/-- A payload that counts up. -/
def testPayload (n : ℕ) : List Byte := (List.range n).map (BitVec.ofNat 8)

theorem fillTestFrame_get (header : EthHeader) (buf : Buffer txFrameBodyBytesInt) {n j : ℕ}
    (hn : n ≤ txFrameBodyBytesInt) (hj : j < n) :
    (fillTestFrame header n buf).get j = testFrameByte header (BitVec.ofNat 11 j) := by
  induction n with
  | zero => exact absurd hj (Nat.not_lt_zero j)
  | succ n ih =>
    rw [fillTestFrame, List.range_succ, List.foldl_append, List.foldl_cons, List.foldl_nil,
      Buffer.get_set]
    split_ifs with hlast
    · rw [hlast.1]
    · exact ih (by omega) (by omega)

def Filled (buf : Buffer txFrameBodyBytesInt) : Prop :=
  ∀ j < txFrameBodyBytesInt, buf.get j = testFrameByte testHeader (BitVec.ofNat 11 j)

theorem filled_fillTestFrame (buf : Buffer txFrameBodyBytesInt) :
    Filled (fillTestFrame testHeader txFrameBodyBytesInt buf) :=
  fun _ hj => fillTestFrame_get testHeader buf le_rfl hj

variable {n : ℕ} {buf : Buffer txFrameBodyBytesInt}

def testLen (n : ℕ) : BitVec 11 := ethHeaderBytes.setWidth 11 + BitVec.ofNat 11 n

theorem toNat_testLen (hn : n ≤ 1500) : (testLen n).toNat = 14 + n := by
  rw [testLen, BitVec.toNat_add, BitVec.toNat_ofNat]
  change (14 + n % 2 ^ 11) % 2 ^ 11 = 14 + n
  omega

theorem testFrameByte_header {j : ℕ} (hj : j < 14) :
    testFrameByte testHeader (BitVec.ofNat 11 j) =
      ethernetHeaderByte testHeader (BitVec.ofNat 4 j) := by
  interval_cases j <;> rfl

theorem testFrameByte_payload {j : ℕ} (hj : j < 1500) :
    testFrameByte testHeader (BitVec.ofNat 11 (14 + j)) = BitVec.ofNat 8 j := by
  have hlarge : ¬ BitVec.ofNat 11 (14 + j) < ethHeaderBytes.setWidth 11 := by
    rw [BitVec.lt_def, BitVec.toNat_ofNat]
    change ¬ (14 + j) % 2 ^ 11 < 14
    omega
  rw [testFrameByte, if_neg hlarge, BitVec.ofNat_add]
  apply BitVec.eq_of_toNat_eq
  change ((2 ^ 11 - 14 + (14 + j % 2 ^ 11) % 2 ^ 11) % 2 ^ 11) % 2 ^ 8 = j % 2 ^ 8
  omega

theorem Filled.body (h : Filled buf) (hn : n ≤ 1500) :
    padBody (bufferBody buf (testLen n)) = txBody testDst (testPayload n) := by
  have hbody : bufferBody buf (testLen n) =
      testDst ++ fpgaMacBytes ++ [0x08#8, 0x00#8] ++ testPayload n := by
    have hheader : (List.range 14).map buf.get = testDst ++ fpgaMacBytes ++ [0x08#8, 0x00#8] := by
      calc (List.range 14).map buf.get
          = (List.range 14).map fun i => ethernetHeaderByte testHeader (BitVec.ofNat 4 i) := by
            apply List.map_congr_left
            intro j hj
            rw [h j (Nat.lt_of_lt_of_le (List.mem_range.mp hj) (Nat.le_add_right 14 1500)),
              testFrameByte_header (List.mem_range.mp hj)]
        _ = _ := map_ethernetHeaderByte testHeader
    rw [bufferBody, toNat_testLen hn, List.range_add, List.map_append, hheader, List.map_map,
      testPayload]
    congr 1
    apply List.map_congr_left
    intro j hj
    have hlt := List.mem_range.mp hj
    exact (h (14 + j) (by simp only [txFrameBodyBytesInt, ethHeaderBytesInt,
      maxEthPayloadBytesInt]; omega)).trans (testFrameByte_payload (by omega))
  have hlen : (testPayload n).length = n := by simp [testPayload]
  rw [padBody, length_bufferBody, toNat_testLen hn, hbody, txBody, hlen, minBody]
  congr 2
  omega

/-- Cycle `k` after the start of a frame with a payload of `n` bytes. -/
inductive HarnessAt (n k : ℕ) (s : TestFrame) : Prop where
  | sending (initialized : s.initialized = true) (filled : Filled s.testFrameBodyBuf)
      (started : s.started = true)
      (frame : FramerAt (txBody testDst (testPayload n)) k s.framer)
      (len : s.framer.txLen = testLen n)
  | rested (initialized : s.initialized = true) (filled : Filled s.testFrameBodyBuf)
      (started : s.started = false) (idle : s.framer.txState = .txIdle)
      (hk : frameCycles (txBody testDst (testPayload n)) ≤ k)

structure HarnessReady (s : TestFrame) : Prop where
  filled : s.initialized = true → Filled s.testFrameBodyBuf
  started : s.started = false
  idle : s.framer.txState = .txIdle

theorem harnessReady_reset : HarnessReady .reset where
  filled h := Bool.noConfusion h
  started := rfl
  idle := rfl

variable {k : ℕ} {s : TestFrame} {cycle : ℕ}

theorem length_testBody (hn : n ≤ 1500) :
    (txBody testDst (testPayload n)).length = max (14 + n) 60 := by
  rw [length_txBody _ rfl, testPayload, List.length_map, List.length_range]
  split_ifs <;> omega

def testNibbles (n : ℕ) : List Nibble := toNibbles (wireBytes (txBody testDst (testPayload n)))

theorem length_testNibbles (n : ℕ) :
    (testNibbles n).length = wireNibbles (txBody testDst (testPayload n)) := by
  rw [testNibbles, length_toNibbles, length_wireBytes, wireNibbles]

theorem testFrameCycle_filled (n cycle : ℕ) (h : s.initialized = true) :
    testFrameCycle n s cycle =
      let startRequest := !s.started && BitVec.ofNat 16 cycle == 0
      let started := if startRequest then true else s.started
      let r := ethernetTxFramerStep s.framer startRequest (testLen n) s.testFrameBodyBuf
      (⟨s.testFrameBodyBuf, true,
        if r.2.txIdle && started && BitVec.ofNat 16 cycle != 0 then false else started, r.1⟩,
        r.2.ethTxEn, r.2.ethTxd) := by
  simp only [testFrameCycle, ethernetL2EndpointHlsTestFrame, h, if_true]
  rfl

theorem HarnessAt.step (h : HarnessAt n k s) (hn : n ≤ 1500) (hcycle : BitVec.ofNat 16 cycle ≠ 0) :
    HarnessAt n (k + 1) (next (testFrameCycle n) s cycle) ∧
      shown (testFrameCycle n) s cycle =
        ((testNibbles n)[k]?.isSome, (testNibbles n)[k]?.getD 0) := by
  have hlen := length_testBody hn
  have hlong := length_testNibbles n
  have hclear : (BitVec.ofNat 16 cycle == 0) = false := beq_false_of_ne hcycle
  cases h with
  | sending initialized filled started frame len =>
    have hcycleEq := testFrameCycle_filled n cycle initialized
    have hshows : ShowsBody s.testFrameBodyBuf s.framer.txLen (txBody testDst (testPayload n)) := by
      have hbound : (testLen n).toNat ≤ 1514 := by rw [toNat_testLen hn]; omega
      have hthen := showsBody_bufferBody s.testFrameBodyBuf hbound
      rw [filled.body hn] at hthen
      rwa [len]
    simp only [started, hclear, Bool.not_true, Bool.and_false, Bool.false_eq_true, if_false,
      Bool.and_true, bne, Bool.not_false] at hcycleEq
    rw [next, shown, hcycleEq]
    by_cases hk : k < wireNibbles (txBody testDst (testPayload n))
    · have hemits := frame.emits false (testLen n) hk (by omega) (by omega) hshows
      have hnibble : (testNibbles n)[k]? = _ := hemits.nibble
      constructor
      · refine .sending rfl filled ?_ hemits.next (hemits.len.trans len)
        simp only [hemits.busy, Bool.false_eq_true, if_false]
      · simp only [hnibble, hemits.enabled, Option.isSome_some, Option.getD_some]
    · obtain ⟨hpins, hmore, hend, hsame⟩ := frame.gap_step false (testLen n) s.testFrameBodyBuf
        (by omega)
      have hnone : (testNibbles n)[k]? = none := List.getElem?_eq_none (by omega)
      have hlt := frame.lt_frameCycles
      constructor
      · by_cases hlast : k + 1 = frameCycles (txBody testDst (testPayload n))
        · refine .rested rfl filled ?_ (hend hlast) hlast.ge
          simp only [hpins, Framer.silent, hlast, decide_true, if_true]
        · refine .sending rfl filled ?_ (hmore (by omega)) (hsame.trans len)
          simp only [hpins, Framer.silent, hlast, decide_false, Bool.false_eq_true, if_false]
      · simp only [hpins, Framer.silent, hnone, Option.isSome_none, Option.getD_none]
  | rested initialized filled started idle hk =>
    have hcycleEq := testFrameCycle_filled n cycle initialized
    have hnone : (testNibbles n)[k]? = none := by
      apply List.getElem?_eq_none
      rw [frameCycles] at hk
      omega
    simp only [started, hclear, Bool.and_false, Bool.false_eq_true, if_false, Bool.false_and,
      ite_self] at hcycleEq
    obtain ⟨hidle, hpins⟩ := framer_rest idle s.testFrameBodyBuf (testLen n)
    rw [next, shown, hcycleEq]
    constructor
    · exact .rested rfl filled rfl hidle (by omega)
    · simp only [hpins, Framer.silent, hnone, Option.isSome_none, Option.getD_none]

theorem HarnessReady.start (h : HarnessReady s) (hn : n ≤ 1500) :
    HarnessAt n 0 (next (testFrameCycle n) s 0) ∧ shown (testFrameCycle n) s 0 = (false, 0) := by
  have hlen := length_testBody hn
  have hbody : (txBody testDst (testPayload n)).length = max (testLen n).toNat minBody := by
    rw [hlen, toNat_testLen hn, minBody]
  obtain ⟨buf, hfilled, hcycleEq⟩ : ∃ buf, Filled buf ∧ testFrameCycle n s 0 =
      let r := ethernetTxFramerStep s.framer true (testLen n) buf
      (⟨buf, true, if r.2.txIdle && true && BitVec.ofNat 16 0 != 0 then false else true, r.1⟩,
        r.2.ethTxEn, r.2.ethTxd) := by
    cases hinit : s.initialized with
    | true =>
      refine ⟨s.testFrameBodyBuf, h.filled hinit, ?_⟩
      rw [testFrameCycle_filled n 0 hinit, h.started]
      rfl
    | false =>
      refine ⟨fillTestFrame testHeader txFrameBodyBytesInt s.testFrameBodyBuf,
        filled_fillTestFrame _, ?_⟩
      simp only [testFrameCycle, ethernetL2EndpointHlsTestFrame, hinit, h.started,
        Bool.false_eq_true, if_false]
      rfl
  obtain ⟨hframe, hsame, hpins⟩ := FramerAt.start h.idle buf (testLen n) hbody
  rw [next, shown, hcycleEq]
  constructor
  · refine .sending rfl hfilled ?_ hframe hsame
    simp only [hpins, Framer.silent, Bool.false_and, Bool.false_eq_true, if_false]
  · simp only [hpins, Framer.silent]

theorem HarnessAt.run (h : HarnessAt n k s) (hn : n ≤ 1500) (cycles : List ℕ)
    (hcycles : ∀ cycle ∈ cycles, BitVec.ofNat 16 cycle ≠ 0) :
    HarnessAt n (k + cycles.length) (run (next (testFrameCycle n)) s cycles) ∧
      trace (next (testFrameCycle n)) (shown (testFrameCycle n)) s cycles =
        (List.range' k cycles.length).map fun j =>
          ((testNibbles n)[j]?.isSome, (testNibbles n)[j]?.getD 0) := by
  induction cycles generalizing k s with
  | nil => exact ⟨h, rfl⟩
  | cons cycle cycles ih =>
    obtain ⟨hnext, hshown⟩ := h.step hn (hcycles cycle List.mem_cons_self)
    obtain ⟨hend, htrace⟩ := ih hnext fun c hc => hcycles c (List.mem_cons_of_mem cycle hc)
    rw [List.length_cons, Nat.add_comm cycles.length, ← Nat.add_assoc, run_cons, trace_cons, htrace,
      hshown, Nat.add_comm 1, List.range'_succ]
    exact ⟨hend, rfl⟩

theorem HarnessAt.ready (h : HarnessAt n k s)
    (hk : frameCycles (txBody testDst (testPayload n)) ≤ k) : HarnessReady s := by
  cases h with
  | sending _ _ _ frame => exact absurd frame.lt_frameCycles (by omega)
  | rested _ filled started idle => exact ⟨fun _ => filled, started, idle⟩

theorem map_range_getElem {α : Type*} (xs : List α) (default : α) :
    (List.range' 0 xs.length).map (fun j => (xs[j]?.isSome, xs[j]?.getD default)) =
      xs.map fun x => (true, x) := by
  apply List.ext_getElem
  · simp
  · intro j hj hj'
    rw [List.length_map] at hj'
    simp [hj']

theorem cycle_ne_zero {c : ℕ} (hc : 0 < c) (hmax : c < 65536) : BitVec.ofNat 16 c ≠ 0 := by
  intro h
  have hzero := congrArg BitVec.toNat h
  rw [BitVec.toNat_ofNat] at hzero
  change c % 2 ^ 16 = 0 at hzero
  omega

theorem range_split {len maxCycles : ℕ} (h : len + 2 ≤ maxCycles) :
    ∃ later, List.range maxCycles = [0] ++ List.range' 1 len ++ (len + 1) :: later := by
  obtain ⟨more, rfl⟩ := Nat.exists_eq_add_of_le h
  have hsum : len + 2 + more = 1 + (len + (more + 1)) := by omega
  refine ⟨List.range' (1 + len + 1) more, ?_⟩
  calc List.range (len + 2 + more) = List.range' 0 1 ++ List.range' (0 + 1) (len + (more + 1)) := by
        rw [List.range_eq_range', hsum, List.range'_append_1]
    _ = [0] ++ (List.range' 1 len ++ List.range' (1 + len) (more + 1)) :=
        congrArg ([0] ++ ·) List.range'_append_1.symm
    _ = [0] ++ List.range' 1 len ++ (len + 1) :: List.range' (1 + len + 1) more := by
        rw [List.range'_succ, Nat.add_comm 1 len, List.append_assoc]

theorem HarnessReady.frame (h : HarnessReady s) (hn : n ≤ 1500) {maxCycles : ℕ}
    (hmax : 2 * max (14 + n) 60 + 26 ≤ maxCycles) :
    (collectTestFrame s n maxCycles).1 = wireBytes (txBody testDst (testPayload n)) ∧
      HarnessReady (collectTestFrame s n maxCycles).2 := by
  have hlen := length_testNibbles n
  rw [wireNibbles, length_testBody hn] at hlen
  generalize hnibbles : (testNibbles n).length = len at hlen
  obtain ⟨hstart, hsilent⟩ := h.start hn
  obtain ⟨hat, htrace⟩ := hstart.run hn (List.range' 1 len) fun c hc => by
    rw [List.mem_range'_1] at hc
    exact cycle_ne_zero (by omega) (by omega)
  rw [List.length_range', ← hnibbles, map_range_getElem, hnibbles] at htrace
  rw [List.length_range', Nat.zero_add] at hat
  obtain ⟨hgap, hoff⟩ := hat.step hn (cycle_ne_zero (Nat.succ_pos len) (by omega))
  rw [List.getElem?_eq_none hnibbles.le] at hoff
  obtain ⟨later, hsplit⟩ := range_split (show len + 2 ≤ maxCycles by omega)
  have hcollected := collectLoop_frame (testFrameCycle n) s [0] later (List.range' 1 len) (len + 1)
    (wireBytes (txBody testDst (testPayload n))) (by simp [wireBytes]) (by simp [hsilent]) htrace
    (congrArg Prod.fst hoff)
  obtain ⟨hdrained, -⟩ := hgap.run hn ((List.range 64).map fun drain => len + 1 + drain + 1)
    fun c hc => by
      obtain ⟨drain, hdrain, rfl⟩ := List.mem_map.mp hc
      rw [List.mem_range] at hdrain
      exact cycle_ne_zero (Nat.succ_pos _) (by omega)
  have hrun : Synchronous.run (next (testFrameCycle n)) s ([0] ++ List.range' 1 len ++ [len + 1]) =
      next (testFrameCycle n) (Synchronous.run (next (testFrameCycle n))
        (next (testFrameCycle n) s 0) (List.range' 1 len)) (len + 1) := run_snoc _ _ _ _
  rw [collectTestFrame, hsplit, hcollected, hrun]
  refine ⟨rfl, ?_⟩
  rw [Synchronous.run, List.foldl_map, List.length_map, List.length_range] at hdrained
  have hpast : frameCycles (txBody testDst (testPayload n)) ≤ len + 1 + 64 := by
    rw [frameCycles, ← length_testNibbles, hnibbles]
    omega
  have hready := hdrained.ready hpast
  dsimp only [next] at hready ⊢
  exact hready

/-- Every test frame is valid, whatever the lengths of those before it, when the collecting loop
runs for the two cycles around the frame and its nibbles. -/
theorem test_frames_valid (sizes : List (ℕ × ℕ))
    (hsizes : ∀ size ∈ sizes, size.1 ≤ 1500 ∧ 2 * max (14 + size.1) 60 + 26 ≤ size.2) :
    testFrames .reset sizes = List.replicate sizes.length true := by
  suffices hready : ∀ s, HarnessReady s → testFrames s sizes = List.replicate sizes.length true from
    hready .reset harnessReady_reset
  induction sizes with
  | nil => exact fun _ _ => rfl
  | cons size sizes ih =>
    intro s hs
    obtain ⟨hn, hmax⟩ := hsizes size List.mem_cons_self
    obtain ⟨hframe, hnext⟩ := hs.frame hn hmax
    have hvalid : assertValidTestFrame (wireBytes (txBody testDst (testPayload size.1))) size.1 =
        true := (assertValidTxFrame_iff _ _ rfl).mpr rfl
    have hrest := ih (fun other hother => hsizes other (List.mem_cons_of_mem size hother)) _ hnext
    change assertValidTestFrame (collectTestFrame s size.1 size.2).1 size.1 ::
      testFrames (collectTestFrame s size.1 size.2).2 sizes = _
    rw [hframe, hvalid, hrest]
    rfl

theorem test_frames_valid_bench :
    testFrames .reset [(0, 256), (8, 256), (47, 256), (1024, 4096)] = [true, true, true, true] :=
  test_frames_valid _ (by decide)

end ArtyEthernet.Testbench
