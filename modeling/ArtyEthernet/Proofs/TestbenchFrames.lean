import ArtyEthernet.Model.Testbench
import ArtyEthernet.Proofs.TxCounts
import ArtyEthernet.Proofs.WirePacket
import Mathlib.Data.List.GetD

/-!
# The frames and checks of the test bench

The test bench computes its check sequence bit by bit and compares frames byte by byte. Its frames
are those of the framer, and each of its checks accepts one frame only.
-/

namespace ArtyEthernet.Testbench
open Words

theorem and_one_ne_zero (x : BitVec 32) : x &&& 1#32 ≠ 0#32 ↔ x.getLsbD 0 = true := by
  rw [BitVec.and_one_eq_setWidth_ofBool_getLsbD]
  cases x.getLsbD 0 <;> decide

/-- Shifting the byte along is the same as looking at its bits in turn. -/
theorem crc32Byte_fold (crc : BitVec 32) (data : Byte) (n : ℕ) :
    (List.range n).foldl (fun (s : BitVec 32 × Byte) _ =>
        (if (s.1 ^^^ s.2.setWidth 32) &&& 1#32 ≠ 0#32 then (s.1 >>> 1) ^^^ 0xedb88320#32
          else s.1 >>> 1, s.2 >>> 1)) (crc, data) =
      ((List.range n).foldl (fun (crc : BitVec 32) i =>
        if crc.getLsbD 0 ^^ data.getLsbD i then (crc >>> 1) ^^^ 0xEDB88320 else crc >>> 1) crc,
        data >>> n) := by
  induction n with
  | zero => simp
  | succ n ih =>
    rw [List.range_succ, List.foldl_append, List.foldl_append, ih]
    simp only [List.foldl_cons, List.foldl_nil, and_one_ne_zero, BitVec.getLsbD_xor,
      BitVec.getLsbD_setWidth, BitVec.getLsbD_ushiftRight, Nat.add_zero, ← BitVec.shiftRight_add]
    rfl

theorem crc32Byte_eq (crc : BitVec 32) (data : Byte) :
    crc32Byte crc data = crc32NextByte crc data :=
  congrArg Prod.fst (crc32Byte_fold crc data 8)

/-- The bytes `bs` stand in a frame from `first` on. -/
def Stands (frame : List Byte) (first : ℕ) (bs : List Byte) : Prop :=
  ∀ i < bs.length, frame.getD (first + i) 0#8 = bs.getD i 0#8

section Stands
variable {frame xs ys bs : List Byte} {first : ℕ} {b : Byte}

theorem holds_iff {n : ℕ} (hlen : bs.length = n) :
    holds frame first n bs = true ↔ Stands frame first bs := by
  subst hlen
  simp [holds, Stands]

theorem stands_append :
    Stands frame first (xs ++ ys) ↔
      Stands frame first xs ∧ Stands frame (first + xs.length) ys := by
  constructor
  · intro h
    constructor
    · intro i hi
      have hthen := h i (by rw [List.length_append]; omega)
      rwa [List.getD_append _ _ _ _ hi] at hthen
    · intro i hi
      have hthen := h (xs.length + i) (by rw [List.length_append]; omega)
      rwa [List.getD_append_right _ _ _ _ (by omega), Nat.add_sub_cancel_left,
        ← Nat.add_assoc] at hthen
  · rintro ⟨hx, hy⟩ i hi
    rw [List.length_append] at hi
    by_cases hlt : i < xs.length
    · rw [List.getD_append _ _ _ _ hlt]
      exact hx i hlt
    · rw [List.getD_append_right _ _ _ _ (by omega), ← hy (i - xs.length) (by omega)]
      congr 1
      omega

theorem stands_singleton : Stands frame first [b] ↔ frame.getD first 0#8 = b := by
  simp [Stands]

theorem stands_whole (hlen : frame.length = bs.length) : Stands frame 0 bs ↔ frame = bs := by
  constructor
  · intro h
    apply List.ext_getElem hlen
    intro i hi hi'
    have hthen := h i hi'
    rwa [Nat.zero_add, List.getD_eq_getElem _ _ hi, List.getD_eq_getElem _ _ hi'] at hthen
  · rintro rfl i -
    rw [Nat.zero_add]

theorem stands_self (front body : List Byte) : Stands (front ++ body) front.length body := by
  have hall : Stands (front ++ body) 0 (front ++ body) := (stands_whole rfl).mpr rfl
  rw [stands_append, Nat.zero_add] at hall
  exact hall.2

end Stands

theorem crc32Ethernet_eq {frame body : List Byte} {first : ℕ} (h : Stands frame first body) :
    crc32Ethernet frame first body.length = ~~~ crc32 body := by
  rw [crc32Ethernet]
  congr 1
  induction body using List.reverseRecOn with
  | nil => rfl
  | append_singleton body b ih =>
    obtain ⟨hbody, hlast⟩ := stands_append.mp h
    rw [List.length_append, List.length_singleton, List.range_succ, List.foldl_append,
      List.foldl_cons, List.foldl_nil, stands_singleton.mp hlast, crc32Byte_eq, crc32_snoc,
      ih hbody]

theorem le32_eq (a b c d : Byte) :
    a.setWidth 32 ||| b.setWidth 32 <<< 8 ||| c.setWidth 32 <<< 16 ||| d.setWidth 32 <<< 24 =
      ofBytes 32 [d, c, b, a] := by
  have hz : ((0 : BitVec 32) <<< 8 ||| d.setWidth 32) = d.setWidth 32 := by simp
  simp only [ofBytes, List.foldl_cons, List.foldl_nil, hz, BitVec.shiftLeft_or_distrib,
    ← BitVec.shiftLeft_add, Nat.reduceAdd]
  generalize a.setWidth 32 = p, b.setWidth 32 <<< 8 = q, c.setWidth 32 <<< 16 = r,
    d.setWidth 32 <<< 24 = s
  rw [BitVec.or_comm (p ||| q ||| r) s, BitVec.or_comm (p ||| q) r, BitVec.or_comm p q,
    ← BitVec.or_assoc, ← BitVec.or_assoc]

theorem readLe32_eq_iff {frame : List Byte} {index : ℕ} {x : BitVec 32} :
    readLe32 frame index = x ↔ Stands frame index ((List.range 4).map fun i => lane x i) := by
  rw [readLe32, le32_eq, ofBytes_eq_iff (w := 32) _ _ rfl]
  simp only [Stands, List.length_cons, List.length_nil, toBytes, List.range_succ, List.range_zero,
    List.nil_append, List.cons_append, List.map_cons, List.map_nil, List.cons.injEq, and_true]
  constructor
  · rintro ⟨h3, h2, h1, h0⟩ i hi
    obtain rfl | rfl | rfl | rfl : i = 0 ∨ i = 1 ∨ i = 2 ∨ i = 3 := by omega
    · exact h0
    · exact h1
    · exact h2
    · exact h3
  · intro h
    exact ⟨h 3 (by omega), h 2 (by omega), h 1 (by omega), h 0 (by omega)⟩

theorem be16_eq (a b : Byte) : a.setWidth 16 <<< 8 ||| b.setWidth 16 = ofBytes 16 [a, b] := by
  have hz : ((0 : BitVec 16) <<< 8 ||| a.setWidth 16) = a.setWidth 16 := by simp
  simp only [ofBytes, List.foldl_cons, List.foldl_nil, hz]

theorem length_preamble : preamble.length = 8 := rfl

theorem wireBytes_eq (body : List Byte) : wireBytes body = preamble ++ body ++ fcsBytes body := rfl

theorem assertFcs_iff {frame body : List Byte} {first : ℕ} (h : Stands frame first body) :
    assertFcs frame first body.length = true ↔
      Stands frame (first + body.length) (fcsBytes body) := by
  rw [assertFcs, crc32Ethernet_eq h, beq_iff_eq, readLe32_eq_iff]
  rfl

/-- A frame of the right length, with the preamble, the body and its check sequence, is that of
the framer. -/
theorem frame_eq_iff {frame body : List Byte} (hlen : frame.length = 8 + body.length + 4) :
    Stands frame 0 preamble ∧ Stands frame 8 body ∧ assertFcs frame 8 body.length = true ↔
      frame = wireBytes body := by
  have hwhole : frame.length = (preamble ++ body ++ fcsBytes body).length := by
    rw [List.length_append, List.length_append, length_preamble, length_fcsBytes, hlen]
  rw [wireBytes_eq, ← stands_whole hwhole, stands_append, stands_append, and_assoc]
  apply and_congr_right
  intro _
  apply and_congr_right
  intro hbody
  rw [assertFcs_iff hbody, List.length_append, length_preamble, Nat.zero_add]

/-- `append_eth_fcs` skips the preamble. -/
theorem appendEthFcs_preamble (body : List Byte) :
    appendEthFcs (preamble ++ body) = wireBytes body := by
  have heth : (if 8 ≤ (preamble ++ body).length ∧ (preamble ++ body).getD 0 0#8 = 0x55#8 ∧
      (preamble ++ body).getD 7 0#8 = 0xd5#8 then 8 else 0) = preamble.length :=
    if_pos ⟨by rw [List.length_append, length_preamble]; omega, rfl, rfl⟩
  have hlen : (preamble ++ body).length - preamble.length = body.length := by
    rw [List.length_append, Nat.add_sub_cancel_left]
  rw [appendEthFcs, heth, hlen, crc32Ethernet_eq (stands_self preamble body), wireBytes_eq]
  rfl

theorem preamble_iff {frame : List Byte} :
    holds frame 0 7 preamble = true ∧ frame.getD 7 0#8 = 0xd5#8 ↔ Stands frame 0 preamble := by
  have hsplit : preamble = preamble.take 7 ++ [0xd5#8] := rfl
  have htake : holds frame 0 7 preamble = holds frame 0 7 (preamble.take 7) := rfl
  rw [htake, holds_iff (by rfl), hsplit, stands_append, stands_singleton]
  rfl

def arpReplyBody (targetMac targetIp : List Byte) : List Byte :=
  targetMac ++ fpgaMacBytes ++ [0x08#8, 0x06#8] ++
    ([0x00#8, 0x01#8, 0x08#8, 0x00#8, 0x06#8, 0x04#8, 0x00#8, 0x02#8] ++ fpgaMacBytes ++
      fpgaIpBytes ++ targetMac ++ targetIp) ++ List.replicate 18 0#8

section ArpReply
variable {targetMac targetIp frame : List Byte}

theorem length_arpReplyBody (hmac : targetMac.length = 6) (hip : targetIp.length = 4) :
    (arpReplyBody targetMac targetIp).length = 60 := by
  simp [arpReplyBody, fpgaMacBytes, fpgaIpBytes, hmac, hip]

theorem wireFrame_arpReply (hmac : targetMac.length = 6) (hip : targetIp.length = 4) :
    (arpReplyRequest (ofBytes 48 targetMac) (ofBytes 32 targetIp)).wireFrame =
      wireBytes (arpReplyBody targetMac targetIp) := by
  have hfpga : toBytes 6 fpgaMac = fpgaMacBytes := rfl
  have htype : toBytes 2 arpEthertype = [0x08#8, 0x06#8] := rfl
  have hheader (mac : BitVec 48) (ip : BitVec 32) : (arpReplyRequest mac ip).header.toBytes =
      toBytes 6 mac ++ toBytes 6 fpgaMac ++ toBytes 2 arpEthertype := rfl
  have hpayload (mac : BitVec 48) (ip : BitVec 32) : (arpReplyRequest mac ip).payload =
      [0x00#8, 0x01#8, 0x08#8, 0x00#8, 0x06#8, 0x04#8, 0x00#8, 0x02#8] ++ fpgaMacBytes ++
        fpgaIpBytes ++ toBytes 6 mac ++ toBytes 4 ip := rfl
  have hmacs : toBytes 6 (ofBytes 48 targetMac) = targetMac :=
    hmac ▸ toBytes_ofBytes targetMac (by omega)
  have hips : toBytes 4 (ofBytes 32 targetIp) = targetIp :=
    hip ▸ toBytes_ofBytes targetIp (by omega)
  rw [ProtocolTxRequest.wireFrame, padBody, (wellFormed_arpReply _ _).length_frameBody,
    ProtocolTxRequest.frameBody, hheader, hpayload, hfpga, htype, hmacs, hips]
  rfl

theorem stands_arpReplyBody (hmac : targetMac.length = 6) (hip : targetIp.length = 4) :
    Stands frame 8 (arpReplyBody targetMac targetIp) ↔
      Stands frame 8 targetMac ∧ Stands frame 14 fpgaMacBytes ∧
        Stands frame 20 [0x08#8, 0x06#8] ∧
        Stands frame 22 [0x00#8, 0x01#8, 0x08#8, 0x00#8, 0x06#8, 0x04#8, 0x00#8, 0x02#8] ∧
        Stands frame 30 fpgaMacBytes ∧ Stands frame 36 fpgaIpBytes ∧ Stands frame 40 targetMac ∧
        Stands frame 46 targetIp ∧ Stands frame 50 (List.replicate 18 0#8) := by
  have hsrc : fpgaMacBytes.length = 6 := rfl
  have hsip : fpgaIpBytes.length = 4 := rfl
  simp only [arpReplyBody, stands_append, List.length_append, List.length_cons, List.length_nil,
    hmac, hip, hsrc, hsip, Nat.reduceAdd, and_assoc]

theorem stands_broadcast (hmac : targetMac.length = 6) (h : Stands frame 8 targetMac) :
    Stands frame 8 broadcastBytes ↔ targetMac = broadcastBytes := by
  rw [← stands_whole (hmac.trans (by rfl))]
  constructor
  · intro hall i hi
    have hthere := h i (hmac ▸ hi)
    rw [Nat.zero_add, ← hthere]
    exact hall i hi
  · intro hall i hi
    have hthere := h i (hmac ▸ hi)
    have hsame := hall i hi
    rw [Nat.zero_add] at hsame
    exact hthere.trans hsame

/-- `assert_valid_arp_reply` accepts one frame. -/
theorem assertValidArpReply_iff (frame : List Byte) (hmac : targetMac.length = 6)
    (hip : targetIp.length = 4) (broadcastEthernet : Bool) :
    assertValidArpReply frame targetMac targetIp broadcastEthernet = true ↔
      frame = wireBytes (arpReplyBody targetMac targetIp) ∧
        (broadcastEthernet = true → targetMac = broadcastBytes) := by
  have hlen := length_arpReplyBody hmac hip
  have hsrc : fpgaMacBytes.length = 6 := rfl
  have hsip : fpgaIpBytes.length = 4 := rfl
  have hall : broadcastBytes.length = 6 := rfl
  by_cases hframe : frame.length = 72
  · rw [← frame_eq_iff (by rw [hlen, hframe]), hlen, stands_arpReplyBody hmac hip, ← preamble_iff]
    simp only [assertValidArpReply, hframe, Bool.and_eq_true, beq_self_eq_true, beq_iff_eq,
      true_and, Bool.or_eq_true, Bool.not_eq_true', Nat.reduceAdd, holds_iff hmac, holds_iff hip,
      holds_iff hsrc, holds_iff hsip, holds_iff hall,
      holds_iff (show [0x08#8, 0x06#8].length = 2 from rfl),
      holds_iff (List.length_replicate (n := 18) (a := 0#8)),
      holds_iff (show [0x00#8, 0x01#8, 0x08#8, 0x00#8, 0x06#8, 0x04#8, 0x00#8, 0x02#8].length = 8
        from rfl)]
    have hbroadcast (h : Stands frame 8 targetMac) := stands_broadcast hmac h
    cases broadcastEthernet <;> tauto
  · constructor
    · intro h
      simp only [assertValidArpReply, Bool.and_eq_true, beq_iff_eq] at h
      tauto
    · rintro ⟨rfl, -⟩
      rw [length_wireBytes, hlen] at hframe
      exact absurd rfl hframe

end ArpReply

section TxFrame
variable {frame dst payload : List Byte}

def txBody (dst payload : List Byte) : List Byte :=
  dst ++ fpgaMacBytes ++ [0x08#8, 0x00#8] ++ payload ++ List.replicate (46 - payload.length) 0#8

theorem length_txBody (payload : List Byte) (hdst : dst.length = 6) :
    (txBody dst payload).length = 14 + if payload.length < 46 then 46 else payload.length := by
  simp only [txBody, fpgaMacBytes, List.length_append, List.length_cons, List.length_nil,
    List.length_replicate, hdst]
  split_ifs <;> omega

theorem stands_txBody (hdst : dst.length = 6) :
    Stands frame 8 (txBody dst payload) ↔
      Stands frame 8 dst ∧ Stands frame 14 fpgaMacBytes ∧ Stands frame 20 [0x08#8, 0x00#8] ∧
        Stands frame 22 payload ∧
        Stands frame (22 + payload.length) (List.replicate (46 - payload.length) 0#8) := by
  have hsrc : fpgaMacBytes.length = 6 := rfl
  simp only [txBody, stands_append, List.length_append, List.length_cons, List.length_nil, hdst,
    hsrc, Nat.reduceAdd, ← Nat.add_assoc, and_assoc]

/-- `assert_valid_tx_frame` accepts one frame. -/
theorem assertValidTxFrame_iff (frame payload : List Byte) (hdst : dst.length = 6) :
    assertValidTxFrame frame dst payload = true ↔ frame = wireBytes (txBody dst payload) := by
  have hlen := length_txBody payload hdst
  have hsrc : fpgaMacBytes.length = 6 := rfl
  by_cases hframe : frame.length = 8 + (txBody dst payload).length + 4
  · rw [← frame_eq_iff hframe, stands_txBody hdst, ← preamble_iff, hlen]
    rw [hlen] at hframe
    simp only [assertValidTxFrame, hframe, Bool.and_eq_true, beq_self_eq_true, beq_iff_eq,
      true_and, Nat.reduceAdd, holds_iff hdst, holds_iff hsrc,
      holds_iff (show [0x08#8, 0x00#8].length = 2 from rfl), holds_iff (Eq.refl payload.length),
      holds_iff (List.length_replicate (n := 46 - payload.length) (a := 0#8))]
    tauto
  · constructor
    · intro h
      simp only [assertValidTxFrame, Bool.and_eq_true, beq_iff_eq, ← hlen] at h
      tauto
    · rintro rfl
      rw [length_wireBytes] at hframe
      omega

end TxFrame

section Reference
variable {r : ProtocolTxRequest}

theorem frameBodyLoop_get (h : r.WellFormed) (n k : ℕ) (hk : k + n = r.len.toNat)
    (frameBody : Buffer txFrameBodyBytesInt)
    (hbody : ∀ j < k, frameBody.get j = frameBodyByte r (BitVec.ofNat 11 j)) :
    ∀ j < r.len.toNat, (frameBodyLoop r n (BitVec.ofNat 11 k) frameBody).get j =
      frameBodyByte r (BitVec.ofNat 11 j) := by
  have hmax := h.len_bounds.2
  induction n generalizing k frameBody with
  | zero =>
    intro j hj
    exact hbody j (by omega)
  | succ n ih =>
    have hindex : (BitVec.ofNat 11 k).toNat = k := by
      rw [BitVec.toNat_ofNat, Nat.mod_eq_of_lt (by omega)]
    have hnext : ∀ j < k + 1, (frameBody.set (BitVec.ofNat 11 k).toNat
        (frameBodyByte r (BitVec.ofNat 11 k))).get j = frameBodyByte r (BitVec.ofNat 11 j) := by
      intro j hj
      rw [hindex, Buffer.get_set]
      split_ifs with hsame
      · rw [hsame.1]
      · apply hbody
        have hfits : k < txFrameBodyBytesInt := by
          simp only [txFrameBodyBytesInt, ethHeaderBytesInt, maxEthPayloadBytesInt]
          omega
        omega
    have hdone : (prepareTxSlotFrameBodyStep frameBody r (BitVec.ofNat 11 k)).2 =
        decide (k + 1 = r.len.toNat) := by
      rw [prepareTxSlotFrameBodyStep_done (by omega), hindex]
    intro j hj
    rw [frameBodyLoop]
    change Buffer.get (if (prepareTxSlotFrameBodyStep frameBody r (BitVec.ofNat 11 k)).2 = true then
      frameBody.set _ _ else frameBodyLoop r n _ (frameBody.set _ _)) j = _
    by_cases hlast : k + 1 = r.len.toNat
    · rw [hdone, decide_eq_true hlast, if_pos rfl]
      exact hnext j (by omega)
    · rw [hdone, decide_eq_false hlast, if_neg Bool.false_ne_true,
        show BitVec.ofNat 11 k + 1 = BitVec.ofNat 11 (k + 1) from (BitVec.ofNat_add ..).symm]
      exact ih (k + 1) (by omega) _ hnext j hj

/-- The frame the test bench builds for a request is the one the endpoint sends. -/
theorem txFrameFromRequest_eq (h : r.WellFormed) : txFrameFromRequest r = r.wireFrame := by
  have hloop := frameBodyLoop_get h r.len.toNat 0 (Nat.zero_add _) Buffer.zero (by simp)
  have hbody : (List.range r.len.toNat).map
      (frameBodyLoop r r.len.toNat 0 Buffer.zero).get = r.frameBody := by
    rw [← map_frameBodyByte h]
    apply List.map_congr_left
    intro j hj
    exact hloop j (List.mem_range.mp hj)
  rw [txFrameFromRequest, hbody, List.append_assoc, appendEthFcs_preamble,
    ProtocolTxRequest.wireFrame, padBody, h.length_frameBody]
  rfl

end Reference

end ArtyEthernet.Testbench
