import ArtyEthernet.Proofs.HandlerMoves
import ArtyEthernet.Proofs.ReceiverRuns

/-!
# Over-long frames

A burst with more than 1500 payload bytes is to be published as one truncated packet and counted
as dropped. The data bytes are counted in sixteen bits, so what becomes of a burst of 65536 data
bytes or more depends on the count after its last wrap.
-/

namespace ArtyEthernet
open Words

def errorFreeBurst (burst : List Nibble) (rxd : Nibble) : List RxPins :=
  burst.map (fun d => ⟨true, d, false⟩) ++ [⟨false, rxd, false⟩]

def nibbleData (burst : List Nibble) : List Byte := dataBytes (pairNibbles burst)

/-- Whenever the handler finds the packet in the read slot, it counts it once as received and once
as dropped, and consumes it. -/
def CountedOnce (packet : RxPacketMeta) : Prop :=
  ∀ (st : Protocol) (rxQueue : RxPacketQueue) (txQueue : TxPacketQueue),
    st.preparingPayload = false → st.protocolState = .protoIdle →
    packetQueueReadSlotValid rxQueue = true →
    rxQueue.slotMeta (packetQueueReadSlot rxQueue) = packet →
    (protocolQueueStep st rxQueue txQueue).st.rxPacketCount = st.rxPacketCount + 1 ∧
      (protocolQueueStep st rxQueue txQueue).st.rxProtocolDropCount =
        st.rxProtocolDropCount + 1 ∧
      (protocolQueueStep st rxQueue txQueue).rxQueue = packetQueueConsumeReadSlot rxQueue

/-- The burst is published as exactly one packet, truncated, with 1500 payload bytes and the header
in its first fourteen data bytes. It is stored in the write slot and counted once. -/
def OverlongAccounted (st : RxCapture × RxPacketQueue) (burst : List Nibble) (rxd : Nibble) :
    Prop :=
  ∃ slot, receiverPublishes st (errorFreeBurst burst rxd) = [slot] ∧
    (Synchronous.run receiverStep st (errorFreeBurst burst rxd)).2.valid st.2.writeIdx = true ∧
    (Synchronous.run receiverStep st (errorFreeBurst burst rxd)).2.cell st.2.writeIdx = slot ∧
    slot.1.truncated = true ∧ slot.1.payloadLen = 1500 ∧
    slot.1.header = .ofBytes ((nibbleData burst).take 14) ∧ CountedOnce slot.1

theorem countedOnce_truncated {packet : RxPacketMeta} (h : packet.truncated = true) :
    CountedOnce packet := by
  intro st rxQueue txQueue hprep hstate hvalid hmeta
  have htrunc : (rxQueue.slotMeta rxQueue.readIdx).truncated = true := by
    rw [show rxQueue.slotMeta rxQueue.readIdx = packet from hmeta, h]
  have hmove := protocolSelectStep_move st rxQueue txQueue
  simp only [protocolQueueStep]
  generalize protocolSelectStep st rxQueue txQueue = stage at hmove ⊢
  cases hmove with
  | drop =>
    rw [protocolPrepareStep_off _ _ (by exact hprep)]
    exact ⟨rfl, rfl, rfl⟩
  | _ => simp_all

/-- The bytes last taken for a header, when the count has passed them. -/
theorem headerBytes_wrapped {data : List Byte} (h : 18 ≤ data.length % 65536) :
    headerBytes data = (data.drop (65536 * (data.length / 65536))).take 14 := by
  apply List.ext_getElem
  · simp [headerBytes]
    omega
  · intro k h1 h2
    have hk : k < 14 := by simpa [headerBytes] using h1
    have hdiv : (data.length - 1 - k) / 65536 = data.length / 65536 := by omega
    have hlt : k + 65536 * (data.length / 65536) < data.length := by omega
    simp only [headerBytes, List.getElem_map, List.getElem_range, headerByte, hdiv,
      List.getElem_take, List.getElem_drop]
    rw [List.getD_eq_getElem _ _ hlt]
    congr 1
    omega

theorem EthHeader.ofBytes_inj {xs ys : List Byte} (hx : xs.length = 14) (hy : ys.length = 14) :
    EthHeader.ofBytes xs = EthHeader.ofBytes ys ↔ xs = ys := by
  constructor
  · intro h
    apply List.ext_getElem (hx.trans hy.symm)
    intro k h1 h2
    rw [← EthHeader.byteAt_ofBytes (by omega) (by omega),
      ← EthHeader.byteAt_ofBytes (show 14 ≤ ys.length by omega) (by omega), h]
  · rintro rfl
    rfl

theorem receiver_stores {st : RxCapture × RxPacketQueue} {p : RxPins} {slot : RxSlot}
    (hfree : packetQueueWriteSlotAvailable st.2 = true)
    (hslot : rxPublishedSlot st.1 p st.2 = some slot) :
    (receiverStep st p).2.valid st.2.writeIdx = true ∧
      (receiverStep st p).2.cell st.2.writeIdx = slot := by
  have spec := rxSampleStep_spec st.1 p st.2
  have hw : st.2.valid st.2.writeIdx = false := by
    simpa [packetQueueWriteSlotAvailable] using hfree
  obtain ⟨rxMeta, hpub, hcell⟩ := Option.map_eq_some_iff.mp hslot
  rw [spec.writeIdx] at hcell
  simp [receiverStep, ethernetRxQueueStep, hpub, packetQueuePublishWriteSlot, spec.valid,
    spec.writeIdx, hw, PacketSlotQueue.cell, ← hcell]

section Burst
variable {st : RxCapture × RxPacketQueue} {burst : List Nibble} {rxd : Nibble}

theorem errorFreeBurst_published (hidle : st.1.mii.rxInFrame = false)
    (hfree : packetQueueWriteSlotAvailable st.2 = true) (hne : burst ≠ []) :
    ∃ slot : Option RxSlot, receiverPublishes st (errorFreeBurst burst rxd) = slot.toList ∧
      slot.map slotPacket =
        (if 18 ≤ (nibbleData burst).length % 65536 then some (capturedPacket (nibbleData burst))
        else none) ∧
      ∀ s ∈ slot,
        (Synchronous.run receiverStep st (errorFreeBurst burst rxd)).2.valid st.2.writeIdx =
            true ∧
          (Synchronous.run receiverStep st (errorFreeBurst burst rxd)).2.cell st.2.writeIdx =
            s := by
  let on : List RxPins := burst.map fun d => ⟨true, d, false⟩
  let stop : RxPins := ⟨false, rxd, false⟩
  have hon : ∀ p ∈ on, p.ethRxDv = true := by
    intro p hp
    obtain ⟨d, -, rfl⟩ := List.mem_map.mp hp
    rfl
  obtain ⟨hnone, hat, hwrite⟩ := (receiving_idle hidle hfree).run_on on hon
  obtain ⟨hslot, -⟩ := hat.step_end (p := stop) (by simpa [on] using hne) rfl
  have hdata : burstData ⟨on, stop⟩ = nibbleData burst := by
    simp [burstData, pinBytes, nibbleData, on, Function.comp_def]
  have hclean : burstClean ⟨on, stop⟩ = true := by simp [burstClean, on, stop]
  rw [List.nil_append, burstPacket, hdata] at hslot
  refine ⟨rxPublishedSlot (Synchronous.run receiverStep st on).1 stop
    (Synchronous.run receiverStep st on).2, ?_, ?_, fun s hs => ?_⟩
  · rw [errorFreeBurst, receiverPublishes_append, hnone, receiverPublishes_cons, List.nil_append]
    exact List.append_nil _
  · simpa [hclean] using hslot
  · have hstored := receiver_stores hat.free hs
    rw [hwrite] at hstored
    rw [errorFreeBurst, Synchronous.run_snoc]
    exact hstored

/-- An over-long burst is accounted as it should be exactly when the count after its last wrap is
that of a valid frame and the bytes then taken for a header repeat the first fourteen. -/
theorem overlongAccounted_iff (hidle : st.1.mii.rxInFrame = false)
    (hfree : packetQueueWriteSlotAvailable st.2 = true)
    (hlong : 1500 < (nibbleData burst).length - 18) :
    OverlongAccounted st burst rxd ↔ 18 ≤ (nibbleData burst).length % 65536 ∧
      ((nibbleData burst).drop (65536 * ((nibbleData burst).length / 65536))).take 14 =
        (nibbleData burst).take 14 := by
  have hne : burst ≠ [] := by
    rintro rfl
    simp [nibbleData, dataBytes] at hlong
  obtain ⟨slot, hpub, hpacket, hstored⟩ :=
    @errorFreeBurst_published _ burst rxd hidle hfree hne
  by_cases hmod : 18 ≤ (nibbleData burst).length % 65536
  · rw [if_pos hmod] at hpacket
    obtain ⟨s, rfl, hs⟩ := Option.map_eq_some_iff.mp hpacket
    obtain ⟨hvalid, hcell⟩ := hstored s rfl
    have hheader : s.1.header = .ofBytes (headerBytes (nibbleData burst)) :=
      congrArg Packet.header hs
    have hlen : s.1.payloadLen = 1500 := by
      have hpay := congrArg (fun q => q.payload.length) hs
      simp only [length_slotPacket_payload, capturedPacket, List.length_take,
        List.length_drop] at hpay
      apply BitVec.eq_of_toNat_eq
      rw [hpay]
      simp
      omega
    have htrunc : s.1.truncated = true := by
      have hflag : s.1.truncated = decide (1500 < (nibbleData burst).length - 18) :=
        congrArg Packet.truncated hs
      rw [hflag, decide_eq_true hlong]
    have hinj := EthHeader.ofBytes_inj
      (show (headerBytes (nibbleData burst)).length = 14 by simp [headerBytes])
      (show ((nibbleData burst).take 14).length = 14 by simp; omega)
    rw [← headerBytes_wrapped hmod, ← hinj, ← hheader]
    constructor
    · rintro ⟨s', hs', -, -, -, -, hsame, -⟩
      rw [hpub] at hs'
      rw [List.singleton_inj.mp hs']
      exact ⟨hmod, hsame⟩
    · rintro ⟨-, hsame⟩
      exact ⟨s, hpub, hvalid, hcell, htrunc, hlen, hsame, countedOnce_truncated htrunc⟩
  · rw [if_neg hmod, Option.map_eq_none_iff] at hpacket
    subst hpacket
    refine iff_of_false ?_ fun h => hmod h.1
    rintro ⟨s, hs, -⟩
    rw [hpub] at hs
    exact absurd hs (List.cons_ne_nil s []).symm

end Burst

/-- For every idle receiver with a free write slot and every over-long burst. -/
theorem overlong_frame_accounted (st : RxCapture × RxPacketQueue) (burst : List Nibble)
    (rxd : Nibble) (hidle : st.1.mii.rxInFrame = false)
    (hfree : packetQueueWriteSlotAvailable st.2 = true)
    (hlong : 1500 < (nibbleData burst).length - 18) :
    OverlongAccounted st burst rxd ↔ 18 ≤ (nibbleData burst).length % 65536 ∧
      ((nibbleData burst).drop (65536 * ((nibbleData burst).length / 65536))).take 14 =
        (nibbleData burst).take 14 :=
  overlongAccounted_iff hidle hfree hlong

theorem nibbleData_zeros (n : ℕ) :
    nibbleData (toNibbles (List.replicate n 0)) = List.replicate n 0 := by
  rw [nibbleData, pairNibbles_toNibbles]
  cases n with
  | zero => rfl
  | succ n => simp [dataBytes, List.replicate_succ]

theorem overlong_frame_accounted_zeros :
    OverlongAccounted (.init, .zero _ _ ⟨⟨0, 0, 0⟩, 0, false⟩)
        (toNibbles (List.replicate 1519 0)) 0 ↔
      18 ≤ (nibbleData (toNibbles (List.replicate 1519 0))).length % 65536 ∧
        ((nibbleData (toNibbles (List.replicate 1519 0))).drop
          (65536 * ((nibbleData (toNibbles (List.replicate 1519 0))).length / 65536))).take 14 =
          (nibbleData (toNibbles (List.replicate 1519 0))).take 14 :=
  overlong_frame_accounted _ _ _ rfl rfl (by
    rw [nibbleData_zeros, List.length_replicate]
    omega)

/-- A burst of 65536 zero bytes leaves no trace: its data bytes are counted as none. -/
theorem overlong_frame_unnoticed :
    ¬ OverlongAccounted (.init, .zero _ _ ⟨⟨0, 0, 0⟩, 0, false⟩)
      (toNibbles (List.replicate 65536 0)) 0 := by
  have hlen : (nibbleData (toNibbles (List.replicate 65536 0))).length = 65536 := by
    rw [nibbleData_zeros, List.length_replicate]
  rw [overlongAccounted_iff rfl rfl (by rw [hlen]; omega), hlen]
  rintro ⟨h18, -⟩
  omega

end ArtyEthernet
