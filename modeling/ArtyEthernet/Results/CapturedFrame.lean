import ArtyEthernet.Library.Trace
import ArtyEthernet.Proofs.FrameReceiver

/-!
# What a burst is captured as

The assembler and the parser, from any state between bursts, report a frame at the end of a burst
that depends on the nibbles and error flags of this burst alone.
-/

namespace ArtyEthernet
open Words

def burstPins (burst : List (Nibble × Bool)) : List RxPins :=
  burst.map fun d => ⟨true, d.1, d.2⟩

def receiverAfter (r : FrameReceiver) (burst : List (Nibble × Bool)) : FrameReceiver :=
  Synchronous.run (fun r pins => (frameReceiverStep r pins).1) r (burstPins burst)

def framesDuring (r : FrameReceiver) (burst : List (Nibble × Bool)) : List EthernetFrameMeta :=
  Synchronous.trace (fun r pins => (frameReceiverStep r pins).1)
    (fun r pins => (frameReceiverStep r pins).2) r (burstPins burst)

/-- The data bytes of a burst: whole bytes, low nibble first, without an optional preamble. -/
def burstBytes (burst : List (Nibble × Bool)) : List Byte :=
  dataBytes (pairNibbles (burst.map Prod.fst))

/-- A frame as it must be captured from the data bytes `data` into the buffer `before`. -/
structure CapturedAs (data : List Byte) (before : Buffer maxEthPayloadBytesInt)
    (frame : EthernetFrameMeta) (after : Buffer maxEthPayloadBytesInt) : Prop where
  dstMac : frame.dstMac = Words.ofBytes 48 (data.take 6)
  srcMac : frame.srcMac = Words.ofBytes 48 ((data.drop 6).take 6)
  ethertype : frame.ethertype = Words.ofBytes 16 ((data.drop 12).take 2)
  payloadLen : frame.payloadLen.toNat = min (data.length - 18) 1500
  truncated : frame.truncated = true ↔ 1500 < data.length - 18
  payload : ∀ j < frame.payloadLen.toNat, data[14 + j]? = some (after.get j)
  rest : ∀ j, frame.payloadLen.toNat ≤ j → after.get j = before.get j

theorem pinBytes_burstPins (burst : List (Nibble × Bool)) :
    pinBytes (burstPins burst) = pairNibbles (burst.map Prod.fst) := by
  simp [pinBytes, burstPins, Function.comp_def]

theorem any_burstPins (burst : List (Nibble × Bool)) :
    (burstPins burst).any RxPins.ethRxerr = burst.any Prod.snd := by
  simp [burstPins, Function.comp_def]

theorem receiverAfter_snoc (r : FrameReceiver) (burst : List (Nibble × Bool)) (d : Nibble × Bool) :
    receiverAfter r (burst ++ [d]) =
      (frameReceiverStep (receiverAfter r burst) ⟨true, d.1, d.2⟩).1 := by
  rw [receiverAfter, burstPins, List.map_append]
  exact Synchronous.run_snoc _ _ _ _

theorem framesDuring_snoc (r : FrameReceiver) (burst : List (Nibble × Bool)) (d : Nibble × Bool) :
    framesDuring r (burst ++ [d]) = framesDuring r burst ++
      [(frameReceiverStep (receiverAfter r burst) ⟨true, d.1, d.2⟩).2] := by
  rw [framesDuring, burstPins, List.map_append]
  exact Synchronous.trace_snoc _ _ _ _ _

theorem receiverAt_burst {r : FrameReceiver} (hidle : r.mii.rxInFrame = false)
    (burst : List (Nibble × Bool)) :
    ReceiverAt (burstPins burst) r.payloadBuf (receiverAfter r burst) ∧
      ∀ frame ∈ framesDuring r burst, frame = .blank := by
  induction burst using List.reverseRecOn with
  | nil => exact ⟨receiverAt_idle hidle, by simp [framesDuring, burstPins]⟩
  | append_singleton burst d ih =>
    obtain ⟨hat, hblank⟩ := ih
    obtain ⟨hnext, hframe⟩ := hat.step_on
      (show (⟨true, d.1, d.2⟩ : RxPins).ethRxDv = true from rfl)
    rw [receiverAfter_snoc, framesDuring_snoc, hframe]
    refine ⟨?_, ?_⟩
    · have hpins : burstPins (burst ++ [d]) = burstPins burst ++ [⟨true, d.1, d.2⟩] := by
        simp [burstPins]
      rw [hpins]
      exact hnext
    · intro frame hmem
      rcases List.mem_append.mp hmem with hold | hnew
      · exact hblank frame hold
      · exact List.mem_singleton.mp hnew

theorem ParserAt.capturedAs {bs : List Byte} {err : Bool} {kept buf : Buffer maxEthPayloadBytesInt}
    {st : RxParser} (h : ParserAt bs err kept st buf) (hmin : 18 ≤ (dataBytes bs).length)
    (hmax : (dataBytes bs).length < 65536) : CapturedAs (dataBytes bs) kept st.frameMeta buf := by
  have hheader : st.rxHeader = .ofBytes ((dataBytes bs).take 14) := by
    rw [h.rxHeader_eq, headerBytes_eq_take (by omega) hmax]
  have hcount : st.frameMeta.payloadLen.toNat = min 1500 ((dataBytes bs).length - 18) :=
    h.data.payloadCount
  constructor
  case dstMac => simp [RxParser.frameMeta, hheader, EthHeader.ofBytes, List.take_take]
  case srcMac =>
    simp [RxParser.frameMeta, hheader, EthHeader.ofBytes, List.drop_take, List.take_take]
  case ethertype =>
    simp [RxParser.frameMeta, hheader, EthHeader.ofBytes, List.drop_take, List.take_take]
  case payloadLen => rw [hcount, Nat.min_comm]
  case truncated => simp [RxParser.frameMeta, h.data.truncated]
  case payload =>
    intro j hj
    rw [hcount] at hj
    rw [h.data.buffer j, if_pos hj, List.getD_eq_getElem _ _ (by omega)]
    exact List.getElem?_eq_getElem _
  case rest =>
    intro j hj
    rw [hcount] at hj
    rw [h.data.buffer j, if_neg (by omega)]

/-- What the receiver reports of a burst and of the first idle cycle after it. -/
structure CaptureExact (r : FrameReceiver) (burst : List (Nibble × Bool)) (rxd : Nibble)
    (rxerr : Bool) : Prop where
  silent : ∀ frame ∈ framesDuring r burst, frame.valid = false
  valid : (frameReceiverStep (receiverAfter r burst) ⟨false, rxd, rxerr⟩).2.valid = true ↔
    18 ≤ (burstBytes burst).length ∧ (∀ d ∈ burst, d.2 = false) ∧ rxerr = false
  captured : (frameReceiverStep (receiverAfter r burst) ⟨false, rxd, rxerr⟩).2.valid = true →
    CapturedAs (burstBytes burst) r.payloadBuf
      (frameReceiverStep (receiverAfter r burst) ⟨false, rxd, rxerr⟩).2
      (frameReceiverStep (receiverAfter r burst) ⟨false, rxd, rxerr⟩).1.payloadBuf

/-- For every state between bursts and every burst of fewer than 65536 data bytes. -/
theorem rx_capture_exact (r : FrameReceiver) (burst : List (Nibble × Bool)) (rxd : Nibble)
    (rxerr : Bool) (hidle : r.mii.rxInFrame = false)
    (hlen : (burstBytes burst).length < 65536) : CaptureExact r burst rxd rxerr := by
  obtain ⟨hat, hblank⟩ := receiverAt_burst hidle burst
  have hsilent : ∀ frame ∈ framesDuring r burst, frame.valid = false := by
    intro frame hframe
    rw [hblank frame hframe]
    rfl
  have hoff : (⟨false, rxd, rxerr⟩ : RxPins).ethRxDv = false := rfl
  by_cases hnil : burst = []
  · subst hnil
    have hframe := (hat.step_idle hoff).1
    refine ⟨hsilent, ?_, ?_⟩ <;>
      simp [hframe, EthernetFrameMeta.blank, burstBytes, dataBytes]
  · have hne : burstPins burst ≠ [] := by simpa [burstPins] using hnil
    have hdata : dataBytes (pinBytes (burstPins burst)) = burstBytes burst := by
      rw [pinBytes_burstPins, burstBytes]
    obtain ⟨hframe, hbuf, -⟩ := hat.step_end hne hoff
    have herr := (hat.parser hne).orError rxerr
    have hvalid := herr.frameMeta_valid
    have hcaptured := herr.capturedAs
    rw [any_burstPins, hdata, Nat.mod_eq_of_lt hlen] at hvalid
    rw [hdata] at hcaptured
    refine ⟨hsilent, ?_, fun hv => ?_⟩
    · rw [hframe, hvalid, decide_eq_true_iff]
      simp
    · rw [hframe, hvalid, decide_eq_true_iff] at hv
      rw [hframe, hbuf]
      exact hcaptured hv.1 hlen

theorem rx_capture_exact_framed :
    CaptureExact ⟨.init, .init, Buffer.zero⟩
      ((toNibbles (List.replicate 7 0x55 ++ [0xd5] ++ List.replicate 6 0xff ++
        [0x0a, 0x0b, 0x0c, 0x0d, 0x0e, 0x0f] ++ [0x08, 0x00] ++ [0x55, 0xd5, 0x01] ++
        [0x12, 0x34, 0x56, 0x78])).map fun d => (d, false)) 0 false :=
  rx_capture_exact _ _ _ _ rfl (by decide)

end ArtyEthernet
