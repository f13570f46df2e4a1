import ArtyEthernet.Proofs.Rings
import ArtyEthernet.Proofs.FrameReceiver

/-!
# The receive path in the middle of a burst

`CaptureAt cur` describes the receive path when `cur` is the burst being received (empty between
bursts). The end of a burst publishes exactly `burstPacket`, unless the burst found no free slot.
-/

namespace ArtyEthernet
open Words

/-- The buffer that receives the payload: the write slot, or the scratch buffer. -/
def captureBuffer (drop : Bool) (scratch : Buffer maxEthPayloadBytesInt)
    (queue : RxPacketQueue) : Buffer maxEthPayloadBytesInt :=
  if drop then scratch else queue.bytes queue.writeIdx

structure CaptureAt (cur : List RxPins) (capture : RxCapture) (queue : RxPacketQueue) : Prop where
  inFrame : capture.mii.rxInFrame = !cur.isEmpty
  haveLow : cur ≠ [] → capture.mii.rxHaveLow = decide (cur.length % 2 = 1)
  lowNibble : ∀ before p, cur = before ++ [p] → cur.length % 2 = 1 →
    capture.mii.rxLowNibble = p.ethRxd
  parser : cur ≠ [] → ∃ kept, ParserAt (pinBytes cur) (cur.any RxPins.ethRxerr) kept
    capture.parser (captureBuffer capture.rxDropCurrent capture.rxDropPayload queue)

/-- Between bursts only the frame flag matters. -/
theorem captureAt_idle {capture : RxCapture} (hidle : capture.mii.rxInFrame = false)
    (queue : RxPacketQueue) : CaptureAt [] capture queue where
  inFrame := hidle
  haveLow h := absurd rfl h
  lowNibble before p h := by simp at h
  parser h := absurd rfl h

section Sample
variable (capture : RxCapture) (pins : RxPins) (queue : RxPacketQueue)

/-- Whether the current burst is dropped, decided at its first cycle. -/
def rxDropNow : Bool :=
  if (miiRxByteAssemblerStep capture.mii pins.ethRxDv pins.ethRxd).2.frameStart then
    !packetQueueWriteSlotAvailable queue
  else capture.rxDropCurrent

def rxParseNow : RxParser × Buffer maxEthPayloadBytesInt × EthernetFrameMeta :=
  let event := (miiRxByteAssemblerStep capture.mii pins.ethRxDv pins.ethRxd).2
  ethernetRxParserStep capture.parser event.frameStart event.byteValid event.dataByte
    event.frameEnd pins.ethRxerr
    (captureBuffer (rxDropNow capture pins queue) capture.rxDropPayload queue)

/-- A sample changes the ring at most in its write slot and its drop counter. -/
structure SampleSpec (r : RxSample) : Prop where
  mii : r.mii = (miiRxByteAssemblerStep capture.mii pins.ethRxDv pins.ethRxd).1
  event : r.event = (miiRxByteAssemblerStep capture.mii pins.ethRxDv pins.ethRxd).2
  drop : r.rxDropCurrent = rxDropNow capture pins queue
  parser : r.parser = (rxParseNow capture pins queue).1
  buffer : captureBuffer r.rxDropCurrent r.rxDropPayload r.rxQueue =
    (rxParseNow capture pins queue).2.1
  frame : r.frame = (rxParseNow capture pins queue).2.2
  slotMeta : r.rxQueue.slotMeta = queue.slotMeta
  valid : r.rxQueue.valid = queue.valid
  readIdx : r.rxQueue.readIdx = queue.readIdx
  writeIdx : r.rxQueue.writeIdx = queue.writeIdx
  otherBytes : ∀ i, i ≠ queue.writeIdx ∨ r.rxDropCurrent = true →
    r.rxQueue.bytes i = queue.bytes i
  dropCount : r.rxQueue.dropCount =
    if r.event.frameStart && r.rxDropCurrent then queue.dropCount + 1 else queue.dropCount

theorem rxSampleStep_spec : SampleSpec capture pins queue (rxSampleStep capture pins queue) := by
  cases hstart : (miiRxByteAssemblerStep capture.mii pins.ethRxDv pins.ethRxd).2.frameStart with
  | false =>
    cases hdrop : capture.rxDropCurrent with
    | false =>
      constructor
      case otherBytes =>
        intro i hi
        simp only [rxSampleStep, hstart, hdrop] at hi ⊢
        have hne : i ≠ queue.writeIdx := by simpa using hi
        simp [PacketSlotQueue.setBytes, packetQueueWriteSlot, hne]
      all_goals simp [rxSampleStep, rxDropNow, rxParseNow, captureBuffer, hstart, hdrop,
        PacketSlotQueue.setBytes, packetQueueWriteSlot]
    | true =>
      constructor
      all_goals simp [rxSampleStep, rxDropNow, rxParseNow, captureBuffer, hstart, hdrop]
  | true =>
    cases hfull : packetQueueWriteSlotAvailable queue with
    | false =>
      constructor
      all_goals simp [rxSampleStep, rxDropNow, rxParseNow, captureBuffer, hstart, hfull,
        packetQueueDropWrite]
    | true =>
      constructor
      case otherBytes =>
        intro i hi
        simp only [rxSampleStep, hstart, hfull] at hi ⊢
        have hne : i ≠ queue.writeIdx := by simpa using hi
        simp [PacketSlotQueue.setBytes, packetQueueWriteSlot, hne]
      all_goals simp [rxSampleStep, rxDropNow, rxParseNow, captureBuffer, hstart, hfull,
        PacketSlotQueue.setBytes, packetQueueWriteSlot]

end Sample

variable {cur : List RxPins} {capture : RxCapture} {queue : RxPacketQueue} {pins : RxPins}

theorem CaptureAt.drop_next (h : CaptureAt cur capture queue) (pins : RxPins) (hne : cur ≠ []) :
    rxDropNow capture pins queue = capture.rxDropCurrent := by
  have hin : capture.mii.rxInFrame = true := by simp [h.inFrame, hne]
  cases hdv : pins.ethRxDv with
  | false => simp [rxDropNow, hdv, assembler_gap]
  | true =>
    cases hlow : capture.mii.rxHaveLow with
    | false => simp [rxDropNow, hdv, assembler_low _ hin hlow]
    | true => simp [rxDropNow, hdv, assembler_high _ hin hlow]

def captureReceiver (capture : RxCapture) (pins : RxPins) (queue : RxPacketQueue) :
    FrameReceiver :=
  ⟨capture.mii, capture.parser,
    captureBuffer (rxDropNow capture pins queue) capture.rxDropPayload queue⟩

theorem CaptureAt.receiver (h : CaptureAt cur capture queue) (pins : RxPins) :
    ∃ kept, ReceiverAt cur kept (captureReceiver capture pins queue) := by
  by_cases hcur : cur = []
  · subst hcur
    exact ⟨_, receiverAt_idle h.inFrame⟩
  · obtain ⟨kept, hp⟩ := h.parser hcur
    refine ⟨kept, h.inFrame, h.haveLow, h.lowNibble, fun hnil => absurd hnil hcur, fun _ => ?_⟩
    simp only [captureReceiver, h.drop_next pins hcur]
    exact hp

theorem CaptureAt.step_on (h : CaptureAt cur capture queue) (hdv : pins.ethRxDv = true) :
    (rxSampleStep capture pins queue).published = none ∧
      CaptureAt (cur ++ [pins]) (ethernetRxQueueStep capture pins queue).1
        (ethernetRxQueueStep capture pins queue).2 := by
  have spec := rxSampleStep_spec capture pins queue
  have hend : (rxSampleStep capture pins queue).event.frameEnd = false := by
    rw [spec.event, hdv, (assembler_on capture.mii pins.ethRxd).2.2]
  have hnone : (rxSampleStep capture pins queue).published = none := by
    simp [RxSample.published, hend]
  refine ⟨hnone, ?_⟩
  obtain ⟨kept, hr⟩ := h.receiver pins
  have hnext := (hr.step_on hdv).1
  simp only [ethernetRxQueueStep, hnone, hend]
  constructor
  case inFrame =>
    simp only [spec.mii]
    exact hnext.inFrame
  case haveLow =>
    simp only [spec.mii]
    exact hnext.haveLow
  case lowNibble =>
    simp only [spec.mii]
    exact hnext.lowNibble
  case parser =>
    intro hne
    have hbuf := spec.buffer
    simp only [Bool.false_eq_true, if_false]
    rw [spec.parser, hbuf]
    exact ⟨kept, hnext.parser hne⟩

theorem CaptureAt.step_idle (h : CaptureAt [] capture queue) (hdv : pins.ethRxDv = false) :
    (rxSampleStep capture pins queue).published = none ∧
      CaptureAt [] (ethernetRxQueueStep capture pins queue).1
        (ethernetRxQueueStep capture pins queue).2 := by
  have spec := rxSampleStep_spec capture pins queue
  have hin : capture.mii.rxInFrame = false := h.inFrame
  have hend : (rxSampleStep capture pins queue).event.frameEnd = false := by
    rw [spec.event]
    simp [hdv, assembler_gap, hin]
  have hnone : (rxSampleStep capture pins queue).published = none := by
    simp [RxSample.published, hend]
  refine ⟨hnone, ?_⟩
  apply captureAt_idle
  simp [ethernetRxQueueStep, spec.mii, hdv, assembler_gap]

theorem CaptureAt.step_end (h : CaptureAt cur capture queue) (hne : cur ≠ [])
    (hdv : pins.ethRxDv = false) :
    CaptureAt [] (ethernetRxQueueStep capture pins queue).1
        (ethernetRxQueueStep capture pins queue).2 ∧
      ((rxSampleStep capture pins queue).published.map fun rxMeta =>
        slotPacket (rxMeta, (rxSampleStep capture pins queue).rxQueue.bytes queue.writeIdx)) =
      if capture.rxDropCurrent then none else burstPacket ⟨cur, pins⟩ := by
  have spec := rxSampleStep_spec capture pins queue
  have hin : capture.mii.rxInFrame = true := by simp [h.inFrame, hne]
  have hend : (rxSampleStep capture pins queue).event.frameEnd = true := by
    rw [spec.event]
    simp [hdv, assembler_gap, hin]
  have hdrop := h.drop_next pins hne
  constructor
  · apply captureAt_idle
    simp [ethernetRxQueueStep, spec.mii, hdv, assembler_gap]
  · obtain ⟨kept, hp⟩ := h.parser hne
    have herr := hp.orError pins.ethRxerr
    have hclean : decide (18 ≤ (dataBytes (pinBytes cur)).length % 65536 ∧
        (cur.any RxPins.ethRxerr || pins.ethRxerr) = false) =
        decide (18 ≤ (burstData ⟨cur, pins⟩).length % 65536 ∧ burstClean ⟨cur, pins⟩ = true) := by
      simp [burstData, burstClean]
    have hframe : (rxSampleStep capture pins queue).frame =
        { capture.parser with
          rxFrameError := capture.parser.rxFrameError || pins.ethRxerr }.frameMeta := by
      rw [spec.frame]
      simp [rxParseNow, hdv, assembler_gap, ethernetRxParserStep, hin]
    cases hd : capture.rxDropCurrent with
    | true => simp [RxSample.published, spec.drop, hdrop, hd]
    | false =>
      have hbuf : (rxSampleStep capture pins queue).rxQueue.bytes queue.writeIdx =
          captureBuffer capture.rxDropCurrent capture.rxDropPayload queue := by
        have hb := spec.buffer
        rw [spec.drop, hdrop, hd] at hb
        rw [← spec.writeIdx]
        refine Eq.trans hb ?_
        simp [rxParseNow, hdrop, hdv, assembler_gap, ethernetRxParserStep, hin]
      have hvalid := herr.frameMeta_valid
      rw [hclean] at hvalid
      simp only [RxSample.published, hend, spec.drop, hdrop, hd, hframe, hvalid, burstPacket, hbuf,
        Bool.false_eq_true, if_false]
      by_cases hok : 18 ≤ (burstData ⟨cur, pins⟩).length % 65536 ∧ burstClean ⟨cur, pins⟩ = true
      · have hlen : 18 ≤ (dataBytes (pinBytes cur)).length :=
          hok.1.trans (Nat.mod_le _ _)
        simp only [hok, and_self, decide_true, Bool.not_false, Bool.and_self, if_true,
          Option.map_some]
        rw [hd] at herr
        exact congrArg some (herr.slotPacket_frameMeta hlen)
      · simp [hok]

end ArtyEthernet
