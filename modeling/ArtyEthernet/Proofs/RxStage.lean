import ArtyEthernet.Proofs.RxCapture

/-!
# The receive path and its ring

`RxStageAt cur waiting` joins the burst being received to the packets waiting in the ring. One
cycle extends or closes the burst and appends at most one packet; slots that already hold a packet
are never touched.
-/

namespace ArtyEthernet
open Words

abbrev RxSlot := RxPacketMeta × Buffer maxEthPayloadBytesInt

/-- The packet a receive cycle publishes: metadata and slot bytes. -/
def rxPublishedSlot (capture : RxCapture) (pins : RxPins) (queue : RxPacketQueue) :
    Option RxSlot :=
  let sample := rxSampleStep capture pins queue
  sample.published.map fun rxMeta => (rxMeta, sample.rxQueue.bytes sample.rxQueue.writeIdx)

def nextPending (cur : List RxPins) (pins : RxPins) : List RxPins :=
  if pins.ethRxDv then cur ++ [pins] else []

structure RxStageAt (cur : List RxPins) (capture : RxCapture) (queue : RxPacketQueue)
    (waiting : List RxSlot) : Prop where
  burst : CaptureAt cur capture queue
  ring : queue.Holds waiting
  room : cur ≠ [] → capture.rxDropCurrent = false → waiting.length < 8

variable {cur : List RxPins} {capture : RxCapture} {queue : RxPacketQueue} {pins : RxPins}
  {waiting : List RxSlot}

theorem RxStageAt.writeSlot_free (h : RxStageAt cur capture queue waiting) (hne : cur ≠ [])
    (hdrop : capture.rxDropCurrent = false) : queue.valid queue.writeIdx = false := by
  have hav := h.ring.writeSlotAvailable.mpr (h.room hne hdrop)
  simpa [packetQueueWriteSlotAvailable] using hav

theorem CaptureAt.frameStart_eq (h : CaptureAt cur capture queue) (pins : RxPins) :
    (miiRxByteAssemblerStep capture.mii pins.ethRxDv pins.ethRxd).2.frameStart =
      (pins.ethRxDv && cur.isEmpty) := by
  cases hdv : pins.ethRxDv with
  | false => simp [assembler_gap]
  | true =>
    cases hin : capture.mii.rxInFrame with
    | false =>
      have hcur : cur.isEmpty = true := by simpa [hin] using h.inFrame
      simp [assembler_first _ hin, hcur]
    | true =>
      have hcur : cur.isEmpty = false := by simpa [hin] using h.inFrame
      cases hlow : capture.mii.rxHaveLow with
      | false => simp [assembler_low _ hin hlow, hcur]
      | true => simp [assembler_high _ hin hlow, hcur]

/-- A cycle that captures into a slot found that slot free. -/
theorem RxStageAt.capturing_free (h : RxStageAt cur capture queue waiting)
    (hdrop : rxDropNow capture pins queue = false) :
    queue.valid queue.writeIdx = false ∨ (cur = [] ∧ pins.ethRxDv = false) := by
  have hstart := h.burst.frameStart_eq pins
  simp only [rxDropNow, hstart] at hdrop
  by_cases hcur : cur = []
  · cases hdv : pins.ethRxDv with
    | false => exact Or.inr ⟨hcur, rfl⟩
    | true =>
      left
      simpa [hdv, hcur, packetQueueWriteSlotAvailable] using hdrop
  · left
    have hempty : cur.isEmpty = false := by simpa using hcur
    exact h.writeSlot_free hcur (by simpa [hempty] using hdrop)

/-- The bytes of a slot that holds a packet are not touched by a receive cycle. -/
theorem RxStageAt.sample_bytes (h : RxStageAt cur capture queue waiting) (pins : RxPins)
    {i : BitVec 3} (hi : queue.valid i = true) :
    (rxSampleStep capture pins queue).rxQueue.bytes i = queue.bytes i := by
  have spec := rxSampleStep_spec capture pins queue
  cases hdrop : rxDropNow capture pins queue with
  | true => exact spec.otherBytes i (Or.inr (by rw [spec.drop, hdrop]))
  | false =>
    by_cases hw : i = queue.writeIdx
    · rcases h.capturing_free hdrop with hfree | ⟨hcur, hdv⟩
      · rw [← hw, hi] at hfree
        exact absurd hfree (by simp)
      · have hin : capture.mii.rxInFrame = false := by simp [h.burst.inFrame, hcur]
        have hbuf := spec.buffer
        rw [spec.drop, hdrop] at hbuf
        rw [hw, ← spec.writeIdx]
        refine Eq.trans hbuf ?_
        simp [rxParseNow, hdv, assembler_gap, ethernetRxParserStep, hin, hdrop, captureBuffer,
          spec.writeIdx]
    · exact spec.otherBytes i (Or.inl hw)

theorem RxStageAt.sample_ring (h : RxStageAt cur capture queue waiting) (pins : RxPins) :
    (rxSampleStep capture pins queue).rxQueue.Holds waiting := by
  have spec := rxSampleStep_spec capture pins queue
  refine h.ring.congr spec.valid spec.readIdx spec.writeIdx fun i hi => ?_
  simp only [PacketSlotQueue.cell, spec.slotMeta, h.sample_bytes pins hi]

theorem RxStageAt.published_none (h : RxStageAt cur capture queue waiting)
    (hquiet : pins.ethRxDv = true ∨ cur = []) :
    (rxSampleStep capture pins queue).published = none := by
  cases hdv : pins.ethRxDv with
  | true => exact (h.burst.step_on hdv).1
  | false =>
    have hcur : cur = [] := by simpa [hdv] using hquiet
    subst hcur
    exact (h.burst.step_idle hdv).1

theorem RxStageAt.published_room (h : RxStageAt cur capture queue waiting)
    (hsome : (rxSampleStep capture pins queue).published.isSome = true) : waiting.length < 8 := by
  by_cases hquiet : pins.ethRxDv = true ∨ cur = []
  · rw [h.published_none hquiet] at hsome
    simp at hsome
  · rw [not_or, Bool.not_eq_true] at hquiet
    apply h.room hquiet.2
    have hend := (h.burst.step_end hquiet.2 hquiet.1).2
    cases hdrop : capture.rxDropCurrent with
    | false => rfl
    | true =>
      rw [hdrop, if_pos rfl, Option.map_eq_none_iff] at hend
      rw [hend] at hsome
      simp at hsome

theorem CaptureAt.congr {queue' : RxPacketQueue} (h : CaptureAt cur capture queue)
    (hbytes : queue'.bytes = queue.bytes) (hwrite : queue'.writeIdx = queue.writeIdx) :
    CaptureAt cur capture queue' where
  inFrame := h.inFrame
  haveLow := h.haveLow
  lowNibble := h.lowNibble
  parser hne := by
    obtain ⟨kept, hp⟩ := h.parser hne
    refine ⟨kept, ?_⟩
    simpa only [captureBuffer, hbytes, hwrite] using hp

theorem CaptureAt.step (h : CaptureAt cur capture queue) (pins : RxPins) :
    CaptureAt (nextPending cur pins) (ethernetRxQueueStep capture pins queue).1
      (ethernetRxQueueStep capture pins queue).2 := by
  unfold nextPending
  cases hdv : pins.ethRxDv with
  | true => simpa using (h.step_on hdv).2
  | false =>
    by_cases hcur : cur = []
    · subst hcur
      simpa using (h.step_idle hdv).2
    · simpa using (h.step_end hcur hdv).1

theorem RxStageAt.ring_step (h : RxStageAt cur capture queue waiting) (pins : RxPins) :
    (ethernetRxQueueStep capture pins queue).2.Holds
      (waiting ++ (rxPublishedSlot capture pins queue).toList) := by
  have hring := h.sample_ring pins
  simp only [ethernetRxQueueStep, rxPublishedSlot]
  cases hpub : (rxSampleStep capture pins queue).published with
  | none => simpa using hring
  | some rxMeta =>
    have hroom : waiting.length < 2 ^ rxPacketIndexBits :=
      h.published_room (Option.isSome_of_eq_some hpub)
    exact hring.publish hroom rxMeta

theorem rxDropCurrent_next (capture : RxCapture) (pins : RxPins) (queue : RxPacketQueue) :
    (ethernetRxQueueStep capture pins queue).1.rxDropCurrent =
      if (rxSampleStep capture pins queue).event.frameEnd then false
      else rxDropNow capture pins queue := by
  simp only [ethernetRxQueueStep, (rxSampleStep_spec capture pins queue).drop]

theorem RxStageAt.step (h : RxStageAt cur capture queue waiting) (pins : RxPins) :
    RxStageAt (nextPending cur pins) (ethernetRxQueueStep capture pins queue).1
      (ethernetRxQueueStep capture pins queue).2
      (waiting ++ (rxPublishedSlot capture pins queue).toList) where
  burst := h.burst.step pins
  ring := h.ring_step pins
  room hne hdrop := by
    have hdv : pins.ethRxDv = true := by
      by_contra hdv
      simp [nextPending, hdv] at hne
    have hend : (rxSampleStep capture pins queue).event.frameEnd = false := by
      rw [(rxSampleStep_spec capture pins queue).event, hdv]
      exact (assembler_on _ pins.ethRxd).2.2
    have hnone : rxPublishedSlot capture pins queue = none := by
      simp only [rxPublishedSlot, h.published_none (Or.inl hdv), Option.map_none]
    rw [rxDropCurrent_next, hend] at hdrop
    rcases h.capturing_free (by simpa using hdrop) with hfree | ⟨_, hoff⟩
    · have hroom : waiting.length < 2 ^ rxPacketIndexBits := h.ring.write_free_iff.mp hfree
      rw [hnone, Option.toList_none, List.append_nil]
      exact hroom
    · rw [hdv] at hoff
      exact absurd hoff (by simp)

theorem RxStageAt.shrink {queue' : RxPacketQueue} {waiting' : List RxSlot}
    (h : RxStageAt cur capture queue waiting) (hbytes : queue'.bytes = queue.bytes)
    (hwrite : queue'.writeIdx = queue.writeIdx) (hring : queue'.Holds waiting')
    (hlen : waiting'.length ≤ waiting.length) : RxStageAt cur capture queue' waiting' where
  burst := h.burst.congr hbytes hwrite
  ring := hring
  room hne hdrop := Nat.lt_of_le_of_lt hlen (h.room hne hdrop)

def completedPacket (cur : List RxPins) (pins : RxPins) : Option Packet :=
  if pins.ethRxDv = true ∨ cur = [] then none else burstPacket ⟨cur, pins⟩

theorem completedPacket_none {cur : List RxPins} {pins : RxPins}
    (h : pins.ethRxDv = true ∨ cur = []) : completedPacket cur pins = none :=
  if_pos h

theorem RxStageAt.published_eq (h : RxStageAt cur capture queue waiting)
    (hdrop : capture.rxDropCurrent = false) :
    (rxPublishedSlot capture pins queue).map slotPacket = completedPacket cur pins := by
  have spec := rxSampleStep_spec capture pins queue
  unfold completedPacket rxPublishedSlot
  by_cases hquiet : pins.ethRxDv = true ∨ cur = []
  · simp [if_pos hquiet, h.published_none hquiet]
  · rw [if_neg hquiet]
    rw [not_or, Bool.not_eq_true] at hquiet
    have hend := (h.burst.step_end hquiet.2 hquiet.1).2
    rw [hdrop] at hend
    simp only [Option.map_map, spec.writeIdx]
    exact hend

/-- While the write slot is free at every cycle, no burst is ever marked as dropped. -/
theorem rxDropCurrent_step (pins : RxPins) (hdrop : capture.rxDropCurrent = false)
    (hfree : packetQueueWriteSlotAvailable queue = true) :
    rxDropNow capture pins queue = false ∧
      (ethernetRxQueueStep capture pins queue).1.rxDropCurrent = false := by
  have hnow : rxDropNow capture pins queue = false := by
    simp [rxDropNow, hdrop, hfree]
  refine ⟨hnow, ?_⟩
  rw [rxDropCurrent_next, hnow]
  exact ite_self false

theorem rxDropCount_step (hdrop : capture.rxDropCurrent = false)
    (hfree : packetQueueWriteSlotAvailable queue = true) :
    (ethernetRxQueueStep capture pins queue).2.dropCount = queue.dropCount := by
  have spec := rxSampleStep_spec capture pins queue
  have hnow := (rxDropCurrent_step pins hdrop hfree).1
  have hcount : (rxSampleStep capture pins queue).rxQueue.dropCount = queue.dropCount := by
    rw [spec.dropCount, spec.drop, hnow]
    simp
  have hw : queue.valid queue.writeIdx = false := by
    simpa [packetQueueWriteSlotAvailable] using hfree
  simp only [ethernetRxQueueStep]
  cases (rxSampleStep capture pins queue).published with
  | none => exact hcount
  | some rxMeta => simp [packetQueuePublishWriteSlot, spec.valid, spec.writeIdx, hw, hcount]

end ArtyEthernet
