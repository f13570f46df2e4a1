import ArtyEthernet.Proofs.Backlog

/-!
# The receive ring never overflows

Whatever arrives, and however it is aligned with the timers, every burst finds a free slot.
-/

namespace ArtyEthernet
open Words

/-- What the receive path does in a cycle when the ring has room. -/
structure RingHasRoom (s : Endpoint) (i : RxPins) : Prop where
  /-- The write slot is free when a burst starts. -/
  slotFree : (rxSampleStep s.capture i s.rxQueue).event.frameStart = true →
    packetQueueWriteSlotAvailable s.rxQueue = true
  /-- `rx_drop_current` is not set, before the cycle or in it. -/
  notDropped : s.capture.rxDropCurrent = false ∧
    (rxSampleStep s.capture i s.rxQueue).rxDropCurrent = false
  /-- The ring handed to `packet_queue_publish_write_slot` has room. -/
  publishFree : (rxSampleStep s.capture i s.rxQueue).published.isSome = true →
    packetQueueWriteSlotAvailable (rxSampleStep s.capture i s.rxQueue).rxQueue = true
  dropCount : s.rxQueue.dropCount = 0
  /-- A burst reported as valid is in the ring after the receive path. -/
  published : (rxSampleStep s.capture i s.rxQueue).event.frameEnd = true →
    (rxSampleStep s.capture i s.rxQueue).frame.valid = true →
    (s.rxStage i).2.valid s.rxQueue.writeIdx = true ∧
      (s.rxStage i).2.slotMeta s.rxQueue.writeIdx =
        (rxSampleStep s.capture i s.rxQueue).frame.toRxPacketMeta ∧
      (s.rxStage i).2.writeIdx = s.rxQueue.writeIdx + 1

theorem Backlog.ringHasRoom {consumed waiting : List RxSlot} {cur : List RxPins} {s : Endpoint}
    (hb : Backlog waiting cur s) (h : RxAt consumed waiting cur s) (i : RxPins) :
    RingHasRoom s i := by
  have hfree := hb.writeSlot_free h
  have spec := rxSampleStep_spec s.capture i s.rxQueue
  have hnow := (rxDropCurrent_step i hb.noDrop hfree).1
  have hsample : packetQueueWriteSlotAvailable (rxSampleStep s.capture i s.rxQueue).rxQueue =
      true := by
    rw [packetQueueWriteSlotAvailable, spec.valid, spec.writeIdx]
    exact hfree
  refine ⟨fun _ => hfree, ⟨hb.noDrop, spec.drop.trans hnow⟩, fun _ => hsample, hb.dropCount, ?_⟩
  intro hend hvalid
  have hpub : (rxSampleStep s.capture i s.rxQueue).published =
      some (rxSampleStep s.capture i s.rxQueue).frame.toRxPacketMeta := by
    simp [RxSample.published, hend, hvalid, spec.drop, hnow]
  have hw : (rxSampleStep s.capture i s.rxQueue).rxQueue.valid s.rxQueue.writeIdx = false := by
    rw [← spec.writeIdx]
    simpa [packetQueueWriteSlotAvailable] using hsample
  simp [Endpoint.rxStage, ethernetRxQueueStep, hpub, packetQueuePublishWriteSlot, spec.writeIdx,
    hw]

/-- For every input sequence and every number of cycles the receive ring has room, and the packets
published so far are exactly those of the valid bursts that have ended. -/
theorem rx_ring_never_overflows (inputs : List RxPins) (i : RxPins) :
    RingHasRoom (runFrom inputs) i ∧
      (publishedPackets inputs).map slotPacket = (rxBursts inputs).filterMap burstPacket := by
  obtain ⟨consumed, waiting, h⟩ := decided_run inputs
  exact ⟨h.backlog.ringHasRoom h.rx i, map_slotPacket_publishedPackets inputs⟩

end ArtyEthernet
