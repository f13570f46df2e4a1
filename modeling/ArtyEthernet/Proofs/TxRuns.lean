import ArtyEthernet.Proofs.Wire

/-!
# The transmit side over whole runs

After every run the accepted requests are those on the wire, then those in the ring, then the one
being prepared. Nothing here depends on what was received.
-/

namespace ArtyEthernet
open Words

/-- The transmit side of an endpoint that has driven `pins`. -/
structure TxAt (sent held : List ProtocolTxRequest) (pins : List TxPins) (left : ℕ)
    (s : Endpoint) : Prop where
  ring : TxRingAt s.proto s.txQueue held
  wire : WireAt sent held s.drain s.txQueue.readIdx pins left

theorem txAt_reset : TxAt [] [] [] 0 .reset where
  ring :=
    { slots := ⟨[], PacketSlotQueue.holds_zero _, List.Forall₂.nil⟩
      building := fun hp => absurd hp (by simp [Endpoint.reset, Protocol.init]) }
  wire := .resting rfl rfl rfl rfl rfl

theorem protocolQueueStep_txQueue_readIdx (st : Protocol) (rxQueue : RxPacketQueue)
    (txQueue : TxPacketQueue) :
    (protocolQueueStep st rxQueue txQueue).txQueue.readIdx = txQueue.readIdx := by
  have hselect : (protocolSelectStep st rxQueue txQueue).txQueue.readIdx = txQueue.readIdx := by
    rw [protocolSelectStep_txQueue]
  rw [← hselect]
  simp only [protocolQueueStep, protocolPrepareStep, packetQueuePublishWriteSlot]
  split_ifs <;> rfl

theorem TxRingAt.consume {st : Protocol} {txQueue : TxPacketQueue} {r : ProtocolTxRequest}
    {held : List ProtocolTxRequest} (h : TxRingAt st txQueue (r :: held)) :
    TxRingAt st (packetQueueConsumeReadSlot txQueue) held := by
  obtain ⟨slots, hring, hslots⟩ := h.slots
  cases hslots with
  | cons _ htail =>
    refine ⟨⟨_, hring.consume, htail⟩, fun hp => ?_⟩
    have hb := h.building hp
    refine ⟨hb.slot, ?_, hb.request, hb.index, hb.bytes⟩
    simp only [packetQueueConsumeReadSlot, hb.free]
    exact ite_self false

variable {sent held : List ProtocolTxRequest} {pins : List TxPins} {left : ℕ} {s : Endpoint}

def Endpoint.finished (s : Endpoint) (i : RxPins) : List ProtocolTxRequest :=
  (protocolSelectStep s.proto (s.rxStage i).2 s.txQueue).st.finishing

theorem TxAt.ring_proto (h : TxAt sent held pins left s) (i : RxPins) :
    TxRingAt (s.protoStage i).st (s.protoStage i).txQueue (held ++ s.finished i) ∧
      s.finished i ++ (s.protoStage i).st.building =
        s.proto.building ++ (s.accepted i).toList :=
  h.ring.queueStep (s.rxStage i).2

theorem TxAt.wire_proto (h : TxAt sent held pins left s) (i : RxPins) :
    WireAt sent (held ++ s.finished i) s.drain (s.protoStage i).txQueue.readIdx pins
      (left + heldCycles (s.finished i)) := by
  have hread : (s.protoStage i).txQueue.readIdx = s.txQueue.readIdx :=
    protocolQueueStep_txQueue_readIdx s.proto (s.rxStage i).2 s.txQueue
  rw [hread]
  exact h.wire.append (s.finished i)

theorem TxAt.drainMove (h : TxAt sent held pins left s) (i : RxPins) :
    DrainMove sent (held ++ s.finished i) (s.protoStage i).txQueue (pins ++ [s.outputs i])
      (left + heldCycles (s.finished i) - 1) (s.txStage i) := by
  obtain ⟨slots, hholds, hslots⟩ := (h.ring_proto i).1.slots
  exact (h.wire_proto i).step (p := s.outputs i) (ringShows hholds hslots) rfl rfl

theorem TxAt.step (h : TxAt sent held pins left s) (i : RxPins) :
    ∃ sent' held',
      TxAt sent' held' (pins ++ [s.outputs i]) (left + heldCycles (s.finished i) - 1)
          (s.step i) ∧
        sent' ++ held' = sent ++ held ++ s.finished i ∧ sent <+: sent' ∧
        s.finished i ++ (s.step i).proto.building =
          s.proto.building ++ (s.accepted i).toList := by
  obtain ⟨hring, hbuild⟩ := h.ring_proto i
  cases h.drainMove i with
  | keep ring wire =>
    refine ⟨sent, held ++ s.finished i, ⟨?_, ?_⟩, by rw [List.append_assoc],
      List.prefix_refl sent, hbuild⟩
    · change TxRingAt (s.step i).proto (s.txStage i).2.1 _
      rw [ring]
      exact hring
    · change WireAt _ _ _ (s.txStage i).2.1.readIdx _ _
      rw [ring]
      exact wire
  | consume request rest hheld ring wire =>
    rw [hheld] at hring
    refine ⟨sent ++ [request], rest, ⟨?_, ?_⟩, ?_, List.prefix_append sent [request], hbuild⟩
    · change TxRingAt (s.step i).proto (s.txStage i).2.1 _
      rw [ring]
      exact hring.consume
    · change WireAt _ _ _ (s.txStage i).2.1.readIdx _ _
      rw [ring]
      exact wire
    · rw [List.append_assoc sent held, hheld]
      simp

/-- After every run the accepted requests are those sent, held and being prepared, in order. -/
theorem txAt_run (inputs : List RxPins) :
    ∃ sent held left, TxAt sent held (drivenPins inputs) left (runFrom inputs) ∧
      acceptedRequests inputs = sent ++ held ++ (runFrom inputs).proto.building := by
  induction inputs using List.reverseRecOn with
  | nil => exact ⟨[], [], 0, txAt_reset, rfl⟩
  | append_singleton inputs i ih =>
    obtain ⟨sent, held, left, hat, hacc⟩ := ih
    obtain ⟨sent', held', hat', hsplit, -, hbuild⟩ := hat.step i
    refine ⟨sent', held', left + heldCycles ((runFrom inputs).finished i) - 1, ?_, ?_⟩
    · rw [drivenPins_snoc, runFrom_snoc]
      exact hat'
    · rw [acceptedRequests_snoc, runFrom_snoc, hacc, hsplit, List.append_assoc, ← hbuild]
      simp only [List.append_assoc]

end ArtyEthernet
