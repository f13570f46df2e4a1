import ArtyEthernet.Proofs.HandlerRuns
import ArtyEthernet.Proofs.TxRuns

/-!
# The receive side over whole runs

After every run the published packets are those the handler has decided, then those waiting in the
ring, and the replies handed over are the verdicts on the former, in order.
-/

namespace ArtyEthernet
open Words

/-- The receive side of an endpoint in the middle of the burst `cur`. -/
structure RxAt (consumed waiting : List RxSlot) (cur : List RxPins) (s : Endpoint) : Prop where
  stage : RxStageAt cur s.capture s.rxQueue waiting
  handler : HandlerAt consumed waiting s.proto s.rxQueue

theorem rxAt_reset : RxAt [] [] [] .reset where
  stage := ⟨captureAt_idle rfl _, PacketSlotQueue.holds_zero _, fun h => absurd rfl h⟩
  handler := ⟨PacketSlotQueue.holds_zero _, by simp [Endpoint.reset, Protocol.init],
    by simp [Endpoint.reset, Protocol.init], rfl, rfl, rfl⟩

theorem ethernetRxQueueStep_readIdx (capture : RxCapture) (pins : RxPins) (queue : RxPacketQueue) :
    (ethernetRxQueueStep capture pins queue).2.readIdx = queue.readIdx := by
  have spec := rxSampleStep_spec capture pins queue
  simp only [ethernetRxQueueStep]
  cases (rxSampleStep capture pins queue).published with
  | none => exact spec.readIdx
  | some rxMeta =>
    simp only [packetQueuePublishWriteSlot]
    split_ifs <;> exact spec.readIdx

variable {consumed waiting : List RxSlot} {cur : List RxPins} {s : Endpoint}

/-- The receive path leaves the handler's view of the older packets alone. -/
theorem RxAt.arrive (h : RxAt consumed waiting cur s) (i : RxPins) :
    HandlerAt consumed (waiting ++ (s.rxPublished i).toList) s.proto (s.rxStage i).2 :=
  h.handler.arrive (h.stage.ring_step i) (ethernetRxQueueStep_readIdx _ _ _)

theorem RxAt.step {held : List ProtocolTxRequest} (h : RxAt consumed waiting cur s)
    (htx : TxRingAt s.proto s.txQueue held) (i : RxPins) :
    ∃ eaten rest, Eats consumed (waiting ++ (s.rxPublished i).toList) eaten rest
        (s.protoStage i) ∧
      RxAt (consumed ++ eaten) rest (nextPending cur i) (s.step i) ∧
      StepWork s.proto (s.step i).proto (waiting ++ (s.rxPublished i).toList) eaten := by
  obtain ⟨eaten, rest, heats, hwork⟩ := (h.arrive i).queueStep htx
  refine ⟨eaten, rest, heats, ⟨?_, heats.next⟩, hwork⟩
  have hlen : rest.length ≤ (waiting ++ (s.rxPublished i).toList).length := by
    rw [heats.split, List.length_append]
    omega
  obtain ⟨hbytes, -, hwrite, -⟩ :=
    protocolSelectStep_rxQueue s.proto (s.rxStage i).2 s.txQueue
  exact (h.stage.step i).shrink hbytes hwrite heats.next.ring hlen

theorem RxAt.idle_of_nil {consumed : List RxSlot} {cur : List RxPins} {s : Endpoint}
    (h : RxAt consumed [] cur s) : s.proto.protocolState = .protoIdle := by
  cases hstate : s.proto.protocolState with
  | protoIdle => rfl
  | protoParseArp =>
    obtain ⟨slot, rest, hwaiting, -⟩ := h.handler.parsing hstate
    exact absurd hwaiting (List.cons_ne_nil slot rest).symm
  | protoPrepareTx => exact absurd hstate h.handler.state

theorem rxPending_snoc (inputs : List RxPins) (i : RxPins) :
    rxPending (inputs ++ [i]) = nextPending (rxPending inputs) i := by
  unfold nextPending
  cases hdv : i.ethRxDv with
  | true => exact MaximalRuns.pending_snoc_on inputs hdv
  | false => exact MaximalRuns.pending_snoc_off inputs hdv

theorem rxBursts_snoc (inputs : List RxPins) (i : RxPins) :
    rxBursts (inputs ++ [i]) = rxBursts inputs ++
      if i.ethRxDv = true ∨ rxPending inputs = [] then [] else [⟨rxPending inputs, i⟩] := by
  cases hdv : i.ethRxDv with
  | true =>
    rw [if_pos (Or.inl rfl), List.append_nil]
    exact MaximalRuns.bursts_snoc_on inputs hdv
  | false =>
    simp only [Bool.false_eq_true, false_or]
    exact MaximalRuns.bursts_snoc_off inputs hdv

theorem filterMap_rxBursts_snoc (inputs : List RxPins) (i : RxPins) :
    (rxBursts (inputs ++ [i])).filterMap burstPacket =
      (rxBursts inputs).filterMap burstPacket ++
        (completedPacket (rxPending inputs) i).toList := by
  rw [rxBursts_snoc, List.filterMap_append, completedPacket]
  congr 1
  split_ifs with hquiet
  · rfl
  · cases hp : burstPacket ⟨rxPending inputs, i⟩ <;> simp [hp]

end ArtyEthernet
