import ArtyEthernet.Proofs.Backlog

/-!
# One parse, cycle by cycle

The handler waits until its response is built, looks at the first packet, reads its bytes one by
one and decides in the cycle of the last byte. Until then the receive ring, the counters of its
verdicts and the requests handed over do not change.
-/

namespace ArtyEthernet
open Words

variable {st : Protocol} {rxQueue : RxPacketQueue} {txQueue : TxPacketQueue}

/-- A cycle of the handler that leaves the received packets and their verdicts alone. -/
structure Passes (st : Protocol) (rxQueue : RxPacketQueue) (stage : ProtocolStage) : Prop where
  rxQueue : stage.rxQueue = rxQueue
  handed : stage.handed = none
  dropCount : stage.st.rxProtocolDropCount = st.rxProtocolDropCount
  replyCount : stage.st.arpReplyCount = st.arpReplyCount

/-- The parser has read `j` bytes of the packet in slot `readIdx`. -/
structure ReadsAt (st : Protocol) (readIdx : BitVec 3) (bytes : Buffer maxEthPayloadBytesInt)
    (j : ℕ) : Prop where
  notPreparing : st.preparingPayload = false
  state : st.protocolState = .protoParseArp
  index : st.parseIndex.toNat = j
  rxIdx : st.parseRxIdx = readIdx
  regs : st.parseArp = parseRegs bytes j

theorem queueStep_wait (hprep : st.preparingPayload = true)
    (hindex : st.prepareIndex.toNat < st.prepareRequest.len.toNat) :
    Passes st rxQueue (protocolQueueStep st rxQueue txQueue) ∧
      (protocolQueueStep st rxQueue txQueue).st.protocolState = st.protocolState ∧
      (protocolQueueStep st rxQueue txQueue).st.buildCost + 1 = st.buildCost := by
  have hselect : protocolSelectStep st rxQueue txQueue = ⟨st.ticked, rxQueue, txQueue, none⟩ := by
    have hmove := protocolSelectStep_move st rxQueue txQueue
    generalize protocolSelectStep st rxQueue txQueue = stage at hmove ⊢
    cases hmove <;> simp_all
  have hcost := @buildCost_prepare st.ticked txQueue fun _ => hindex
  obtain ⟨preparing, request, index, hst, -⟩ := protocolPrepareStep_fst st.ticked txQueue
  have hon : st.ticked.preparingPayload = true := hprep
  simp only [Protocol.selectCost, hon, if_true] at hcost
  simp only [protocolQueueStep, hselect]
  refine ⟨⟨rfl, rfl, ?_, ?_⟩, ?_, hcost⟩
  · rw [hst]; rfl
  · rw [hst]; rfl
  · rw [hst]; rfl

theorem queueStep_examine (hprep : st.preparingPayload = false)
    (hstate : st.protocolState = .protoIdle) (hvalid : packetQueueReadSlotValid rxQueue = true)
    (hwhole : (rxQueue.slotMeta rxQueue.readIdx).truncated = false)
    (hwants : (rxQueue.slotMeta rxQueue.readIdx).wantsArpParse = true)
    (bytes : Buffer maxEthPayloadBytesInt) :
    Passes st rxQueue (protocolQueueStep st rxQueue txQueue) ∧
      ReadsAt (protocolQueueStep st rxQueue txQueue).st rxQueue.readIdx bytes 0 := by
  have hselect : protocolSelectStep st rxQueue txQueue =
      ⟨{ st.ticked with
        rxPacketCount := st.rxPacketCount + 1
        parseRxIdx := rxQueue.readIdx
        parseIndex := 0
        parseArp := .zero
        protocolState := .protoParseArp }, rxQueue, txQueue, none⟩ := by
    have hmove := protocolSelectStep_move st rxQueue txQueue
    generalize protocolSelectStep st rxQueue txQueue = stage at hmove ⊢
    cases hmove <;> simp_all
  simp only [protocolQueueStep, hselect]
  rw [protocolPrepareStep_off _ _ (by exact hprep)]
  exact ⟨⟨rfl, rfl, rfl, rfl⟩, ⟨hprep, rfl, rfl, rfl, rfl⟩⟩

theorem ReadsAt.step {bytes : Buffer maxEthPayloadBytesInt} {j : ℕ}
    (h : ReadsAt st rxQueue.readIdx bytes j) (hj : j < 27)
    (hbytes : rxQueue.bytes rxQueue.readIdx = bytes) :
    Passes st rxQueue (protocolQueueStep st rxQueue txQueue) ∧
      ReadsAt (protocolQueueStep st rxQueue txQueue).st rxQueue.readIdx bytes (j + 1) := by
  obtain ⟨hprep, hstate, hindex, hrxIdx, hregs⟩ := h
  have hmore : st.parseIndex ≠ 27 := by
    intro h27
    rw [h27] at hindex
    simp at hindex
    omega
  have hselect : protocolSelectStep st rxQueue txQueue =
      ⟨{ st.ticked with
        parseArp := st.parsed rxQueue
        parseIndex := st.parseIndex + 1 }, rxQueue, txQueue, none⟩ := by
    have hmove := protocolSelectStep_move st rxQueue txQueue
    generalize protocolSelectStep st rxQueue txQueue = stage at hmove ⊢
    cases hmove <;> simp_all
  simp only [protocolQueueStep, hselect]
  rw [protocolPrepareStep_off _ _ (by exact hprep)]
  refine ⟨⟨rfl, rfl, rfl, rfl⟩, ⟨hprep, hstate, ?_, hrxIdx, ?_⟩⟩
  · change (st.parseIndex + 1).toNat = j + 1
    rw [BitVec.toNat_add, hindex]
    simp
    omega
  · change st.parsed rxQueue = _
    rw [parseRegs_succ, ← hregs, Protocol.parsed, hrxIdx, hbytes, hindex]

structure Decides (st : Protocol) (rxQueue : RxPacketQueue)
    (bytes : Buffer maxEthPayloadBytesInt) (stage : ProtocolStage) : Prop where
  rxQueue : stage.rxQueue = packetQueueConsumeReadSlot rxQueue
  state : stage.st.protocolState = .protoIdle
  handed : stage.handed =
    if (parseRegs bytes 28).arpValid then
      some (arpReplyRequest (parseRegs bytes 28).senderMac (parseRegs bytes 28).senderIp)
    else none
  dropCount : stage.st.rxProtocolDropCount =
    if (parseRegs bytes 28).arpValid then st.rxProtocolDropCount else st.rxProtocolDropCount + 1
  replyCount : stage.st.arpReplyCount =
    if (parseRegs bytes 28).arpValid then st.arpReplyCount + 1 else st.arpReplyCount

theorem ReadsAt.finish {bytes : Buffer maxEthPayloadBytesInt}
    (h : ReadsAt st rxQueue.readIdx bytes 27) (hbytes : rxQueue.bytes rxQueue.readIdx = bytes) :
    Decides st rxQueue bytes (protocolQueueStep st rxQueue txQueue) := by
  obtain ⟨hprep, hstate, hindex, hrxIdx, hregs⟩ := h
  have hlast : st.parseIndex = 27 := BitVec.eq_of_toNat_eq hindex
  have hparsed : st.parsed rxQueue = parseRegs bytes 28 := by
    rw [parseRegs_succ, ← hregs, Protocol.parsed, hrxIdx, hbytes, hindex]
  have hmove := protocolSelectStep_move st rxQueue txQueue
  simp only [protocolQueueStep]
  generalize protocolSelectStep st rxQueue txQueue = stage at hmove ⊢
  obtain ⟨preparing, request, index, hst, -⟩ := protocolPrepareStep_fst stage.st stage.txQueue
  rw [hst]
  cases hmove with
  | reject _ _ _ hbad =>
    rw [hparsed] at hbad
    exact ⟨rfl, rfl, by simp [hbad], by simp [hbad], by simp [hbad, Protocol.ticked]⟩
  | reply _ _ _ hgood =>
    rw [hparsed] at hgood
    refine ⟨rfl, rfl, ?_, ?_, ?_⟩
    · simp only [hgood, if_true, Protocol.reply, hparsed]
    · simp [hgood, Protocol.offer, Protocol.ticked]
    · simp [hgood]
  | _ => simp_all

def headSlot (rxQueue : RxPacketQueue) : RxSlot :=
  (rxQueue.slotMeta rxQueue.readIdx, rxQueue.bytes rxQueue.readIdx)

/-- Nothing that is received touches the first packet of the ring. -/
theorem headSlot_rxStage (inputs : List RxPins) (i : RxPins)
    (hvalid : packetQueueReadSlotValid (runFrom inputs).rxQueue = true) :
    packetQueueReadSlotValid ((runFrom inputs).rxStage i).2 = true ∧
      headSlot ((runFrom inputs).rxStage i).2 = headSlot (runFrom inputs).rxQueue := by
  obtain ⟨consumed, waiting, h⟩ := decided_run inputs
  have harrive := h.rx.arrive i
  obtain ⟨slot, rest, rfl, hmeta, hbytes⟩ := h.rx.handler.head hvalid
  rw [List.cons_append] at harrive
  obtain ⟨hmeta', hbytes'⟩ := harrive.ring.head
  refine ⟨harrive.ring.readSlotValid_cons, ?_⟩
  rw [headSlot, headSlot, hmeta, hbytes, hmeta', hbytes']

end ArtyEthernet
