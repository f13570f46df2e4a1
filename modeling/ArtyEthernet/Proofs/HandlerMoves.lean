import ArtyEthernet.Model.ProtocolHandler
import Mathlib.Tactic.Common

/-!
# What the protocol handler can do in one cycle

`HandlerMove` lists the branches of `protocolSelectStep` with their guards and results. Every
invariant of the handler is a case analysis over it; the branch that builds the response is
described separately by three equations.
-/

namespace ArtyEthernet
open Words

def Protocol.ticked (st : Protocol) : Protocol :=
  { st with timers := (periodicTxTimerStep st.timers).1 }

def Protocol.ticks (st : Protocol) : PeriodicTxTicks := (periodicTxTimerStep st.timers).2

/-- A request offered to the transmit ring: it is taken when the write slot is free. -/
def Protocol.offer (st : Protocol) (request : ProtocolTxRequest) (txQueue : TxPacketQueue) :
    Protocol :=
  { st with
    preparingPayload := packetQueueWriteSlotAvailable txQueue || st.preparingPayload
    prepareRequest :=
      if packetQueueWriteSlotAvailable txQueue then request else st.prepareRequest
    prepareIndex := if packetQueueWriteSlotAvailable txQueue then 0 else st.prepareIndex
    prepareTxIdx :=
      if packetQueueWriteSlotAvailable txQueue then txQueue.writeIdx else st.prepareTxIdx }

def offeredRing (txQueue : TxPacketQueue) : TxPacketQueue :=
  if packetQueueWriteSlotAvailable txQueue then txQueue else packetQueueDropWrite txQueue

theorem ProtocolStage.hand_valid {request : ProtocolTxRequest} (hvalid : request.valid = true)
    (st : Protocol) (rxQueue : RxPacketQueue) (txQueue : TxPacketQueue) :
    ProtocolStage.hand request st rxQueue txQueue =
      ⟨st.offer request txQueue, rxQueue, offeredRing txQueue, some request⟩ := by
  cases hfree : packetQueueWriteSlotAvailable txQueue with
  | false =>
    simp [ProtocolStage.hand, startProtocolTxRequest, Protocol.offer, offeredRing, hvalid, hfree]
  | true =>
    simp [ProtocolStage.hand, startProtocolTxRequest, Protocol.offer, offeredRing, hvalid, hfree,
      packetQueueWriteSlot]

variable (st : Protocol) (rxQueue : RxPacketQueue) (txQueue : TxPacketQueue)

def Protocol.parsed : ParseArp :=
  st.parseArp.store st.parseIndex.toNat
    (Buffer.get (rxQueue.bytes st.parseRxIdx) st.parseIndex.toNat)

/-- The reply to the request whose last byte is read in this cycle. -/
def Protocol.reply : ProtocolTxRequest :=
  arpReplyRequest (st.parsed rxQueue).senderMac (st.parsed rxQueue).senderIp

inductive HandlerMove : ProtocolStage → Prop where
  | busy (hprep : st.preparingPayload = true) : HandlerMove ⟨st.ticked, rxQueue, txQueue, none⟩
  | parked (hprep : st.preparingPayload = false) (hstate : st.protocolState = .protoPrepareTx) :
      HandlerMove ⟨st.ticked, rxQueue, txQueue, none⟩
  | quiet (hprep : st.preparingPayload = false) (hstate : st.protocolState = .protoIdle)
      (hempty : packetQueueReadSlotValid rxQueue = false)
      (hbeacon : st.ticks.beaconTick = false) (harp : st.ticks.gratuitousArpTick = false) :
      HandlerMove ⟨st.ticked, rxQueue, txQueue, none⟩
  | drop (hprep : st.preparingPayload = false) (hstate : st.protocolState = .protoIdle)
      (hvalid : packetQueueReadSlotValid rxQueue = true)
      (hbad : (rxQueue.slotMeta rxQueue.readIdx).truncated = true ∨
        (rxQueue.slotMeta rxQueue.readIdx).wantsArpParse = false) :
      HandlerMove
        ⟨{ st.ticked with
          rxPacketCount := st.rxPacketCount + 1
          rxProtocolDropCount := st.rxProtocolDropCount + 1 },
          packetQueueConsumeReadSlot rxQueue, txQueue, none⟩
  | beginParse (hprep : st.preparingPayload = false) (hstate : st.protocolState = .protoIdle)
      (hvalid : packetQueueReadSlotValid rxQueue = true)
      (hwhole : (rxQueue.slotMeta rxQueue.readIdx).truncated = false)
      (harp : (rxQueue.slotMeta rxQueue.readIdx).wantsArpParse = true) :
      HandlerMove
        ⟨{ st.ticked with
          rxPacketCount := st.rxPacketCount + 1
          parseRxIdx := rxQueue.readIdx
          parseIndex := 0
          parseArp := .zero
          protocolState := .protoParseArp }, rxQueue, txQueue, none⟩
  | announce (hprep : st.preparingPayload = false) (hstate : st.protocolState = .protoIdle)
      (hempty : packetQueueReadSlotValid rxQueue = false)
      (harp : st.ticks.gratuitousArpTick = true) :
      HandlerMove
        ⟨st.ticked.offer protocolTxGratuitousArpRequest txQueue, rxQueue, offeredRing txQueue,
          some protocolTxGratuitousArpRequest⟩
  | beacon (hprep : st.preparingPayload = false) (hstate : st.protocolState = .protoIdle)
      (hempty : packetQueueReadSlotValid rxQueue = false)
      (harp : st.ticks.gratuitousArpTick = false) (hbeacon : st.ticks.beaconTick = true) :
      HandlerMove
        ⟨{ st.ticked.offer (beaconSnapshot st rxQueue txQueue) txQueue with
          uptimeBeaconCount :=
            if packetQueueWriteSlotAvailable txQueue then st.uptimeBeaconCount + 1
            else st.uptimeBeaconCount },
          rxQueue, offeredRing txQueue, some (beaconSnapshot st rxQueue txQueue)⟩
  | readByte (hprep : st.preparingPayload = false) (hstate : st.protocolState = .protoParseArp)
      (hmore : st.parseIndex ≠ 27) :
      HandlerMove
        ⟨{ st.ticked with
          parseArp := st.parsed rxQueue
          parseIndex := st.parseIndex + 1 }, rxQueue, txQueue, none⟩
  | reject (hprep : st.preparingPayload = false) (hstate : st.protocolState = .protoParseArp)
      (hlast : st.parseIndex = 27) (hbad : (st.parsed rxQueue).arpValid = false) :
      HandlerMove
        ⟨{ st.ticked with
          parseArp := st.parsed rxQueue
          rxProtocolDropCount := st.rxProtocolDropCount + 1
          protocolState := .protoIdle },
          packetQueueConsumeReadSlot rxQueue, txQueue, none⟩
  | reply (hprep : st.preparingPayload = false) (hstate : st.protocolState = .protoParseArp)
      (hlast : st.parseIndex = 27) (hgood : (st.parsed rxQueue).arpValid = true) :
      HandlerMove
        ⟨{ st.ticked.offer (st.reply rxQueue) txQueue with
          parseArp := st.parsed rxQueue
          arpReplyCount := st.arpReplyCount + 1
          protocolState := .protoIdle },
          packetQueueConsumeReadSlot rxQueue, offeredRing txQueue, some (st.reply rxQueue)⟩

theorem protocolIdleStep_move (hprep : st.preparingPayload = false)
    (hstate : st.protocolState = .protoIdle) :
    HandlerMove st rxQueue txQueue (protocolIdleStep st.ticks st.ticked rxQueue txQueue) := by
  unfold protocolIdleStep
  cases hvalid : packetQueueReadSlotValid rxQueue with
  | true =>
    rw [if_pos rfl]
    simp only [protocolExaminePacket]
    by_cases htrunc : (rxQueue.slotMeta (packetQueueReadSlot rxQueue)).truncated = true
    · rw [if_pos htrunc]
      exact .drop hprep hstate hvalid (Or.inl htrunc)
    · rw [if_neg htrunc]
      by_cases hwants : (rxQueue.slotMeta (packetQueueReadSlot rxQueue)).wantsArpParse = true
      · rw [if_pos hwants]
        exact .beginParse hprep hstate hvalid (Bool.eq_false_iff.mpr htrunc) hwants
      · rw [if_neg hwants]
        exact .drop hprep hstate hvalid (Or.inr (Bool.eq_false_iff.mpr hwants))
  | false =>
    rw [if_neg Bool.false_ne_true]
    cases harp : st.ticks.gratuitousArpTick with
    | true =>
      rw [if_pos rfl, ProtocolStage.hand_valid rfl]
      exact .announce hprep hstate hvalid harp
    | false =>
      rw [if_neg Bool.false_ne_true]
      cases hbeacon : st.ticks.beaconTick with
      | true =>
        rw [if_pos rfl, protocolBeaconStep, ProtocolStage.hand_valid rfl]
        have hmove := @HandlerMove.beacon st rxQueue txQueue hprep hstate hvalid harp hbeacon
        cases hfree : packetQueueWriteSlotAvailable txQueue with
        | true =>
          have hon : (st.ticked.offer (beaconSnapshot st.ticked rxQueue txQueue)
              txQueue).preparingPayload = true := by
            simp [Protocol.offer, hfree]
          rw [hfree, if_pos rfl] at hmove
          rw [if_pos hon]
          exact hmove
        | false =>
          have hoff : (st.ticked.offer (beaconSnapshot st.ticked rxQueue txQueue)
              txQueue).preparingPayload ≠ true := by
            simp [Protocol.offer, Protocol.ticked, hfree, hprep]
          rw [hfree, if_neg Bool.false_ne_true] at hmove
          rw [if_neg hoff]
          exact hmove
      | false => exact .quiet hprep hstate hvalid hbeacon harp

theorem protocolParseArpStep_move (hprep : st.preparingPayload = false)
    (hstate : st.protocolState = .protoParseArp) :
    HandlerMove st rxQueue txQueue (protocolParseArpStep st.ticked rxQueue txQueue) := by
  let read : Protocol := { st.ticked with parseArp := st.parsed rxQueue }
  change HandlerMove st rxQueue txQueue
    (if st.parseIndex = 27 then protocolFinishArp read rxQueue txQueue
    else ⟨{ read with parseIndex := st.parseIndex + 1 }, rxQueue, txQueue, none⟩)
  by_cases hlast : st.parseIndex = 27
  · rw [if_pos hlast, protocolFinishArp]
    cases hgood : (st.parsed rxQueue).arpValid with
    | true =>
      rw [if_pos rfl, ProtocolStage.hand_valid rfl]
      exact .reply hprep hstate hlast hgood
    | false =>
      rw [if_neg Bool.false_ne_true]
      exact .reject hprep hstate hlast hgood
  · rw [if_neg hlast]
    exact .readByte hprep hstate hlast

theorem protocolSelectStep_move :
    HandlerMove st rxQueue txQueue (protocolSelectStep st rxQueue txQueue) := by
  change HandlerMove st rxQueue txQueue
    (if !st.preparingPayload && st.protocolState == .protoIdle then
      protocolIdleStep st.ticks st.ticked rxQueue txQueue
    else if !st.preparingPayload && st.protocolState == .protoParseArp then
      protocolParseArpStep st.ticked rxQueue txQueue
    else ⟨st.ticked, rxQueue, txQueue, none⟩)
  cases hprep : st.preparingPayload with
  | true => exact .busy hprep
  | false =>
    cases hstate : st.protocolState with
    | protoIdle => exact protocolIdleStep_move st rxQueue txQueue hprep hstate
    | protoParseArp => exact protocolParseArpStep_move st rxQueue txQueue hprep hstate
    | protoPrepareTx => exact .parked hprep hstate

theorem protocolPrepareStep_off (hprep : st.preparingPayload = false) :
    protocolPrepareStep st txQueue = (st, txQueue) := by
  simp [protocolPrepareStep, hprep]

def Protocol.builtRing : TxPacketQueue :=
  txQueue.setBytes st.prepareTxIdx
    (Buffer.set (txQueue.bytes st.prepareTxIdx) st.prepareIndex.toNat
      (frameBodyByte st.prepareRequest st.prepareIndex))

theorem protocolPrepareStep_more (hprep : st.preparingPayload = true)
    (hmore : st.prepareIndex.toNat + 1 < st.prepareRequest.len.toNat) :
    protocolPrepareStep st txQueue =
      ({ st with prepareIndex := st.prepareIndex + 1 }, st.builtRing txQueue) := by
  have hlen : st.prepareRequest.len ≠ 0 := by
    intro h
    simp [h] at hmore
  have hlast : st.prepareIndex ≠ st.prepareRequest.len - 1 := by
    intro h
    have hnat := congrArg BitVec.toNat h
    rw [BitVec.toNat_sub_of_le (by rw [BitVec.le_def]; simp; omega)] at hnat
    simp at hnat
    omega
  simp [protocolPrepareStep, prepareTxSlotFrameBodyStep, hprep, Protocol.builtRing]
  exact ⟨hlen, hlast⟩

theorem protocolPrepareStep_last (hprep : st.preparingPayload = true)
    (hlast : st.prepareIndex.toNat + 1 = st.prepareRequest.len.toNat) :
    protocolPrepareStep st txQueue =
      ({ st with
        preparingPayload := false
        prepareRequest := { st.prepareRequest with valid := false, kind := .none } },
        packetQueuePublishWriteSlot (st.builtRing txQueue) ⟨st.prepareRequest.len⟩) := by
  have hend : st.prepareIndex = st.prepareRequest.len - 1 := by
    apply BitVec.eq_of_toNat_eq
    rw [BitVec.toNat_sub_of_le (by rw [BitVec.le_def]; simp; omega)]
    simp
    omega
  simp [protocolPrepareStep, prepareTxSlotFrameBodyStep, hprep, hend, Protocol.builtRing]

/-- The prepare branch touches the prepare registers only. -/
theorem protocolPrepareStep_fst :
    ∃ preparing request index, (protocolPrepareStep st txQueue).1 =
        { st with
          preparingPayload := preparing
          prepareRequest := request
          prepareIndex := index } ∧
      (st.preparingPayload = false → preparing = false) := by
  by_cases hprep : st.preparingPayload = true
  · rw [protocolPrepareStep, if_pos hprep]
    simp only
    by_cases hlast : (prepareTxSlotFrameBodyStep (txQueue.bytes st.prepareTxIdx)
        st.prepareRequest st.prepareIndex).2 = true
    · rw [if_pos hlast]
      exact ⟨_, _, _, rfl, fun _ => rfl⟩
    · rw [if_neg hlast]
      exact ⟨_, _, _, rfl, fun hoff => hoff⟩
  · have hoff : st.preparingPayload = false := by simpa using hprep
    rw [protocolPrepareStep_off st txQueue hoff]
    exact ⟨_, _, _, rfl, fun h => h⟩

theorem protocolSelectStep_rxQueue :
    (protocolSelectStep st rxQueue txQueue).rxQueue.bytes = rxQueue.bytes ∧
      (protocolSelectStep st rxQueue txQueue).rxQueue.slotMeta = rxQueue.slotMeta ∧
      (protocolSelectStep st rxQueue txQueue).rxQueue.writeIdx = rxQueue.writeIdx ∧
      (protocolSelectStep st rxQueue txQueue).rxQueue.dropCount = rxQueue.dropCount := by
  have hmove := protocolSelectStep_move st rxQueue txQueue
  generalize protocolSelectStep st rxQueue txQueue = stage at hmove ⊢
  cases hmove <;> exact ⟨rfl, rfl, rfl, rfl⟩

/-- Offering a request changes at most the drop counter of the transmit ring. -/
theorem protocolSelectStep_txQueue :
    (protocolSelectStep st rxQueue txQueue).txQueue =
      { txQueue with dropCount := (protocolSelectStep st rxQueue txQueue).txQueue.dropCount } := by
  have hmove := protocolSelectStep_move st rxQueue txQueue
  have hoffer : offeredRing txQueue =
      { txQueue with dropCount := (offeredRing txQueue).dropCount } := by
    unfold offeredRing
    split_ifs <;> rfl
  generalize protocolSelectStep st rxQueue txQueue = stage at hmove ⊢
  cases hmove with
  | announce => exact hoffer
  | beacon => exact hoffer
  | reply => exact hoffer
  | _ => rfl

end ArtyEthernet
