import ArtyEthernet.Model.PacketQueue
import ArtyEthernet.Model.PeriodicTimers
import ArtyEthernet.Model.TxPayloads

/-!
# The protocol handler

`ethernet_protocol_handler.h`: one received packet is examined at a time, ARP requests are parsed
a byte per cycle, and one response at a time is built into the transmit ring. Every stage also
reports the request it hands to `startProtocolTxRequest`, for statements about whole runs.
-/

namespace ArtyEthernet
open Words

inductive ProtocolState where
  | protoIdle
  | protoParseArp
  | protoPrepareTx
deriving DecidableEq, Repr

/-- The registers filled while an ARP payload is read. -/
structure ParseArp where
  hwType : BitVec 16
  protoType : BitVec 16
  hwLen : BitVec 8
  protoLen : BitVec 8
  opcode : BitVec 16
  senderMac : BitVec 48
  senderIp : BitVec 32
  targetIp : BitVec 32
deriving DecidableEq, Repr

def ParseArp.zero : ParseArp := ⟨0, 0, 0, 0, 0, 0, 0, 0⟩

def ParseArp.store (regs : ParseArp) (parseIndex : ℕ) (dataByte : Byte) : ParseArp :=
  match parseIndex with
  | 0 => { regs with hwType := setRange regs.hwType 8 dataByte }
  | 1 => { regs with hwType := setRange regs.hwType 0 dataByte }
  | 2 => { regs with protoType := setRange regs.protoType 8 dataByte }
  | 3 => { regs with protoType := setRange regs.protoType 0 dataByte }
  | 4 => { regs with hwLen := dataByte }
  | 5 => { regs with protoLen := dataByte }
  | 6 => { regs with opcode := setRange regs.opcode 8 dataByte }
  | 7 => { regs with opcode := setRange regs.opcode 0 dataByte }
  | 8 => { regs with senderMac := setRange regs.senderMac 40 dataByte }
  | 9 => { regs with senderMac := setRange regs.senderMac 32 dataByte }
  | 10 => { regs with senderMac := setRange regs.senderMac 24 dataByte }
  | 11 => { regs with senderMac := setRange regs.senderMac 16 dataByte }
  | 12 => { regs with senderMac := setRange regs.senderMac 8 dataByte }
  | 13 => { regs with senderMac := setRange regs.senderMac 0 dataByte }
  | 14 => { regs with senderIp := setRange regs.senderIp 24 dataByte }
  | 15 => { regs with senderIp := setRange regs.senderIp 16 dataByte }
  | 16 => { regs with senderIp := setRange regs.senderIp 8 dataByte }
  | 17 => { regs with senderIp := setRange regs.senderIp 0 dataByte }
  | 24 => { regs with targetIp := setRange regs.targetIp 24 dataByte }
  | 25 => { regs with targetIp := setRange regs.targetIp 16 dataByte }
  | 26 => { regs with targetIp := setRange regs.targetIp 8 dataByte }
  | 27 => { regs with targetIp := setRange regs.targetIp 0 dataByte }
  | _ => regs

def ParseArp.arpValid (regs : ParseArp) : Bool :=
  regs.hwType == arpHwTypeEthernet && regs.protoType == arpProtoTypeIpv4 &&
    regs.hwLen == arpHwLenEthernet && regs.protoLen == arpProtoLenIpv4 &&
    regs.opcode == arpOpcodeRequest && regs.targetIp == fpgaIp

/-- The reply to a parsed request. -/
def arpReplyRequest (senderMac : BitVec 48) (senderIp : BitVec 32) : ProtocolTxRequest where
  valid := true
  header := ⟨senderMac, fpgaMac, arpEthertype⟩
  len := protocolTxFrameBodyLen .arpReply
  kind := .arpReply
  arpRequesterMac := senderMac
  arpRequesterIp := senderIp
  rxPacketCount := 0
  rxQueueDropCount := 0
  rxProtocolDropCount := 0
  txDropCount := 0
  arpReplyCount := 0
  udpReplyCount := 0
  uptimeBeaconCount := 0

/-- The static variables of `protocol_queue_step` and of the timers it steps. -/
structure Protocol where
  timers : PeriodicTimers
  protocolState : ProtocolState
  preparingPayload : Bool
  prepareRequest : ProtocolTxRequest
  prepareIndex : BitVec 11
  prepareTxIdx : BitVec 2
  rxProtocolDropCount : BitVec 32
  rxPacketCount : BitVec 32
  arpReplyCount : BitVec 32
  uptimeBeaconCount : BitVec 32
  parseRxIdx : BitVec 3
  parseIndex : BitVec 5
  parseArp : ParseArp

def Protocol.init : Protocol where
  timers := .init
  protocolState := .protoIdle
  preparingPayload := false
  prepareRequest :=
    ⟨false, ⟨0, fpgaMac, arpEthertype⟩, 0, .none, 0, 0, 0, 0, 0, 0, 0, 0, 0⟩
  prepareIndex := 0
  prepareTxIdx := 0
  rxProtocolDropCount := 0
  rxPacketCount := 0
  arpReplyCount := 0
  uptimeBeaconCount := 0
  parseRxIdx := 0
  parseIndex := 0
  parseArp := .zero

def startProtocolTxRequest (request : ProtocolTxRequest) (txQueue : TxPacketQueue)
    (st : Protocol) : Protocol × TxPacketQueue :=
  if !request.valid then (st, txQueue)
  else if !packetQueueWriteSlotAvailable txQueue then (st, packetQueueDropWrite txQueue)
  else
    ({ st with
      preparingPayload := true
      prepareRequest := request
      prepareIndex := 0
      prepareTxIdx := packetQueueWriteSlot txQueue }, txQueue)

/-- The handler and both rings after a stage, and the request that stage handed over. -/
structure ProtocolStage where
  st : Protocol
  rxQueue : RxPacketQueue
  txQueue : TxPacketQueue
  handed : Option ProtocolTxRequest

def ProtocolStage.hand (request : ProtocolTxRequest) (st : Protocol) (rxQueue : RxPacketQueue)
    (txQueue : TxPacketQueue) : ProtocolStage :=
  let r := startProtocolTxRequest request txQueue st
  ⟨r.1, rxQueue, r.2, some request⟩

/-- The beacon request with the counters it shows. -/
def beaconSnapshot (st : Protocol) (rxQueue : RxPacketQueue) (txQueue : TxPacketQueue) :
    ProtocolTxRequest :=
  { protocolTxBeaconRequest with
    rxPacketCount := st.rxPacketCount
    rxQueueDropCount := packetQueueDropCount rxQueue
    rxProtocolDropCount := st.rxProtocolDropCount
    txDropCount := packetQueueDropCount txQueue
    arpReplyCount := st.arpReplyCount
    udpReplyCount := 0
    uptimeBeaconCount := st.uptimeBeaconCount }

/-- Packets the handler reads as ARP. -/
def RxPacketMeta.wantsArpParse (packet : RxPacketMeta) : Bool :=
  (packet.header.dstMac == fpgaMac || packet.header.dstMac == broadcastMac) &&
    packet.header.ethertype == arpEthertype &&
    decide (arpPayloadBytes.setWidth 11 ≤ packet.payloadLen)

def protocolDropPacket (st : Protocol) (rxQueue : RxPacketQueue) (txQueue : TxPacketQueue) :
    ProtocolStage :=
  ⟨{ st with rxProtocolDropCount := st.rxProtocolDropCount + 1 },
    packetQueueConsumeReadSlot rxQueue, txQueue, none⟩

/-- The first look at the packet in the read slot. -/
def protocolExaminePacket (st : Protocol) (rxQueue : RxPacketQueue) (txQueue : TxPacketQueue) :
    ProtocolStage :=
  let readIdx := packetQueueReadSlot rxQueue
  let packet := rxQueue.slotMeta readIdx
  let st := { st with rxPacketCount := st.rxPacketCount + 1 }
  if packet.truncated then protocolDropPacket st rxQueue txQueue
  else if packet.wantsArpParse then
    ⟨{ st with
      parseRxIdx := readIdx
      parseIndex := 0
      parseArp := .zero
      protocolState := .protoParseArp }, rxQueue, txQueue, none⟩
  else protocolDropPacket st rxQueue txQueue

def protocolBeaconStep (st : Protocol) (rxQueue : RxPacketQueue) (txQueue : TxPacketQueue) :
    ProtocolStage :=
  let r := ProtocolStage.hand (beaconSnapshot st rxQueue txQueue) st rxQueue txQueue
  if r.st.preparingPayload then
    { r with st := { r.st with uptimeBeaconCount := r.st.uptimeBeaconCount + 1 } }
  else r

/-- The branch taken when nothing is prepared and the state is `protoIdle`. -/
def protocolIdleStep (ticks : PeriodicTxTicks) (st : Protocol) (rxQueue : RxPacketQueue)
    (txQueue : TxPacketQueue) : ProtocolStage :=
  if packetQueueReadSlotValid rxQueue then protocolExaminePacket st rxQueue txQueue
  else if ticks.gratuitousArpTick then
    ProtocolStage.hand protocolTxGratuitousArpRequest st rxQueue txQueue
  else if ticks.beaconTick then protocolBeaconStep st rxQueue txQueue
  else ⟨st, rxQueue, txQueue, none⟩

/-- The decision taken in the cycle that reads the last ARP byte. -/
def protocolFinishArp (st : Protocol) (rxQueue : RxPacketQueue) (txQueue : TxPacketQueue) :
    ProtocolStage :=
  let stage : ProtocolStage :=
    if st.parseArp.arpValid then
      ProtocolStage.hand (arpReplyRequest st.parseArp.senderMac st.parseArp.senderIp)
        { st with arpReplyCount := st.arpReplyCount + 1 } rxQueue txQueue
    else ⟨{ st with rxProtocolDropCount := st.rxProtocolDropCount + 1 }, rxQueue, txQueue, none⟩
  { stage with
    st := { stage.st with protocolState := .protoIdle }
    rxQueue := packetQueueConsumeReadSlot stage.rxQueue }

/-- The branch taken when nothing is prepared and the state is `protoParseArp`. -/
def protocolParseArpStep (st : Protocol) (rxQueue : RxPacketQueue) (txQueue : TxPacketQueue) :
    ProtocolStage :=
  let dataByte := Buffer.get (rxQueue.bytes st.parseRxIdx) st.parseIndex.toNat
  let st := { st with parseArp := st.parseArp.store st.parseIndex.toNat dataByte }
  if st.parseIndex = (arpPayloadBytes - 1).setWidth 5 then protocolFinishArp st rxQueue txQueue
  else ⟨{ st with parseIndex := st.parseIndex + 1 }, rxQueue, txQueue, none⟩

/-- The branch that builds one byte of the response. -/
def protocolPrepareStep (st : Protocol) (txQueue : TxPacketQueue) : Protocol × TxPacketQueue :=
  if st.preparingPayload then
    let r := prepareTxSlotFrameBodyStep (txQueue.bytes st.prepareTxIdx) st.prepareRequest
      st.prepareIndex
    let txQueue := txQueue.setBytes st.prepareTxIdx r.1
    if r.2 then
      ({ st with
        preparingPayload := false
        prepareRequest := { st.prepareRequest with valid := false, kind := .none } },
        packetQueuePublishWriteSlot txQueue ⟨st.prepareRequest.len⟩)
    else ({ st with prepareIndex := st.prepareIndex + 1 }, txQueue)
  else (st, txQueue)

/-- Everything `protocol_queue_step` does before its prepare branch. -/
def protocolSelectStep (st : Protocol) (rxQueue : RxPacketQueue) (txQueue : TxPacketQueue) :
    ProtocolStage :=
  let timer := periodicTxTimerStep st.timers
  let st := { st with timers := timer.1 }
  if !st.preparingPayload && st.protocolState == .protoIdle then
    protocolIdleStep timer.2 st rxQueue txQueue
  else if !st.preparingPayload && st.protocolState == .protoParseArp then
    protocolParseArpStep st rxQueue txQueue
  else ⟨st, rxQueue, txQueue, none⟩

def protocolQueueStep (st : Protocol) (rxQueue : RxPacketQueue) (txQueue : TxPacketQueue) :
    ProtocolStage :=
  let stage := protocolSelectStep st rxQueue txQueue
  let r := protocolPrepareStep stage.st stage.txQueue
  ⟨r.1, stage.rxQueue, r.2, stage.handed⟩

end ArtyEthernet
