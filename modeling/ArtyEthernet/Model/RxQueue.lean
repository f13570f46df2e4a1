import ArtyEthernet.Model.Mii
import ArtyEthernet.Model.PacketQueue
import ArtyEthernet.Model.Rx

/-!
# Receiving into the packet ring

`ethernet_rx_queue.h`: bytes of a burst are parsed straight into the write slot, or into a
scratch buffer when no slot was free at its start, and a valid frame is published at its end.
-/

namespace ArtyEthernet

/-- The static variables of the receive path. -/
structure RxCapture where
  mii : MiiRx
  parser : RxParser
  rxDropPayload : Buffer maxEthPayloadBytesInt
  rxDropCurrent : Bool

def RxCapture.init : RxCapture := ⟨.init, .init, Words.Buffer.zero, false⟩

/-- What `ethernet_rx_queue_step` has computed before its last branch. -/
structure RxSample where
  mii : MiiRx
  event : MiiRxEvent
  parser : RxParser
  frame : EthernetFrameMeta
  rxDropPayload : Buffer maxEthPayloadBytesInt
  rxDropCurrent : Bool
  rxQueue : RxPacketQueue

def rxSampleStep (st : RxCapture) (pins : RxPins) (rxQueue : RxPacketQueue) : RxSample :=
  let writeIdx := packetQueueWriteSlot rxQueue
  let assembled := miiRxByteAssemblerStep st.mii pins.ethRxDv pins.ethRxd
  let event := assembled.2
  let rxDropCurrent :=
    if event.frameStart then !packetQueueWriteSlotAvailable rxQueue else st.rxDropCurrent
  let rxQueue :=
    if event.frameStart && rxDropCurrent then packetQueueDropWrite rxQueue else rxQueue
  let parse := ethernetRxParserStep st.parser event.frameStart event.byteValid event.dataByte
    event.frameEnd pins.ethRxerr
  if rxDropCurrent then
    let r := parse st.rxDropPayload
    ⟨assembled.1, event, r.1, r.2.2, r.2.1, rxDropCurrent, rxQueue⟩
  else
    let r := parse (rxQueue.bytes writeIdx)
    ⟨assembled.1, event, r.1, r.2.2, st.rxDropPayload, rxDropCurrent,
      rxQueue.setBytes writeIdx r.2.1⟩

def EthernetFrameMeta.toRxPacketMeta (frame : EthernetFrameMeta) : RxPacketMeta where
  header := ⟨frame.dstMac, frame.srcMac, frame.ethertype⟩
  payloadLen := frame.payloadLen
  truncated := frame.truncated

/-- The metadata handed to `packet_queue_publish_write_slot`, if the burst ends as a packet. -/
def RxSample.published (r : RxSample) : Option RxPacketMeta :=
  if r.event.frameEnd && (!r.rxDropCurrent && r.frame.valid) then some r.frame.toRxPacketMeta
  else none

def ethernetRxQueueStep (st : RxCapture) (pins : RxPins) (rxQueue : RxPacketQueue) :
    RxCapture × RxPacketQueue :=
  let r := rxSampleStep st pins rxQueue
  (⟨r.mii, r.parser, r.rxDropPayload, if r.event.frameEnd then false else r.rxDropCurrent⟩,
    match r.published with
    | some rxMeta => packetQueuePublishWriteSlot r.rxQueue rxMeta
    | none => r.rxQueue)

end ArtyEthernet
