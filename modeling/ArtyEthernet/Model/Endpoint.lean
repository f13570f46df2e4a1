import ArtyEthernet.Library.Trace
import ArtyEthernet.Model.ProtocolHandler
import ArtyEthernet.Model.RxQueue
import ArtyEthernet.Model.TxQueue

/-!
# The Layer-2 endpoint

The top level of `ethernet_l2_endpoint_hls.cpp`: every clock cycle steps the receive path, the
protocol handler and the transmit path in this order. A run is the endpoint after a finite
sequence of sampled receive pins, from reset.
-/

namespace ArtyEthernet

/-- All static state of the design. -/
structure Endpoint where
  capture : RxCapture
  rxQueue : RxPacketQueue
  proto : Protocol
  txQueue : TxPacketQueue
  drain : TxDrain

structure TxPins where
  ethTxEn : Bool
  ethTxd : Nibble
  txFrameToggle : Bool
  rxActive : Bool
  txActive : Bool
deriving DecidableEq, Repr

def Endpoint.reset : Endpoint where
  capture := .init
  rxQueue := .zero _ _ ⟨⟨0, 0, 0⟩, 0, false⟩
  proto := .init
  txQueue := .zero _ _ ⟨0⟩
  drain := .init

namespace Endpoint

def rxStage (s : Endpoint) (pins : RxPins) : RxCapture × RxPacketQueue :=
  ethernetRxQueueStep s.capture pins s.rxQueue

def protoStage (s : Endpoint) (pins : RxPins) : ProtocolStage :=
  protocolQueueStep s.proto (s.rxStage pins).2 s.txQueue

def txStage (s : Endpoint) (pins : RxPins) : TxDrain × TxPacketQueue × FramerPins :=
  ethernetTxQueueStep s.drain (s.protoStage pins).txQueue

end Endpoint

def ethernetL2EndpointHls (s : Endpoint) (pins : RxPins) : Endpoint × TxPins :=
  let rx := s.rxStage pins
  let proto := s.protoStage pins
  let tx := s.txStage pins
  (⟨rx.1, proto.rxQueue, proto.st, tx.2.1, tx.1⟩,
    ⟨tx.2.2.ethTxEn, tx.2.2.ethTxd, tx.2.2.txFrameToggle, pins.ethRxDv, tx.2.2.txActive⟩)

namespace Endpoint

def step (s : Endpoint) (pins : RxPins) : Endpoint := (ethernetL2EndpointHls s pins).1

def outputs (s : Endpoint) (pins : RxPins) : TxPins := (ethernetL2EndpointHls s pins).2

/-- The packet published by the receive path in this cycle: metadata and slot bytes. -/
def rxPublished (s : Endpoint) (pins : RxPins) :
    Option (RxPacketMeta × Buffer maxEthPayloadBytesInt) :=
  let sample := rxSampleStep s.capture pins s.rxQueue
  sample.published.map fun rxMeta => (rxMeta, sample.rxQueue.bytes sample.rxQueue.writeIdx)

/-- The request handed to `startProtocolTxRequest` in this cycle. -/
def handed (s : Endpoint) (pins : RxPins) : Option ProtocolTxRequest := (s.protoStage pins).handed

/-- The request accepted in this cycle: it found a free transmit slot. -/
def accepted (s : Endpoint) (pins : RxPins) : Option ProtocolTxRequest :=
  if packetQueueWriteSlotAvailable s.txQueue then s.handed pins else none

end Endpoint

def runFrom (inputs : List RxPins) : Endpoint := Synchronous.run Endpoint.step .reset inputs

def drivenPins (inputs : List RxPins) : List TxPins :=
  Synchronous.trace Endpoint.step Endpoint.outputs .reset inputs

def publishedPackets (inputs : List RxPins) : List (RxPacketMeta × Buffer maxEthPayloadBytesInt) :=
  Synchronous.events Endpoint.step Endpoint.rxPublished .reset inputs

def handedRequests (inputs : List RxPins) : List ProtocolTxRequest :=
  Synchronous.events Endpoint.step Endpoint.handed .reset inputs

def acceptedRequests (inputs : List RxPins) : List ProtocolTxRequest :=
  Synchronous.events Endpoint.step Endpoint.accepted .reset inputs

section Snoc
variable (inputs : List RxPins) (i : RxPins)

@[simp] theorem runFrom_snoc : runFrom (inputs ++ [i]) = (runFrom inputs).step i :=
  Synchronous.run_snoc Endpoint.step .reset inputs i

theorem runFrom_append (later : List RxPins) :
    runFrom (inputs ++ later) = Synchronous.run Endpoint.step (runFrom inputs) later :=
  List.foldl_append

@[simp] theorem drivenPins_snoc :
    drivenPins (inputs ++ [i]) = drivenPins inputs ++ [(runFrom inputs).outputs i] :=
  Synchronous.trace_snoc Endpoint.step Endpoint.outputs .reset inputs i

@[simp] theorem publishedPackets_snoc :
    publishedPackets (inputs ++ [i]) =
      publishedPackets inputs ++ ((runFrom inputs).rxPublished i).toList :=
  Synchronous.events_snoc Endpoint.rxPublished .reset inputs i

@[simp] theorem handedRequests_snoc :
    handedRequests (inputs ++ [i]) = handedRequests inputs ++ ((runFrom inputs).handed i).toList :=
  Synchronous.events_snoc Endpoint.handed .reset inputs i

@[simp] theorem acceptedRequests_snoc :
    acceptedRequests (inputs ++ [i]) =
      acceptedRequests inputs ++ ((runFrom inputs).accepted i).toList :=
  Synchronous.events_snoc Endpoint.accepted .reset inputs i

end Snoc

end ArtyEthernet
