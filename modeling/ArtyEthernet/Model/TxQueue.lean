import ArtyEthernet.Model.Framer
import ArtyEthernet.Model.PacketQueue

/-!
# Draining the transmit ring

`ethernet_tx_queue.h`: the packet in the read slot is handed to the framer and its slot is
consumed when the framer has finished the gap after it.
-/

namespace ArtyEthernet

/-- The static variables of the transmit path. -/
structure TxDrain where
  framerActive : Bool
  framerSlotIdx : BitVec 2
  framer : Framer
deriving DecidableEq, Repr

def TxDrain.init : TxDrain := ⟨false, 0, .init⟩

def txStartRequest (st : TxDrain) (txQueue : TxPacketQueue) : Bool :=
  !st.framerActive && packetQueueReadSlotValid txQueue

def ethernetTxQueueStep (st : TxDrain) (txQueue : TxPacketQueue) :
    TxDrain × TxPacketQueue × FramerPins :=
  let readIdx := packetQueueReadSlot txQueue
  let startRequest := txStartRequest st txQueue
  let startLen := (txQueue.slotMeta readIdx).frameBodyLen
  let framerActive := if startRequest then true else st.framerActive
  let framerSlotIdx := if startRequest then readIdx else st.framerSlotIdx
  let r := ethernetTxFramerStep st.framer startRequest startLen (txQueue.bytes framerSlotIdx)
  if framerActive && r.2.txIdle then
    (⟨false, framerSlotIdx, r.1⟩, packetQueueConsumeReadSlot txQueue, r.2)
  else (⟨framerActive, framerSlotIdx, r.1⟩, txQueue, r.2)

end ArtyEthernet
