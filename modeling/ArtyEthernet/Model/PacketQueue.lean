import ArtyEthernet.Model.Constants

/-!
# Rings of packet slots

The `PacketSlotQueue` template of `ethernet_packet_queue.h` and its operations, generic in the
slot size, the metadata and the number of index bits. Slots are addressed by `ap_uint<IndexBits>`
values, so the index arithmetic wraps by itself.
-/

namespace ArtyEthernet

structure PacketSlotQueue (MaxBytes : ℕ) (Meta : Type) (IndexBits : ℕ) where
  slotMeta : BitVec IndexBits → Meta
  valid : BitVec IndexBits → Bool
  bytes : BitVec IndexBits → Buffer MaxBytes
  readIdx : BitVec IndexBits
  writeIdx : BitVec IndexBits
  dropCount : BitVec 32

structure RxPacketMeta where
  header : EthHeader
  payloadLen : BitVec 11
  truncated : Bool
deriving DecidableEq, Repr

structure TxPacketMeta where
  frameBodyLen : BitVec 11
deriving DecidableEq, Repr

abbrev rxPacketIndexBits : ℕ := 3
abbrev txPacketIndexBits : ℕ := 2

abbrev RxPacketQueue := PacketSlotQueue maxEthPayloadBytesInt RxPacketMeta rxPacketIndexBits

abbrev TxPacketQueue := PacketSlotQueue txFrameBodyBytesInt TxPacketMeta txPacketIndexBits

variable {MaxBytes IndexBits : ℕ} {Meta : Type}

def PacketSlotQueue.zero (MaxBytes IndexBits : ℕ) (blank : Meta) :
    PacketSlotQueue MaxBytes Meta IndexBits where
  slotMeta _ := blank
  valid _ := false
  bytes _ := Words.Buffer.zero
  readIdx := 0
  writeIdx := 0
  dropCount := 0

def packetQueueWriteSlot (queue : PacketSlotQueue MaxBytes Meta IndexBits) : BitVec IndexBits :=
  queue.writeIdx

def packetQueueWriteSlotAvailable (queue : PacketSlotQueue MaxBytes Meta IndexBits) : Bool :=
  !queue.valid queue.writeIdx

def packetQueuePublishWriteSlot (queue : PacketSlotQueue MaxBytes Meta IndexBits)
    (packetMeta : Meta) : PacketSlotQueue MaxBytes Meta IndexBits :=
  if queue.valid queue.writeIdx then { queue with dropCount := queue.dropCount + 1 }
  else { queue with
    slotMeta := fun i => if i = queue.writeIdx then packetMeta else queue.slotMeta i
    valid := fun i => if i = queue.writeIdx then true else queue.valid i
    writeIdx := queue.writeIdx + 1 }

def packetQueueReadSlot (queue : PacketSlotQueue MaxBytes Meta IndexBits) : BitVec IndexBits :=
  queue.readIdx

def packetQueueReadSlotValid (queue : PacketSlotQueue MaxBytes Meta IndexBits) : Bool :=
  queue.valid queue.readIdx

def packetQueueConsumeReadSlot (queue : PacketSlotQueue MaxBytes Meta IndexBits) :
    PacketSlotQueue MaxBytes Meta IndexBits :=
  { queue with
    valid := fun i => if i = queue.readIdx then false else queue.valid i
    readIdx := queue.readIdx + 1 }

def packetQueueDropWrite (queue : PacketSlotQueue MaxBytes Meta IndexBits) :
    PacketSlotQueue MaxBytes Meta IndexBits :=
  { queue with dropCount := queue.dropCount + 1 }

def packetQueueDropCount (queue : PacketSlotQueue MaxBytes Meta IndexBits) : BitVec 32 :=
  queue.dropCount

def PacketSlotQueue.setBytes (queue : PacketSlotQueue MaxBytes Meta IndexBits)
    (slot : BitVec IndexBits) (buf : Buffer MaxBytes) : PacketSlotQueue MaxBytes Meta IndexBits :=
  { queue with bytes := fun i => if i = slot then buf else queue.bytes i }

end ArtyEthernet
