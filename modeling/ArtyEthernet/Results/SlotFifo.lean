import ArtyEthernet.Library.Trace
import ArtyEthernet.Proofs.Rings

/-!
# The slot ring is a bounded queue

A ring of slots is used as a first-in first-out queue of packets whose buffers circulate: a
publisher fills the next spare buffer and appends it under its metadata, and a consumer returns
the buffer of the oldest packet behind the other spare ones. `SlotFifo` says this without indices
or flags, for any number of slots; the ring simulates it through every sequence of operations.
-/

namespace ArtyEthernet
open Words

variable {MaxBytes IndexBits slots : ℕ} {Meta : Type}

/-- A use of the ring. Filling and consuming wait for the flag that permits them. -/
inductive RingOp (Meta : Type) where
  | fill (index : ℕ) (dataByte : Byte)
  | publish (packetMeta : Meta)
  | consume
  | dropWrite

def ringStep (queue : PacketSlotQueue MaxBytes Meta IndexBits) :
    RingOp Meta → PacketSlotQueue MaxBytes Meta IndexBits
  | .fill index dataByte =>
    if packetQueueWriteSlotAvailable queue then
      queue.setBytes (packetQueueWriteSlot queue)
        (Buffer.set (queue.bytes (packetQueueWriteSlot queue)) index dataByte)
    else queue
  | .publish packetMeta => packetQueuePublishWriteSlot queue packetMeta
  | .consume =>
    if packetQueueReadSlotValid queue then packetQueueConsumeReadSlot queue else queue
  | .dropWrite => packetQueueDropWrite queue

/-- The packets in the queue and the buffers that are spare, `slots` buffers in all. -/
structure SlotFifo (MaxBytes : ℕ) (Meta : Type) (slots : ℕ) where
  packets : List (Meta × Buffer MaxBytes)
  spare : List (Buffer MaxBytes)
  drops : ℕ
  length_eq : packets.length + spare.length = slots

namespace SlotFifo

variable (fifo : SlotFifo MaxBytes Meta slots)

def empty : SlotFifo MaxBytes Meta slots :=
  ⟨[], List.replicate slots Buffer.zero, 0, by simp⟩

def drop : SlotFifo MaxBytes Meta slots := { fifo with drops := fifo.drops + 1 }

def fill (index : ℕ) (dataByte : Byte) : SlotFifo MaxBytes Meta slots where
  packets := fifo.packets
  spare := fifo.spare.modifyHead fun buf => Buffer.set buf index dataByte
  drops := fifo.drops
  length_eq := by simpa using fifo.length_eq

/-- The first spare buffer becomes the last packet; without one the packet is dropped. -/
def publish (packetMeta : Meta) : SlotFifo MaxBytes Meta slots :=
  match h : fifo.spare with
  | [] => fifo.drop
  | buf :: rest =>
    ⟨fifo.packets ++ [(packetMeta, buf)], rest, fifo.drops, by
      have hlen := fifo.length_eq
      rw [h] at hlen
      simpa [Nat.add_assoc, Nat.add_comm 1] using hlen⟩

def consume : SlotFifo MaxBytes Meta slots :=
  match h : fifo.packets with
  | [] => fifo
  | packet :: rest =>
    ⟨rest, fifo.spare ++ [packet.2], fifo.drops, by
      have hlen := fifo.length_eq
      rw [h, List.length_cons] at hlen
      rw [List.length_append, List.length_singleton]
      omega⟩

def step (fifo : SlotFifo MaxBytes Meta slots) : RingOp Meta → SlotFifo MaxBytes Meta slots
  | .fill index dataByte => fifo.fill index dataByte
  | .publish packetMeta => fifo.publish packetMeta
  | .consume => fifo.consume
  | .dropWrite => fifo.drop

theorem spare_eq_nil_iff : fifo.spare = [] ↔ fifo.packets.length = slots := by
  have hlen := fifo.length_eq
  rw [← List.length_eq_zero_iff]
  omega

theorem publish_full (packetMeta : Meta) (h : fifo.spare = []) :
    fifo.publish packetMeta = fifo.drop := by
  unfold publish
  split
  · rfl
  · rename_i hcons
    simp [h] at hcons

theorem publish_packets (packetMeta : Meta) {buf : Buffer MaxBytes} {rest : List (Buffer MaxBytes)}
    (h : fifo.spare = buf :: rest) :
    (fifo.publish packetMeta).packets = fifo.packets ++ [(packetMeta, buf)] ∧
      (fifo.publish packetMeta).spare = rest ∧ (fifo.publish packetMeta).drops = fifo.drops := by
  unfold publish
  split
  · rename_i hnil
    simp [h] at hnil
  · rename_i buf' rest' hcons
    rw [h] at hcons
    obtain ⟨rfl, rfl⟩ := List.cons.inj hcons
    exact ⟨rfl, rfl, rfl⟩

theorem consume_nil (h : fifo.packets = []) : fifo.consume = fifo := by
  unfold consume
  split
  · rfl
  · rename_i hcons
    simp [h] at hcons

theorem consume_cons {packet : Meta × Buffer MaxBytes} {rest : List (Meta × Buffer MaxBytes)}
    (h : fifo.packets = packet :: rest) :
    fifo.consume.packets = rest ∧ fifo.consume.spare = fifo.spare ++ [packet.2] ∧
      fifo.consume.drops = fifo.drops := by
  unfold consume
  split
  · rename_i hnil
    simp [h] at hnil
  · rename_i packet' rest' hcons
    rw [h] at hcons
    obtain ⟨rfl, rfl⟩ := List.cons.inj hcons
    exact ⟨rfl, rfl, rfl⟩

end SlotFifo

/-- The ring `queue` is in the abstract state `fifo`: the spare buffers are the slots from the
write index on. -/
structure RingSimulates (queue : PacketSlotQueue MaxBytes Meta IndexBits)
    (fifo : SlotFifo MaxBytes Meta (2 ^ IndexBits)) : Prop where
  holds : queue.Holds fifo.packets
  spare : ∀ j (hj : j < fifo.spare.length),
    queue.bytes (queue.writeIdx + BitVec.ofNat IndexBits j) = fifo.spare[j]
  drops : queue.dropCount = BitVec.ofNat 32 fifo.drops

namespace RingSimulates

variable {queue : PacketSlotQueue MaxBytes Meta IndexBits}
  {fifo : SlotFifo MaxBytes Meta (2 ^ IndexBits)}

theorem start (blank : Meta) :
    RingSimulates (PacketSlotQueue.zero MaxBytes IndexBits blank) SlotFifo.empty where
  holds := PacketSlotQueue.holds_zero blank
  spare j hj := by simp [SlotFifo.empty, PacketSlotQueue.zero]
  drops := rfl

theorem writeSlotAvailable (h : RingSimulates queue fifo) :
    packetQueueWriteSlotAvailable queue = true ↔ fifo.packets.length < 2 ^ IndexBits :=
  h.holds.writeSlotAvailable

theorem available_iff (h : RingSimulates queue fifo) :
    packetQueueWriteSlotAvailable queue = true ↔ fifo.spare ≠ [] := by
  have hle : fifo.packets.length ≤ 2 ^ IndexBits := CyclicFifo.Holds.length_le h.holds
  rw [h.writeSlotAvailable, Ne, fifo.spare_eq_nil_iff]
  omega

theorem spare_head (h : RingSimulates queue fifo) {buf : Buffer MaxBytes}
    {rest : List (Buffer MaxBytes)} (hspare : fifo.spare = buf :: rest) :
    queue.bytes queue.writeIdx = buf := by
  have h0 := h.spare 0 (by simp [hspare])
  simpa [hspare] using h0

theorem drop (h : RingSimulates queue fifo) :
    RingSimulates (packetQueueDropWrite queue) fifo.drop where
  holds := h.holds.dropWrite
  spare := h.spare
  drops := by
    rw [SlotFifo.drop, BitVec.ofNat_add, ← h.drops]
    rfl

theorem fill (h : RingSimulates queue fifo) (index : ℕ) (dataByte : Byte) :
    RingSimulates (ringStep queue (.fill index dataByte)) (fifo.fill index dataByte) := by
  simp only [ringStep]
  cases hspare : fifo.spare with
  | nil =>
    have hfull : ¬ packetQueueWriteSlotAvailable queue = true := by
      rw [h.available_iff]
      exact not_not_intro hspare
    have hfill : (fifo.fill index dataByte).spare = fifo.spare := by
      simp [SlotFifo.fill, hspare]
    rw [if_neg hfull]
    refine ⟨h.holds, ?_, h.drops⟩
    intro j hj
    simp [hfill, hspare] at hj
  | cons buf rest =>
    have hroom : packetQueueWriteSlotAvailable queue = true := by
      rw [h.available_iff, hspare]
      exact List.cons_ne_nil _ _
    have hfree : queue.valid queue.writeIdx = false := by
      simpa [packetQueueWriteSlotAvailable] using hroom
    have hfill : (fifo.fill index dataByte).spare = Buffer.set buf index dataByte :: rest := by
      simp [SlotFifo.fill, hspare]
    rw [if_pos hroom]
    refine ⟨h.holds.setBytes_write hfree _, ?_, h.drops⟩
    intro j hj
    simp only [hfill]
    cases j with
    | zero => simp [PacketSlotQueue.setBytes, packetQueueWriteSlot, h.spare_head hspare]
    | succ j =>
      have hlt : j + 1 < fifo.spare.length := by simpa [hfill, hspare] using hj
      have hturn : j + 1 < 2 ^ IndexBits := by have := fifo.length_eq; omega
      have hne : queue.writeIdx + BitVec.ofNat IndexBits (j + 1) ≠ queue.writeIdx := by
        intro he
        have hoff := CyclicFifo.toNat_offset queue.writeIdx hturn
        rw [he] at hoff
        simp at hoff
      have hold := h.spare (j + 1) hlt
      simpa [PacketSlotQueue.setBytes, packetQueueWriteSlot, hne, hspare] using hold

theorem publish (h : RingSimulates queue fifo) (packetMeta : Meta) :
    RingSimulates (packetQueuePublishWriteSlot queue packetMeta) (fifo.publish packetMeta) := by
  cases hspare : fifo.spare with
  | nil =>
    have hfull : queue.valid queue.writeIdx = true := by
      have hiff := h.available_iff
      simpa [packetQueueWriteSlotAvailable, hspare] using hiff
    rw [fifo.publish_full packetMeta hspare, packetQueuePublishWriteSlot, if_pos hfull]
    exact h.drop
  | cons buf rest =>
    have hroom : fifo.packets.length < 2 ^ IndexBits := by
      rw [← h.writeSlotAvailable, h.available_iff, hspare]
      exact List.cons_ne_nil _ _
    have hfree : queue.valid queue.writeIdx = false :=
      (CyclicFifo.Holds.write_free_iff h.holds).mpr hroom
    obtain ⟨hpackets, hrest, hdrops⟩ := fifo.publish_packets packetMeta hspare
    have hpub := h.holds.publish hroom packetMeta
    rw [h.spare_head hspare] at hpub
    refine ⟨?_, ?_, ?_⟩
    · rw [hpackets]
      exact hpub
    · intro j hj
      have hlt : j + 1 < fifo.spare.length := by simpa [hrest, hspare] using hj
      have hold := h.spare (j + 1) hlt
      rw [← CyclicFifo.advance] at hold
      simpa [packetQueuePublishWriteSlot, hfree, hrest, hspare] using hold
    · rw [hdrops, ← h.drops, packetQueuePublishWriteSlot, if_neg (by simp [hfree])]

theorem consume (h : RingSimulates queue fifo) :
    RingSimulates (ringStep queue .consume) fifo.consume := by
  simp only [ringStep]
  cases hpackets : fifo.packets with
  | nil =>
    have hempty : ¬ packetQueueReadSlotValid queue = true := by
      rw [h.holds.readSlotValid]
      exact not_not_intro hpackets
    rw [if_neg hempty, fifo.consume_nil hpackets]
    exact h
  | cons packet rest =>
    have hold := h.holds
    rw [hpackets] at hold
    obtain ⟨hrest, hspare, hdrops⟩ := fifo.consume_cons hpackets
    rw [if_pos (by rw [h.holds.readSlotValid, hpackets]; exact List.cons_ne_nil _ _)]
    refine ⟨?_, ?_, ?_⟩
    · rw [hrest]
      exact hold.consume
    · intro j hj
      -- The returned buffer is one whole turn behind the read index.
      have hread : queue.writeIdx + BitVec.ofNat IndexBits fifo.spare.length = queue.readIdx := by
        rw [CyclicFifo.Holds.write_eq h.holds, BitVec.add_assoc, ← BitVec.ofNat_add,
          fifo.length_eq, CyclicFifo.ofNat_turn, BitVec.add_zero]
      change queue.bytes (queue.writeIdx + BitVec.ofNat IndexBits j) = _
      simp only [hspare] at hj ⊢
      by_cases hlt : j < fifo.spare.length
      · rw [h.spare j hlt, List.getElem_append_left hlt]
      · have hj : j = fifo.spare.length := by
          rw [List.length_append, List.length_singleton] at hj
          omega
        subst hj
        rw [hread, hold.head.2]
        simp
    · rw [hdrops]
      exact h.drops

theorem step (h : RingSimulates queue fifo) (op : RingOp Meta) :
    RingSimulates (ringStep queue op) (fifo.step op) := by
  cases op with
  | fill index dataByte => exact h.fill index dataByte
  | publish packetMeta => exact h.publish packetMeta
  | consume => exact h.consume
  | dropWrite => exact h.drop

theorem run (h : RingSimulates queue fifo) (ops : List (RingOp Meta)) :
    RingSimulates (Synchronous.run ringStep queue ops)
      (Synchronous.run SlotFifo.step fifo ops) := by
  induction ops generalizing queue fifo with
  | nil => exact h
  | cons op ops ih => exact ih (h.step op)

end RingSimulates

/-- For every number of index bits, slot size and metadata type and every sequence of operations
from the all-zero ring: the ring is a queue of exactly `2 ^ IndexBits` places, whose read slot
shows the oldest packet as it was published and whose drop counter counts the dropped packets. -/
theorem packet_slot_queue_bounded_fifo (blank : Meta) (ops : List (RingOp Meta)) :
    let queue := Synchronous.run ringStep (PacketSlotQueue.zero MaxBytes IndexBits blank) ops
    let fifo : SlotFifo MaxBytes Meta (2 ^ IndexBits) := Synchronous.run SlotFifo.step .empty ops
    (packetQueueWriteSlotAvailable queue = true ↔ fifo.packets.length < 2 ^ IndexBits) ∧
      (packetQueueReadSlotValid queue = true ↔ fifo.packets ≠ []) ∧
      (∀ packet ∈ fifo.packets.head?, queue.slotMeta (packetQueueReadSlot queue) = packet.1 ∧
        queue.bytes (packetQueueReadSlot queue) = packet.2) ∧
      packetQueueDropCount queue = BitVec.ofNat 32 fifo.drops := by
  intro queue fifo
  have h : RingSimulates queue fifo := (RingSimulates.start blank).run ops
  refine ⟨h.writeSlotAvailable, h.holds.readSlotValid, ?_, h.drops⟩
  intro packet hpacket
  obtain ⟨rest, hcons⟩ := List.head?_eq_some_iff.mp hpacket
  have hold := h.holds
  rw [hcons] at hold
  exact hold.head

end ArtyEthernet
