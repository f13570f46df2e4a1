import ArtyEthernet.Library.CyclicFifo
import ArtyEthernet.Model.PacketQueue

/-!
# The packet rings are bounded queues

`PacketSlotQueue.Holds` says which packets a ring stores, oldest first. Each ring operation is
described once here; nothing later looks inside a ring.
-/

namespace ArtyEthernet

variable {MaxBytes IndexBits : ℕ} {Meta : Type} {queue : PacketSlotQueue MaxBytes Meta IndexBits}
  {packets : List (Meta × Buffer MaxBytes)}

namespace PacketSlotQueue

def cell (queue : PacketSlotQueue MaxBytes Meta IndexBits) (i : BitVec IndexBits) :
    Meta × Buffer MaxBytes := (queue.slotMeta i, queue.bytes i)

def Holds (queue : PacketSlotQueue MaxBytes Meta IndexBits)
    (packets : List (Meta × Buffer MaxBytes)) : Prop :=
  CyclicFifo.Holds queue.valid queue.cell queue.readIdx queue.writeIdx packets

theorem holds_zero (blank : Meta) : (zero MaxBytes IndexBits blank).Holds [] :=
  CyclicFifo.Holds.empty _ _ fun _ => rfl

def validCount (queue : PacketSlotQueue MaxBytes Meta IndexBits) : ℕ :=
  ((Finset.range (2 ^ IndexBits)).filter fun i => queue.valid (BitVec.ofNat IndexBits i)).card

namespace Holds

theorem validCount_eq (h : queue.Holds packets) : queue.validCount = packets.length :=
  h.card_valid

theorem readSlotValid (h : queue.Holds packets) :
    packetQueueReadSlotValid queue = true ↔ packets ≠ [] :=
  h.read_valid_iff

theorem readSlotValid_cons {packet : Meta × Buffer MaxBytes}
    (h : queue.Holds (packet :: packets)) : queue.valid queue.readIdx = true :=
  h.readSlotValid.mpr (List.cons_ne_nil _ _)

theorem readSlotValid_nil (h : queue.Holds []) : packetQueueReadSlotValid queue = false := by
  have hne := mt h.readSlotValid.mp (not_not_intro rfl)
  simpa using hne

theorem writeSlotAvailable (h : queue.Holds packets) :
    packetQueueWriteSlotAvailable queue = true ↔ packets.length < 2 ^ IndexBits := by
  rw [packetQueueWriteSlotAvailable, Bool.not_eq_true']
  exact h.write_free_iff

theorem head {packet : Meta × Buffer MaxBytes} (h : queue.Holds (packet :: packets)) :
    queue.slotMeta queue.readIdx = packet.1 ∧ queue.bytes queue.readIdx = packet.2 := by
  have hc := h.cell_read
  exact ⟨congrArg Prod.fst hc, congrArg Prod.snd hc⟩

/-- A ring that differs only outside its valid slots holds the same packets. -/
theorem congr {queue' : PacketSlotQueue MaxBytes Meta IndexBits} (h : queue.Holds packets)
    (hvalid : queue'.valid = queue.valid) (hread : queue'.readIdx = queue.readIdx)
    (hwrite : queue'.writeIdx = queue.writeIdx)
    (hcell : ∀ i, queue.valid i = true → queue'.cell i = queue.cell i) :
    queue'.Holds packets := by
  unfold Holds
  rw [hvalid, hread, hwrite]
  exact h.congr_cell hcell

theorem dropWrite (h : queue.Holds packets) : (packetQueueDropWrite queue).Holds packets := h

/-- Filling the free write slot is invisible. -/
theorem setBytes_write (h : queue.Holds packets) (hfree : queue.valid queue.writeIdx = false)
    (buf : Buffer MaxBytes) : (queue.setBytes queue.writeIdx buf).Holds packets := by
  have hcell : ∀ i, queue.valid i = true →
      (queue.setBytes queue.writeIdx buf).cell i = queue.cell i := by
    intro i hi
    have hne : i ≠ queue.writeIdx := by
      rintro rfl
      simp [hfree] at hi
    simp [cell, setBytes, hne]
  exact h.congr rfl rfl rfl hcell

theorem publish (h : queue.Holds packets) (hroom : packets.length < 2 ^ IndexBits)
    (packetMeta : Meta) :
    (packetQueuePublishWriteSlot queue packetMeta).Holds
      (packets ++ [(packetMeta, queue.bytes queue.writeIdx)]) := by
  have hfree : queue.valid queue.writeIdx = false := h.write_free_iff.mpr hroom
  rw [packetQueuePublishWriteSlot, if_neg (by simp [hfree])]
  apply CyclicFifo.Holds.push _ h hroom
  · intro i
    rfl
  · simp [cell]
  · intro i hi
    simp [cell, hi]

theorem nil_iff (h : queue.Holds packets) : packets = [] ↔ ∀ i, queue.valid i = false := by
  have hvalid := CyclicFifo.Holds.valid_eq h
  constructor
  · rintro rfl i
    simp [hvalid i]
  · intro hempty
    by_contra hne
    rw [← Ne, ← h.readSlotValid] at hne
    exact absurd ((hempty queue.readIdx).symm.trans hne) Bool.false_ne_true

theorem consume {packet : Meta × Buffer MaxBytes} (h : queue.Holds (packet :: packets)) :
    (packetQueueConsumeReadSlot queue).Holds packets :=
  CyclicFifo.Holds.pop h fun _ => rfl

end Holds

/-- The valid flags are exactly the slots from the read index up to the write index: none when the
read slot is invalid, all when the indices coincide at a valid slot. -/
def FlagsCyclic (queue : PacketSlotQueue MaxBytes Meta IndexBits) : Prop :=
  ∀ i, queue.valid i = true ↔ queue.valid queue.readIdx = true ∧
    (queue.readIdx = queue.writeIdx ∨
      (i - queue.readIdx).toNat < (queue.writeIdx - queue.readIdx).toNat)

theorem Holds.flagsCyclic (h : queue.Holds packets) : queue.FlagsCyclic := by
  intro i
  have hle : packets.length ≤ 2 ^ IndexBits := CyclicFifo.Holds.length_le h
  have hwrite := CyclicFifo.Holds.write_eq h
  have hvalid := CyclicFifo.Holds.valid_eq h
  have hread := CyclicFifo.Holds.valid_read h
  by_cases hfull : packets.length = 2 ^ IndexBits
  · have hsame : queue.readIdx = queue.writeIdx := by
      rw [hwrite, hfull, CyclicFifo.ofNat_turn, BitVec.add_zero]
    have hlt := (i - queue.readIdx).isLt
    have hpos := Nat.two_pow_pos IndexBits
    rw [hread, hvalid i, decide_eq_true_iff, decide_eq_true_iff]
    constructor
    · intro _
      exact ⟨by omega, Or.inl hsame⟩
    · intro _
      omega
  · have hdist : (queue.writeIdx - queue.readIdx).toNat = packets.length := by
      rw [hwrite, CyclicFifo.toNat_offset _ (by omega)]
    have hne : queue.readIdx = queue.writeIdx → packets.length = 0 := by
      intro he
      rw [← hdist, ← he]
      simp
    rw [hread, hvalid i, hdist, decide_eq_true_iff, decide_eq_true_iff]
    constructor
    · intro hi
      exact ⟨by omega, Or.inr hi⟩
    · rintro ⟨hpos, he | hi⟩
      · have hz := hne he
        omega
      · exact hi

end PacketSlotQueue
end ArtyEthernet
