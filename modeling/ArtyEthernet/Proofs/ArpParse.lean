import ArtyEthernet.Model.ProtocolHandler
import ArtyEthernet.Proofs.FrameData
import ArtyEthernet.Proofs.RxStage
import Mathlib.Tactic.IntervalCases

/-!
# What the ARP parser reads

The requester of a packet, stated on its payload bytes, and the registers after a number of parse
cycles. After the last byte the two agree.
-/

namespace ArtyEthernet
open Words

/-- The first eight payload bytes of an ARP request for IPv4 over Ethernet. -/
def arpRequestPrefix : List Byte :=
  toBytes 2 arpHwTypeEthernet ++ toBytes 2 arpProtoTypeIpv4 ++ [arpHwLenEthernet] ++
    [arpProtoLenIpv4] ++ toBytes 2 arpOpcodeRequest

/-- Whether a packet is read as ARP at all. -/
def Packet.wantsArpParse (p : Packet) : Bool :=
  !p.truncated && (p.header.dstMac == fpgaMac || p.header.dstMac == broadcastMac) &&
    p.header.ethertype == arpEthertype && decide (28 ≤ p.payload.length)

/-- The sender of a request for the endpoint's address. -/
def Packet.arpRequester (p : Packet) : Option (BitVec 48 × BitVec 32) :=
  if p.wantsArpParse = true ∧ p.payload.take 8 = arpRequestPrefix ∧
      (p.payload.drop 24).take 4 = toBytes 4 fpgaIp then
    some (Words.ofBytes 48 ((p.payload.drop 8).take 6),
      Words.ofBytes 32 ((p.payload.drop 14).take 4))
  else none

def parseRegs (buf : Buffer maxEthPayloadBytesInt) (j : ℕ) : ParseArp :=
  (List.range j).foldl (fun regs i => regs.store i (buf.get i)) .zero

@[simp] theorem parseRegs_zero (buf : Buffer maxEthPayloadBytesInt) : parseRegs buf 0 = .zero := rfl

theorem parseRegs_succ (buf : Buffer maxEthPayloadBytesInt) (j : ℕ) :
    parseRegs buf (j + 1) = (parseRegs buf j).store j (buf.get j) := by
  simp [parseRegs, List.range_succ]

section Registers
variable (b : ℕ → Byte)

theorem setRange_two :
    setRange (setRange (0 : BitVec 16) 8 (b 0)) 0 (b 1) =
      Words.ofBytes 16 ((List.range 2).map b) := by
  apply ext_lanes (n := 2) rfl
  intro k hk
  rw [lane_ofBytes _ k (by simpa using hk) (by omega)]
  interval_cases k <;> simp (disch := omega) [lane_setRange_at]

theorem setRange_four :
    setRange (setRange (setRange (setRange (0 : BitVec 32) 24 (b 0)) 16 (b 1)) 8 (b 2)) 0 (b 3) =
      Words.ofBytes 32 ((List.range 4).map b) := by
  apply ext_lanes (n := 4) rfl
  intro k hk
  rw [lane_ofBytes _ k (by simpa using hk) (by omega)]
  interval_cases k <;> simp (disch := omega) [lane_setRange_at]

theorem setRange_six :
    setRange (setRange (setRange (setRange (setRange (setRange (0 : BitVec 48) 40 (b 0)) 32 (b 1))
        24 (b 2)) 16 (b 3)) 8 (b 4)) 0 (b 5) =
      Words.ofBytes 48 ((List.range 6).map b) := by
  apply ext_lanes (n := 6) rfl
  intro k hk
  rw [lane_ofBytes _ k (by simpa using hk) (by omega)]
  interval_cases k <;> simp (disch := omega) [lane_setRange_at]

end Registers

def bufferBytes (buf : Buffer maxEthPayloadBytesInt) (offset len : ℕ) : List Byte :=
  (List.range len).map fun i => buf.get (offset + i)

theorem parseRegs_complete (buf : Buffer maxEthPayloadBytesInt) :
    parseRegs buf 28 =
      { hwType := Words.ofBytes 16 (bufferBytes buf 0 2)
        protoType := Words.ofBytes 16 (bufferBytes buf 2 2)
        hwLen := buf.get 4
        protoLen := buf.get 5
        opcode := Words.ofBytes 16 (bufferBytes buf 6 2)
        senderMac := Words.ofBytes 48 (bufferBytes buf 8 6)
        senderIp := Words.ofBytes 32 (bufferBytes buf 14 4)
        targetIp := Words.ofBytes 32 (bufferBytes buf 24 4) } := by
  simp only [bufferBytes, ← setRange_two, ← setRange_four, ← setRange_six]
  rfl

theorem length_bufferBytes (buf : Buffer maxEthPayloadBytesInt) (offset len : ℕ) :
    (bufferBytes buf offset len).length = len := by
  simp [bufferBytes]

theorem slotPacket_payload_slice (slot : RxSlot) {offset len : ℕ}
    (h : offset + len ≤ slot.1.payloadLen.toNat) :
    ((slotPacket slot).payload.drop offset).take len = bufferBytes slot.2 offset len := by
  apply List.ext_getElem
  · simp [slotPacket, bufferBytes]
    omega
  · intro i h1 h2
    simp [slotPacket, bufferBytes]

theorem arpValid_iff (buf : Buffer maxEthPayloadBytesInt) :
    (parseRegs buf 28).arpValid = true ↔
      bufferBytes buf 0 8 = arpRequestPrefix ∧ bufferBytes buf 24 4 = toBytes 4 fpgaIp := by
  have hword (offset : ℕ) (x : BitVec 16) :
      Words.ofBytes 16 (bufferBytes buf offset 2) = x ↔ bufferBytes buf offset 2 = toBytes 2 x := by
    rw [ofBytes_eq_iff _ _ (by rw [length_bufferBytes]), length_bufferBytes]
  have hip : Words.ofBytes 32 (bufferBytes buf 24 4) = fpgaIp ↔
      bufferBytes buf 24 4 = toBytes 4 fpgaIp := by
    rw [ofBytes_eq_iff _ _ (by rw [length_bufferBytes]), length_bufferBytes]
  have hsplit : bufferBytes buf 0 8 = bufferBytes buf 0 2 ++ bufferBytes buf 2 2 ++
      [buf.get 4] ++ [buf.get 5] ++ bufferBytes buf 6 2 := rfl
  rw [parseRegs_complete]
  simp only [ParseArp.arpValid, Bool.and_eq_true, beq_iff_eq, hword, hip]
  rw [hsplit, arpRequestPrefix]
  constructor
  · rintro ⟨⟨⟨⟨⟨hhw, hproto⟩, hhwLen⟩, hprotoLen⟩, hop⟩, hip⟩
    exact ⟨by rw [hhw, hproto, hhwLen, hprotoLen, hop], hip⟩
  · rintro ⟨hinit, hip⟩
    obtain ⟨hinit, hop⟩ := List.append_inj' hinit (by simp [length_bufferBytes])
    obtain ⟨hinit, hprotoLen⟩ := List.append_inj' hinit rfl
    obtain ⟨hinit, hhwLen⟩ := List.append_inj' hinit rfl
    obtain ⟨hhw, hproto⟩ := List.append_inj' hinit (by simp [length_bufferBytes])
    exact ⟨⟨⟨⟨⟨hhw, hproto⟩, List.singleton_inj.mp hhwLen⟩, List.singleton_inj.mp hprotoLen⟩,
      hop⟩, hip⟩

theorem slotPacket_wantsArpParse (slot : RxSlot) :
    (slotPacket slot).wantsArpParse = (!slot.1.truncated && slot.1.wantsArpParse) := by
  have hlen : arpPayloadBytes.setWidth 11 ≤ slot.1.payloadLen ↔
      28 ≤ slot.1.payloadLen.toNat := Iff.rfl
  simp only [Packet.wantsArpParse, RxPacketMeta.wantsArpParse, hlen, length_slotPacket_payload]
  simp only [slotPacket, Bool.and_assoc]

/-- What the parser decides about a slot. -/
theorem arpRequester_slotPacket {slot : RxSlot} (hwhole : slot.1.truncated = false)
    (hwants : slot.1.wantsArpParse = true) :
    (slotPacket slot).arpRequester =
      if (parseRegs slot.2 28).arpValid = true then
        some ((parseRegs slot.2 28).senderMac, (parseRegs slot.2 28).senderIp)
      else none := by
  have hparse : (slotPacket slot).wantsArpParse = true := by
    rw [slotPacket_wantsArpParse, hwhole, hwants]
    rfl
  have hlen : 28 ≤ slot.1.payloadLen.toNat := by
    simp only [RxPacketMeta.wantsArpParse, Bool.and_eq_true, decide_eq_true_eq] at hwants
    exact hwants.2
  have hinit := slotPacket_payload_slice slot (show 0 + 8 ≤ _ by omega)
  rw [List.drop_zero] at hinit
  have hmac : Words.ofBytes 48 (bufferBytes slot.2 8 6) = (parseRegs slot.2 28).senderMac := by
    rw [parseRegs_complete]
  have hip : Words.ofBytes 32 (bufferBytes slot.2 14 4) = (parseRegs slot.2 28).senderIp := by
    rw [parseRegs_complete]
  simp only [Packet.arpRequester, hparse, true_and, hinit,
    slotPacket_payload_slice slot (show 24 + 4 ≤ _ by omega),
    slotPacket_payload_slice slot (show 8 + 6 ≤ _ by omega),
    slotPacket_payload_slice slot (show 14 + 4 ≤ _ by omega), arpValid_iff, hmac, hip]

theorem arpRequester_dropped {slot : RxSlot}
    (hbad : slot.1.truncated = true ∨ slot.1.wantsArpParse = false) :
    (slotPacket slot).arpRequester = none := by
  have hparse : (slotPacket slot).wantsArpParse = false := by
    rw [slotPacket_wantsArpParse]
    rcases hbad with h | h <;> simp [h]
  simp [Packet.arpRequester, hparse]

end ArtyEthernet
