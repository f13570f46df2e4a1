import ArtyEthernet.Model.ProtocolHandler
import ArtyEthernet.Proofs.HostFrames

/-!
# Which ARP replies the host recognises

The last byte of an ARP payload is the last octet of the target address. When it is zero the host
takes it for padding, and the 27 bytes it is left with are too few for an ARP packet.
-/

namespace ArtyEthernet
open Words

def dottedText (ip : BitVec 32) : List Char :=
  Nat.toDigits 10 (ip.extractLsb 31 24).toNat ++ '.' ::
    (Nat.toDigits 10 (ip.extractLsb 23 16).toNat ++ '.' ::
      (Nat.toDigits 10 (ip.extractLsb 15 8).toNat ++ '.' ::
        Nat.toDigits 10 (ip.extractLsb 7 0).toNat))

/-- The host takes the reply to a requester for one to it and reads all its fields. -/
def ReplyRecognised (mac : BitVec 48) (ip : BitVec 32) : Prop :=
  ∃ parsed, Host.parseFrame (nicFrame (arpReplyRequest mac ip).wireFrame) = .ok parsed ∧
    Host.isArpReplyTo parsed (toBytes 6 mac) (dottedText ip) = true ∧
    Host.parseArpPayload parsed.payload = some {
      opcode := 2
      senderMac := Host.fpgaMac
      senderIp := Host.fpgaIp
      targetMac := toBytes 6 mac
      targetIp := dottedText ip }

namespace Host
variable (opcode : BitVec 16) (senderMac targetMac : BitVec 48) (senderIp targetIp : BitVec 32)

theorem inetNtoa_toBytes (ip : BitVec 32) : inetNtoa (toBytes 4 ip) = dottedText ip := by
  have hbytes : toBytes 4 ip =
      [ip.extractLsb 31 24, ip.extractLsb 23 16, ip.extractLsb 15 8, ip.extractLsb 7 0] := rfl
  rw [inetNtoa, hbytes, dottedText]
  simp [List.intercalate]

theorem parseArpPayload_arpPayload :
    parseArpPayload (arpPayload opcode senderMac senderIp targetMac targetIp) = some {
      opcode
      senderMac := toBytes 6 senderMac
      senderIp := dottedText senderIp
      targetMac := toBytes 6 targetMac
      targetIp := dottedText targetIp } := by
  generalize hpayload : arpPayload opcode senderMac senderIp targetMac targetIp = payload
  obtain ⟨hhwType, hprotoType, hhwLen, hprotoLen, hopcode, hsmac, hsip, htmac, htip⟩ :
      payload.extract 0 2 = toBytes 2 arpHwTypeEthernet ∧
      payload.extract 2 4 = toBytes 2 arpProtoTypeIpv4 ∧
      payload.extract 4 5 = toBytes 1 arpHwLenEthernet ∧
      payload.extract 5 6 = toBytes 1 arpProtoLenIpv4 ∧
      payload.extract 6 8 = toBytes 2 opcode ∧ payload.extract 8 14 = toBytes 6 senderMac ∧
      payload.extract 14 18 = toBytes 4 senderIp ∧ payload.extract 18 24 = toBytes 6 targetMac ∧
      payload.extract 24 28 = toBytes 4 targetIp := by
    rw [← hpayload]
    exact ⟨rfl, rfl, rfl, rfl, rfl, rfl, rfl, rfl, rfl⟩
  have hlen : ¬ payload.length < 28 := by simp [← hpayload]
  have hword (x : BitVec 16) : ofBytes 16 (toBytes 2 x) = x := ofBytes_toBytes x rfl
  have hbyte (x : BitVec 8) : ofBytes 8 (toBytes 1 x) = x := ofBytes_toBytes x rfl
  simp only [parseArpPayload, if_neg hlen, hhwType, hprotoType, hhwLen, hprotoLen, hopcode, hsmac,
    hsip, htmac, htip, hword, hbyte, inetNtoa_toBytes]
  rfl

theorem arpPayload_snoc : ∃ front : List Byte, front.length = 27 ∧
    arpPayload opcode senderMac senderIp targetMac targetIp = front ++ [lane targetIp 0] :=
  ⟨(arpPayload opcode senderMac senderIp targetMac targetIp).take 27, by simp, rfl⟩

theorem rstripZeros_arpPayload (h : lane targetIp 0 ≠ 0#8) :
    rstripZeros (arpPayload opcode senderMac senderIp targetMac targetIp) =
      arpPayload opcode senderMac senderIp targetMac targetIp := by
  obtain ⟨front, -, hsnoc⟩ := arpPayload_snoc opcode senderMac targetMac senderIp targetIp
  rw [hsnoc, rstripZeros_snoc front h]

/-- Without its last octet the payload is too short. -/
theorem parseArpPayload_rstripZeros (h : lane targetIp 0 = 0#8) :
    parseArpPayload (rstripZeros (arpPayload opcode senderMac senderIp targetMac targetIp)) =
      none := by
  obtain ⟨front, hlen, hsnoc⟩ := arpPayload_snoc opcode senderMac targetMac senderIp targetIp
  have hshort := length_rstripZeros_le front
  rw [hsnoc, h, rstripZeros_snoc_zero, parseArpPayload, if_pos (by omega)]

end Host

section Reply
variable (mac : BitVec 48) (ip : BitVec 32)

theorem toBytes_fpgaMac : toBytes 6 fpgaMac = Host.fpgaMac := rfl

theorem dottedText_fpgaIp : dottedText fpgaIp = Host.fpgaIp := rfl

theorem payload_arpReplyRequest : (arpReplyRequest mac ip).payload =
    arpPayload arpOpcodeReply fpgaMac fpgaIp mac ip := rfl

theorem parseArpPayload_frameOf :
    Host.parseArpPayload (Host.frameOf (arpReplyRequest mac ip)).payload =
      if lane ip 0 = 0#8 then none
      else some ⟨2, Host.fpgaMac, Host.fpgaIp, toBytes 6 mac, dottedText ip⟩ := by
  change Host.parseArpPayload (Host.rstripZeros (arpReplyRequest mac ip).payload) = _
  rw [payload_arpReplyRequest]
  split_ifs with hzero
  · exact Host.parseArpPayload_rstripZeros _ _ _ _ _ hzero
  · rw [Host.rstripZeros_arpPayload _ _ _ _ _ hzero, Host.parseArpPayload_arpPayload,
      toBytes_fpgaMac, dottedText_fpgaIp]
    rfl

theorem isArpReplyTo_frameOf :
    Host.isArpReplyTo (Host.frameOf (arpReplyRequest mac ip)) (toBytes 6 mac) (dottedText ip) =
      decide (lane ip 0 ≠ 0#8) := by
  have hheader : ¬ ((Host.frameOf (arpReplyRequest mac ip)).srcMac ≠ Host.fpgaMac ∨
      (Host.frameOf (arpReplyRequest mac ip)).dstMac ≠ toBytes 6 mac ∨
      (Host.frameOf (arpReplyRequest mac ip)).ethertype ≠ Host.arpEthertype) := by
    rintro (hsrc | hdst | htype)
    · exact hsrc toBytes_fpgaMac
    · exact hdst rfl
    · exact htype rfl
  rw [Host.isArpReplyTo, if_neg hheader, parseArpPayload_frameOf]
  split_ifs with hzero <;> simp [hzero]

theorem isGratuitousArpReply_frameOf :
    Host.isGratuitousArpReply (Host.frameOf protocolTxGratuitousArpRequest) = true := by
  have hframe : Host.frameOf protocolTxGratuitousArpRequest =
      Host.frameOf (arpReplyRequest broadcastMac fpgaIp) := rfl
  have hlast : lane fpgaIp 0 ≠ 0#8 := by decide
  rw [hframe]
  exact (isArpReplyTo_frameOf broadcastMac fpgaIp).trans (decide_eq_true hlast)

theorem replyRecognised_iff : ReplyRecognised mac ip ↔ lane ip 0 ≠ 0#8 := by
  have hparse := Host.parseFrame_wireFrame (arpReplyRequest mac ip)
  constructor
  · rintro ⟨parsed, hparsed, hreply, -⟩
    obtain rfl : Host.frameOf (arpReplyRequest mac ip) = parsed :=
      Except.ok.inj (hparse.symm.trans hparsed)
    simpa [isArpReplyTo_frameOf] using hreply
  · intro hlast
    refine ⟨_, hparse, ?_, ?_⟩
    · rw [isArpReplyTo_frameOf, decide_eq_true hlast]
    · rw [parseArpPayload_frameOf, if_neg hlast]

end Reply

/-- The host recognises exactly the replies to addresses whose last octet is not zero. -/
theorem arp_reply_recognised (mac : BitVec 48) (ip : BitVec 32) :
    ReplyRecognised mac ip ↔ ip.extractLsb 7 0 ≠ 0 :=
  replyRecognised_iff mac ip

/-- The reply to 10.0.1.0 is not recognised. -/
theorem arp_reply_missed : ¬ ReplyRecognised 0x020000000002 0x0A000100 := by
  rw [replyRecognised_iff]
  decide

end ArtyEthernet
