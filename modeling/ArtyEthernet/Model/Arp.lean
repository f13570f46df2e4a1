import ArtyEthernet.Model.PacketViews

/-!
# ARP payloads

The constants, the request parser and the reply encoder of `arp.h`. A gratuitous announcement is a
reply whose requester is the broadcast MAC and the endpoint's own address.
-/

namespace ArtyEthernet
open Words

def arpHwTypeEthernet : BitVec 16 := 1
def arpProtoTypeIpv4 : BitVec 16 := 0x0800
def arpHwLenEthernet : BitVec 8 := 6
def arpProtoLenIpv4 : BitVec 8 := 4
def arpOpcodeRequest : BitVec 16 := 1
def arpOpcodeReply : BitVec 16 := 2
def arpPayloadBytes : BitVec 6 := 28

structure ArpRequestInfo where
  valid : Bool
  senderMac : BitVec 48
  senderIp : BitVec 32
deriving DecidableEq, Repr

def readArpIpv4Request {m : Type → Type} [Monad m] (bytes : ℕ → m Byte) (view : PacketView) :
    m ArpRequestInfo := do
  if view.len < arpPayloadBytes.setWidth 11 then return ⟨false, 0, 0⟩
  else
    let base := view.offset
    let hwType ← readBe16 bytes (base + 0)
    let protoType ← readBe16 bytes (base + 2)
    let hwLen ← bytes (base.toNat + 4)
    let protoLen ← bytes (base.toNat + 5)
    let opcode ← readBe16 bytes (base + 6)
    let senderMac ← readMac48 bytes (base + 8)
    let senderIp ← readBe32 bytes (base + 14)
    let targetIp ← readBe32 bytes (base + 24)
    return {
      valid := hwType == arpHwTypeEthernet && protoType == arpProtoTypeIpv4 &&
        hwLen == arpHwLenEthernet && protoLen == arpProtoLenIpv4 &&
        opcode == arpOpcodeRequest && targetIp == fpgaIp
      senderMac
      senderIp }

def parseArpIpv4Request (bytes : Buffer maxEthPayloadBytesInt) (view : PacketView) :
    ArpRequestInfo :=
  (readArpIpv4Request (arrayReader bytes) view).run

def arpReplyPayloadByte (index : BitVec 5) (requesterMac : BitVec 48) (requesterIp : BitVec 32) :
    Byte :=
  match index.toNat with
  | 0 => arpHwTypeEthernet.extractLsb 15 8
  | 1 => arpHwTypeEthernet.extractLsb 7 0
  | 2 => arpProtoTypeIpv4.extractLsb 15 8
  | 3 => arpProtoTypeIpv4.extractLsb 7 0
  | 4 => arpHwLenEthernet
  | 5 => arpProtoLenIpv4
  | 6 => arpOpcodeReply.extractLsb 15 8
  | 7 => arpOpcodeReply.extractLsb 7 0
  | 8 => macByte fpgaMac 0
  | 9 => macByte fpgaMac 1
  | 10 => macByte fpgaMac 2
  | 11 => macByte fpgaMac 3
  | 12 => macByte fpgaMac 4
  | 13 => macByte fpgaMac 5
  | 14 => fpgaIp.extractLsb 31 24
  | 15 => fpgaIp.extractLsb 23 16
  | 16 => fpgaIp.extractLsb 15 8
  | 17 => fpgaIp.extractLsb 7 0
  | 18 => macByte requesterMac 0
  | 19 => macByte requesterMac 1
  | 20 => macByte requesterMac 2
  | 21 => macByte requesterMac 3
  | 22 => macByte requesterMac 4
  | 23 => macByte requesterMac 5
  | 24 => requesterIp.extractLsb 31 24
  | 25 => requesterIp.extractLsb 23 16
  | 26 => requesterIp.extractLsb 15 8
  | _ => requesterIp.extractLsb 7 0

/-- The ARP packet for IPv4 over Ethernet with the given opcode, sender and target. -/
def arpPayload (opcode : BitVec 16) (senderMac : BitVec 48) (senderIp : BitVec 32)
    (targetMac : BitVec 48) (targetIp : BitVec 32) : List Byte :=
  toBytes 2 arpHwTypeEthernet ++ toBytes 2 arpProtoTypeIpv4 ++ [arpHwLenEthernet] ++
    [arpProtoLenIpv4] ++ toBytes 2 opcode ++ toBytes 6 senderMac ++ toBytes 4 senderIp ++
    toBytes 6 targetMac ++ toBytes 4 targetIp

@[simp] theorem length_arpPayload (opcode : BitVec 16) (senderMac : BitVec 48)
    (senderIp : BitVec 32) (targetMac : BitVec 48) (targetIp : BitVec 32) :
    (arpPayload opcode senderMac senderIp targetMac targetIp).length = 28 := by
  simp [arpPayload]

theorem map_arpReplyPayloadByte (requesterMac : BitVec 48) (requesterIp : BitVec 32) :
    (List.range 28).map (fun i => arpReplyPayloadByte (BitVec.ofNat 5 i) requesterMac requesterIp) =
      arpPayload arpOpcodeReply fpgaMac fpgaIp requesterMac requesterIp := rfl

end ArtyEthernet
