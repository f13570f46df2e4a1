import ArtyEthernet.Model.ProtocolHelpers

/-!
# Views into a packet

The IPv4 and UDP parsers of `packet_views.h`. A view is a range of the payload buffer; a parser
reads the header at its start and reports the range of what the header carries.
-/

namespace ArtyEthernet
open Words

structure PacketView where
  offset : BitVec 11
  len : BitVec 11
deriving DecidableEq, Repr

structure Ipv4View where
  valid : Bool
  headerLen : BitVec 4
  totalLen : BitVec 16
  protocol : BitVec 8
  flagsFragment : BitVec 16
  srcIp : BitVec 32
  dstIp : BitVec 32
  payloadView : PacketView
deriving DecidableEq, Repr

structure UdpView where
  valid : Bool
  srcPort : BitVec 16
  dstPort : BitVec 16
  length : BitVec 16
  payloadView : PacketView
deriving DecidableEq, Repr

def Ipv4View.blank (view : PacketView) : Ipv4View := ⟨false, 0, 0, 0, 0, 0, 0, ⟨view.offset, 0⟩⟩

def UdpView.blank (view : PacketView) : UdpView := ⟨false, 0, 0, 0, ⟨view.offset, 0⟩⟩

section Parsers
variable {m : Type → Type} [Monad m] (bytes : ℕ → m Byte) (view : PacketView)

def readIpv4View : m Ipv4View := do
  if view.len < ipv4HeaderBytes.setWidth 11 then return .blank view
  else
    let base := view.offset
    let versionIhl ← bytes base.toNat
    let version : BitVec 4 := versionIhl.extractLsb 7 4
    let ihl : BitVec 4 := versionIhl.extractLsb 3 0
    let headerBytes : BitVec 8 := ihl.setWidth 8 <<< 2
    let totalLen ← readBe16 bytes (base + 2)
    let headerOk := version == 4 && decide (5 ≤ ihl) && decide (headerBytes.setWidth 11 ≤ view.len)
    let totalOk := decide (headerBytes.setWidth 16 ≤ totalLen) &&
      decide (totalLen ≤ view.len.setWidth 16)
    if !headerOk || !totalOk then return .blank view
    else
      let protocol ← bytes (base.toNat + 9)
      let flagsFragment ← readBe16 bytes (base + 6)
      let srcIp ← readBe32 bytes (base + 12)
      let dstIp ← readBe32 bytes (base + 16)
      return {
        valid := true
        headerLen := ihl
        totalLen
        protocol
        flagsFragment
        srcIp
        dstIp
        payloadView :=
          ⟨base + headerBytes.setWidth 11, (totalLen - headerBytes.setWidth 16).setWidth 11⟩ }

def readUdpView : m UdpView := do
  if view.len < udpHeaderBytes.setWidth 11 then return .blank view
  else
    let base := view.offset
    let udpLen ← readBe16 bytes (base + 4)
    if udpLen < udpHeaderBytes.setWidth 16 || view.len.setWidth 16 < udpLen then
      return .blank view
    else
      let srcPort ← readBe16 bytes (base + 0)
      let dstPort ← readBe16 bytes (base + 2)
      return {
        valid := true
        srcPort
        dstPort
        length := udpLen
        payloadView :=
          ⟨base + udpHeaderBytes.setWidth 11, (udpLen - udpHeaderBytes.setWidth 16).setWidth 11⟩ }

end Parsers

def parseIpv4View (bytes : Buffer maxEthPayloadBytesInt) (view : PacketView) : Ipv4View :=
  (readIpv4View (arrayReader bytes) view).run

def parseUdpView (bytes : Buffer maxEthPayloadBytesInt) (view : PacketView) : UdpView :=
  (readUdpView (arrayReader bytes) view).run

end ArtyEthernet
