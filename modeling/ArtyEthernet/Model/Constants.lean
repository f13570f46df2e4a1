import ArtyEthernet.Library.Buffers
import ArtyEthernet.Library.Nibbles

/-!
# Addresses, sizes and intervals of the endpoint

The constants of `ethernet_constants.h`. An `ap_uint<n>` is a `BitVec n`; an `ap_uint<1>` pin or
a `bool` is a `Bool`. Buffer sizes are natural numbers, as in the `_INT` constants.
-/

namespace ArtyEthernet

export Words (Byte Nibble Buffer)

def fpgaMac : BitVec 48 := 0x020000000001
def broadcastMac : BitVec 48 := 0xffffffffffff
def diagnosticBeaconEthertype : BitVec 16 := 0x88B5
def arpEthertype : BitVec 16 := 0x0806
def ipv4Ethertype : BitVec 16 := 0x0800
def fpgaIp : BitVec 32 := 0xC0A80164
def ipv4HeaderBytes : BitVec 8 := 20
def udpHeaderBytes : BitVec 8 := 8
def beaconIntervalCycles : BitVec 32 := 25000000
def gratuitousArpIntervalCycles : BitVec 32 := 125000000
def maxEthPayloadBytesInt : ℕ := 1500
def maxEthPayloadBytes : BitVec 11 := 1500
def ethHeaderBytesInt : ℕ := 14
def ethHeaderBytes : BitVec 5 := 14
def txFrameBodyBytesInt : ℕ := ethHeaderBytesInt + maxEthPayloadBytesInt
def minEthFrameBodyBytes : BitVec 11 := 60
def txFrameBodyBytes : BitVec 11 := BitVec.ofNat 11 txFrameBodyBytesInt
def ifgNibbles : BitVec 6 := 24

structure EthHeader where
  dstMac : BitVec 48
  srcMac : BitVec 48
  ethertype : BitVec 16
deriving DecidableEq, Repr

end ArtyEthernet
