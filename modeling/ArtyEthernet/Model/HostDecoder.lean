import ArtyEthernet.Library.Numerals
import ArtyEthernet.Library.TextFields
import ArtyEthernet.Model.TxPayloads
import Mathlib.Data.List.DropRight

/-!
# The host decoder

The frame, ARP and beacon readers of `tests/hw/ethernet.py`, which judge what the endpoint sends.
A Python byte string is a list of bytes, a string the list of its characters, and a dictionary the
list of its entries in insertion order.
-/

namespace ArtyEthernet.Host
open Words

def fpgaMac : List Byte := [0x02, 0x00, 0x00, 0x00, 0x00, 0x01]
def broadcastMac : List Byte := List.replicate 6 0xff
def arpEthertype : BitVec 16 := 0x0806
def artyBeaconPrefix : List Byte := "ARTY IP=192.168.001.100 MAC=020000000001 ".toList.map ascii
def fpgaIp : List Char := "192.168.1.100".toList

structure ParsedFrame where
  dstMac : List Byte
  srcMac : List Byte
  ethertype : BitVec 16
  payload : List Byte
  raw : List Byte
deriving DecidableEq, Repr

/-- The bytes without the zeros at their end. -/
def rstripZeros (bs : List Byte) : List Byte := bs.rdropWhile (· == 0)

def parseFrame (frame : List Byte) : Except String ParsedFrame :=
  if frame.length < 14 then
    .error ("short Ethernet frame: " ++ toString frame.length ++ " bytes")
  else .ok {
    dstMac := frame.extract 0 6
    srcMac := frame.extract 6 12
    ethertype := ofBytes 16 (frame.extract 12 14)
    payload := rstripZeros (frame.drop 14)
    raw := frame }

structure ArpFields where
  opcode : BitVec 16
  senderMac : List Byte
  senderIp : List Char
  targetMac : List Byte
  targetIp : List Char
deriving DecidableEq, Repr

def inetNtoa (octets : List Byte) : List Char :=
  List.intercalate ['.'] (octets.map fun b => Nat.toDigits 10 b.toNat)

def parseArpPayload (payload : List Byte) : Option ArpFields :=
  if payload.length < 28 then none
  else
    let hwType := ofBytes 16 (payload.extract 0 2)
    let protoType := ofBytes 16 (payload.extract 2 4)
    let hwLen := ofBytes 8 (payload.extract 4 5)
    let protoLen := ofBytes 8 (payload.extract 5 6)
    let opcode := ofBytes 16 (payload.extract 6 8)
    if hwType ≠ 1 ∨ protoType ≠ 0x0800 ∨ hwLen ≠ 6 ∨ protoLen ≠ 4 then none
    else some {
      opcode
      senderMac := payload.extract 8 14
      senderIp := inetNtoa (payload.extract 14 18)
      targetMac := payload.extract 18 24
      targetIp := inetNtoa (payload.extract 24 28) }

def isArpReplyTo (parsed : ParsedFrame) (dstMac : List Byte) (dstIp : List Char) : Bool :=
  if parsed.srcMac ≠ fpgaMac ∨ parsed.dstMac ≠ dstMac ∨ parsed.ethertype ≠ arpEthertype then false
  else
    match parseArpPayload parsed.payload with
    | none => false
    | some arp =>
      arp.opcode == 2 && arp.senderMac == fpgaMac && arp.senderIp == fpgaIp &&
        arp.targetMac == dstMac && arp.targetIp == dstIp

def isGratuitousArpReply (parsed : ParsedFrame) : Bool := isArpReplyTo parsed broadcastMac fpgaIp

/-- The characters `str.split` takes for white space, as far as ASCII goes. -/
def isSpace (c : Char) : Bool :=
  c.toNat ∈ [0x09, 0x0a, 0x0b, 0x0c, 0x0d, 0x1c, 0x1d, 0x1e, 0x1f, 0x20]

/-- Bytes that are no ASCII characters are ignored. -/
def decodeAscii (payload : List Byte) : List Char :=
  (payload.filter (· < 128)).map fun b => Char.ofNat b.toNat

def beaconFields (payload : List Byte) : List (List Char) :=
  TextFields.words isSpace (decodeAscii payload)

/-- The dictionary of a beacon, if every field behind the first is a pair. -/
def beaconValues (fields : List (List Char)) : Option (List (List Char × List Char)) :=
  TextFields.record '=' (fields.drop 1)

def expectedKeys : List (List Char) :=
  ["ARTY".toList, "IP".toList, "MAC".toList, "RX".toList, "RXQ".toList, "RXP".toList,
    "TXD".toList, "ARP".toList, "UDP".toList, "UP".toList]

def hexKeys : List (List Char) :=
  ["RX".toList, "RXQ".toList, "RXP".toList, "TXD".toList, "ARP".toList, "UDP".toList, "UP".toList]

def hexDigits : List Char := "0123456789ABCDEF".toList

def isHexField (value : List Char) : Bool := value.length == 8 && value.all (· ∈ hexDigits)

def isBeaconPayload (payload : List Byte) : Bool :=
  if !artyBeaconPrefix.isPrefixOf payload then false
  else
    let fields := beaconFields payload
    if fields.length ≠ expectedKeys.length ∨ fields.head? ≠ some "ARTY".toList then false
    else
      match beaconValues fields with
      | none => false
      | some values =>
        if "ARTY".toList :: values.map Prod.fst ≠ expectedKeys then false
        else if values.lookup "IP".toList ≠ some "192.168.001.100".toList ∨
            values.lookup "MAC".toList ≠ some "020000000001".toList then false
        else hexKeys.all fun key => (values.lookup key).any isHexField

/-- A field of a beacon, read as a hexadecimal number. -/
def readHexField (payload : List Byte) (key : List Char) : Option ℕ := do
  let values ← beaconValues (beaconFields payload)
  let value ← values.lookup key
  Numerals.read (fun c => hexDigits.idxOf? c) 16 value

end ArtyEthernet.Host
