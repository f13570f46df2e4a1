import ArtyEthernet.Model.Arp

/-!
# Transmit requests and the bytes they stand for

The request record, the diagnostics text and the byte-per-cycle frame builder of
`ethernet_tx_payloads.h`.
-/

namespace ArtyEthernet

inductive ProtocolTxKind where
  | none
  | beacon
  | arpReply
  | gratuitousArp
deriving DecidableEq, Repr

structure ProtocolTxRequest where
  valid : Bool
  header : EthHeader
  len : BitVec 11
  kind : ProtocolTxKind
  arpRequesterMac : BitVec 48
  arpRequesterIp : BitVec 32
  rxPacketCount : BitVec 32
  rxQueueDropCount : BitVec 32
  rxProtocolDropCount : BitVec 32
  txDropCount : BitVec 32
  arpReplyCount : BitVec 32
  udpReplyCount : BitVec 32
  uptimeBeaconCount : BitVec 32
deriving DecidableEq, Repr

/-- A character of the diagnostics text. -/
def ascii (c : Char) : Byte := BitVec.ofNat 8 c.toNat

def hexDigitByte (value : BitVec 4) : Byte :=
  if value < 10 then ascii '0' + value.setWidth 8
  else ascii 'A' + value.setWidth 8 - 10

def hex32Byte (value : BitVec 32) (index : BitVec 3) : Byte :=
  match index.toNat with
  | 0 => hexDigitByte (value.extractLsb 31 28)
  | 1 => hexDigitByte (value.extractLsb 27 24)
  | 2 => hexDigitByte (value.extractLsb 23 20)
  | 3 => hexDigitByte (value.extractLsb 19 16)
  | 4 => hexDigitByte (value.extractLsb 15 12)
  | 5 => hexDigitByte (value.extractLsb 11 8)
  | 6 => hexDigitByte (value.extractLsb 7 4)
  | _ => hexDigitByte (value.extractLsb 3 0)

def hex48Byte (value : BitVec 48) (index : BitVec 4) : Byte :=
  match index.toNat with
  | 0 => hexDigitByte (value.extractLsb 47 44)
  | 1 => hexDigitByte (value.extractLsb 43 40)
  | 2 => hexDigitByte (value.extractLsb 39 36)
  | 3 => hexDigitByte (value.extractLsb 35 32)
  | 4 => hexDigitByte (value.extractLsb 31 28)
  | 5 => hexDigitByte (value.extractLsb 27 24)
  | 6 => hexDigitByte (value.extractLsb 23 20)
  | 7 => hexDigitByte (value.extractLsb 19 16)
  | 8 => hexDigitByte (value.extractLsb 15 12)
  | 9 => hexDigitByte (value.extractLsb 11 8)
  | 10 => hexDigitByte (value.extractLsb 7 4)
  | _ => hexDigitByte (value.extractLsb 3 0)

def decimal3Byte (value : BitVec 8) (index : BitVec 2) : Byte :=
  let digit : BitVec 8 :=
    if index = 0 then value / 100
    else if index = 1 then value / 10 % 10
    else value % 10
  ascii '0' + digit

def ipv4FixedByte (ip : BitVec 32) (index : BitVec 4) : Byte :=
  match index.toNat with
  | 0 => decimal3Byte (ip.extractLsb 31 24) 0
  | 1 => decimal3Byte (ip.extractLsb 31 24) 1
  | 2 => decimal3Byte (ip.extractLsb 31 24) 2
  | 3 => ascii '.'
  | 4 => decimal3Byte (ip.extractLsb 23 16) 0
  | 5 => decimal3Byte (ip.extractLsb 23 16) 1
  | 6 => decimal3Byte (ip.extractLsb 23 16) 2
  | 7 => ascii '.'
  | 8 => decimal3Byte (ip.extractLsb 15 8) 0
  | 9 => decimal3Byte (ip.extractLsb 15 8) 1
  | 10 => decimal3Byte (ip.extractLsb 15 8) 2
  | 11 => ascii '.'
  | 12 => decimal3Byte (ip.extractLsb 7 0) 0
  | 13 => decimal3Byte (ip.extractLsb 7 0) 1
  | _ => decimal3Byte (ip.extractLsb 7 0) 2

/-- One byte of the diagnostics beacon payload. -/
def beaconPayloadLiteralByte (index : BitVec 8) (request : ProtocolTxRequest) : Byte :=
  if 8 ≤ index ∧ index < 23 then ipv4FixedByte fpgaIp ((index - 8).setWidth 4)
  else if 28 ≤ index ∧ index < 40 then hex48Byte fpgaMac ((index - 28).setWidth 4)
  else if 44 ≤ index ∧ index < 52 then hex32Byte request.rxPacketCount ((index - 44).setWidth 3)
  else if 57 ≤ index ∧ index < 65 then hex32Byte request.rxQueueDropCount ((index - 57).setWidth 3)
  else if 70 ≤ index ∧ index < 78 then
    hex32Byte request.rxProtocolDropCount ((index - 70).setWidth 3)
  else if 83 ≤ index ∧ index < 91 then hex32Byte request.txDropCount ((index - 83).setWidth 3)
  else if 96 ≤ index ∧ index < 104 then hex32Byte request.arpReplyCount ((index - 96).setWidth 3)
  else if 109 ≤ index ∧ index < 117 then
    hex32Byte request.udpReplyCount ((index - 109).setWidth 3)
  else if 121 ≤ index ∧ index < 129 then
    hex32Byte request.uptimeBeaconCount ((index - 121).setWidth 3)
  else
    match index.toNat with
    | 0 => ascii 'A'
    | 1 => ascii 'R'
    | 2 => ascii 'T'
    | 3 => ascii 'Y'
    | 4 => ascii ' '
    | 5 => ascii 'I'
    | 6 => ascii 'P'
    | 7 => ascii '='
    | 23 | 40 | 52 | 65 | 78 | 91 | 104 | 117 => ascii ' '
    | 24 => ascii 'M'
    | 25 => ascii 'A'
    | 26 => ascii 'C'
    | 27 | 43 | 56 | 69 | 82 | 95 | 108 | 120 => ascii '='
    | 41 => ascii 'R'
    | 42 => ascii 'X'
    | 53 => ascii 'R'
    | 54 => ascii 'X'
    | 55 => ascii 'Q'
    | 66 => ascii 'R'
    | 67 => ascii 'X'
    | 68 => ascii 'P'
    | 79 => ascii 'T'
    | 80 => ascii 'X'
    | 81 => ascii 'D'
    | 92 => ascii 'A'
    | 93 => ascii 'R'
    | 94 => ascii 'P'
    | 105 => ascii 'U'
    | 106 => ascii 'D'
    | 107 => ascii 'P'
    | 118 => ascii 'U'
    | 119 => ascii 'P'
    | _ => ascii '0'

def protocolTxPayloadLen (requestKind : ProtocolTxKind) : BitVec 11 :=
  if requestKind = .beacon then 129
  else if requestKind = .arpReply ∨ requestKind = .gratuitousArp then arpPayloadBytes.setWidth 11
  else 0

def protocolTxFrameBodyLen (requestKind : ProtocolTxKind) : BitVec 11 :=
  ethHeaderBytes.setWidth 11 + protocolTxPayloadLen requestKind

def protocolTxPayloadByte (request : ProtocolTxRequest) (index : BitVec 11) : Byte :=
  if request.kind = .arpReply ∨ request.kind = .gratuitousArp then
    arpReplyPayloadByte (index.setWidth 5) request.arpRequesterMac request.arpRequesterIp
  else beaconPayloadLiteralByte (index.setWidth 8) request

def frameBodyByte (request : ProtocolTxRequest) (frameBodyIndex : BitVec 11) : Byte :=
  if frameBodyIndex < ethHeaderBytes.setWidth 11 then
    ethernetHeaderByte request.header (frameBodyIndex.setWidth 4)
  else protocolTxPayloadByte request (frameBodyIndex - ethHeaderBytes.setWidth 11)

/-- Write one byte of the current response into a slot; the flag reports the last byte. -/
def prepareTxSlotFrameBodyStep (txFrameBodyBuf : Buffer txFrameBodyBytesInt)
    (request : ProtocolTxRequest) (frameBodyIndex : BitVec 11) :
    Buffer txFrameBodyBytesInt × Bool :=
  (Words.Buffer.set txFrameBodyBuf frameBodyIndex.toNat (frameBodyByte request frameBodyIndex),
    request.len == 0 || frameBodyIndex == request.len - 1)

def protocolTxBeaconRequest : ProtocolTxRequest where
  valid := true
  header := ⟨broadcastMac, fpgaMac, diagnosticBeaconEthertype⟩
  len := protocolTxFrameBodyLen .beacon
  kind := .beacon
  arpRequesterMac := 0
  arpRequesterIp := 0
  rxPacketCount := 0
  rxQueueDropCount := 0
  rxProtocolDropCount := 0
  txDropCount := 0
  arpReplyCount := 0
  udpReplyCount := 0
  uptimeBeaconCount := 0

def protocolTxGratuitousArpRequest : ProtocolTxRequest where
  valid := true
  header := ⟨broadcastMac, fpgaMac, arpEthertype⟩
  len := protocolTxFrameBodyLen .gratuitousArp
  kind := .gratuitousArp
  arpRequesterMac := broadcastMac
  arpRequesterIp := fpgaIp
  rxPacketCount := 0
  rxQueueDropCount := 0
  rxProtocolDropCount := 0
  txDropCount := 0
  arpReplyCount := 0
  udpReplyCount := 0
  uptimeBeaconCount := 0

end ArtyEthernet
