import ArtyEthernet.Library.OnesComplement
import ArtyEthernet.Model.Endpoint
import ArtyEthernet.Model.TestFrame

/-!
# The test bench

The frames that `tb/ethernet_l2_endpoint_hls_tb.cpp` builds, the checks it makes on what the
endpoint sends, and the way it drives the pins. A byte vector is a list; the assertions of a check
are one boolean.
-/

namespace ArtyEthernet.Testbench
open Words

/-- One byte of `crc32_ethernet`, lowest bit first. -/
def crc32Byte (crc : BitVec 32) (data : Byte) : BitVec 32 :=
  ((List.range 8).foldl (fun (s : BitVec 32 × Byte) _ =>
    (if (s.1 ^^^ s.2.setWidth 32) &&& 1#32 ≠ 0#32 then (s.1 >>> 1) ^^^ 0xedb88320#32
      else s.1 >>> 1, s.2 >>> 1)) (crc, data)).1

def crc32Ethernet (frame : List Byte) (first count : ℕ) : BitVec 32 :=
  ~~~ (List.range count).foldl (fun crc i => crc32Byte crc (frame.getD (first + i) 0#8))
    0xffffffff#32

def readLe32 (frame : List Byte) (index : ℕ) : BitVec 32 :=
  (frame.getD index 0#8).setWidth 32 ||| (frame.getD (index + 1) 0#8).setWidth 32 <<< 8 |||
    (frame.getD (index + 2) 0#8).setWidth 32 <<< 16 |||
    (frame.getD (index + 3) 0#8).setWidth 32 <<< 24

def readBe16 (frame : List Byte) (index : ℕ) : BitVec 16 :=
  (frame.getD index 0#8).setWidth 16 <<< 8 ||| (frame.getD (index + 1) 0#8).setWidth 16

def appendEthFcs (frame : List Byte) : List Byte :=
  let eth := if 8 ≤ frame.length ∧ frame.getD 0 0#8 = 0x55#8 ∧ frame.getD 7 0#8 = 0xd5#8 then 8
    else 0
  let fcs := crc32Ethernet frame eth (frame.length - eth)
  frame ++ [fcs.setWidth 8, (fcs >>> 8).setWidth 8, (fcs >>> 16).setWidth 8,
    (fcs >>> 24).setWidth 8]

theorem toNat_shift16 (sum : BitVec 32) : (sum >>> 16).toNat = sum.toNat / 2 ^ 16 := by
  rw [BitVec.toNat_ushiftRight, Nat.shiftRight_eq_div_pow]

theorem toNat_addCarry (sum : BitVec 32) :
    ((sum &&& 0xffff#32) + (sum >>> 16)).toNat = OnesComplement.carryStep 16 sum.toNat := by
  have hmask : (sum &&& 0xffff#32).toNat = sum.toNat % 2 ^ 16 := by
    rw [BitVec.toNat_and]
    exact Nat.and_two_pow_sub_one_eq_mod sum.toNat 16
  have hlt := sum.isLt
  rw [BitVec.toNat_add, hmask, toNat_shift16, OnesComplement.carryStep]
  omega

theorem shift16_ne_zero {sum : BitVec 32} : sum >>> 16 ≠ 0#32 ↔ 2 ^ 16 ≤ sum.toNat := by
  rw [Ne, ← BitVec.toNat_inj, toNat_shift16, BitVec.toNat_ofNat]
  omega

/-- The carries are added back until the sum has 16 bits. -/
def addCarries (sum : BitVec 32) : BitVec 32 :=
  if sum >>> 16 ≠ 0#32 then addCarries ((sum &&& 0xffff#32) + (sum >>> 16)) else sum
termination_by sum.toNat
decreasing_by
  rename_i h
  rw [toNat_addCarry]
  exact OnesComplement.carryStep_lt (Nat.succ_pos 15) (shift16_ne_zero.mp h)

def ipv4HeaderChecksum (frame : List Byte) (ip : ℕ) : BitVec 16 :=
  let sum := (List.range 10).foldl (fun sum k =>
    if 2 * k ≠ 10 then sum + (readBe16 frame (ip + 2 * k)).setWidth 32 else sum) 0#32
  (~~~ addCarries sum).setWidth 16

def appendIpv4HeaderChecksum (frame : List Byte) (ip : ℕ) : List Byte :=
  let checksum := ipv4HeaderChecksum frame ip
  (frame.set (ip + 10) ((checksum >>> 8).setWidth 8)).set (ip + 11) (checksum.setWidth 8)

def preamble : List Byte := [0x55#8, 0x55#8, 0x55#8, 0x55#8, 0x55#8, 0x55#8, 0x55#8, 0xd5#8]

def udpRequestFrame (dst src srcIp dstIp : List Byte) (srcPort dstPort flagsFragment : BitVec 16) :
    List Byte :=
  let frame := preamble ++ dst ++ src ++ [0x08#8, 0x00#8]
  let ip := frame.length
  let frame := frame ++ [0x45#8, 0x00#8, 0x00#8, 0x24#8, 0x12#8, 0x34#8] ++
    [(flagsFragment >>> 8).setWidth 8, flagsFragment.setWidth 8] ++
    [0x40#8, 0x11#8, 0x00#8, 0x00#8] ++ srcIp ++ dstIp
  let frame := appendIpv4HeaderChecksum frame ip
  appendEthFcs (frame ++ [(srcPort >>> 8).setWidth 8, srcPort.setWidth 8] ++
    [(dstPort >>> 8).setWidth 8, dstPort.setWidth 8] ++ [0x00#8, 0x10#8, 0x00#8, 0x00#8] ++
    [0x68#8, 0x65#8, 0x6c#8, 0x6c#8, 0x6f#8, 0x21#8, 0x00#8, 0x01#8])

def arpRequestFrame (dst src srcIp targetIp : List Byte) : List Byte :=
  appendEthFcs (preamble ++ dst ++ src ++ [0x08#8, 0x06#8] ++
    [0x00#8, 0x01#8, 0x08#8, 0x00#8, 0x06#8, 0x04#8, 0x00#8, 0x01#8] ++ src ++ srcIp ++
    [0x00#8, 0x00#8, 0x00#8, 0x00#8, 0x00#8, 0x00#8] ++ targetIp)

/-- The body the handler would prepare, written in one go. -/
def frameBodyLoop (request : ProtocolTxRequest) :
    ℕ → BitVec 11 → Buffer txFrameBodyBytesInt → Buffer txFrameBodyBytesInt
  | 0, _, frameBody => frameBody
  | n + 1, i, frameBody =>
    let (frameBody, done) := prepareTxSlotFrameBodyStep frameBody request i
    if done then frameBody else frameBodyLoop request n (i + 1) frameBody

def txFrameFromRequest (request : ProtocolTxRequest) : List Byte :=
  let frameBody := frameBodyLoop request request.len.toNat 0 Buffer.zero
  appendEthFcs (preamble ++ (List.range request.len.toNat).map frameBody.get ++
    List.replicate (60 - request.len.toNat) 0#8)

def assertFcs (frame : List Byte) (eth bodyLen : ℕ) : Bool :=
  readLe32 frame (eth + bodyLen) == crc32Ethernet frame eth bodyLen

/-- The first `n` bytes of `bs` stand in the frame from `first` on. -/
def holds (frame : List Byte) (first n : ℕ) (bs : List Byte) : Bool :=
  (List.range n).all fun i => frame.getD (first + i) 0#8 == bs.getD i 0#8

def fpgaMacBytes : List Byte := [0x02#8, 0x00#8, 0x00#8, 0x00#8, 0x00#8, 0x01#8]
def fpgaIpBytes : List Byte := [192#8, 168#8, 1#8, 100#8]
def broadcastBytes : List Byte := [0xff#8, 0xff#8, 0xff#8, 0xff#8, 0xff#8, 0xff#8]

def assertValidTxFrame (frame dst payload : List Byte) : Bool :=
  let bodyLen := 14 + if payload.length < 46 then 46 else payload.length
  let eth := 8
  frame.length == 8 + bodyLen + 4 && holds frame 0 7 preamble && frame.getD 7 0#8 == 0xd5#8 &&
    holds frame eth 6 dst && holds frame (eth + 6) 6 fpgaMacBytes &&
    holds frame (eth + 12) 2 [0x08#8, 0x00#8] && holds frame (eth + 14) payload.length payload &&
    holds frame (eth + 14 + payload.length) (46 - payload.length)
      (List.replicate (46 - payload.length) 0#8) &&
    assertFcs frame eth bodyLen

def assertValidArpReply (frame targetMac targetIp : List Byte) (broadcastEthernet : Bool) : Bool :=
  let bodyLen := 14 + 46
  let eth := 8
  let arp := eth + 14
  frame.length == 8 + bodyLen + 4 && holds frame 0 7 preamble && frame.getD 7 0#8 == 0xd5#8 &&
    holds frame eth 6 targetMac && holds frame (eth + 6) 6 fpgaMacBytes &&
    holds frame (eth + 12) 2 [0x08#8, 0x06#8] &&
    (!broadcastEthernet || holds frame eth 6 broadcastBytes) &&
    holds frame arp 8 [0x00#8, 0x01#8, 0x08#8, 0x00#8, 0x06#8, 0x04#8, 0x00#8, 0x02#8] &&
    holds frame (arp + 8) 6 fpgaMacBytes && holds frame (arp + 14) 4 fpgaIpBytes &&
    holds frame (arp + 18) 6 targetMac && holds frame (arp + 24) 4 targetIp &&
    holds frame (arp + 28) 18 (List.replicate 18 0#8) && assertFcs frame eth bodyLen

def assertValidUnicastArpReply (frame requesterMac requesterIp : List Byte) : Bool :=
  assertValidArpReply frame requesterMac requesterIp false

def assertValidGratuitousArp (frame : List Byte) : Bool :=
  assertValidArpReply frame broadcastBytes fpgaIpBytes true

def assertValidTestFrame (frame : List Byte) (payloadLen : ℕ) : Bool :=
  let payload := (List.range payloadLen).map (BitVec.ofNat 8)
  assertValidTxFrame frame [0x11#8, 0x22#8, 0x33#8, 0x44#8, 0x55#8, 0x66#8] payload

/-- The state of a receiving loop: whether a frame has begun, and the low nibble of a byte. -/
structure Collector where
  frame : List Byte
  inFrame : Bool
  low : Bool
  byte : Byte

def Collector.init : Collector := ⟨[], false, false, 0⟩

/-- A nibble of a frame. -/
def Collector.take (c : Collector) (txd : Nibble) : Collector :=
  if !c.low then ⟨c.frame, true, true, txd.setWidth 8⟩
  else ⟨c.frame ++ [c.byte ||| txd.setWidth 8 <<< 4], true, false, c.byte⟩

/-- What a receiving loop ends with: the frame, the state of the machine, and the input with which
it broke off behind the frame. -/
structure Collected (σ ι : Type*) where
  frame : List Byte
  state : σ
  stop : Option ι

/-- A receiving loop over a machine that shows `eth_tx_en` and `eth_txd`. -/
def collectLoop {σ ι : Type*} (step : σ → ι → σ × Bool × Nibble) :
    List ι → σ → Collector → Collected σ ι
  | [], s, c => ⟨c.frame, s, none⟩
  | i :: inputs, s, c =>
    let (s, txEn, txd) := step s i
    if txEn then collectLoop step inputs s (c.take txd)
    else if c.inFrame then ⟨c.frame, s, some i⟩
    else collectLoop step inputs s c

def endpointCycle (s : Endpoint) (pins : RxPins) : Endpoint × Bool × Nibble :=
  let (s, pins) := ethernetL2EndpointHls s pins
  (s, pins.ethTxEn, pins.ethTxd)

def collectTxFrame (s : Endpoint) (maxCycles : ℕ) : List Byte × Endpoint :=
  let collected := collectLoop endpointCycle (List.replicate maxCycles ⟨false, 0, false⟩) s .init
  (collected.frame, collected.state)

def testFrameCycle (payloadLen : ℕ) (s : TestFrame) (cycle : ℕ) : TestFrame × Bool × Nibble :=
  let (s, pins) := ethernetL2EndpointHlsTestFrame s 0x112233445566 ipv4Ethertype
    (BitVec.ofNat 11 payloadLen) (BitVec.ofNat 16 cycle)
  (s, pins.ethTxEn, pins.ethTxd)

/-- Behind the frame the gap is drained. -/
def collectTestFrame (s : TestFrame) (payloadLen maxCycles : ℕ) : List Byte × TestFrame :=
  let collected := collectLoop (testFrameCycle payloadLen) (List.range maxCycles) s .init
  match collected.stop with
  | none => (collected.frame, collected.state)
  | some i => (collected.frame, (List.range 64).foldl
      (fun s drain => (testFrameCycle payloadLen s (i + drain + 1)).1) collected.state)

/-- Test frame after test frame, and whether each is valid. -/
def testFrames (s : TestFrame) : List (ℕ × ℕ) → List Bool
  | [] => []
  | (payloadLen, maxCycles) :: rest =>
    let (frame, s) := collectTestFrame s payloadLen maxCycles
    assertValidTestFrame frame payloadLen :: testFrames s rest

def sendRxFrame (s : Endpoint) (frame : List Byte) : Endpoint :=
  (frame.foldl (fun s byte => (s.step ⟨true, lowNibble byte, false⟩).step
    ⟨true, highNibble byte, false⟩) s).step ⟨false, 0, false⟩

/-- Frame after frame, and what the endpoint sends after each. -/
def probe (s : Endpoint) : List (List Byte × ℕ) → List (List Byte)
  | [] => []
  | (frame, maxCycles) :: rest =>
    let (reply, s) := collectTxFrame (sendRxFrame s frame) maxCycles
    reply :: probe s rest

end ArtyEthernet.Testbench
