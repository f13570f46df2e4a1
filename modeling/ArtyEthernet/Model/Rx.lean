import ArtyEthernet.Model.Constants

/-!
# The receive parser

`ethernet_rx.h`: the optional preamble is skipped, the header is recorded, and the payload is
buffered behind a four-byte delay line that holds back the frame check sequence.
-/

namespace ArtyEthernet
open Words

inductive RxState where
  | rxSearch
  | rxData
deriving DecidableEq, Repr

structure EthernetFrameMeta where
  valid : Bool
  truncated : Bool
  dstMac : BitVec 48
  srcMac : BitVec 48
  ethertype : BitVec 16
  payloadLen : BitVec 11
deriving DecidableEq, Repr

structure RxParser where
  rxState : RxState
  rxPreambleCount : BitVec 4
  rxByteIndex : BitVec 16
  rxFrameError : Bool
  rxHeader : EthHeader
  rxFcsTail : Buffer 4
  rxFcsTailCount : BitVec 3
  rxPayloadCount : BitVec 11
  rxTruncated : Bool

def RxParser.init : RxParser where
  rxState := .rxSearch
  rxPreambleCount := 0
  rxByteIndex := 0
  rxFrameError := false
  rxHeader := ⟨0, 0, 0⟩
  rxFcsTail := Buffer.zero
  rxFcsTailCount := 0
  rxPayloadCount := 0
  rxTruncated := false

/-- The delay line moved on by one byte. -/
def shiftFcsTail (tail : Buffer 4) (dataByte : Byte) : Buffer 4 :=
  let tail := Buffer.set tail 0 (Buffer.get tail 1)
  let tail := Buffer.set tail 1 (Buffer.get tail 2)
  let tail := Buffer.set tail 2 (Buffer.get tail 3)
  Buffer.set tail 3 dataByte

def rxCapturePayloadByte (st : RxParser) (rxPayloadBuf : Buffer maxEthPayloadBytesInt)
    (dataByte : Byte) : RxParser × Buffer maxEthPayloadBytesInt :=
  if st.rxFcsTailCount < 4 then
    ({ st with
      rxFcsTail := Buffer.set st.rxFcsTail st.rxFcsTailCount.toNat dataByte
      rxFcsTailCount := st.rxFcsTailCount + 1 }, rxPayloadBuf)
  else
    let payloadByte := Buffer.get st.rxFcsTail 0
    let st := { st with rxFcsTail := shiftFcsTail st.rxFcsTail dataByte }
    if st.rxPayloadCount < maxEthPayloadBytes then
      ({ st with rxPayloadCount := st.rxPayloadCount + 1 },
        Buffer.set rxPayloadBuf st.rxPayloadCount.toNat payloadByte)
    else ({ st with rxTruncated := true }, rxPayloadBuf)

/-- The header register written by the first fourteen data bytes. -/
def EthHeader.store (header : EthHeader) (index : ℕ) (dataByte : Byte) : EthHeader :=
  match index with
  | 0 => { header with dstMac := setRange header.dstMac 40 dataByte }
  | 1 => { header with dstMac := setRange header.dstMac 32 dataByte }
  | 2 => { header with dstMac := setRange header.dstMac 24 dataByte }
  | 3 => { header with dstMac := setRange header.dstMac 16 dataByte }
  | 4 => { header with dstMac := setRange header.dstMac 8 dataByte }
  | 5 => { header with dstMac := setRange header.dstMac 0 dataByte }
  | 6 => { header with srcMac := setRange header.srcMac 40 dataByte }
  | 7 => { header with srcMac := setRange header.srcMac 32 dataByte }
  | 8 => { header with srcMac := setRange header.srcMac 24 dataByte }
  | 9 => { header with srcMac := setRange header.srcMac 16 dataByte }
  | 10 => { header with srcMac := setRange header.srcMac 8 dataByte }
  | 11 => { header with srcMac := setRange header.srcMac 0 dataByte }
  | 12 => { header with ethertype := setRange header.ethertype 8 dataByte }
  | 13 => { header with ethertype := setRange header.ethertype 0 dataByte }
  | _ => header

/-- One byte past the preamble: header bytes by index, everything else to the payload. -/
def rxDataByteStep (st : RxParser) (rxPayloadBuf : Buffer maxEthPayloadBytesInt)
    (dataByte : Byte) : RxParser × Buffer maxEthPayloadBytesInt :=
  let r :=
    if st.rxByteIndex.toNat < 14 then
      ({ st with rxHeader := st.rxHeader.store st.rxByteIndex.toNat dataByte }, rxPayloadBuf)
    else rxCapturePayloadByte st rxPayloadBuf dataByte
  ({ r.1 with rxByteIndex := r.1.rxByteIndex + 1 }, r.2)

/-- The `byte_valid` branch. -/
def rxByteStep (st : RxParser) (rxPayloadBuf : Buffer maxEthPayloadBytesInt) (dataByte : Byte) :
    RxParser × Buffer maxEthPayloadBytesInt :=
  match st.rxState with
  | .rxSearch =>
    if dataByte = 0x55#8 then
      (if st.rxPreambleCount ≠ 15 then { st with rxPreambleCount := st.rxPreambleCount + 1 }
        else st, rxPayloadBuf)
    else if dataByte = 0xd5#8 ∧ st.rxPreambleCount ≠ 0 then
      ({ st with rxState := .rxData, rxByteIndex := 0 }, rxPayloadBuf)
    else rxDataByteStep { st with rxState := .rxData } rxPayloadBuf dataByte
  | .rxData => rxDataByteStep st rxPayloadBuf dataByte

/-- The `frame_start` branch. -/
def RxParser.startFrame (st : RxParser) : RxParser :=
  { st with
    rxState := .rxSearch
    rxPreambleCount := 0
    rxByteIndex := 0
    rxFrameError := false
    rxHeader := ⟨0, 0, 0⟩
    rxFcsTailCount := 0
    rxPayloadCount := 0
    rxTruncated := false }

/-- The state left by the `frame_end` branch. -/
def RxParser.endFrame (st : RxParser) : RxParser :=
  { st with
    rxState := .rxSearch
    rxPreambleCount := 0
    rxByteIndex := 0
    rxFrameError := false
    rxFcsTailCount := 0
    rxPayloadCount := 0
    rxTruncated := false }

/-- The frame reported by the `frame_end` branch. -/
def RxParser.frameMeta (st : RxParser) : EthernetFrameMeta where
  valid := decide (ethHeaderBytes.setWidth 16 + 4 ≤ st.rxByteIndex) &&
    st.rxFcsTailCount == 4 && !st.rxFrameError
  truncated := st.rxTruncated
  dstMac := st.rxHeader.dstMac
  srcMac := st.rxHeader.srcMac
  ethertype := st.rxHeader.ethertype
  payloadLen := st.rxPayloadCount

def EthernetFrameMeta.blank : EthernetFrameMeta := ⟨false, false, 0, 0, 0, 0⟩

def ethernetRxParserStep (st : RxParser) (frameStart byteValid : Bool) (dataByte : Byte)
    (frameEnd ethRxerr : Bool) (rxPayloadBuf : Buffer maxEthPayloadBytesInt) :
    RxParser × Buffer maxEthPayloadBytesInt × EthernetFrameMeta :=
  let st := if frameStart then st.startFrame else st
  let st := { st with rxFrameError := st.rxFrameError || ethRxerr }
  let r := if byteValid then rxByteStep st rxPayloadBuf dataByte else (st, rxPayloadBuf)
  if frameEnd then (r.1.endFrame, r.2, r.1.frameMeta)
  else (r.1, r.2, EthernetFrameMeta.blank)

end ArtyEthernet
