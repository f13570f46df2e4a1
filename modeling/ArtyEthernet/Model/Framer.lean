import ArtyEthernet.Model.Mii
import ArtyEthernet.Model.ProtocolHelpers

/-!
# The transmit framer

`ethernet_framer.h`: given a frame body buffer it emits preamble, body with padding, frame check
sequence and inter-frame gap, one nibble per cycle.
-/

namespace ArtyEthernet
open Words

inductive TxState where
  | txIdle
  | txPreamble
  | txData
  | txFcs
  | txIfg
deriving DecidableEq, Repr

def crc32NextByte (crcIn : BitVec 32) (dataIn : Byte) : BitVec 32 :=
  (List.range 8).foldl (fun crc i =>
    if crc.getLsbD 0 ^^ dataIn.getLsbD i then (crc >>> 1) ^^^ 0xEDB88320 else crc >>> 1) crcIn

/-- One frame-body byte; everything past the body reads as zero. -/
def txFrameBodyByte (txFrameBodyBuf : Buffer txFrameBodyBytesInt)
    (index frameBodyLen : BitVec 11) : Byte :=
  if frameBodyLen ≤ index ∨ txFrameBodyBytes ≤ index then 0
  else Buffer.get txFrameBodyBuf index.toNat

structure Framer where
  txState : TxState
  txNibblePhase : Bool
  txByteIndex : BitVec 11
  txFcsIndex : BitVec 2
  txIfgCount : BitVec 6
  txCrc : BitVec 32
  txFcs : BitVec 32
  txLen : BitVec 11
  txFrameBodyLen : BitVec 11
  txFrame : Bool
deriving DecidableEq, Repr

def Framer.init : Framer := ⟨.txIdle, false, 0, 0, 0, 0xffffffff, 0, 0, 0, false⟩

structure FramerPins where
  ethTxEn : Bool
  ethTxd : Nibble
  txFrameToggle : Bool
  txActive : Bool
  txIdle : Bool
deriving DecidableEq, Repr

/-- The pins of a cycle that carries no nibble. -/
def Framer.silent (st : Framer) (txIdle : Bool) : FramerPins :=
  ⟨false, 0, st.txFrame, false, txIdle⟩

/-- The pins of a cycle that carries a nibble of a byte being emitted. -/
def Framer.emitting (st : Framer) (emit : MiiTxEvent) : FramerPins :=
  ⟨emit.ethTxEn, emit.ethTxd, st.txFrame, true, false⟩

def framerIdleStep (st : Framer) (startRequest : Bool) (startLen : BitVec 11) :
    Framer × FramerPins :=
  let st := { st with
    txNibblePhase := false
    txByteIndex := 0
    txFcsIndex := 0
    txCrc := 0xffffffff }
  if startRequest then
    let st := { st with
      txLen := startLen
      txFrameBodyLen :=
        if startLen < minEthFrameBodyBytes then minEthFrameBodyBytes else startLen
      txState := .txPreamble }
    (st, st.silent false)
  else (st, st.silent true)

def framerPreambleStep (st : Framer) : Framer × FramerPins :=
  let preambleByte : Byte := if st.txByteIndex = 7 then 0xd5#8 else 0x55#8
  let emit := miiTxEmitByteStep preambleByte st.txNibblePhase
  let st := { st with txNibblePhase := emit.txNibblePhase }
  let st :=
    if emit.byteDone then
      if st.txByteIndex = 7 then { st with txByteIndex := 0, txState := .txData }
      else { st with txByteIndex := st.txByteIndex + 1 }
    else st
  (st, st.emitting emit)

def framerDataStep (st : Framer) (txFrameBodyBuf : Buffer txFrameBodyBytesInt) :
    Framer × FramerPins :=
  let outByte := txFrameBodyByte txFrameBodyBuf st.txByteIndex st.txLen
  let emit := miiTxEmitByteStep outByte st.txNibblePhase
  let st := { st with txNibblePhase := emit.txNibblePhase }
  let st :=
    if emit.byteDone then
      let nextCrc := crc32NextByte st.txCrc outByte
      let st := { st with txCrc := nextCrc }
      if st.txByteIndex = st.txFrameBodyLen - 1 then
        { st with txFcs := ~~~nextCrc, txFcsIndex := 0, txState := .txFcs }
      else { st with txByteIndex := st.txByteIndex + 1 }
    else st
  (st, st.emitting emit)

/-- The complemented CRC, least significant byte first. -/
def fcsByte (txFcs : BitVec 32) (txFcsIndex : BitVec 2) : Byte :=
  if txFcsIndex = 0 then txFcs.extractLsb 7 0
  else if txFcsIndex = 1 then txFcs.extractLsb 15 8
  else if txFcsIndex = 2 then txFcs.extractLsb 23 16
  else txFcs.extractLsb 31 24

def framerFcsStep (st : Framer) : Framer × FramerPins :=
  let emit := miiTxEmitByteStep (fcsByte st.txFcs st.txFcsIndex) st.txNibblePhase
  let st := { st with txNibblePhase := emit.txNibblePhase }
  let st :=
    if emit.byteDone then
      if st.txFcsIndex = 3 then
        { st with txFrame := !st.txFrame, txIfgCount := 0, txState := .txIfg }
      else { st with txFcsIndex := st.txFcsIndex + 1 }
    else st
  (st, st.emitting emit)

def framerIfgStep (st : Framer) : Framer × FramerPins :=
  if st.txIfgCount = ifgNibbles - 1 then
    ({ st with txState := .txIdle }, st.silent true)
  else ({ st with txIfgCount := st.txIfgCount + 1 }, st.silent false)

def ethernetTxFramerStep (st : Framer) (startRequest : Bool) (startLen : BitVec 11)
    (txFrameBodyBuf : Buffer txFrameBodyBytesInt) : Framer × FramerPins :=
  match st.txState with
  | .txIdle => framerIdleStep st startRequest startLen
  | .txPreamble => framerPreambleStep st
  | .txData => framerDataStep st txFrameBodyBuf
  | .txFcs => framerFcsStep st
  | .txIfg => framerIfgStep st

end ArtyEthernet
