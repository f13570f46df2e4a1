import ArtyEthernet.Model.Constants

/-!
# The MII nibble interface

The nibble assembler and the byte emitter of `ethernet_mii.h`. The static variables of a source
function form one record, passed in and returned.
-/

namespace ArtyEthernet
open Words

/-- The receive pins sampled at one clock cycle. -/
structure RxPins where
  ethRxDv : Bool
  ethRxd : Nibble
  ethRxerr : Bool
deriving DecidableEq, Repr

structure MiiRx where
  rxInFrame : Bool
  rxHaveLow : Bool
  rxLowNibble : Nibble
deriving DecidableEq, Repr

def MiiRx.init : MiiRx := ⟨false, false, 0⟩

structure MiiRxEvent where
  frameStart : Bool
  byteValid : Bool
  dataByte : Byte
  frameEnd : Bool
deriving DecidableEq, Repr

def miiRxByteAssemblerStep (st : MiiRx) (ethRxDv : Bool) (ethRxd : Nibble) : MiiRx × MiiRxEvent :=
  if ethRxDv then
    let frameStart := !st.rxInFrame
    -- The first active cycle of a frame discards a nibble left over from the previous one.
    let rxHaveLow := if frameStart then false else st.rxHaveLow
    if rxHaveLow then
      (⟨true, false, st.rxLowNibble⟩, ⟨frameStart, true, joinNibbles ethRxd st.rxLowNibble, false⟩)
    else
      (⟨true, true, ethRxd⟩, ⟨frameStart, false, 0, false⟩)
  else
    (⟨false, false, st.rxLowNibble⟩, ⟨false, false, 0, st.rxInFrame⟩)

structure MiiTxEvent where
  txNibblePhase : Bool
  ethTxEn : Bool
  ethTxd : Nibble
  byteDone : Bool
deriving DecidableEq, Repr

/-- Emit one byte as two nibbles, low nibble first. -/
def miiTxEmitByteStep (outByte : Byte) (txNibblePhase : Bool) : MiiTxEvent where
  txNibblePhase := !txNibblePhase
  ethTxEn := true
  ethTxd := if txNibblePhase then outByte.extractLsb 7 4 else outByte.extractLsb 3 0
  byteDone := txNibblePhase

end ArtyEthernet
