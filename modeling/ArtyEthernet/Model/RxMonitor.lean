import ArtyEthernet.Model.Mii

/-!
# The receive monitor

The registers of `mii_rx_monitor.v` and what one edge of `eth_rx_clk` assigns to them. All
assignments of the block are nonblocking: right-hand sides read the registers as they were, and of
two assignments to one register the later one counts.
-/

namespace ArtyEthernet

structure RxMonitor where
  frameCount : BitVec 32
  byteCount : BitVec 32
  frameToggle : Bool
  rxActive : Bool
  inFrame : Bool
  haveLowNibble : Bool
  frameError : Bool
  rxByte : Byte
  frameBytes : BitVec 16
deriving DecidableEq, Repr

def RxMonitor.init : RxMonitor := ⟨0, 0, false, false, false, false, false, 0, 0⟩

def miiRxMonitorStep (m : RxMonitor) (pins : RxPins) : RxMonitor :=
  let next := { m with rxActive := pins.ethRxDv }
  if pins.ethRxDv then
    let next :=
      if !m.inFrame then
        { next with inFrame := true, haveLowNibble := false, frameError := false, frameBytes := 0 }
      else next
    let next :=
      { next with
        frameError := m.frameError || pins.ethRxerr
        haveLowNibble := !m.haveLowNibble }
    if m.haveLowNibble then
      { next with
        rxByte := pins.ethRxd ++ m.rxByte.extractLsb 3 0
        frameBytes := m.frameBytes + 1 }
    else { next with rxByte := m.rxByte.extractLsb 7 4 ++ pins.ethRxd }
  else
    let next := { next with haveLowNibble := false, frameError := false }
    if m.inFrame then
      let next := { next with inFrame := false }
      if !m.frameError then
        { next with
          frameCount := m.frameCount + 1
          byteCount := m.byteCount + m.frameBytes.setWidth 32
          frameToggle := !m.frameToggle }
      else next
    else next

end ArtyEthernet
