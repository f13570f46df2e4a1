import ArtyEthernet.Model.Constants

/-!
# Periodic timers

`ethernet_periodic_timers.h`: two free-running counters raise one-cycle ticks.
-/

namespace ArtyEthernet

structure PeriodicTxTicks where
  beaconTick : Bool
  gratuitousArpTick : Bool
deriving DecidableEq, Repr

/-- The difference is one bit wider than the interval, so that an interval of zero never ticks. -/
def periodicCounterTick (intervalCycles counter : BitVec 32) : BitVec 32 × Bool :=
  if counter.setWidth 33 = intervalCycles.setWidth 33 - 1#33 then (0, true)
  else (counter + 1, false)

structure PeriodicTimers where
  beaconCount : BitVec 32
  gratuitousArpCount : BitVec 32
deriving DecidableEq, Repr

def PeriodicTimers.init : PeriodicTimers := ⟨0, 0⟩

def periodicTxTimerStep (st : PeriodicTimers) : PeriodicTimers × PeriodicTxTicks :=
  let beacon := periodicCounterTick beaconIntervalCycles st.beaconCount
  let gratuitousArp := periodicCounterTick gratuitousArpIntervalCycles st.gratuitousArpCount
  (⟨beacon.1, gratuitousArp.1⟩, ⟨beacon.2, gratuitousArp.2⟩)

end ArtyEthernet
