import ArtyEthernet.Library.Words

/-!
# The status LEDs

The status block of `ethernet_status_hls.cpp`: it counts frame events and stretches activity so
that it can be seen.
-/

namespace ArtyEthernet

/-- The static state of `ethernet_status_hls`. -/
structure Status where
  frameCount : BitVec 32
  activityHoldoff : BitVec 25
deriving DecidableEq, Repr

def Status.init : Status := ⟨0, 0⟩

/-- One call of `ethernet_status_hls`; the second component is `led`. -/
def ethernetStatusHls (st : Status) (frameEvent rxActive : Bool) : Status × BitVec 4 :=
  let st' : Status :=
    if frameEvent then ⟨st.frameCount + 1, 12500000⟩
    else if rxActive then { st with activityHoldoff := 12500000 }
    else if st.activityHoldoff != 0 then { st with activityHoldoff := st.activityHoldoff - 1 }
    else st
  (st',
    BitVec.ofBool (st'.frameCount.getLsbD 2) ++ BitVec.ofBool (st'.frameCount.getLsbD 1) ++
      BitVec.ofBool (st'.frameCount.getLsbD 0) ++ BitVec.ofBool (st'.activityHoldoff != 0))

end ArtyEthernet
