import ArtyEthernet.Model.Endpoint
import ArtyEthernet.Model.Status

/-!
# The board top level

The two clock domains of `hls_top.v` once the PLL is locked. The endpoint runs on `eth_rx_clk`; the
synchronizers and the status block run on `CLK100MHZ` and see the endpoint's outputs as they stand
at each of their edges. A run is any interleaving of the edges of the two clocks.
-/

namespace ArtyEthernet

/-- A rising edge of one of the two clocks, with the receive pins sampled by the first. -/
inductive ClockEdge where
  | ethRxClk (pins : RxPins)
  | clk100mhz

structure HlsTop where
  endpoint : Endpoint
  /-- The outputs of the endpoint since its last edge. -/
  driven : TxPins
  txFrameToggleSync : BitVec 3
  activitySync : BitVec 2
  status : Status
  led : BitVec 4

def HlsTop.reset : HlsTop where
  endpoint := .reset
  driven := ⟨false, 0, false, false, false⟩
  txFrameToggleSync := 0
  activitySync := 0
  status := .init
  led := 0

def HlsTop.frameEventSys (t : HlsTop) : Bool :=
  t.txFrameToggleSync.getLsbD 2 ^^ t.txFrameToggleSync.getLsbD 1

/-- The clocked block and the status instance on an edge of `CLK100MHZ`. -/
def HlsTop.sysEdge (t : HlsTop) : HlsTop :=
  let status := ethernetStatusHls t.status t.frameEventSys (t.activitySync.getLsbD 1)
  { t with
    txFrameToggleSync :=
      t.txFrameToggleSync.extractLsb 1 0 ++ BitVec.ofBool t.driven.txFrameToggle
    activitySync :=
      t.activitySync.extractLsb 0 0 ++ BitVec.ofBool (t.driven.rxActive || t.driven.txActive)
    status := status.1
    led := status.2 }

def HlsTop.step (t : HlsTop) : ClockEdge → HlsTop
  | .ethRxClk pins => { t with endpoint := t.endpoint.step pins, driven := t.endpoint.outputs pins }
  | .clk100mhz => t.sysEdge

def HlsTop.run (edges : List ClockEdge) : HlsTop := Synchronous.run HlsTop.step .reset edges

def rxSamples (edges : List ClockEdge) : List RxPins := edges.filterMap fun
  | .ethRxClk pins => some pins
  | .clk100mhz => none

section Snoc
variable (edges : List ClockEdge) (pins : RxPins)

theorem HlsTop.run_snoc (e : ClockEdge) : HlsTop.run (edges ++ [e]) = (HlsTop.run edges).step e :=
  Synchronous.run_snoc HlsTop.step .reset edges e

@[simp] theorem rxSamples_ethRxClk :
    rxSamples (edges ++ [.ethRxClk pins]) = rxSamples edges ++ [pins] := by
  simp [rxSamples]

@[simp] theorem rxSamples_clk100mhz : rxSamples (edges ++ [.clk100mhz]) = rxSamples edges := by
  simp [rxSamples]

/-- The endpoint only sees its own clock. -/
theorem HlsTop.run_endpoint : (HlsTop.run edges).endpoint = runFrom (rxSamples edges) := by
  induction edges using List.reverseRecOn with
  | nil => rfl
  | append_singleton edges e ih =>
    rw [HlsTop.run_snoc]
    cases e with
    | ethRxClk pins =>
      rw [rxSamples_ethRxClk, runFrom_snoc, ← ih]
      rfl
    | clk100mhz =>
      rw [rxSamples_clk100mhz, ← ih]
      rfl

end Snoc

end ArtyEthernet
