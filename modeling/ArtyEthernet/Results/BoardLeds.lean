import ArtyEthernet.Library.DelayLine
import ArtyEthernet.Library.OneShot
import ArtyEthernet.Model.HlsTop
import ArtyEthernet.Results.FrameToggle
import ArtyEthernet.Results.QuiescentReply

/-!
# The board LEDs

Three LEDs show the low bits of a frame count kept in the other clock domain. The toggle and its
synchronizer are an instance of `ToggleSync`, so the count follows the frames on the wire under any
interleaving of the two clocks, as long as `CLK100MHZ` is not slower than the shortest frame. The
fourth LED is a one-shot on activity.
-/

namespace ArtyEthernet
open ToggleSync

def flops (sync : BitVec 3) : List Bool := [sync.getLsbD 0, sync.getLsbD 1, sync.getLsbD 2]

def HlsTop.toggleEdge (t : HlsTop) : ClockEdge → Edge
  | .ethRxClk pins => .source (t.endpoint.outputs pins).txFrameToggle
  | .clk100mhz => .sample

def toggleEdges (edges : List ClockEdge) : List Edge :=
  Synchronous.trace HlsTop.step HlsTop.toggleEdge .reset edges

/-- The edges of `eth_rx_clk` since the last edge of `CLK100MHZ`. -/
def ethSince (edges : List ClockEdge) : ℕ := sinceSample (toggleEdges edges)

/-- `CLK100MHZ` never misses 170 edges of `eth_rx_clk` in a row. -/
def KeepsUp (edges : List ClockEdge) : Prop := ∀ before, before <+: edges → ethSince before ≤ 169

def sysEdges (edges : List ClockEdge) : ℕ := edges.countP fun e => e matches .clk100mhz

section Flops
variable (sync : BitVec 3) (level : Bool)

theorem flops_shift :
    flops (sync.extractLsb 1 0 ++ BitVec.ofBool level) = level :: (flops sync).dropLast := by
  simp only [flops, BitVec.getLsbD_append, BitVec.getLsbD_extractLsb, BitVec.getLsbD_ofBool]
  rfl

theorem lastDiffers_flops :
    lastDiffers (flops sync) = (sync.getLsbD 2 ^^ sync.getLsbD 1) := by
  simp [flops, lastDiffers, Bool.xor_comm]

end Flops

structure SyncAt (edges : List ClockEdge) : Prop where
  level : (HlsTop.run edges).driven.txFrameToggle = (ToggleSync.run 3 (toggleEdges edges)).level
  chain : flops (HlsTop.run edges).txFrameToggleSync = (ToggleSync.run 3 (toggleEdges edges)).chain
  toggles : levels (toggleEdges edges) = frameToggles (rxSamples edges)
  count : (HlsTop.run edges).status.frameCount =
    BitVec.ofNat 32 (eventCount 3 (toggleEdges edges))
  samples : sampleCount (toggleEdges edges) = sysEdges edges

variable {edges : List ClockEdge}

theorem toggleEdges_snoc (edges : List ClockEdge) (e : ClockEdge) :
    toggleEdges (edges ++ [e]) = toggleEdges edges ++ [(HlsTop.run edges).toggleEdge e] :=
  Synchronous.trace_snoc HlsTop.step HlsTop.toggleEdge .reset edges e

theorem SyncAt.frameEvent (h : SyncAt edges) : (HlsTop.run edges).frameEventSys =
    lastDiffers (ToggleSync.run 3 (toggleEdges edges)).chain := by
  rw [← h.chain, lastDiffers_flops]
  rfl

theorem ethernetStatusHls_frameCount (st : Status) (frameEvent rxActive : Bool) :
    (ethernetStatusHls st frameEvent rxActive).1.frameCount =
      st.frameCount + BitVec.ofNat 32 frameEvent.toNat := by
  simp only [ethernetStatusHls]
  cases frameEvent <;> split_ifs <;> simp_all

theorem syncAt_run (edges : List ClockEdge) : SyncAt edges := by
  induction edges using List.reverseRecOn with
  | nil => exact ⟨rfl, rfl, rfl, rfl, rfl⟩
  | append_singleton edges e h =>
    have hrun := HlsTop.run_snoc edges e
    have hedge := toggleEdges_snoc edges e
    cases e with
    | ethRxClk pins =>
      simp only [HlsTop.toggleEdge, HlsTop.run_endpoint] at hedge
      refine ⟨?_, ?_, ?_, ?_, ?_⟩
      · rw [hrun, hedge, ToggleSync.run_snoc, ← HlsTop.run_endpoint]
        rfl
      · rw [hrun, hedge, ToggleSync.run_snoc]
        exact h.chain
      · rw [hedge, levels_source, h.toggles, rxSamples_ethRxClk, frameToggles_snoc]
      · rw [hrun, hedge, eventCount_source]
        exact h.count
      · have hsamples := h.samples
        simp only [sampleCount, sysEdges] at hsamples ⊢
        rw [hedge, List.countP_append, List.countP_append, hsamples]
        rfl
    | clk100mhz =>
      simp only [HlsTop.toggleEdge] at hedge
      refine ⟨?_, ?_, ?_, ?_, ?_⟩
      · rw [hrun, hedge, ToggleSync.run_snoc]
        exact h.level
      · rw [hrun, hedge, ToggleSync.run_snoc]
        refine (flops_shift _ _).trans ?_
        rw [h.level, h.chain]
        rfl
      · rw [hedge, levels_sample, h.toggles, rxSamples_clk100mhz]
      · rw [hrun, hedge, eventCount_sample, ← h.frameEvent, BitVec.ofNat_add, ← h.count]
        exact ethernetStatusHls_frameCount _ _ _
      · have hsamples := h.samples
        simp only [sampleCount, sysEdges] at hsamples ⊢
        rw [hedge, List.countP_append, List.countP_append, hsamples]
        rfl

def Status.led (st : Status) : BitVec 4 :=
  BitVec.ofBool (st.frameCount.getLsbD 2) ++ BitVec.ofBool (st.frameCount.getLsbD 1) ++
    BitVec.ofBool (st.frameCount.getLsbD 0) ++ BitVec.ofBool (st.activityHoldoff != 0)

theorem HlsTop.run_led (edges : List ClockEdge) :
    (HlsTop.run edges).led = (HlsTop.run edges).status.led := by
  induction edges using List.reverseRecOn with
  | nil => rfl
  | append_singleton edges e ih =>
    rw [HlsTop.run_snoc]
    cases e with
    | ethRxClk pins => exact ih
    | clk100mhz => rfl

theorem led_count (n : ℕ) (holdoff : BitVec 25) :
    (Status.led ⟨BitVec.ofNat 32 n, holdoff⟩).extractLsb 3 1 = BitVec.ofNat 3 n := by
  apply BitVec.eq_of_getLsbD_eq
  intro i hi
  simp only [Status.led, BitVec.getLsbD_extractLsb, BitVec.getLsbD_append, BitVec.getLsbD_ofBool,
    BitVec.getLsbD_ofNat]
  have hcases : i = 0 ∨ i = 1 ∨ i = 2 := by omega
  rcases hcases with rfl | rfl | rfl <;> simp

theorem KeepsUp.sampled (h : KeepsUp edges) : Sampled 169 (toggleEdges edges) := by
  intro before hbefore
  rw [List.prefix_iff_eq_take.mp hbefore, toggleEdges, Synchronous.take_trace]
  exact h _ (List.take_prefix _ _)

theorem toggleEdges_append (edges later : List ClockEdge) :
    ∃ more, toggleEdges (edges ++ later) = toggleEdges edges ++ more ∧
      sampleCount more = sysEdges later := by
  have hsplit : toggleEdges (edges ++ later) = toggleEdges edges ++ Synchronous.trace HlsTop.step
      HlsTop.toggleEdge (Synchronous.run HlsTop.step .reset edges) later :=
    Synchronous.trace_append HlsTop.step HlsTop.toggleEdge .reset edges later
  refine ⟨_, hsplit, ?_⟩
  have hwhole := (syncAt_run (edges ++ later)).samples
  have hfirst := (syncAt_run edges).samples
  rw [hsplit, sampleCount, List.countP_append] at hwhole
  rw [sysEdges, List.countP_append] at hwhole
  rw [sampleCount, sysEdges] at hfirst
  rw [sampleCount, sysEdges]
  omega

/-- What the LEDs show of the frames sent: a count that has seen every frame sent before `later`
and no other frame than those sent so far. -/
structure CountsFrames (edges later : List ClockEdge) (counted : ℕ) : Prop where
  count : (HlsTop.run (edges ++ later)).status.frameCount = BitVec.ofNat 32 counted
  leds : (HlsTop.run (edges ++ later)).led.extractLsb 3 1 = BitVec.ofNat 3 counted
  complete : (emittedFrames (rxSamples edges)).length ≤ counted
  sound : counted ≤ (emittedFrames (rxSamples (edges ++ later))).length

/-- No frame event is lost or seen twice on its way to `CLK100MHZ`, and three edges bring it
there. -/
theorem frame_leds_count_frames (edges later : List ClockEdge) (hrate : KeepsUp (edges ++ later))
    (hlater : 3 ≤ sysEdges later) : ∃ counted, CountsFrames edges later counted := by
  have hsync := syncAt_run (edges ++ later)
  have hspaced : Spaced 169 (levels (toggleEdges (edges ++ later))) := by
    rw [hsync.toggles]
    exact (togglesAt_run _).spaced
  have hsampled : Sampled 169 (toggleEdges (edges ++ later)) := hrate.sampled
  obtain ⟨more, hmore, hsamples⟩ := toggleEdges_append edges later
  rw [hmore] at hspaced hsampled
  have hseen := flips_seen_within (by omega) (toggleEdges edges) more hspaced hsampled
    (hsamples ▸ hlater)
  have hconserved := (sound_run (n := 3) (by omega) _ hspaced hsampled).conserved
  rw [← hmore, (syncAt_run edges).toggles, (togglesAt_run _).count] at hseen
  rw [← hmore, hsync.toggles, (togglesAt_run _).count] at hconserved
  refine ⟨eventCount 3 (toggleEdges (edges ++ later)), hsync.count, ?_, hseen, by omega⟩
  rw [HlsTop.run_led]
  have hstatus : (HlsTop.run (edges ++ later)).status =
      ⟨BitVec.ofNat 32 (eventCount 3 (toggleEdges (edges ++ later))),
        (HlsTop.run (edges ++ later)).status.activityHoldoff⟩ := by
    rw [← hsync.count]
  rw [hstatus]
  exact led_count _ _

/-- The clocks of the board: four edges of `CLK100MHZ` to each edge of `eth_rx_clk`. -/
def boardEdges (samples : List RxPins) : List ClockEdge :=
  samples.flatMap fun pins => .ethRxClk pins :: List.replicate 4 .clk100mhz

theorem rxSamples_boardEdges (samples : List RxPins) :
    rxSamples (boardEdges samples) = samples := by
  induction samples with
  | nil => rfl
  | cons pins samples ih =>
    rw [boardEdges, List.flatMap_cons, ← boardEdges]
    exact congrArg (pins :: ·) ih

theorem ethSince_ethRxClk (edges : List ClockEdge) (pins : RxPins) :
    ethSince (edges ++ [.ethRxClk pins]) = ethSince edges + 1 := by
  rw [ethSince, toggleEdges_snoc]
  exact sinceSample_source _ _

theorem ethSince_clk100mhz (edges : List ClockEdge) : ethSince (edges ++ [.clk100mhz]) = 0 := by
  rw [ethSince, toggleEdges_snoc]
  exact sinceSample_sample _

theorem KeepsUp.snoc {e : ClockEdge} (h : KeepsUp edges) (hle : ethSince (edges ++ [e]) ≤ 169) :
    KeepsUp (edges ++ [e]) := by
  intro before hbefore
  rcases List.prefix_concat_iff.mp hbefore with rfl | hearlier
  · exact hle
  · exact h before hearlier

theorem KeepsUp.append_clk100mhz (h : KeepsUp edges) (n : ℕ) :
    KeepsUp (edges ++ List.replicate n .clk100mhz) := by
  induction n with
  | zero => rwa [List.replicate_zero, List.append_nil]
  | succ n ih =>
    rw [List.replicate_succ', ← List.append_assoc]
    apply ih.snoc
    rw [ethSince_clk100mhz]
    omega

theorem keepsUp_boardEdges (samples : List RxPins) :
    KeepsUp (boardEdges samples) ∧ ethSince (boardEdges samples) = 0 := by
  induction samples using List.reverseRecOn with
  | nil =>
    refine ⟨fun before hbefore => ?_, rfl⟩
    rw [List.prefix_nil.mp hbefore]
    exact Nat.zero_le _
  | append_singleton samples pins ih =>
    have hsplit : boardEdges (samples ++ [pins]) =
        boardEdges samples ++ [.ethRxClk pins] ++ List.replicate 4 .clk100mhz := by
      simp [boardEdges]
    have hone : KeepsUp (boardEdges samples ++ [.ethRxClk pins]) := by
      apply ih.1.snoc
      rw [ethSince_ethRxClk, ih.2]
      omega
    rw [hsplit]
    refine ⟨hone.append_clk100mhz 4, ?_⟩
    rw [List.replicate_succ', ← List.append_assoc, ethSince_clk100mhz]

def probeSamples : List RxPins :=
  ArpRequestFrame.probe.pins 7 ++ List.replicate 256 ⟨false, 0, false⟩

theorem emittedFrames_probeSamples : (emittedFrames probeSamples).length = 1 := by
  have hticks : NoTicks [] probeSamples := noTicks_early (by
    rw [probeSamples, List.length_append, ArpRequestFrame.length_pins, List.length_replicate]
    decide)
  have hserve := ArpRequestFrame.serve_pins [] .probe 7 _ quiescent_reset (by omega)
    (List.length_replicate.ge.trans' (by omega)) (fun p hp => by rw [List.eq_of_mem_replicate hp])
    (fun p hp => by rw [List.eq_of_mem_replicate (List.mem_of_mem_head? hp)]) hticks
  exact congrArg List.length hserve.1

/-- The reply crosses to `CLK100MHZ` and is counted once. -/
theorem frame_leds_count_frames_probe :
    (HlsTop.run (boardEdges probeSamples ++ List.replicate 3 .clk100mhz)).status.frameCount = 1 ∧
      (HlsTop.run (boardEdges probeSamples ++ List.replicate 3 .clk100mhz)).led.extractLsb 3 1 =
        1 := by
  have hsamples : rxSamples (boardEdges probeSamples ++ List.replicate 3 .clk100mhz) =
      probeSamples := by
    rw [rxSamples, List.filterMap_append, ← rxSamples, rxSamples_boardEdges]
    exact List.append_nil _
  obtain ⟨counted, h⟩ := frame_leds_count_frames (boardEdges probeSamples)
    (List.replicate 3 .clk100mhz) ((keepsUp_boardEdges probeSamples).1.append_clk100mhz 3)
    (by rfl)
  have hcomplete := h.complete
  have hsound := h.sound
  rw [rxSamples_boardEdges, emittedFrames_probeSamples] at hcomplete
  rw [hsamples, emittedFrames_probeSamples] at hsound
  obtain rfl : counted = 1 := by omega
  exact ⟨h.count, h.leds⟩

def sysSamples (observe : HlsTop → Bool) (edges : List ClockEdge) : List Bool :=
  Synchronous.events HlsTop.step (fun t e => match e with
    | .ethRxClk _ => none
    | .clk100mhz => some (observe t)) .reset edges

def HlsTop.activity (t : HlsTop) : Bool := t.driven.rxActive || t.driven.txActive

def activityLine (sync : BitVec 2) : Synchronous.DelayLine Bool :=
  ⟨sync.getLsbD 1, [sync.getLsbD 0]⟩

/-- What reloads the holdoff counter at each edge of `CLK100MHZ`: a frame event, or activity two
edges before. -/
def ledTriggers (edges : List ClockEdge) : List Bool :=
  let activity := sysSamples HlsTop.activity edges
  List.zipWith (· || ·) (sysSamples HlsTop.frameEventSys edges)
    (([false, false] ++ activity).take activity.length)

theorem sysSamples_ethRxClk (observe : HlsTop → Bool) (edges : List ClockEdge) (pins : RxPins) :
    sysSamples observe (edges ++ [.ethRxClk pins]) = sysSamples observe edges := by
  rw [sysSamples, Synchronous.events_snoc]
  exact List.append_nil _

theorem sysSamples_clk100mhz (observe : HlsTop → Bool) (edges : List ClockEdge) :
    sysSamples observe (edges ++ [.clk100mhz]) =
      sysSamples observe edges ++ [observe (HlsTop.run edges)] := by
  rw [sysSamples, Synchronous.events_snoc]
  rfl

theorem length_sysSamples (observe : HlsTop → Bool) (edges : List ClockEdge) :
    (sysSamples observe edges).length = sysEdges edges := by
  induction edges using List.reverseRecOn with
  | nil => rfl
  | append_singleton edges e ih =>
    rw [sysEdges] at ih
    rw [sysEdges, List.countP_append, ← ih]
    cases e with
    | ethRxClk pins => rw [sysSamples_ethRxClk]; rfl
    | clk100mhz => rw [sysSamples_clk100mhz, List.length_append]; rfl

theorem activityLine_shift (sync : BitVec 2) (level : Bool) :
    activityLine (sync.extractLsb 0 0 ++ BitVec.ofBool level) =
      (activityLine sync).shift level := by
  simp only [activityLine, BitVec.getLsbD_append, BitVec.getLsbD_extractLsb, BitVec.getLsbD_ofBool]
  rfl

theorem activityLine_run (edges : List ClockEdge) :
    activityLine (HlsTop.run edges).activitySync =
      Synchronous.run Synchronous.DelayLine.shift (.filled false 1)
        (sysSamples HlsTop.activity edges) := by
  induction edges using List.reverseRecOn with
  | nil => rfl
  | append_singleton edges e ih =>
    rw [HlsTop.run_snoc]
    cases e with
    | ethRxClk pins =>
      rw [sysSamples_ethRxClk]
      exact ih
    | clk100mhz =>
      rw [sysSamples_clk100mhz, Synchronous.run_snoc, ← ih]
      exact activityLine_shift _ _

theorem ledTriggers_eq (edges : List ClockEdge) : ledTriggers edges =
    sysSamples (fun t => t.frameEventSys || t.activitySync.getLsbD 1) edges := by
  have hdelay : ∀ as : List Bool, ([false, false] ++ as).take as.length =
      Synchronous.trace Synchronous.DelayLine.shift Synchronous.DelayLine.leaving
        (.filled false 1) as :=
    fun as => (Synchronous.DelayLine.trace_leaving (.filled false 1) as).symm
  simp only [ledTriggers, hdelay]
  induction edges using List.reverseRecOn with
  | nil => rfl
  | append_singleton edges e ih =>
    cases e with
    | ethRxClk pins => simpa only [sysSamples_ethRxClk] using ih
    | clk100mhz =>
      have hfront := congrArg Synchronous.DelayLine.front (activityLine_run edges)
      simp only [sysSamples_clk100mhz, Synchronous.trace_snoc]
      rw [List.zipWith_append (by
        rw [Synchronous.length_trace, length_sysSamples, length_sysSamples]), ih]
      exact congrArg (fun b => _ ++ [_ || b]) hfront.symm

theorem ethernetStatusHls_holdoff (st : Status) (frameEvent rxActive : Bool) :
    (ethernetStatusHls st frameEvent rxActive).1.activityHoldoff.toNat =
      OneShot.step 12500000 st.activityHoldoff.toNat (frameEvent || rxActive) := by
  cases frameEvent with
  | true => simp [ethernetStatusHls, OneShot.step]
  | false =>
    cases rxActive with
    | true => simp [ethernetStatusHls, OneShot.step]
    | false =>
      by_cases hzero : st.activityHoldoff = 0
      · simp [ethernetStatusHls, OneShot.step, hzero]
      · have hne : st.activityHoldoff.toNat ≠ 0 := fun h => hzero (BitVec.eq_of_toNat_eq h)
        have hpos : 1#25 ≤ st.activityHoldoff := by
          rw [BitVec.le_def]
          exact Nat.one_le_iff_ne_zero.mpr hne
        have hone : (st.activityHoldoff - 1#25).toNat = st.activityHoldoff.toNat - 1 :=
          BitVec.toNat_sub_of_le hpos
        have hstep : (ethernetStatusHls st false false).1 =
            { st with activityHoldoff := st.activityHoldoff - 1#25 } := by
          simp only [ethernetStatusHls, bne_iff_ne]
          exact if_pos hzero
        rw [hstep]
        exact hone

theorem holdoff_run (edges : List ClockEdge) :
    (HlsTop.run edges).status.activityHoldoff.toNat =
      OneShot.run 12500000 (ledTriggers edges) := by
  rw [ledTriggers_eq]
  induction edges using List.reverseRecOn with
  | nil => rfl
  | append_singleton edges e ih =>
    rw [HlsTop.run_snoc]
    cases e with
    | ethRxClk pins =>
      rw [sysSamples_ethRxClk]
      exact ih
    | clk100mhz =>
      rw [sysSamples_clk100mhz, OneShot.run_snoc, ← ih]
      exact ethernetStatusHls_holdoff _ _ _

/-- The activity LED is lit exactly while one of the last 12500000 edges of `CLK100MHZ` saw a frame
event, or the endpoint active two edges before. -/
theorem activity_led_shows_recent (edges : List ClockEdge) :
    (HlsTop.run edges).led.getLsbD 0 = OneShot.recent 12500000 (ledTriggers edges) := by
  rw [Bool.eq_iff_iff, ← OneShot.run_ne_zero_iff, ← holdoff_run, HlsTop.run_led]
  have hbit (st : Status) : st.led.getLsbD 0 = (st.activityHoldoff != 0) := by
    simp only [Status.led, BitVec.getLsbD_append, BitVec.getLsbD_ofBool]
    rfl
  rw [hbit, bne_iff_ne, Ne, ← BitVec.toNat_inj]
  rfl

end ArtyEthernet
