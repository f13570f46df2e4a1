import ArtyEthernet.Proofs.Backlog

/-!
# Side-band signals outside frames

Two runs whose samples agree wherever `eth_rx_dv` is high can differ in one register only, the
error flag of the parser, and in that only between bursts. The flag is cleared at the start of a
burst, but the cycle that ends a burst still adds `eth_rxerr` to it before the frame is judged.
-/

namespace ArtyEthernet
open Words

/-- The samples differ at most in the side-band signals of an idle cycle. -/
def AgreeInFrames (a b : RxPins) : Prop := a.ethRxDv = b.ethRxDv ∧ (a.ethRxDv = true → a = b)

/-- Equal outputs, and equal packets published, at every step. -/
def SameBehaviour (xs ys : List RxPins) : Prop :=
  drivenPins xs = drivenPins ys ∧
    Synchronous.trace Endpoint.step Endpoint.rxPublished .reset xs =
      Synchronous.trace Endpoint.step Endpoint.rxPublished .reset ys

/-- Whether the burst is published depends on the cycle after it. -/
def HingesOnStop (r : RxBurst) : Prop :=
  18 ≤ (burstData r).length % 65536 ∧ ∀ p ∈ r.body, p.ethRxerr = false

/-- Wherever it matters, the error flag is the same on the first idle cycle after a burst. -/
def StopsAgree (xs ys : List RxPins) : Prop :=
  ∀ r ∈ (rxBursts xs).zip (rxBursts ys), HingesOnStop r.1 → r.1.stop.ethRxerr = r.2.stop.ethRxerr

def RxCapture.withError (capture : RxCapture) (e : Bool) : RxCapture :=
  { capture with parser := { capture.parser with rxFrameError := e } }

/-- The endpoints differ at most in the error flag, and in a frame not even in that. -/
def Alike (s t : Endpoint) : Prop :=
  ∃ e, t = { s with capture := s.capture.withError e } ∧ (s.capture.mii.rxInFrame = true → t = s)

theorem Alike.refl (s : Endpoint) : Alike s s :=
  ⟨s.capture.parser.rxFrameError, rfl, fun _ => rfl⟩

section Step
variable {capture : RxCapture} {queue : RxPacketQueue} {a b : RxPins}

/-- The first sample of a burst overwrites the flag. -/
theorem rxSampleStep_first (hin : capture.mii.rxInFrame = false) (ha : a.ethRxDv = true)
    (e : Bool) : rxSampleStep (capture.withError e) a queue = rxSampleStep capture a queue := by
  have hasm : miiRxByteAssemblerStep capture.mii a.ethRxDv a.ethRxd =
      (⟨true, true, a.ethRxd⟩, ⟨true, false, 0, false⟩) := by
    rw [ha, assembler_first _ hin]
  simp only [rxSampleStep, hasm, RxCapture.withError, ethernetRxParserStep,
    RxParser.startFrame, if_true]

theorem ethernetRxQueueStep_idle (hin : capture.mii.rxInFrame = false) (ha : a.ethRxDv = false)
    (hb : b.ethRxDv = false) (e : Bool) :
    ∃ e', ethernetRxQueueStep (capture.withError e) b queue =
        ((ethernetRxQueueStep capture a queue).1.withError e',
          (ethernetRxQueueStep capture a queue).2) ∧
      rxPublishedSlot (capture.withError e) b queue = rxPublishedSlot capture a queue := by
  have hgap (p : RxPins) (hp : p.ethRxDv = false) :
      miiRxByteAssemblerStep capture.mii p.ethRxDv p.ethRxd =
        (⟨false, false, capture.mii.rxLowNibble⟩, ⟨false, false, 0, false⟩) := by
    rw [hp, assembler_gap, hin]
  refine ⟨e || b.ethRxerr, ?_⟩
  cases hdrop : capture.rxDropCurrent with
  | false =>
    simp [ethernetRxQueueStep, rxPublishedSlot, rxSampleStep, RxSample.published, hgap a ha,
      hgap b hb, RxCapture.withError, ethernetRxParserStep, hdrop]
  | true =>
    simp [ethernetRxQueueStep, rxPublishedSlot, rxSampleStep, RxSample.published, hgap a ha,
      hgap b hb, RxCapture.withError, ethernetRxParserStep, hdrop]

def RxParser.judged (parser : RxParser) (pins : RxPins) : RxParser :=
  { parser with rxFrameError := parser.rxFrameError || pins.ethRxerr }

theorem rxSampleStep_end (hin : capture.mii.rxInFrame = true) (ha : a.ethRxDv = false)
    (hb : b.ethRxDv = false)
    (hvalid : (capture.parser.judged a).frameMeta.valid =
      (capture.parser.judged b).frameMeta.valid) :
    rxSampleStep capture a queue = rxSampleStep capture b queue := by
  have hgap (p : RxPins) (hp : p.ethRxDv = false) :
      miiRxByteAssemblerStep capture.mii p.ethRxDv p.ethRxd =
        (⟨false, false, capture.mii.rxLowNibble⟩, ⟨false, false, 0, true⟩) := by
    rw [hp, assembler_gap, hin]
  have hmeta : (capture.parser.judged a).frameMeta = (capture.parser.judged b).frameMeta := by
    simp only [RxParser.frameMeta, RxParser.judged, EthernetFrameMeta.mk.injEq, and_true]
      at hvalid ⊢
    exact hvalid
  have hparse (p : RxPins) (buf : Buffer maxEthPayloadBytesInt) :
      ethernetRxParserStep capture.parser false false 0 true p.ethRxerr buf =
        (capture.parser.endFrame, buf, (capture.parser.judged p).frameMeta) := rfl
  simp only [rxSampleStep, hgap a ha, hgap b hb, hparse, hmeta]

end Step

theorem step_of_rxStage {s t : Endpoint} {a b : RxPins} {capture : RxCapture}
    (ht : t = { s with capture := capture }) (hqueue : (t.rxStage b).2 = (s.rxStage a).2)
    (hdv : a.ethRxDv = b.ethRxDv) :
    t.step b = { s.step a with capture := (t.rxStage b).1 } ∧ s.outputs a = t.outputs b := by
  subst ht
  simp only [Endpoint.step, Endpoint.outputs, ethernetL2EndpointHls, Endpoint.txStage,
    Endpoint.protoStage, hqueue, hdv, and_self]

section Cycle
variable {s t : Endpoint} {a b : RxPins} {cur : List RxPins}

theorem Alike.step_on (h : Alike s t) (ha : a.ethRxDv = true) :
    Alike (s.step a) (t.step a) ∧ s.outputs a = t.outputs a ∧
      s.rxPublished a = t.rxPublished a := by
  have hsample : rxSampleStep t.capture a t.rxQueue = rxSampleStep s.capture a s.rxQueue := by
    obtain ⟨e, ht, hin⟩ := h
    cases hframe : s.capture.mii.rxInFrame with
    | true => rw [hin hframe]
    | false =>
      rw [ht]
      exact rxSampleStep_first hframe ha e
  have hrx : t.rxStage a = s.rxStage a := by
    simp only [Endpoint.rxStage, ethernetRxQueueStep, hsample]
  obtain ⟨e, ht, -⟩ := h
  obtain ⟨hstep, hout⟩ := step_of_rxStage ht (congrArg Prod.snd hrx) rfl
  have hsame : t.step a = s.step a := by
    rw [hstep, hrx]
    rfl
  refine ⟨?_, hout, ?_⟩
  · rw [hsame]
    exact Alike.refl _
  · simp only [Endpoint.rxPublished, hsample]

theorem Alike.step_idle (h : Alike s t) (hin : s.capture.mii.rxInFrame = false)
    (ha : a.ethRxDv = false) (hb : b.ethRxDv = false) :
    Alike (s.step a) (t.step b) ∧ s.outputs a = t.outputs b ∧
      s.rxPublished a = t.rxPublished b := by
  obtain ⟨e, ht, -⟩ := h
  obtain ⟨e', hrx, hpub⟩ := @ethernetRxQueueStep_idle _ s.rxQueue _ _ hin ha hb e
  have hstage : t.rxStage b = ((s.rxStage a).1.withError e', (s.rxStage a).2) := by
    rw [ht]
    exact hrx
  have hqueue : (t.rxStage b).2 = (s.rxStage a).2 := by rw [hstage]
  obtain ⟨hstep, hout⟩ := step_of_rxStage ht hqueue (ha.trans hb.symm)
  refine ⟨⟨e', ?_, fun hframe => ?_⟩, hout, ?_⟩
  · rw [hstep, hstage]
    rfl
  · have hoff : (s.step a).capture.mii.rxInFrame = false := by
      have spec := rxSampleStep_spec s.capture a s.rxQueue
      simp [Endpoint.step, ethernetL2EndpointHls, Endpoint.rxStage, ethernetRxQueueStep, spec.mii,
        ha, assembler_gap]
    rw [hoff] at hframe
    contradiction
  · rw [ht]
    exact hpub.symm

theorem CaptureAt.judged_valid {capture : RxCapture} {queue : RxPacketQueue}
    (h : CaptureAt cur capture queue) (hne : cur ≠ [])
    (hstop : HingesOnStop ⟨cur, a⟩ → a.ethRxerr = b.ethRxerr) :
    (capture.parser.judged a).frameMeta.valid = (capture.parser.judged b).frameMeta.valid := by
  obtain ⟨kept, hp⟩ := h.parser hne
  have hvalid (p : RxPins) := (hp.orError p.ethRxerr).frameMeta_valid
  unfold RxParser.judged
  rw [hvalid, hvalid, decide_eq_decide]
  by_cases hhinge : HingesOnStop ⟨cur, a⟩
  · rw [hstop hhinge]
  · apply and_congr_right
    intro hlen
    have herr : cur.any RxPins.ethRxerr = true := by
      by_contra hclean
      apply hhinge
      exact ⟨hlen, by simpa using hclean⟩
    simp [herr]

theorem Alike.step_end (h : Alike s t) (hat : CaptureAt cur s.capture s.rxQueue) (hne : cur ≠ [])
    (ha : a.ethRxDv = false) (hb : b.ethRxDv = false)
    (hstop : HingesOnStop ⟨cur, a⟩ → a.ethRxerr = b.ethRxerr) :
    Alike (s.step a) (t.step b) ∧ s.outputs a = t.outputs b ∧
      s.rxPublished a = t.rxPublished b := by
  obtain ⟨e, ht, hsame⟩ := h
  have hin : s.capture.mii.rxInFrame = true := by simp [hat.inFrame, hne]
  obtain rfl := hsame hin
  have hsample := @rxSampleStep_end _ t.rxQueue _ _ hin ha hb (hat.judged_valid hne hstop)
  have hrx : t.rxStage b = t.rxStage a := by
    simp only [Endpoint.rxStage, ethernetRxQueueStep, hsample]
  obtain ⟨hstep, hout⟩ := step_of_rxStage ht (congrArg Prod.snd hrx) (ha.trans hb.symm)
  have hnext : t.step b = t.step a := by
    rw [hstep, hrx]
    rfl
  refine ⟨?_, hout, ?_⟩
  · rw [hnext]
    exact Alike.refl _
  · simp only [Endpoint.rxPublished, hsample]

end Cycle

section Runs
variable {xs ys : List RxPins} {a b : RxPins}

theorem forall₂_snoc {R : RxPins → RxPins → Prop} (h : List.Forall₂ R (xs ++ [a]) ys) :
    ∃ ys' b, ys = ys' ++ [b] ∧ List.Forall₂ R xs ys' ∧ R a b := by
  have hrev := List.forall₂_reverse_iff.mpr h
  rw [List.reverse_append, List.reverse_singleton, List.singleton_append,
    List.forall₂_cons_left_iff] at hrev
  obtain ⟨b, zs, hab, hzs, hys⟩ := hrev
  refine ⟨zs.reverse, b, ?_, ?_, hab⟩
  · rw [← List.reverse_reverse ys, hys, List.reverse_cons]
  · rw [← List.forall₂_reverse_iff, List.reverse_reverse]
    exact hzs

theorem bursts_agree (h : List.Forall₂ AgreeInFrames xs ys) :
    rxPending xs = rxPending ys ∧ (rxBursts xs).length = (rxBursts ys).length := by
  induction xs using List.reverseRecOn generalizing ys with
  | nil =>
    rw [List.forall₂_nil_left_iff.mp h]
    exact ⟨rfl, rfl⟩
  | append_singleton xs a ih =>
    obtain ⟨ys, b, rfl, hys, hdv, hab⟩ := forall₂_snoc h
    obtain ⟨hpend, hlen⟩ := ih hys
    rw [rxPending_snoc, rxPending_snoc, rxBursts_snoc, rxBursts_snoc, hpend, hdv]
    constructor
    · unfold nextPending
      rw [← hdv]
      split_ifs with ha
      · rw [hab ha]
      · rfl
    · rw [List.length_append, List.length_append, hlen]
      split_ifs <;> rfl

theorem sameBehaviour_snoc :
    SameBehaviour (xs ++ [a]) (ys ++ [b]) ↔ SameBehaviour xs ys ∧
      (runFrom xs).outputs a = (runFrom ys).outputs b ∧
      (runFrom xs).rxPublished a = (runFrom ys).rxPublished b := by
  unfold SameBehaviour
  rw [drivenPins_snoc, drivenPins_snoc, Synchronous.trace_snoc, Synchronous.trace_snoc,
    ← List.concat_eq_append, ← List.concat_eq_append, ← List.concat_eq_append,
    ← List.concat_eq_append, List.concat_inj, List.concat_inj]
  exact and_and_and_comm

theorem stopsAgree_snoc (h : List.Forall₂ AgreeInFrames xs ys) (hdv : a.ethRxDv = b.ethRxDv) :
    StopsAgree (xs ++ [a]) (ys ++ [b]) ↔ StopsAgree xs ys ∧
      (a.ethRxDv = false → rxPending xs ≠ [] → HingesOnStop ⟨rxPending xs, a⟩ →
        a.ethRxerr = b.ethRxerr) := by
  obtain ⟨hpend, hlen⟩ := bursts_agree h
  unfold StopsAgree
  rw [rxBursts_snoc, rxBursts_snoc, List.zip_append hlen, ← hpend, ← hdv]
  simp only [List.mem_append, or_imp, forall_and]
  apply and_congr_right
  intro _
  by_cases hquiet : a.ethRxDv = true ∨ rxPending xs = []
  · rw [if_pos hquiet, if_pos hquiet]
    rcases hquiet with ha | hnil
    · simp [ha]
    · simp [hnil]
  · rw [if_neg hquiet, if_neg hquiet]
    simp only [not_or, Bool.not_eq_true] at hquiet
    simp [hquiet.1, hquiet.2]

/-- When a burst hinges on a side band that differs, one run publishes it and the other does
not. -/
theorem rxPublished_ne (hpend : rxPending xs = rxPending ys) (hne : rxPending xs ≠ [])
    (ha : a.ethRxDv = false) (hb : b.ethRxDv = false) (hhinge : HingesOnStop ⟨rxPending xs, a⟩)
    (hstop : a.ethRxerr ≠ b.ethRxerr) :
    (runFrom xs).rxPublished a ≠ (runFrom ys).rxPublished b := by
  have hbody : (rxPending xs).all (fun p => !p.ethRxerr) = true := by
    simpa using hhinge.2
  have hdata (p : RxPins) : 18 ≤ (burstData ⟨rxPending xs, p⟩).length % 65536 := hhinge.1
  have hsome (p : RxPins) (hp : p.ethRxDv = false) :
      (completedPacket (rxPending xs) p).isSome = !p.ethRxerr := by
    cases herr : p.ethRxerr <;>
      simp [completedPacket, hp, hne, burstPacket, burstClean, hbody, herr, hdata p]
  intro heq
  have hpub := congrArg (Option.map slotPacket) heq
  rw [published_of_completed rfl, published_of_completed rfl, ← hpend] at hpub
  have hflags := congrArg Option.isSome hpub
  rw [hsome a ha, hsome b hb] at hflags
  apply hstop
  simpa using hflags

theorem alike_cycle (halike : Alike (runFrom xs) (runFrom ys))
    (hab : AgreeInFrames a b)
    (hstop : a.ethRxDv = false → rxPending xs ≠ [] → HingesOnStop ⟨rxPending xs, a⟩ →
      a.ethRxerr = b.ethRxerr) :
    Alike (runFrom (xs ++ [a])) (runFrom (ys ++ [b])) ∧
      (runFrom xs).outputs a = (runFrom ys).outputs b ∧
      (runFrom xs).rxPublished a = (runFrom ys).rxPublished b := by
  obtain ⟨consumed, waiting, hd⟩ := decided_run xs
  rw [runFrom_snoc, runFrom_snoc]
  cases ha : a.ethRxDv with
  | true =>
    rw [← hab.2 ha]
    exact halike.step_on ha
  | false =>
    have hb : b.ethRxDv = false := hab.1.symm.trans ha
    by_cases hcur : rxPending xs = []
    · exact halike.step_idle ((rxPending_nil_iff hd.rx).mp hcur) ha hb
    · exact halike.step_end hd.rx.stage.burst hcur ha hb (hstop ha hcur)

theorem alike_run (h : List.Forall₂ AgreeInFrames xs ys) :
    (StopsAgree xs ys → Alike (runFrom xs) (runFrom ys)) ∧
      (SameBehaviour xs ys ↔ StopsAgree xs ys) := by
  induction xs using List.reverseRecOn generalizing ys with
  | nil =>
    rw [List.forall₂_nil_left_iff.mp h]
    refine ⟨fun _ => Alike.refl _, iff_of_true ⟨rfl, rfl⟩ ?_⟩
    simp [StopsAgree, rxBursts]
  | append_singleton xs a ih =>
    obtain ⟨ys, b, rfl, hys, hab⟩ := forall₂_snoc h
    obtain ⟨halike, hsame⟩ := ih hys
    rw [stopsAgree_snoc hys hab.1, sameBehaviour_snoc, hsame]
    constructor
    · rintro ⟨hagree, hstop⟩
      exact (alike_cycle (halike hagree) hab hstop).1
    · apply and_congr_right
      intro hagree
      constructor
      · rintro ⟨-, hpub⟩ ha hcur hhinge
        by_contra hstop
        exact rxPublished_ne (bursts_agree hys).1 hcur ha (hab.1.symm.trans ha) hhinge hstop hpub
      · intro hstop
        exact (alike_cycle (halike hagree) hab hstop).2

end Runs

/-- Two runs that agree in frames behave alike exactly when the error flags agree on the first
idle cycle after every burst that hinges on it. -/
theorem sidebands_ignored_iff (xs ys : List RxPins) (h : List.Forall₂ AgreeInFrames xs ys) :
    SameBehaviour xs ys ↔ StopsAgree xs ys :=
  (alike_run h).2

/-- Noise between bursts goes unnoticed, also next to one that hinges on the cycle after it. -/
theorem sidebands_ignored_iff_noise :
    HingesOnStop ⟨List.replicate 36 ⟨true, 0, false⟩, ⟨false, 0, false⟩⟩ ∧
      SameBehaviour
        (⟨false, 0, false⟩ :: List.replicate 36 ⟨true, 0, false⟩ ++
          [⟨false, 0, false⟩, ⟨false, 0, false⟩])
        (⟨false, 9, true⟩ :: List.replicate 36 ⟨true, 0, false⟩ ++
          [⟨false, 3, false⟩, ⟨false, 7, true⟩]) := by
  refine ⟨⟨by decide, by simp⟩, (sidebands_ignored_iff _ _ ?_).mpr ?_⟩
  · simp [AgreeInFrames]
  · intro r hr _
    obtain rfl := List.mem_singleton.mp hr
    rfl

/-- A frame of eighteen bytes, published or not as `eth_rxerr` is low or high just after it. -/
theorem sidebands_observed :
    ¬ ∀ xs ys : List RxPins, List.Forall₂ AgreeInFrames xs ys → SameBehaviour xs ys := by
  intro h
  let frame : List RxPins := List.replicate 36 ⟨true, 0, false⟩
  have hframe : ∀ p ∈ frame, p.ethRxDv = true := by
    intro p hp
    rw [List.eq_of_mem_replicate hp]
  have hpend : rxPending frame = frame := (MaximalRuns.scan_all_on frame hframe).2
  have hagree : List.Forall₂ AgreeInFrames frame frame := by
    apply List.forall₂_same.mpr
    exact fun p _ => ⟨rfl, fun _ => rfl⟩
  have hsame := h (frame ++ [⟨false, 0, false⟩]) (frame ++ [⟨false, 0, true⟩])
    (List.rel_append hagree (by simp [AgreeInFrames]))
  have hpub := (sameBehaviour_snoc.mp hsame).2.2
  refine rxPublished_ne rfl ?_ rfl rfl ⟨?_, ?_⟩ (by simp) hpub
  · rw [hpend]
    exact List.cons_ne_nil _ _
  · rw [hpend]
    decide
  · rw [hpend]
    intro p hp
    rw [List.eq_of_mem_replicate hp]

end ArtyEthernet
