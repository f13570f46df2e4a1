import ArtyEthernet.Library.Trace
import ArtyEthernet.Proofs.RxStage

/-!
# The receive path on its own

A receiver whose write slot is free publishes each burst as its packet, and nothing else.
-/

namespace ArtyEthernet
open Words

/-- The receive path on its own. -/
def receiverStep (st : RxCapture × RxPacketQueue) (pins : RxPins) : RxCapture × RxPacketQueue :=
  ethernetRxQueueStep st.1 pins st.2

def receiverPublishes (st : RxCapture × RxPacketQueue) (pins : List RxPins) : List RxSlot :=
  Synchronous.events receiverStep (fun st p => rxPublishedSlot st.1 p st.2) st pins

/-- A receiver in the burst `cur` whose write slot is free. -/
structure Receiving (cur : List RxPins) (st : RxCapture × RxPacketQueue) : Prop where
  burst : CaptureAt cur st.1 st.2
  free : packetQueueWriteSlotAvailable st.2 = true
  noDrop : cur ≠ [] → st.1.rxDropCurrent = false

variable {cur : List RxPins} {st : RxCapture × RxPacketQueue} {p : RxPins}

theorem receiving_idle (hidle : st.1.mii.rxInFrame = false)
    (hfree : packetQueueWriteSlotAvailable st.2 = true) : Receiving [] st :=
  ⟨captureAt_idle hidle st.2, hfree, fun h => absurd rfl h⟩

/-- A cycle that publishes nothing leaves the write slot where it is, and free. -/
theorem writeSlot_kept (hnone : (rxSampleStep st.1 p st.2).published = none) :
    (receiverStep st p).2.writeIdx = st.2.writeIdx ∧
      (receiverStep st p).2.valid = st.2.valid := by
  have spec := rxSampleStep_spec st.1 p st.2
  simp only [receiverStep, ethernetRxQueueStep, hnone, spec.valid, spec.writeIdx, and_self]

theorem Receiving.of_none {cur' : List RxPins} (h : Receiving cur st)
    (hnone : (rxSampleStep st.1 p st.2).published = none)
    (hnext : CaptureAt cur' (receiverStep st p).1 (receiverStep st p).2)
    (hdrop : cur' ≠ [] → (receiverStep st p).1.rxDropCurrent = false) :
    Receiving cur' (receiverStep st p) where
  burst := hnext
  free := by
    obtain ⟨hwrite, hvalid⟩ := writeSlot_kept hnone
    rw [packetQueueWriteSlotAvailable, hwrite, hvalid]
    exact h.free
  noDrop := hdrop

theorem Receiving.step_on (h : Receiving cur st) (hdv : p.ethRxDv = true) :
    (rxSampleStep st.1 p st.2).published = none ∧
      Receiving (cur ++ [p]) (receiverStep st p) := by
  obtain ⟨hnone, hnext⟩ := h.burst.step_on hdv
  refine ⟨hnone, h.of_none hnone hnext fun _ => ?_⟩
  have hnow : rxDropNow st.1 p st.2 = false := by
    by_cases hcur : cur = []
    · have hstart : (miiRxByteAssemblerStep st.1.mii p.ethRxDv p.ethRxd).2.frameStart = true := by
        rw [h.burst.frameStart_eq p, hdv, hcur]
        rfl
      rw [rxDropNow, hstart, h.free]
      rfl
    · rw [h.burst.drop_next p hcur, h.noDrop hcur]
  change (ethernetRxQueueStep st.1 p st.2).1.rxDropCurrent = false
  rw [rxDropCurrent_next, hnow]
  exact ite_self false

theorem Receiving.step_idle (h : Receiving [] st) (hdv : p.ethRxDv = false) :
    (rxSampleStep st.1 p st.2).published = none ∧ Receiving [] (receiverStep st p) := by
  obtain ⟨hnone, hnext⟩ := h.burst.step_idle hdv
  exact ⟨hnone, h.of_none hnone hnext fun hne => absurd rfl hne⟩

theorem receiverPublishes_cons (st : RxCapture × RxPacketQueue) (p : RxPins) (pins : List RxPins) :
    receiverPublishes st (p :: pins) =
      (rxPublishedSlot st.1 p st.2).toList ++ receiverPublishes (receiverStep st p) pins := by
  simp only [receiverPublishes, Synchronous.events, Synchronous.trace_cons]
  cases rxPublishedSlot st.1 p st.2 <;> rfl

theorem receiverPublishes_append (st : RxCapture × RxPacketQueue) (xs ys : List RxPins) :
    receiverPublishes st (xs ++ ys) =
      receiverPublishes st xs ++ receiverPublishes (Synchronous.run receiverStep st xs) ys :=
  Synchronous.events_append _ st xs ys

theorem Receiving.run_on (h : Receiving cur st) (on : List RxPins)
    (hon : ∀ p ∈ on, p.ethRxDv = true) :
    receiverPublishes st on = [] ∧ Receiving (cur ++ on) (Synchronous.run receiverStep st on) ∧
      (Synchronous.run receiverStep st on).2.writeIdx = st.2.writeIdx := by
  induction on generalizing cur st with
  | nil => exact ⟨rfl, by simpa using h, rfl⟩
  | cons p on ih =>
    obtain ⟨hnone, hnext⟩ := h.step_on (hon p (by simp))
    obtain ⟨hpub, hat, hwrite⟩ := ih hnext fun q hq => hon q (by simp [hq])
    rw [receiverPublishes_cons, rxPublishedSlot, hnone, hpub, Synchronous.run_cons]
    refine ⟨rfl, by simpa using hat, ?_⟩
    rw [hwrite, (writeSlot_kept hnone).1]

theorem Receiving.step_end (h : Receiving cur st) (hne : cur ≠ []) (hdv : p.ethRxDv = false) :
    (rxPublishedSlot st.1 p st.2).map slotPacket = burstPacket ⟨cur, p⟩ ∧
      CaptureAt [] (receiverStep st p).1 (receiverStep st p).2 := by
  obtain ⟨hend, hpacket⟩ := h.burst.step_end hne hdv
  rw [h.noDrop hne, if_neg Bool.false_ne_true] at hpacket
  refine ⟨?_, hend⟩
  simp only [rxPublishedSlot, Option.map_map, (rxSampleStep_spec st.1 p st.2).writeIdx]
  exact hpacket

theorem receiverPublishes_off (hidle : CaptureAt [] st.1 st.2) (off : List RxPins)
    (hoff : ∀ p ∈ off, p.ethRxDv = false) : receiverPublishes st off = [] := by
  induction off generalizing st with
  | nil => rfl
  | cons p off ih =>
    obtain ⟨hnone, hnext⟩ := hidle.step_idle (hoff p (by simp))
    have htail : receiverPublishes (receiverStep st p) off = [] :=
      ih hnext fun q hq => hoff q (by simp [hq])
    rw [receiverPublishes_cons, rxPublishedSlot, hnone, htail]
    rfl

/-- One burst and the idle line after it. -/
theorem Receiving.publishes_burst (h : Receiving [] st) {stop : RxPins} {on off : List RxPins}
    (hne : on ≠ []) (hon : ∀ p ∈ on, p.ethRxDv = true) (hstop : stop.ethRxDv = false)
    (hoff : ∀ p ∈ off, p.ethRxDv = false) :
    (receiverPublishes st (on ++ stop :: off)).map slotPacket =
      (burstPacket ⟨on, stop⟩).toList := by
  obtain ⟨hnone, hat, -⟩ := h.run_on on hon
  rw [List.nil_append] at hat
  obtain ⟨hslot, hend⟩ := hat.step_end hne hstop
  rw [receiverPublishes_append, hnone, receiverPublishes_cons,
    receiverPublishes_off hend off hoff, ← hslot]
  cases rxPublishedSlot (Synchronous.run receiverStep st on).1 stop
    (Synchronous.run receiverStep st on).2 <;> rfl

end ArtyEthernet
