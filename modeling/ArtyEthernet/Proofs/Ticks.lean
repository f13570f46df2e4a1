import ArtyEthernet.Model.Endpoint
import ArtyEthernet.Proofs.HandlerMoves

/-!
# When the periodic timers tick

Both counters run freely, so after `n` cycles of any input they show `n` modulo their intervals.
The handler serves a tick only in the cycle it occurs.
-/

namespace ArtyEthernet
open Words

theorem toNat_beaconIntervalCycles : beaconIntervalCycles.toNat = 25000000 := rfl

theorem toNat_gratuitousArpIntervalCycles : gratuitousArpIntervalCycles.toNat = 125000000 := rfl

def ticksAfter (n : ℕ) : PeriodicTxTicks :=
  ⟨decide ((n + 1) % 25000000 = 0), decide ((n + 1) % 125000000 = 0)⟩

def timersAfter (n : ℕ) : PeriodicTimers :=
  ⟨BitVec.ofNat 32 (n % 25000000), BitVec.ofNat 32 (n % 125000000)⟩

/-- A free-running counter with a period below `2 ^ 32`. -/
theorem periodicCounterTick_mod {interval : ℕ} (hpos : 0 < interval) (hmax : interval < 2 ^ 32)
    (n : ℕ) :
    periodicCounterTick (BitVec.ofNat 32 interval) (BitVec.ofNat 32 (n % interval)) =
      (BitVec.ofNat 32 ((n + 1) % interval), decide ((n + 1) % interval = 0)) := by
  have hlt := Nat.mod_lt n hpos
  have hlast : (BitVec.ofNat 32 (n % interval)).setWidth 33 =
      (BitVec.ofNat 32 interval).setWidth 33 - 1#33 ↔ n % interval + 1 = interval := by
    have hcounter : (BitVec.ofNat 32 (n % interval)).toNat = n % interval := by
      rw [BitVec.toNat_ofNat, Nat.mod_eq_of_lt (by omega)]
    have hinterval : (BitVec.ofNat 32 interval).toNat = interval := by
      rw [BitVec.toNat_ofNat, Nat.mod_eq_of_lt (by omega)]
    rw [← BitVec.toNat_inj, BitVec.toNat_sub, BitVec.toNat_setWidth, BitVec.toNat_setWidth,
      hcounter, hinterval]
    change _ = (2 ^ 33 - 1 + interval % 2 ^ 33) % 2 ^ 33 ↔ _
    omega
  rw [periodicCounterTick, ← Nat.mod_add_mod]
  by_cases hwrap : n % interval + 1 = interval
  · rw [if_pos (hlast.mpr hwrap), hwrap, Nat.mod_self]
    rfl
  · have hnext : n % interval + 1 < interval := by omega
    rw [if_neg (mt hlast.mp hwrap), Nat.mod_eq_of_lt hnext, BitVec.ofNat_add,
      decide_eq_false (by omega)]
    rfl

theorem periodicTxTimerStep_after (n : ℕ) :
    periodicTxTimerStep (timersAfter n) = (timersAfter (n + 1), ticksAfter n) := by
  have hbeacon := periodicCounterTick_mod (show 0 < 25000000 by omega) (by omega) n
  have harp := periodicCounterTick_mod (show 0 < 125000000 by omega) (by omega) n
  have hintervals : beaconIntervalCycles = BitVec.ofNat 32 25000000 ∧
      gratuitousArpIntervalCycles = BitVec.ofNat 32 125000000 := ⟨rfl, rfl⟩
  simp only [periodicTxTimerStep, timersAfter, ticksAfter, hintervals.1, hintervals.2, hbeacon,
    harp]

theorem Endpoint.timers_step (s : Endpoint) (i : RxPins) :
    (s.step i).proto.timers = (periodicTxTimerStep s.proto.timers).1 := by
  have hselect : (protocolSelectStep s.proto (s.rxStage i).2 s.txQueue).st.timers =
      (periodicTxTimerStep s.proto.timers).1 := by
    have hmove := protocolSelectStep_move s.proto (s.rxStage i).2 s.txQueue
    generalize protocolSelectStep s.proto (s.rxStage i).2 s.txQueue = stage at hmove ⊢
    cases hmove <;> rfl
  obtain ⟨preparing, request, index, hst, -⟩ :=
    protocolPrepareStep_fst (protocolSelectStep s.proto (s.rxStage i).2 s.txQueue).st
      (protocolSelectStep s.proto (s.rxStage i).2 s.txQueue).txQueue
  rw [← hselect]
  change (protocolPrepareStep _ _).1.timers = _
  rw [hst]

theorem timers_run (inputs : List RxPins) :
    (runFrom inputs).proto.timers = timersAfter inputs.length := by
  induction inputs using List.reverseRecOn with
  | nil => rfl
  | append_singleton inputs i ih =>
    rw [runFrom_snoc, Endpoint.timers_step, ih, periodicTxTimerStep_after, List.length_append]
    rfl

theorem ticks_run (inputs : List RxPins) :
    (runFrom inputs).proto.ticks = ticksAfter inputs.length := by
  rw [Protocol.ticks, timers_run, periodicTxTimerStep_after]

section Select
variable {st : Protocol} {rxQueue : RxPacketQueue} {txQueue : TxPacketQueue}

/-- Between packets a tick is served at once, the gratuitous ARP before the beacon. -/
theorem protocolSelectStep_idle (hprep : st.preparingPayload = false)
    (hstate : st.protocolState = .protoIdle)
    (hempty : packetQueueReadSlotValid rxQueue = false) :
    (protocolSelectStep st rxQueue txQueue).handed =
      if st.ticks.gratuitousArpTick then some protocolTxGratuitousArpRequest
      else if st.ticks.beaconTick then some (beaconSnapshot st rxQueue txQueue) else none := by
  have hmove := protocolSelectStep_move st rxQueue txQueue
  generalize protocolSelectStep st rxQueue txQueue = stage at hmove ⊢
  cases hmove with
  | quiet _ _ _ hbeacon harp => simp [hbeacon, harp]
  | announce _ _ _ harp => simp [harp]
  | beacon _ _ _ harp hbeacon => simp [hbeacon, harp]
  | busy hbusy => simp [hprep] at hbusy
  | parked _ hparked => simp [hstate] at hparked
  | drop _ _ hvalid => simp [hempty] at hvalid
  | beginParse _ _ hvalid => simp [hempty] at hvalid
  | readByte _ hparse => simp [hstate] at hparse
  | reject _ hparse => simp [hstate] at hparse
  | reply _ hparse => simp [hstate] at hparse

theorem protocolSelectStep_noTick (hticks : st.ticks = ⟨false, false⟩) {r : ProtocolTxRequest}
    (hr : (protocolSelectStep st rxQueue txQueue).handed = some r) :
    r = st.reply rxQueue ∧ st.protocolState = .protoParseArp := by
  have hmove := protocolSelectStep_move st rxQueue txQueue
  generalize protocolSelectStep st rxQueue txQueue = stage at hmove hr
  cases hmove with
  | announce _ _ _ harp => simp [hticks] at harp
  | beacon _ _ _ _ hbeacon => simp [hticks] at hbeacon
  | reply _ hstate => exact ⟨(Option.some.inj hr).symm, hstate⟩
  | _ => simp at hr

end Select

end ArtyEthernet
