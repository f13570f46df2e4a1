import ArtyEthernet.Proofs.Backlog
import ArtyEthernet.Proofs.Ticks
import ArtyEthernet.Proofs.TxWork

/-!
# The beacon schedule on a quiet line

With nothing received every tick finds the handler and the transmit side idle. Every fifth beacon
tick coincides with a gratuitous ARP tick, whose branch comes first; that beacon is never sent.
-/

namespace ArtyEthernet
open Words

def ProtocolTxRequest.isGratuitousArp (r : ProtocolTxRequest) : Bool := r.kind == .gratuitousArp

/-- Nothing is received. -/
def QuietLine (inputs : List RxPins) : Prop := ∀ p ∈ inputs, p.ethRxDv = false

/-- Every tick of either timer has produced its frame. -/
structure OnSchedule (inputs : List RxPins) : Prop where
  beacons : (runFrom inputs).proto.uptimeBeaconCount =
    BitVec.ofNat 32 (inputs.length / beaconIntervalCycles.toNat)
  announcements : (acceptedRequests inputs).countP ProtocolTxRequest.isGratuitousArp =
    inputs.length / gratuitousArpIntervalCycles.toNat
  dropCount : (runFrom inputs).txQueue.dropCount = 0

theorem publishedPackets_quiet {inputs : List RxPins} (h : QuietLine inputs) :
    publishedPackets inputs = [] := by
  have hmap := map_slotPacket_publishedPackets inputs
  rw [rxBursts, (MaximalRuns.scan_all_off inputs h).1] at hmap
  exact List.map_eq_nil_iff.mp hmap

theorem QuietLine.init {inputs : List RxPins} {i : RxPins} (h : QuietLine (inputs ++ [i])) :
    QuietLine inputs := fun p hp => h p (List.mem_append_left _ hp)

theorem quiet_idle {inputs : List RxPins} {i : RxPins} (h : QuietLine (inputs ++ [i])) :
    (runFrom inputs).proto.protocolState = .protoIdle ∧
      packetQueueReadSlotValid ((runFrom inputs).rxStage i).2 = false := by
  obtain ⟨consumed, waiting, hd⟩ := decided_run inputs
  have hnone := publishedPackets_quiet h
  rw [publishedPackets_snoc, hd.published] at hnone
  obtain ⟨hold, hnew⟩ := List.append_eq_nil_iff.mp hnone
  obtain ⟨-, rfl⟩ := List.append_eq_nil_iff.mp hold
  have hring := (hd.rx.arrive i).ring
  rw [hnew, List.append_nil] at hring
  exact ⟨hd.rx.idle_of_nil, hring.readSlotValid_nil⟩

structure StartsAfter (n : ℕ) (started : Option ProtocolTxRequest) : Prop where
  quiet : (n + 1) % 25000000 ≠ 0 → started = none
  announcement : (n + 1) % 125000000 = 0 → started = some protocolTxGratuitousArpRequest
  beacon : (n + 1) % 25000000 = 0 → (n + 1) % 125000000 ≠ 0 →
    ∃ r, started = some r ∧ r.isBeacon = true ∧ r.WellFormed

theorem handed_quiet {inputs : List RxPins} {i : RxPins} (h : QuietLine (inputs ++ [i]))
    (hready : (inputs.length + 1) % 25000000 = 0 →
      (runFrom inputs).proto.preparingPayload = false) :
    StartsAfter inputs.length ((runFrom inputs).handed i) := by
  obtain ⟨hstate, hempty⟩ := quiet_idle h
  have hticks := ticks_run inputs
  have hidle : (runFrom inputs).proto.preparingPayload = false → (runFrom inputs).handed i =
      if (runFrom inputs).proto.ticks.gratuitousArpTick then some protocolTxGratuitousArpRequest
      else if (runFrom inputs).proto.ticks.beaconTick then
        some (beaconSnapshot (runFrom inputs).proto ((runFrom inputs).rxStage i).2
          (runFrom inputs).txQueue)
      else none := fun hprep => protocolSelectStep_idle hprep hstate hempty
  rw [hticks] at hidle
  simp only [ticksAfter, decide_eq_true_eq] at hidle
  constructor
  · intro hoff
    cases hprep : (runFrom inputs).proto.preparingPayload with
    | true => exact ((protocolSelectStep_selectCost _ _ _).busy hprep).1
    | false => rw [hidle hprep, if_neg (by omega), if_neg hoff]
  · intro harp
    rw [hidle (hready (by omega)), if_pos harp]
  · intro hbeacon harp
    rw [hidle (hready hbeacon), if_neg harp, if_pos hbeacon]
    exact ⟨_, rfl, rfl, wellFormed_beaconSnapshot _ _ _⟩

/-- What has been started on a quiet line. The work left is gone before the next tick. -/
structure ScheduleAt (inputs : List RxPins) (sent held : List ProtocolTxRequest) (left : ℕ) :
    Prop where
  tx : TxAt sent held (drivenPins inputs) left (runFrom inputs)
  work : (runFrom inputs).proto.txWork left ≤ 478 - inputs.length % 25000000
  refused : refusedRequests inputs = []
  beacons : (acceptedRequests inputs).countP ProtocolTxRequest.isBeacon +
    inputs.length / 125000000 = inputs.length / 25000000
  announcements : (acceptedRequests inputs).countP ProtocolTxRequest.isGratuitousArp =
    inputs.length / 125000000

variable {inputs : List RxPins} {sent held : List ProtocolTxRequest} {left : ℕ} {i : RxPins}

theorem ScheduleAt.ready (h : ScheduleAt inputs sent held left)
    (htick : (inputs.length + 1) % 25000000 = 0) :
    (runFrom inputs).proto.txWork left = 0 ∧ (runFrom inputs).proto.preparingPayload = false ∧
      packetQueueWriteSlotAvailable (runFrom inputs).txQueue = true := by
  have hwork := h.work
  have hzero : (runFrom inputs).proto.txWork left = 0 := by omega
  have hparts := hzero
  unfold Protocol.txWork at hparts
  have hleft : left = 0 := by omega
  refine ⟨hzero, ?_, ?_⟩
  · by_contra hon
    rw [Bool.not_eq_false] at hon
    have hindex := (h.tx.ring.building hon).index
    simp only [Protocol.buildCost, hon, if_true] at hparts
    omega
  · have htx := h.tx
    rw [hleft] at htx
    rw [htx.ring.length_held.1, htx.held_nil]
    exact Nat.zero_lt_succ 3

theorem ScheduleAt.accepts (h : ScheduleAt inputs sent held left)
    (hstarts : StartsAfter inputs.length ((runFrom inputs).handed i)) :
    (runFrom inputs).accepted i = (runFrom inputs).handed i ∧
      (runFrom inputs).refused i = none := by
  unfold Endpoint.accepted Endpoint.refused
  by_cases htick : (inputs.length + 1) % 25000000 = 0
  · rw [(h.ready htick).2.2]
    exact ⟨rfl, rfl⟩
  · rw [hstarts.quiet htick]
    exact ⟨ite_self none, ite_self none⟩

theorem ScheduleAt.work_step (h : ScheduleAt inputs sent held left)
    (hstarts : StartsAfter inputs.length ((runFrom inputs).handed i)) {left' : ℕ}
    (hwork : WorkStep (runFrom inputs) left left' i) :
    ((runFrom inputs).step i).proto.txWork left' ≤ 478 - (inputs.length + 1) % 25000000 := by
  have hbound := h.work
  have haccepts := (h.accepts hstarts).1
  by_cases htick : (inputs.length + 1) % 25000000 = 0
  · have hzero := (h.ready htick).1
    have hstarted : ∃ r, (runFrom inputs).handed i = some r ∧ r.WellFormed := by
      by_cases harp : (inputs.length + 1) % 125000000 = 0
      · exact ⟨_, hstarts.announcement harp, wellFormed_gratuitousArp⟩
      · obtain ⟨r, hr, -, hwf⟩ := hstarts.beacon htick harp
        exact ⟨r, hr, hwf⟩
    obtain ⟨r, hr, hwf⟩ := hstarted
    have hmax : r.work ≤ 478 := by
      rw [hwf.work_eq]
      split_ifs <;> omega
    have hnext := hwork.some r (haccepts.trans hr)
    omega
  · have hnext := hwork.none (haccepts.trans (hstarts.quiet htick))
    omega

theorem ScheduleAt.step (h : ScheduleAt inputs sent held left)
    (hquiet : QuietLine (inputs ++ [i])) :
    ∃ sent' held' left', ScheduleAt (inputs ++ [i]) sent' held' left' := by
  have hstarts := handed_quiet hquiet fun htick => (h.ready htick).2.1
  obtain ⟨haccepts, hrefuses⟩ := h.accepts hstarts
  obtain ⟨sent', held', htx, -⟩ := h.tx.step i
  have hwork := h.work_step hstarts (h.tx.work_step i)
  have hbeacons := h.beacons
  have harps := h.announcements
  rw [← drivenPins_snoc, ← runFrom_snoc] at htx
  rw [← runFrom_snoc] at hwork
  have hlen : (inputs ++ [i]).length = inputs.length + 1 := by simp
  refine ⟨sent', held', _, htx, hlen ▸ hwork, ?_, ?_, ?_⟩
  · rw [refusedRequests_snoc, h.refused, hrefuses]
    rfl
  · rw [acceptedRequests_snoc, haccepts, List.countP_append, hlen]
    by_cases htick : (inputs.length + 1) % 25000000 = 0
    · by_cases harp : (inputs.length + 1) % 125000000 = 0
      · have hkind : protocolTxGratuitousArpRequest.isBeacon = false := rfl
        rw [hstarts.announcement harp, Option.toList_some, List.countP_singleton, hkind,
          if_neg Bool.false_ne_true]
        omega
      · obtain ⟨r, hr, hkind, -⟩ := hstarts.beacon htick harp
        rw [hr, Option.toList_some, List.countP_singleton, hkind, if_pos rfl]
        omega
    · rw [hstarts.quiet htick, Option.toList_none, List.countP_nil]
      omega
  · rw [acceptedRequests_snoc, haccepts, List.countP_append, hlen]
    by_cases htick : (inputs.length + 1) % 25000000 = 0
    · by_cases harp : (inputs.length + 1) % 125000000 = 0
      · have hkind : protocolTxGratuitousArpRequest.isGratuitousArp = true := rfl
        rw [hstarts.announcement harp, Option.toList_some, List.countP_singleton, hkind, if_pos rfl]
        omega
      · obtain ⟨r, hr, hkind, -⟩ := hstarts.beacon htick harp
        have hother : r.isGratuitousArp = false := by
          have hbeacon : r.kind = .beacon := by simpa [ProtocolTxRequest.isBeacon] using hkind
          simp [ProtocolTxRequest.isGratuitousArp, hbeacon]
        rw [hr, Option.toList_some, List.countP_singleton, hother, if_neg Bool.false_ne_true]
        omega
    · rw [hstarts.quiet htick, Option.toList_none, List.countP_nil]
      omega

theorem schedule_run (inputs : List RxPins) (h : QuietLine inputs) :
    ∃ sent held left, ScheduleAt inputs sent held left := by
  induction inputs using List.reverseRecOn with
  | nil => exact ⟨[], [], 0, txAt_reset, Nat.zero_le _, rfl, rfl, rfl⟩
  | append_singleton inputs i ih =>
    obtain ⟨sent, held, left, hat⟩ := ih h.init
    exact hat.step h

/-- What the code does: beacon number `5 k` is left out. -/
theorem schedule_counts (inputs : List RxPins) (h : QuietLine inputs) :
    (runFrom inputs).proto.uptimeBeaconCount =
        BitVec.ofNat 32 (inputs.length / 25000000 - inputs.length / 125000000) ∧
      (acceptedRequests inputs).countP ProtocolTxRequest.isGratuitousArp =
        inputs.length / 125000000 ∧
      (runFrom inputs).txQueue.dropCount = 0 := by
  obtain ⟨sent, held, left, hat⟩ := schedule_run inputs h
  have hbeacons := hat.beacons
  refine ⟨?_, hat.announcements, ?_⟩
  · rw [uptimeBeaconCount_run]
    congr 1
    omega
  · rw [txDropCount_run, hat.refused]
    rfl

/-- On a quiet line every tick has produced its frame exactly while the suppressed beacons are
none, modulo the width of the counter. -/
theorem beacon_schedule_exact (inputs : List RxPins) (h : QuietLine inputs) :
    OnSchedule inputs ↔ inputs.length / gratuitousArpIntervalCycles.toNat % 2 ^ 32 = 0 := by
  obtain ⟨hup, harps, hdrop⟩ := schedule_counts inputs h
  rw [toNat_gratuitousArpIntervalCycles]
  have hsum : inputs.length / 25000000 =
      inputs.length / 25000000 - inputs.length / 125000000 + inputs.length / 125000000 := by omega
  have hsplit : BitVec.ofNat 32 (inputs.length / 25000000) =
      (runFrom inputs).proto.uptimeBeaconCount +
        BitVec.ofNat 32 (inputs.length / 125000000) := by
    rw [hup, ← BitVec.ofNat_add, ← hsum]
  have hzero : BitVec.ofNat 32 (inputs.length / 125000000) = 0#32 ↔
      inputs.length / 125000000 % 2 ^ 32 = 0 := by
    rw [← BitVec.toNat_inj, BitVec.toNat_ofNat]
    rfl
  rw [← hzero]
  constructor
  · intro hon
    have hbeacons := hon.beacons
    rw [toNat_beaconIntervalCycles, hsplit] at hbeacons
    simpa using hbeacons.symm
  · intro hnone
    refine ⟨?_, harps, hdrop⟩
    rw [toNat_beaconIntervalCycles, hsplit, hnone, BitVec.add_zero]

theorem quietLine_replicate (n : ℕ) : QuietLine (List.replicate n ⟨false, 0, false⟩) := by
  intro p hp
  rw [List.eq_of_mem_replicate hp]

theorem beacon_schedule_first_second :
    QuietLine (List.replicate 25001000 ⟨false, 0, false⟩) ∧
      OnSchedule (List.replicate 25001000 ⟨false, 0, false⟩) :=
  ⟨quietLine_replicate 25001000, (beacon_schedule_exact _ (quietLine_replicate 25001000)).mpr
    (by rw [List.length_replicate]; rfl)⟩

/-- A thousand cycles after the first gratuitous ARP tick one beacon is missing. -/
theorem beacon_schedule_fails :
    QuietLine (List.replicate 125001000 ⟨false, 0, false⟩) ∧
      125001000 % beaconIntervalCycles.toNat = 1000 ∧
      ¬ OnSchedule (List.replicate 125001000 ⟨false, 0, false⟩) := by
  have hquiet := quietLine_replicate 125001000
  refine ⟨hquiet, rfl, fun h => ?_⟩
  have hbeacons := h.beacons
  rw [(schedule_counts _ hquiet).1, List.length_replicate] at hbeacons
  exact absurd hbeacons (by decide)

end ArtyEthernet
