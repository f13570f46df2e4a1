import ArtyEthernet.Model.RxMonitor
import ArtyEthernet.Proofs.Backlog

/-!
# The receive monitor over whole runs

The monitor reads the same pins as the endpoint. It counts the bursts in which no sample carries an
error, however short or long they are, and their bytes, of each burst modulo 65536. The endpoint
publishes those of the counted bursts that have at least 18 data bytes, modulo 65536 too, and no
error in the first idle cycle.
-/

namespace ArtyEthernet
open Words

/-- No receive error while the burst lasted. -/
def bodyClean (r : RxBurst) : Bool := r.body.all (!·.ethRxerr)

def RxMonitor.run (inputs : List RxPins) : RxMonitor :=
  Synchronous.run miiRxMonitorStep .init inputs

/-- The bytes of a burst as a sixteen-bit counter sees them. -/
def countedBytes (r : RxBurst) : ℕ := (pinBytes r.body).length % 65536

/-- The monitor in the middle of the burst `cur`. -/
structure MonitorAt (cur : List RxPins) (m : RxMonitor) : Prop where
  inFrame : m.inFrame = !cur.isEmpty
  haveLowNibble : m.haveLowNibble = decide (cur.length % 2 = 1)
  frameError : m.frameError = cur.any RxPins.ethRxerr
  frameBytes : cur ≠ [] → m.frameBytes = BitVec.ofNat 16 (cur.length / 2)
  lastNibble : ∀ before p, cur = before ++ [p] → m.haveLowNibble = true →
    lowNibble m.rxByte = p.ethRxd
  rxByte : m.haveLowNibble = false → ∀ b, (pinBytes cur).getLast? = some b → m.rxByte = b

theorem monitorAt_init : MonitorAt [] .init :=
  ⟨rfl, rfl, rfl, fun h => absurd rfl h, by simp, fun _ b hb => by simp [pinBytes] at hb⟩

variable {cur : List RxPins} {m : RxMonitor} {pins : RxPins}

theorem joinNibbles_eq_append (high low : Nibble) : joinNibbles high low = high ++ low := by
  apply BitVec.eq_of_getLsbD_eq
  intro i hi
  simp only [joinNibbles, BitVec.getLsbD_or, BitVec.getLsbD_shiftLeft, BitVec.getLsbD_setWidth,
    BitVec.getLsbD_append]
  by_cases hlow : i < 4
  · simp [hlow, hi]
  · have hzero : low.getLsbD i = false := BitVec.getLsbD_of_ge low i (by omega)
    have hhigh : i - 4 < 8 := by omega
    simp [hlow, hi, hzero, hhigh]

theorem length_pinBytes (pins : List RxPins) : (pinBytes pins).length = pins.length / 2 := by
  rw [pinBytes, length_pairNibbles, List.length_map]

theorem MonitorAt.low (h : MonitorAt cur m) (hdv : pins.ethRxDv = true)
    (heven : cur.length % 2 = 0) : MonitorAt (cur ++ [pins]) (miiRxMonitorStep m pins) := by
  have hlow : m.haveLowNibble = false := by
    rw [h.haveLowNibble]
    exact decide_eq_false (by omega)
  have hodd : (cur ++ [pins]).length % 2 = 1 := by
    rw [List.length_append, List.length_singleton]
    omega
  refine ⟨?_, ?_, ?_, fun _ => ?_, ?_, ?_⟩
  · cases hin : m.inFrame <;> simp [miiRxMonitorStep, hdv, hin, hlow]
  · rw [decide_eq_true hodd]
    cases hin : m.inFrame <;> simp [miiRxMonitorStep, hdv, hin, hlow]
  · cases hin : m.inFrame <;> simp [miiRxMonitorStep, hdv, hin, hlow, h.frameError]
  · have hhalf : (cur ++ [pins]).length / 2 = cur.length / 2 := by
      rw [List.length_append, List.length_singleton]
      omega
    rw [hhalf]
    by_cases hcur : cur = []
    · have hin : m.inFrame = false := by simp [h.inFrame, hcur]
      simp [miiRxMonitorStep, hdv, hin, hlow, hcur]
    · have hin : m.inFrame = true := by simp [h.inFrame, hcur]
      simpa [miiRxMonitorStep, hdv, hin, hlow] using h.frameBytes hcur
  · intro before p hsplit _
    obtain ⟨-, hp⟩ := List.append_inj' hsplit rfl
    rw [← List.singleton_inj.mp hp]
    have hbyte : (miiRxMonitorStep m pins).rxByte =
        joinNibbles (highNibble m.rxByte) pins.ethRxd := by
      rw [joinNibbles_eq_append]
      cases hin : m.inFrame <;> simp [miiRxMonitorStep, hdv, hin, hlow, highNibble]
    rw [hbyte, lowNibble_joinNibbles]
  · intro hoff
    cases hin : m.inFrame <;> simp [miiRxMonitorStep, hdv, hin, hlow] at hoff

theorem MonitorAt.high (h : MonitorAt cur m) (hdv : pins.ethRxDv = true)
    (hodd : cur.length % 2 = 1) : MonitorAt (cur ++ [pins]) (miiRxMonitorStep m pins) := by
  have hcur : cur ≠ [] := by
    rintro rfl
    simp at hodd
  have hlow : m.haveLowNibble = true := by
    rw [h.haveLowNibble]
    exact decide_eq_true hodd
  have hin : m.inFrame = true := by simp [h.inFrame, hcur]
  have heven : (cur ++ [pins]).length % 2 = 0 := by
    rw [List.length_append, List.length_singleton]
    omega
  obtain ⟨before, p, rfl⟩ := (List.eq_nil_or_concat' cur).resolve_left hcur
  refine ⟨?_, ?_, ?_, fun _ => ?_, ?_, ?_⟩
  · simp [miiRxMonitorStep, hdv, hin, hlow]
  · rw [decide_eq_false (by omega)]
    simp [miiRxMonitorStep, hdv, hin, hlow]
  · simp [miiRxMonitorStep, hdv, hin, hlow, h.frameError, Bool.or_assoc]
  · have hhalf : (before ++ [p] ++ [pins]).length / 2 = (before ++ [p]).length / 2 + 1 := by
      rw [List.length_append, List.length_singleton]
      omega
    rw [hhalf, BitVec.ofNat_add, ← h.frameBytes hcur]
    simp [miiRxMonitorStep, hdv, hin, hlow]
  · intro _ _ _ hon
    simp [miiRxMonitorStep, hdv, hin, hlow] at hon
  · intro _ b hb
    have hbefore : before.length % 2 = 0 := by
      rw [List.length_append, List.length_singleton] at hodd
      omega
    rw [pinBytes_snoc_odd before p pins hbefore, List.getLast?_concat] at hb
    have hnibble := h.lastNibble before p rfl hlow
    rw [← Option.some.inj hb, ← hnibble, joinNibbles_eq_append]
    simp [miiRxMonitorStep, hdv, hin, hlow, lowNibble]

def ended (cur : List RxPins) (pins : RxPins) : List RxBurst :=
  if cur = [] then [] else [⟨cur, pins⟩]

theorem MonitorAt.idle (h : MonitorAt cur m) (hdv : pins.ethRxDv = false) :
    MonitorAt [] (miiRxMonitorStep m pins) ∧
      (miiRxMonitorStep m pins).frameCount = m.frameCount +
        BitVec.ofNat 32 ((ended cur pins).countP bodyClean) ∧
      (miiRxMonitorStep m pins).byteCount = m.byteCount +
        BitVec.ofNat 32 (((ended cur pins).filter bodyClean).map countedBytes).sum ∧
      (miiRxMonitorStep m pins).frameToggle =
        (m.frameToggle ^^ decide ((ended cur pins).countP bodyClean = 1)) := by
  by_cases hcur : cur = []
  · have hin : m.inFrame = false := by simp [h.inFrame, hcur]
    simp only [miiRxMonitorStep, hdv, hin, ended, hcur]
    refine ⟨⟨rfl, rfl, rfl, fun hne => absurd rfl hne, by simp, fun _ b hb => ?_⟩, ?_⟩
    · simp [pinBytes] at hb
    · simp
  · have hin : m.inFrame = true := by simp [h.inFrame, hcur]
    have hclean : bodyClean ⟨cur, pins⟩ = !m.frameError := by
      rw [h.frameError, bodyClean, List.not_any_eq_all_not]
    have hbytes : m.frameBytes.setWidth 32 = BitVec.ofNat 32 (countedBytes ⟨cur, pins⟩) := by
      rw [h.frameBytes hcur, countedBytes, length_pinBytes]
      apply BitVec.eq_of_toNat_eq
      simp
    cases herr : m.frameError with
    | false =>
      rw [herr] at hclean
      refine ⟨?_, ?_, ?_, ?_⟩
      · simp only [miiRxMonitorStep, hdv, hin, herr]
        exact ⟨rfl, rfl, rfl, fun hne => absurd rfl hne, by simp,
          fun _ b hb => by simp [pinBytes] at hb⟩
      · simp [miiRxMonitorStep, hdv, hin, herr, ended, hcur, hclean]
      · simp [miiRxMonitorStep, hdv, hin, herr, ended, hcur, hclean, hbytes]
      · simp [miiRxMonitorStep, hdv, hin, herr, ended, hcur, hclean]
    | true =>
      rw [herr] at hclean
      refine ⟨?_, ?_, ?_, ?_⟩
      · simp only [miiRxMonitorStep, hdv, hin, herr]
        exact ⟨rfl, rfl, rfl, fun hne => absurd rfl hne, by simp,
          fun _ b hb => by simp [pinBytes] at hb⟩
      · simp [miiRxMonitorStep, hdv, hin, herr, ended, hcur, hclean]
      · simp [miiRxMonitorStep, hdv, hin, herr, ended, hcur, hclean]
      · simp [miiRxMonitorStep, hdv, hin, herr, ended, hcur, hclean]

/-- What the monitor has counted, and what of it the endpoint has published. -/
structure MonitorCounts (inputs : List RxPins) : Prop where
  frames : (RxMonitor.run inputs).frameCount =
    BitVec.ofNat 32 ((rxBursts inputs).countP bodyClean)
  bytes : (RxMonitor.run inputs).byteCount =
    BitVec.ofNat 32 (((rxBursts inputs).filter bodyClean).map countedBytes).sum
  toggle : (RxMonitor.run inputs).frameToggle =
    decide ((rxBursts inputs).countP bodyClean % 2 = 1)
  /-- After a whole number of bytes the byte register holds the last one. -/
  lastByte : (RxMonitor.run inputs).haveLowNibble = false →
    ∀ b, (pinBytes (rxPending inputs)).getLast? = some b → (RxMonitor.run inputs).rxByte = b
  /-- The packets published are those of the counted bursts. -/
  published : (publishedPackets inputs).map slotPacket =
    ((rxBursts inputs).filter bodyClean).filterMap burstPacket
  /-- The counted bursts with a packet. -/
  captured : ∀ r ∈ rxBursts inputs, bodyClean r = true → ((burstPacket r).isSome = true ↔
    18 ≤ (burstData r).length % 65536 ∧ r.stop.ethRxerr = false)

theorem RxMonitor.run_snoc (inputs : List RxPins) (i : RxPins) :
    RxMonitor.run (inputs ++ [i]) = miiRxMonitorStep (RxMonitor.run inputs) i :=
  Synchronous.run_snoc miiRxMonitorStep .init inputs i

theorem rxBursts_snoc_idle (inputs : List RxPins) (hdv : pins.ethRxDv = false) :
    rxBursts (inputs ++ [pins]) = rxBursts inputs ++ ended (rxPending inputs) pins := by
  rw [rxBursts_snoc, hdv, ended]
  simp

theorem miiRxMonitorStep_on (m : RxMonitor) (hdv : pins.ethRxDv = true) :
    (miiRxMonitorStep m pins).frameCount = m.frameCount ∧
      (miiRxMonitorStep m pins).byteCount = m.byteCount ∧
      (miiRxMonitorStep m pins).frameToggle = m.frameToggle := by
  simp only [miiRxMonitorStep, hdv, if_true]
  split_ifs <;> exact ⟨rfl, rfl, rfl⟩

theorem monitorAt_run (inputs : List RxPins) :
    MonitorAt (rxPending inputs) (RxMonitor.run inputs) := by
  induction inputs using List.reverseRecOn with
  | nil => exact monitorAt_init
  | append_singleton inputs i ih =>
    rw [RxMonitor.run_snoc, rxPending_snoc, nextPending]
    cases hdv : i.ethRxDv with
    | false => exact (ih.idle hdv).1
    | true =>
      rcases Nat.mod_two_eq_zero_or_one (rxPending inputs).length with heven | hodd
      · exact ih.low hdv heven
      · exact ih.high hdv hodd

theorem decide_parity_add (a : ℕ) {b : ℕ} (hb : b ≤ 1) :
    (decide (a % 2 = 1) ^^ decide (b = 1)) = decide ((a + b) % 2 = 1) := by
  rw [Bool.eq_iff_iff, bne_iff_ne, Ne, decide_eq_decide, decide_eq_true_iff]
  omega

theorem countP_ended_le (cur : List RxPins) (pins : RxPins) :
    (ended cur pins).countP bodyClean ≤ 1 := by
  refine List.countP_le_length.trans ?_
  unfold ended
  split_ifs <;> simp

theorem monitor_totals (inputs : List RxPins) :
    (RxMonitor.run inputs).frameCount = BitVec.ofNat 32 ((rxBursts inputs).countP bodyClean) ∧
      (RxMonitor.run inputs).byteCount =
        BitVec.ofNat 32 (((rxBursts inputs).filter bodyClean).map countedBytes).sum ∧
      (RxMonitor.run inputs).frameToggle =
        decide ((rxBursts inputs).countP bodyClean % 2 = 1) := by
  induction inputs using List.reverseRecOn with
  | nil => exact ⟨rfl, rfl, rfl⟩
  | append_singleton inputs i ih =>
    obtain ⟨hframes, hbytes, htoggle⟩ := ih
    rw [RxMonitor.run_snoc]
    cases hdv : i.ethRxDv with
    | true =>
      obtain ⟨hf, hb, ht⟩ := miiRxMonitorStep_on (RxMonitor.run inputs) hdv
      rw [rxBursts_snoc, if_pos (Or.inl hdv), List.append_nil, hf, hb, ht]
      exact ⟨hframes, hbytes, htoggle⟩
    | false =>
      obtain ⟨-, hf, hb, ht⟩ := (monitorAt_run inputs).idle hdv
      rw [rxBursts_snoc_idle inputs hdv, hf, hb, ht, hframes, hbytes, htoggle, List.countP_append,
        List.filter_append, List.map_append, List.sum_append, BitVec.ofNat_add, BitVec.ofNat_add]
      exact ⟨rfl, rfl, decide_parity_add _ (countP_ended_le _ _)⟩

theorem bodyClean_of_packet {r : RxBurst} (h : (burstPacket r).isSome = true) :
    bodyClean r = true := by
  unfold burstPacket at h
  split_ifs at h with hvalid
  · have hclean := hvalid.2
    rw [burstClean, Bool.and_eq_true] at hclean
    exact hclean.1
  · simp at h

theorem burstPacket_isSome_iff {r : RxBurst} (h : bodyClean r = true) :
    (burstPacket r).isSome = true ↔
      18 ≤ (burstData r).length % 65536 ∧ r.stop.ethRxerr = false := by
  have hclean : burstClean r = true ↔ r.stop.ethRxerr = false := by
    rw [burstClean, ← bodyClean, h, Bool.true_and, Bool.not_eq_true']
  rw [← hclean, burstPacket]
  split_ifs with hvalid
  · exact iff_of_true rfl hvalid
  · exact iff_of_false Bool.false_ne_true hvalid

theorem filterMap_bodyClean (bursts : List RxBurst) :
    (bursts.filter bodyClean).filterMap burstPacket = bursts.filterMap burstPacket := by
  rw [List.filterMap_filter]
  apply List.filterMap_congr
  intro r _
  cases hpacket : burstPacket r with
  | none => exact ite_self _
  | some packet => exact if_pos (bodyClean_of_packet (by rw [hpacket]; rfl))

/-- The monitor counts the bursts without an error and, modulo 65536 each, their bytes. The
endpoint publishes the counted bursts that are valid frames, and no others. -/
theorem monitor_counts_bursts (inputs : List RxPins) : MonitorCounts inputs := by
  obtain ⟨hframes, hbytes, htoggle⟩ := monitor_totals inputs
  refine ⟨hframes, hbytes, htoggle, (monitorAt_run inputs).rxByte, ?_,
    fun r _ hclean => burstPacket_isSome_iff hclean⟩
  rw [filterMap_bodyClean]
  exact map_slotPacket_publishedPackets inputs

end ArtyEthernet
