import ArtyEthernet.Proofs.Backlog
import ArtyEthernet.Proofs.Delivery
import ArtyEthernet.Proofs.ReplyCycles
import ArtyEthernet.Proofs.Serving
import ArtyEthernet.Proofs.Ticks

/-!
# An idle line

Whatever has been received before, once the line has been idle for a while every packet is decided
and everything accepted has left, so a tick finds the handler and the transmit side free.
-/

namespace ArtyEthernet
open Words

def IdleLine (inputs : List RxPins) : Prop := ∀ p ∈ inputs, p.ethRxDv = false

theorem IdleLine.left {xs ys : List RxPins} (h : IdleLine (xs ++ ys)) : IdleLine xs :=
  fun p hp => h p (List.mem_append_left ys hp)

theorem IdleLine.right {xs ys : List RxPins} (h : IdleLine (xs ++ ys)) : IdleLine ys :=
  fun p hp => h p (List.mem_append_right xs hp)

/-- Every packet has been decided, and no burst is open. -/
structure RxDone (consumed : List RxSlot) (inputs : List RxPins) : Prop where
  decided : Decided consumed [] inputs
  closed : rxPending inputs = []

section Idle
variable {prior idle inputs : List RxPins} {consumed : List RxSlot} {i : RxPins}

theorem rxBursts_idle (hprior : rxPending prior = []) (hidle : IdleLine idle) :
    rxBursts (prior ++ idle) = rxBursts prior ∧ rxPending (prior ++ idle) = [] := by
  obtain ⟨hbursts, hpending⟩ := MaximalRuns.scan_append prior idle hprior
  obtain ⟨hnone, hend⟩ := MaximalRuns.scan_all_off idle hidle
  refine ⟨?_, hpending.trans hend⟩
  rw [rxBursts, hbursts, hnone, List.append_nil]
  rfl

theorem packets_idle (hprior : rxPending prior = []) (hidle : IdleLine idle) :
    (publishedPackets (prior ++ idle)).map slotPacket =
      (publishedPackets prior).map slotPacket := by
  rw [map_slotPacket_publishedPackets, map_slotPacket_publishedPackets,
    (rxBursts_idle hprior hidle).1]

/-- After 200 idle cycles nothing is left to decide. -/
theorem rxDone_idle (hprior : rxPending prior = []) (hidle : IdleLine idle)
    (hlong : 200 ≤ idle.length) : ∃ consumed, RxDone consumed (prior ++ idle) := by
  obtain ⟨consumed, waiting, hd, hinit⟩ := decided_within prior idle hlong
  have hlen := congrArg List.length (packets_idle hprior hidle)
  have hle := hinit.length_le
  rw [List.length_map, List.length_map, hd.published, List.length_append] at hlen
  have hwaiting : waiting = [] := List.length_eq_zero_iff.mp (by omega)
  exact ⟨consumed, hwaiting ▸ hd, (rxBursts_idle hprior hidle).2⟩

theorem rxDone_within (prior : List RxPins) (hidle : IdleLine idle) (hlong : 201 ≤ idle.length) :
    ∃ consumed, RxDone consumed (prior ++ idle) := by
  obtain ⟨i, idle, rfl⟩ := List.exists_cons_of_length_pos (l := idle) (by omega)
  have hclosed : rxPending (prior ++ [i]) = [] :=
    MaximalRuns.pending_snoc_off prior (hidle i List.mem_cons_self)
  rw [List.length_cons] at hlong
  rw [List.append_cons]
  exact rxDone_idle hclosed (fun p hp => hidle p (List.mem_cons_of_mem i hp)) (by omega)

theorem RxDone.empty (h : RxDone consumed inputs) (hi : i.ethRxDv = false) :
    packetQueueReadSlotValid ((runFrom inputs).rxStage i).2 = false := by
  have hsame := congrArg List.length (packets_idle h.closed
    (show IdleLine [i] from fun p hp => List.mem_singleton.mp hp ▸ hi))
  rw [List.length_map, List.length_map, publishedPackets_snoc, List.length_append] at hsame
  have hnone : ((runFrom inputs).rxPublished i).toList = [] :=
    List.length_eq_zero_iff.mp (by omega)
  have hring := (h.decided.rx.arrive i).ring
  rw [hnone] at hring
  exact hring.readSlotValid_nil

theorem RxDone.handed_none (h : RxDone consumed inputs)
    (htick : (inputs.length + 1) % 25000000 ≠ 0) : (runFrom inputs).handed i = none := by
  have hticks : (runFrom inputs).proto.ticks = ⟨false, false⟩ := by
    rw [ticks_run, ticksAfter, decide_eq_false htick, decide_eq_false (by omega)]
  rw [Option.eq_none_iff_forall_ne_some]
  intro r hr
  obtain ⟨-, hparse⟩ := protocolSelectStep_noTick hticks hr
  have hstate := h.decided.rx.idle_of_nil
  rw [hparse] at hstate
  contradiction

end Idle

/-- The cycles until the frames held and the one being prepared have had their gaps, when nothing
more is accepted. -/
def Protocol.restDue (st : Protocol) (left : ℕ) : ℕ :=
  max left (st.buildCost - 1) + heldCycles st.building

section Rest
variable {sent held : List ProtocolTxRequest} {pins : List TxPins} {left : ℕ} {s : Endpoint}
  {i : RxPins} {r : ProtocolTxRequest}

theorem TxAt.restDue_le (h : TxAt sent held pins left s) : s.proto.restDue left ≤ 1340 := by
  have hdue := h.txDue_le
  unfold Protocol.txDue at hdue
  unfold Protocol.restDue
  omega

theorem TxAt.restDue_none (h : TxAt sent held pins left s) (hnone : s.accepted i = none) :
    (s.step i).proto.restDue (left + heldCycles (s.finished i) - 1) =
      s.proto.restDue left - 1 := by
  have hselect := h.ring.select (s.rxStage i).2
  have hspec := protocolSelectStep_selectCost s.proto (s.rxStage i).2 s.txQueue
  have hcost : ((s.step i).proto.buildCost) + 1 = (protocolSelectStep s.proto (s.rxStage i).2
      s.txQueue).st.selectCost := buildCost_prepare _ fun hp => (hselect.1.building hp).index
  have hbuild := (h.ring_proto i).2
  rw [hnone, Option.toList_none, List.append_nil] at hbuild
  change s.finished i ++ (s.step i).proto.building = s.proto.building at hbuild
  unfold Protocol.restDue
  cases hprep : s.proto.preparingPayload with
  | false =>
    rw [Protocol.building_nil.mpr hprep, List.append_eq_nil_iff] at hbuild
    rw [hbuild.1, hbuild.2, Protocol.building_nil.mpr hprep, buildCost_off hprep,
      buildCost_off (Protocol.building_nil.mp hbuild.2), heldCycles_nil]
    omega
  | true =>
    have hsame := (hspec.busy hprep).2
    have hone : s.proto.building = [s.proto.prepareRequest] := by
      simp [Protocol.building, hprep]
    have hmin : 0 < s.proto.prepareRequest.cycles := Nat.succ_pos _
    cases hnext : (s.step i).proto.preparingPayload with
    | false =>
      rw [Protocol.building_nil.mpr hnext, List.append_nil] at hbuild
      rw [buildCost_off hnext] at hcost
      rw [hbuild, hone, Protocol.building_nil.mpr hnext, buildCost_off hnext, heldCycles_cons,
        heldCycles_nil]
      omega
    | true =>
      have hstill : (s.step i).proto.building = [(s.step i).proto.prepareRequest] := by
        simp [Protocol.building, hnext]
      obtain ⟨sent', held', h', -⟩ := h.step i
      have hindex := (h'.ring.building hnext).index
      have hpos : 0 < (s.step i).proto.buildCost := by
        rw [Protocol.buildCost, if_pos hnext]
        omega
      have hlen := congrArg List.length hbuild
      rw [List.length_append, hstill, hone, List.length_singleton, List.length_singleton] at hlen
      have hfinished : s.finished i = [] := List.length_eq_zero_iff.mp (by omega)
      rw [hfinished, List.nil_append] at hbuild
      rw [hfinished, hbuild, hone, heldCycles_cons, heldCycles_nil]
      omega

theorem TxAt.restDue_some (h : TxAt sent held pins left s) (hrest : s.proto.restDue left = 0)
    (hr : s.accepted i = some r) (hlen : 2 ≤ r.len.toNat) :
    (s.step i).proto.restDue (left + heldCycles (s.finished i) - 1) + 2 = r.work := by
  unfold Protocol.restDue at hrest
  have hbuilding := heldCycles_eq_zero (show heldCycles s.proto.building = 0 by omega)
  obtain ⟨hfinished, hbuild, hcost⟩ := h.starts (Protocol.building_nil.mp hbuilding) hr hlen
  rw [Protocol.restDue, hfinished, hbuild, heldCycles_nil, heldCycles_cons, heldCycles_nil,
    ProtocolTxRequest.work]
  omega

theorem restDue_eq_zero (h : TxAt sent held pins left s) (hrest : s.proto.restDue left = 0) :
    left = 0 ∧ held = [] ∧ s.proto.preparingPayload = false := by
  unfold Protocol.restDue at hrest
  have hleft : left = 0 := by omega
  have hbuilding := heldCycles_eq_zero (show heldCycles s.proto.building = 0 by omega)
  exact ⟨hleft, (hleft ▸ h).held_nil, Protocol.building_nil.mp hbuilding⟩

theorem restDue_idle {prior lead : List RxPins}
    (h : TxAt sent held (drivenPins (prior ++ lead)) left (runFrom (prior ++ lead)))
    (hlead : 201 ≤ lead.length) (idle : List RxPins) (hidle : IdleLine (lead ++ idle))
    (htick : ∀ n < idle.length, (prior.length + lead.length + n + 1) % 25000000 ≠ 0) :
    ∃ sent' held' left', TxAt sent' held' (drivenPins (prior ++ lead ++ idle)) left'
        (runFrom (prior ++ lead ++ idle)) ∧
      (runFrom (prior ++ lead ++ idle)).proto.restDue left' =
        (runFrom (prior ++ lead)).proto.restDue left - idle.length := by
  induction idle using List.reverseRecOn with
  | nil =>
    rw [List.append_nil]
    exact ⟨sent, held, left, h, rfl⟩
  | append_singleton idle i ih =>
    have hlen : (idle ++ [i]).length = idle.length + 1 := by simp
    rw [← List.append_assoc] at hidle
    obtain ⟨sent', held', left', h', hdue⟩ := ih hidle.left fun n hn => htick n (by omega)
    obtain ⟨consumed, hdone⟩ := rxDone_within prior hidle.left (by simp; omega)
    rw [← List.append_assoc] at hdone
    have hnone : (runFrom (prior ++ lead ++ idle)).accepted i = none := by
      rw [Endpoint.accepted, hdone.handed_none, ite_self]
      have hlast := htick idle.length (by omega)
      rwa [List.length_append, List.length_append]
    obtain ⟨sent'', held'', h'', -⟩ := h'.step i
    rw [← List.append_assoc, drivenPins_snoc, runFrom_snoc]
    refine ⟨sent'', held'', _, h'', ?_⟩
    rw [h'.restDue_none hnone, hdue, hlen]
    omega

/-- After 1541 idle cycles, the last 1340 of them without a tick, nothing is left to send. -/
theorem rest_within (prior idle : List RxPins) (hidle : IdleLine idle)
    (hlong : 1541 ≤ idle.length)
    (htick : ∀ n < 1340, (prior.length + idle.length - n) % 25000000 ≠ 0) :
    ∃ sent left, TxAt sent [] (drivenPins (prior ++ idle)) left (runFrom (prior ++ idle)) ∧
      (runFrom (prior ++ idle)).proto.restDue left = 0 := by
  obtain ⟨lead, tail, rfl, htail⟩ : ∃ lead tail, idle = lead ++ tail ∧ tail.length = 1340 :=
    ⟨idle.take (idle.length - 1340), idle.drop (idle.length - 1340),
      (List.take_append_drop _ _).symm, by rw [List.length_drop]; omega⟩
  have hlens : (lead ++ tail).length = lead.length + 1340 := by rw [List.length_append, htail]
  obtain ⟨sent₀, held₀, left₀, h, -⟩ := txAt_run (prior ++ lead)
  have hmax := h.restDue_le
  obtain ⟨sent, held, left, h', hdue⟩ := restDue_idle h (by omega) tail hidle fun n hn => by
    have hthen := htick (1339 - n) (by omega)
    have hcycle : prior.length + (lead ++ tail).length - (1339 - n) =
        prior.length + lead.length + n + 1 := by omega
    rwa [hcycle] at hthen
  rw [List.append_assoc] at h' hdue
  have hzero : (runFrom (prior ++ (lead ++ tail))).proto.restDue left = 0 := by omega
  exact ⟨sent, left, (restDue_eq_zero h' hzero).2.1 ▸ h', hzero⟩

end Rest

/-- The request a tick starts in the cycle that follows `inputs`. -/
def tickRequest (inputs : List RxPins) (i : RxPins) : ProtocolTxRequest :=
  if (inputs.length + 1) % 125000000 = 0 then protocolTxGratuitousArpRequest
  else beaconSnapshot (runFrom inputs).proto ((runFrom inputs).rxStage i).2 (runFrom inputs).txQueue

/-- After 1541 idle cycles every tick is served and its request accepted, whatever has been
received before. -/
theorem tick_accepted (prior idle : List RxPins) (i : RxPins) (hidle : IdleLine (idle ++ [i]))
    (hlong : 1541 ≤ idle.length) (htick : (prior.length + idle.length + 1) % 25000000 = 0) :
    (runFrom (prior ++ idle)).accepted i = some (tickRequest (prior ++ idle) i) := by
  obtain ⟨sent, left, htx, hrest⟩ := rest_within prior idle hidle.left hlong
    fun n hn => by omega
  obtain ⟨consumed, hdone⟩ := rxDone_within prior hidle.left (by omega)
  have hslot : packetQueueWriteSlotAvailable (runFrom (prior ++ idle)).txQueue = true := by
    rw [htx.ring.length_held.1]
    exact Nat.zero_lt_succ 3
  have hi : i.ethRxDv = false := hidle i (by simp)
  have hhanded : (runFrom (prior ++ idle)).handed i = some (tickRequest (prior ++ idle) i) := by
    have hserved : (runFrom (prior ++ idle)).handed i = _ :=
      protocolSelectStep_idle (restDue_eq_zero htx hrest).2.2 hdone.decided.rx.idle_of_nil
        (hdone.empty hi)
    have hcycle : (prior ++ idle).length + 1 = prior.length + idle.length + 1 := by
      rw [List.length_append]
    rw [ticks_run, ticksAfter, hcycle] at hserved
    simp only [decide_eq_true_eq] at hserved
    rw [if_pos htick] at hserved
    rw [tickRequest, hcycle]
    refine Eq.trans hserved ?_
    split_ifs <;> rfl
  rw [Endpoint.accepted, hslot, hhanded]
  rfl

end ArtyEthernet
