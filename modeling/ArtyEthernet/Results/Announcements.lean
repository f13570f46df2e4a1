import ArtyEthernet.Results.BeaconSchedule

/-!
# Announcements lost to traffic

A gratuitous ARP tick lasts one cycle and is served only when that cycle finds the handler between
packets with nothing in the receive ring. Any other tick is lost, and no counter shows it.
-/

namespace ArtyEthernet
open Words

/-- Nothing is parsed, prepared or waiting to be examined. -/
structure Endpoint.Settled (s : Endpoint) : Prop where
  protocolIdle : s.proto.protocolState = .protoIdle
  notPreparing : s.proto.preparingPayload = false
  rxEmpty : ∀ i, s.rxQueue.valid i = false

def gratuitousArpTicks (inputs : List RxPins) : ℕ :=
  (Synchronous.trace Endpoint.step (fun s _ => s.proto.ticks.gratuitousArpTick) .reset
    inputs).count true

/-- The gratuitous ARP requests handed to the transmit ring during a run. -/
def announcements (inputs : List RxPins) : ℕ :=
  (handedRequests inputs).countP ProtocolTxRequest.isGratuitousArp

/-- The cycle starts settled and completes no packet. -/
def Undisturbed (inputs : List RxPins) (i : RxPins) : Prop :=
  (runFrom inputs).Settled ∧ completedPacket (rxPending inputs) i = none

section Handler
variable {st : Protocol} {rxQueue : RxPacketQueue} {txQueue : TxPacketQueue}

theorem protocolSelectStep_announces :
    (protocolSelectStep st rxQueue txQueue).handed.toList.countP
        ProtocolTxRequest.isGratuitousArp = 1 ∧ st.ticks.gratuitousArpTick = true ∧
        st.protocolState = .protoIdle ∧ st.preparingPayload = false ∧
        packetQueueReadSlotValid rxQueue = false ∨
      (protocolSelectStep st rxQueue txQueue).handed.toList.countP
        ProtocolTxRequest.isGratuitousArp = 0 ∧ ¬ (st.ticks.gratuitousArpTick = true ∧
        st.protocolState = .protoIdle ∧ st.preparingPayload = false ∧
        packetQueueReadSlotValid rxQueue = false) := by
  have hmove := protocolSelectStep_move st rxQueue txQueue
  generalize protocolSelectStep st rxQueue txQueue = stage at hmove ⊢
  cases hmove with
  | announce hprep hstate hempty harp => exact Or.inl ⟨rfl, harp, hstate, hprep, hempty⟩
  | busy hprep => exact Or.inr ⟨rfl, by simp [hprep]⟩
  | parked _ hstate => exact Or.inr ⟨rfl, by simp [hstate]⟩
  | quiet _ _ _ _ harp => exact Or.inr ⟨rfl, by simp [harp]⟩
  | drop _ _ hvalid => exact Or.inr ⟨rfl, by simp [hvalid]⟩
  | beginParse _ _ hvalid => exact Or.inr ⟨rfl, by simp [hvalid]⟩
  | beacon _ _ _ harp => exact Or.inr ⟨rfl, by simp [harp]⟩
  | readByte _ hstate => exact Or.inr ⟨rfl, by simp [hstate]⟩
  | reject _ hstate => exact Or.inr ⟨rfl, by simp [hstate]⟩
  | reply _ hstate => exact Or.inr ⟨rfl, by simp [hstate]⟩

theorem protocolQueueStep_quiet (hprep : st.preparingPayload = false)
    (hstate : st.protocolState = .protoIdle) (hempty : packetQueueReadSlotValid rxQueue = false)
    (hticks : st.ticks = ⟨false, false⟩) :
    protocolQueueStep st rxQueue txQueue = ⟨st.ticked, rxQueue, txQueue, none⟩ := by
  have hmove := protocolSelectStep_move st rxQueue txQueue
  rw [protocolQueueStep]
  generalize protocolSelectStep st rxQueue txQueue = stage at hmove ⊢
  cases hmove with
  | quiet =>
    rw [protocolPrepareStep_off _ _ (by exact hprep)]
  | _ => simp_all

theorem protocolQueueStep_drop (hprep : st.preparingPayload = false)
    (hstate : st.protocolState = .protoIdle) (hvalid : packetQueueReadSlotValid rxQueue = true)
    (hbad : (rxQueue.slotMeta rxQueue.readIdx).truncated = true ∨
      (rxQueue.slotMeta rxQueue.readIdx).wantsArpParse = false) :
    (protocolQueueStep st rxQueue txQueue).st.protocolState = .protoIdle ∧
      (protocolQueueStep st rxQueue txQueue).st.preparingPayload = false ∧
      (protocolQueueStep st rxQueue txQueue).rxQueue = packetQueueConsumeReadSlot rxQueue := by
  have hmove := protocolSelectStep_move st rxQueue txQueue
  rw [protocolQueueStep]
  generalize protocolSelectStep st rxQueue txQueue = stage at hmove ⊢
  cases hmove with
  | drop =>
    rw [protocolPrepareStep_off _ _ (by exact hprep)]
    exact ⟨hstate, hprep, rfl⟩
  | beginParse _ _ _ hwhole hwants => simp [hwhole, hwants] at hbad
  | _ => simp_all

end Handler

section Cycle
variable {inputs : List RxPins} {i : RxPins}

theorem Endpoint.Settled.waiting_nil {consumed waiting : List RxSlot}
    (h : (runFrom inputs).Settled) (hd : Decided consumed waiting inputs) : waiting = [] :=
  hd.rx.stage.ring.nil_iff.mpr h.rxEmpty

theorem Endpoint.Settled.step_quiet (h : (runFrom inputs).Settled)
    (hnone : completedPacket (rxPending inputs) i = none)
    (hticks : (runFrom inputs).proto.ticks = ⟨false, false⟩) :
    (runFrom (inputs ++ [i])).Settled := by
  obtain ⟨consumed, waiting, hd⟩ := decided_run inputs
  have hring := (hd.rx.arrive i).ring
  rw [h.waiting_nil hd, Option.map_eq_none_iff.mp (published_of_completed hnone)] at hring
  have hstep : (runFrom inputs).protoStage i =
      ⟨(runFrom inputs).proto.ticked, ((runFrom inputs).rxStage i).2, (runFrom inputs).txQueue,
        none⟩ :=
    protocolQueueStep_quiet h.notPreparing h.protocolIdle hring.readSlotValid_nil hticks
  rw [runFrom_snoc]
  simp only [Endpoint.step, ethernetL2EndpointHls, hstep]
  exact ⟨h.protocolIdle, h.notPreparing, hring.nil_iff.mp rfl⟩

theorem Endpoint.Settled.step_drop {packet : Packet} (h : (runFrom inputs).Settled)
    (hsome : completedPacket (rxPending inputs) i = some packet)
    (hbad : packet.wantsArpParse = false) : (runFrom (inputs ++ [i])).Settled := by
  obtain ⟨consumed, waiting, hd⟩ := decided_run inputs
  obtain ⟨slot, hslot, rfl⟩ := Option.map_eq_some_iff.mp (published_of_completed hsome)
  have hring := (hd.rx.arrive i).ring
  rw [h.waiting_nil hd, hslot] at hring
  rw [slotPacket_wantsArpParse, Bool.and_eq_false_iff, Bool.not_eq_false'] at hbad
  rw [← hring.head.1] at hbad
  obtain ⟨hidle, hprep, hqueue⟩ := protocolQueueStep_drop h.notPreparing h.protocolIdle
    hring.readSlotValid_cons hbad
  have hnext : ((runFrom inputs).step i).rxQueue =
      packetQueueConsumeReadSlot ((runFrom inputs).rxStage i).2 := hqueue
  rw [runFrom_snoc]
  refine ⟨hidle, hprep, ?_⟩
  rw [hnext]
  exact hring.consume.nil_iff.mp rfl

theorem readSlotValid_rxStage :
    packetQueueReadSlotValid ((runFrom inputs).rxStage i).2 = false ↔
      (∀ k, (runFrom inputs).rxQueue.valid k = false) ∧
        completedPacket (rxPending inputs) i = none := by
  obtain ⟨consumed, waiting, hd⟩ := decided_run inputs
  have hring := (hd.rx.arrive i).ring
  rw [← hd.rx.stage.ring.nil_iff, ← published_of_completed rfl, Option.map_eq_none_iff,
    ← Bool.not_eq_true, hring.readSlotValid, not_not, List.append_eq_nil_iff,
    Option.toList_eq_nil_iff]

/-- A cycle announces exactly when it ticks and is undisturbed. -/
theorem announces_iff :
    ((runFrom inputs).handed i).toList.countP ProtocolTxRequest.isGratuitousArp = 1 ∧
        (runFrom inputs).proto.ticks.gratuitousArpTick = true ∧ Undisturbed inputs i ∨
      ((runFrom inputs).handed i).toList.countP ProtocolTxRequest.isGratuitousArp = 0 ∧
        ¬ ((runFrom inputs).proto.ticks.gratuitousArpTick = true ∧ Undisturbed inputs i) := by
  have hundisturbed : Undisturbed inputs i ↔ (runFrom inputs).proto.protocolState = .protoIdle ∧
      (runFrom inputs).proto.preparingPayload = false ∧
      packetQueueReadSlotValid ((runFrom inputs).rxStage i).2 = false := by
    rw [readSlotValid_rxStage]
    constructor
    · rintro ⟨⟨hstate, hprep, hempty⟩, hnone⟩
      exact ⟨hstate, hprep, hempty, hnone⟩
    · rintro ⟨hstate, hprep, hempty, hnone⟩
      exact ⟨⟨hstate, hprep, hempty⟩, hnone⟩
  rw [hundisturbed]
  exact protocolSelectStep_announces

end Cycle

/-- Every gratuitous ARP tick of the run fell on an undisturbed cycle. -/
def TicksUndisturbed (inputs : List RxPins) : Prop :=
  ∀ history i, history ++ [i] <+: inputs →
    (runFrom history).proto.ticks.gratuitousArpTick = true → Undisturbed history i

section Runs
variable (inputs : List RxPins) (i : RxPins)

theorem announcements_snoc : announcements (inputs ++ [i]) = announcements inputs +
    ((runFrom inputs).handed i).toList.countP ProtocolTxRequest.isGratuitousArp := by
  rw [announcements, handedRequests_snoc, List.countP_append]
  rfl

theorem gratuitousArpTicks_snoc : gratuitousArpTicks (inputs ++ [i]) = gratuitousArpTicks inputs +
    (runFrom inputs).proto.ticks.gratuitousArpTick.toNat := by
  rw [gratuitousArpTicks, Synchronous.trace_snoc, List.count_append, ← gratuitousArpTicks]
  change _ + List.count true [(runFrom inputs).proto.ticks.gratuitousArpTick] = _
  cases (runFrom inputs).proto.ticks.gratuitousArpTick <;> rfl

theorem ticksUndisturbed_snoc : TicksUndisturbed (inputs ++ [i]) ↔ TicksUndisturbed inputs ∧
    ((runFrom inputs).proto.ticks.gratuitousArpTick = true → Undisturbed inputs i) := by
  constructor
  · intro h
    exact ⟨fun history j hj => h history j (hj.trans (List.prefix_append _ _)),
      h inputs i (List.prefix_refl _)⟩
  · rintro ⟨hold, hnew⟩ history j hj
    rcases List.prefix_concat_iff.mp hj with heq | hprefix
    · obtain ⟨rfl, hlast⟩ := List.append_inj' heq rfl
      rw [List.singleton_inj.mp hlast]
      exact hnew
    · exact hold history j hprefix

/-- No more announcements than ticks, and as many exactly while no tick has been disturbed. -/
theorem announcements_le : announcements inputs ≤ gratuitousArpTicks inputs ∧
    (announcements inputs = gratuitousArpTicks inputs ↔ TicksUndisturbed inputs) := by
  induction inputs using List.reverseRecOn with
  | nil =>
    refine ⟨le_rfl, iff_of_true rfl fun history i hprefix => ?_⟩
    simp at hprefix
  | append_singleton inputs i ih =>
    rw [announcements_snoc, gratuitousArpTicks_snoc, ticksUndisturbed_snoc, ← ih.2]
    have hle := ih.1
    rcases @announces_iff inputs i with ⟨hone, htick, hquiet⟩ | ⟨hzero, hmissed⟩
    · rw [hone, htick, Bool.toNat_true]
      exact ⟨by omega, by simp [hquiet]⟩
    · rw [hzero]
      cases htick : (runFrom inputs).proto.ticks.gratuitousArpTick with
      | false => simp [hle]
      | true =>
        have hdisturbed : ¬ Undisturbed inputs i := fun hquiet => hmissed ⟨htick, hquiet⟩
        rw [Bool.toNat_true]
        refine ⟨by omega, iff_of_false (by omega) ?_⟩
        rintro ⟨-, hquiet⟩
        exact hdisturbed (hquiet rfl)

end Runs

/-- Whenever two consecutive states of the run are settled, every tick so far has been announced. -/
def AnnouncesEveryTick (inputs : List RxPins) : Prop :=
  ∀ history i, history ++ [i] <+: inputs → (runFrom history).Settled →
    (runFrom (history ++ [i])).Settled →
      announcements (history ++ [i]) = gratuitousArpTicks (history ++ [i])

/-- A run announces every tick exactly when no tick before a settled state was disturbed. -/
theorem announcements_match_iff (inputs : List RxPins) :
    AnnouncesEveryTick inputs ↔ ∀ history i, history ++ [i] <+: inputs →
      (runFrom history).Settled → (runFrom (history ++ [i])).Settled →
        TicksUndisturbed (history ++ [i]) := by
  unfold AnnouncesEveryTick
  simp only [(announcements_le _).2]

section Lost

def lostLead : List RxPins := List.replicate 124999963 ⟨false, 0, false⟩

def lostFrame : List RxPins := List.replicate 36 ⟨true, 0, false⟩

theorem settled_lead : (runFrom lostLead).Settled := by
  have hlen : lostLead.length = 124999963 := List.length_replicate
  have hquiet : QuietLine (lostLead ++ [⟨false, 0, false⟩]) := by
    rw [lostLead, ← List.replicate_succ']
    exact quietLine_replicate _
  obtain ⟨sent, held, left, hat⟩ := schedule_run lostLead hquiet.init
  obtain ⟨consumed, waiting, hd⟩ := decided_run lostLead
  have hpublished := hd.published
  rw [publishedPackets_quiet hquiet.init] at hpublished
  have hwaiting := (List.append_eq_nil_iff.mp hpublished.symm).2
  have hwork := hat.work
  have hzero : (runFrom lostLead).proto.txWork left = 0 := by
    rw [hlen] at hwork
    omega
  have hprep : (runFrom lostLead).proto.preparingPayload = false := by
    by_contra hon
    rw [Bool.not_eq_false] at hon
    have hindex := (hat.tx.ring.building hon).index
    simp only [Protocol.txWork, Protocol.buildCost, hon, if_true] at hzero
    omega
  exact ⟨(quiet_idle hquiet).1, hprep, hd.rx.stage.ring.nil_iff.mp hwaiting⟩

theorem rxPending_lead_frame (k : ℕ) :
    rxPending (lostLead ++ List.replicate k ⟨true, 0, false⟩) =
      List.replicate k ⟨true, 0, false⟩ := by
  have hlead : rxPending lostLead = [] :=
    (MaximalRuns.scan_all_off lostLead fun p hp => by rw [List.eq_of_mem_replicate hp]).2
  have hon : ∀ p ∈ List.replicate k (⟨true, 0, false⟩ : RxPins), p.ethRxDv = true := by
    intro p hp
    rw [List.eq_of_mem_replicate hp]
  have hframe := (MaximalRuns.scan_all_on _ hon).2
  exact (MaximalRuns.scan_append lostLead _ hlead).2.trans hframe

theorem settled_frame (k : ℕ) (hk : k ≤ 36) :
    (runFrom (lostLead ++ List.replicate k ⟨true, 0, false⟩)).Settled := by
  induction k with
  | zero =>
    rw [List.replicate_zero, List.append_nil]
    exact settled_lead
  | succ k ih =>
    rw [List.replicate_succ', ← List.append_assoc]
    apply (ih (by omega)).step_quiet
    · exact completedPacket_none (Or.inl rfl)
    · have hlen : lostLead.length = 124999963 := List.length_replicate
      rw [ticks_run, List.length_append, hlen, List.length_replicate, ticksAfter,
        decide_eq_false (by omega), decide_eq_false (by omega)]

end Lost

/-- The frame ends in the cycle of the tick: it is dropped and the announcement is lost. -/
theorem announcement_lost : ¬ ∀ inputs : List RxPins, AnnouncesEveryTick inputs := by
  intro h
  let stop : RxPins := ⟨false, 0, false⟩
  have hlen : (lostLead ++ lostFrame).length = 124999999 := by
    rw [List.length_append, lostLead, lostFrame, List.length_replicate, List.length_replicate]
  have hpending : rxPending (lostLead ++ lostFrame) = lostFrame := rxPending_lead_frame 36
  have hpacket : completedPacket (rxPending (lostLead ++ lostFrame)) stop =
      some (capturedPacket (burstData ⟨lostFrame, stop⟩)) := by
    rw [hpending, completedPacket, if_neg (by simp [stop, lostFrame]), burstPacket, if_pos]
    decide
  have hbad : (capturedPacket (burstData ⟨lostFrame, stop⟩)).wantsArpParse = false := by decide
  have hsettled : (runFrom (lostLead ++ lostFrame ++ [stop])).Settled :=
    (settled_frame 36 le_rfl).step_drop hpacket hbad
  have hnext : (runFrom (lostLead ++ lostFrame ++ [stop] ++ [stop])).Settled := by
    apply hsettled.step_quiet
    · have hclosed : rxPending (lostLead ++ lostFrame ++ [stop]) = [] := by
        rw [rxPending_snoc]
        rfl
      exact completedPacket_none (Or.inr hclosed)
    · rw [ticks_run, List.length_append, hlen, List.length_singleton, ticksAfter]
      decide
  have hcount := h _ (lostLead ++ lostFrame ++ [stop]) stop (List.prefix_refl _) hsettled hnext
  have htick : (runFrom (lostLead ++ lostFrame)).proto.ticks.gratuitousArpTick = true := by
    rw [ticks_run, hlen]
    rfl
  have hquiet := (announcements_le _).2.mp hcount (lostLead ++ lostFrame) stop
    (List.prefix_append _ _) htick
  rw [Undisturbed, hpacket] at hquiet
  exact absurd hquiet.2 (by simp)

end ArtyEthernet
