import ArtyEthernet.Proofs.RxRuns

/-!
# The handler keeps up with the line

A packet is never worth more handler cycles than its burst took to arrive. `Backlog` bounds the
work ahead of the handler together with the burst in progress, so at most seven packets are ever
in the receive ring and no burst finds it full.
-/

namespace ArtyEthernet
open Words

/-- The cycles of the burst in progress that count towards its packet. -/
def arrivalCredit (cur : List RxPins) : ℕ := min cur.length 93

structure Backlog (waiting : List RxSlot) (cur : List RxPins) (s : Endpoint) : Prop where
  bound : slotsCost waiting + s.proto.buildCost + arrivalCredit cur ≤ 236 + s.proto.parseCredit
  noDrop : s.capture.rxDropCurrent = false
  dropCount : s.rxQueue.dropCount = 0

theorem backlog_reset : Backlog [] [] .reset where
  bound := by simp [arrivalCredit, Protocol.buildCost, Endpoint.reset, Protocol.init]
  noDrop := rfl
  dropCount := rfl

/-- A packet that is parsed took 92 cycles to arrive, any other packet 36. -/
theorem cost_le_burst {cur : List RxPins} {i : RxPins} {p : Packet}
    (h : completedPacket cur i = some p) :
    (if p.wantsArpParse then 93 else 37) ≤ cur.length + 1 := by
  have hbytes : (burstData ⟨cur, i⟩).length ≤ cur.length / 2 := by
    refine (length_dataBytes_le _).trans ?_
    rw [pinBytes, length_pairNibbles, List.length_map]
  unfold completedPacket burstPacket at h
  split_ifs at h with hquiet hvalid
  have hmin : 18 ≤ (burstData ⟨cur, i⟩).length := hvalid.1.trans (Nat.mod_le _ _)
  have hp := Option.some.inj h
  split_ifs with hwants
  · rw [← hp] at hwants
    simp only [Packet.wantsArpParse, capturedPacket, Bool.and_eq_true, Bool.not_eq_true',
      decide_eq_true_eq, decide_eq_false_iff_not, List.length_take, List.length_drop] at hwants
    omega
  · omega

variable {consumed waiting : List RxSlot} {cur : List RxPins} {s : Endpoint}

theorem RxAt.arrival_cost (h : RxAt consumed waiting cur s)
    (hdrop : s.capture.rxDropCurrent = false) (i : RxPins) :
    slotsCost (s.rxPublished i).toList + arrivalCredit (nextPending cur i) ≤
      arrivalCredit cur + 1 := by
  have hpub : (s.rxPublished i).map slotPacket = completedPacket cur i :=
    h.stage.published_eq hdrop
  cases hnew : s.rxPublished i with
  | none =>
    unfold nextPending arrivalCredit
    split_ifs <;> simp
    omega
  | some slot =>
    rw [hnew, Option.map_some] at hpub
    have hcost := cost_le_burst hpub.symm
    have hoff : i.ethRxDv = false := by
      by_contra hon
      simp [completedPacket, hon] at hpub
    have hmax := (slotCost_bounds slot).2
    simp only [Option.toList_some, slotsCost_cons, slotsCost_nil, nextPending, hoff, arrivalCredit]
    unfold slotCost at hmax ⊢
    simp
    omega

theorem RxAt.parseCredit_le (h : RxAt consumed waiting cur s) :
    s.proto.parseCredit ≤ 51 ∧ (s.proto.parseCredit ≠ 0 → ∃ slot rest, waiting = slot :: rest ∧
      slotCost slot = 93) := by
  by_cases hstate : s.proto.protocolState = .protoParseArp
  · obtain ⟨slot, rest, hwaiting, hat⟩ := h.handler.parsing hstate
    have hlt := hat.index
    rw [parseCredit_parse hstate]
    exact ⟨by omega, fun _ => ⟨slot, rest, hwaiting, slotCost_parsed hat.whole hat.wants⟩⟩
  · simp [Protocol.parseCredit, hstate]

theorem slotsCost_ge (slots : List RxSlot) : 37 * slots.length ≤ slotsCost slots := by
  induction slots with
  | nil => simp
  | cons slot slots ih =>
    have hmin := (slotCost_bounds slot).1
    rw [List.length_cons, slotsCost_cons]
    omega

/-- At most seven packets wait in the receive ring. -/
theorem Backlog.length_le (hb : Backlog waiting cur s) (h : RxAt consumed waiting cur s) :
    waiting.length ≤ 7 := by
  have hbound := hb.bound
  have hcredit := h.parseCredit_le
  by_cases hzero : s.proto.parseCredit = 0
  · have hmin := slotsCost_ge waiting
    omega
  · obtain ⟨slot, rest, rfl, hslot⟩ := hcredit.2 hzero
    have hmin := slotsCost_ge rest
    rw [slotsCost_cons] at hbound
    rw [List.length_cons]
    omega

theorem Backlog.writeSlot_free (hb : Backlog waiting cur s) (h : RxAt consumed waiting cur s) :
    packetQueueWriteSlotAvailable s.rxQueue = true := by
  have hlen := hb.length_le h
  exact h.stage.ring.writeSlotAvailable.mpr (Nat.lt_of_le_of_lt hlen (by decide))

theorem Backlog.step {held : List ProtocolTxRequest} (hb : Backlog waiting cur s)
    (h : RxAt consumed waiting cur s) (htx : TxRingAt s.proto s.txQueue held) (i : RxPins) :
    ∃ eaten rest, Eats consumed (waiting ++ (s.rxPublished i).toList) eaten rest
        (s.protoStage i) ∧
      RxAt (consumed ++ eaten) rest (nextPending cur i) (s.step i) ∧
      StepWork s.proto (s.step i).proto (waiting ++ (s.rxPublished i).toList) eaten ∧
      Backlog rest (nextPending cur i) (s.step i) := by
  obtain ⟨eaten, rest, heats, hat, hwork⟩ := h.step htx i
  refine ⟨eaten, rest, heats, hat, hwork, ?_, ?_, ?_⟩
  · have hbound := hb.bound
    have harrival := h.arrival_cost hb.noDrop i
    have hsum : slotsCost waiting + slotsCost (s.rxPublished i).toList =
        slotsCost eaten + slotsCost rest := by
      rw [← slotsCost_append, ← slotsCost_append, heats.split]
    by_cases hbusy : waiting ++ (s.rxPublished i).toList ≠ [] ∨ s.proto.preparingPayload = true
    · have hstep := hwork.busy hbusy
      omega
    · rw [not_or, not_not, Bool.not_eq_true] at hbusy
      have hstep := hwork.idle hbusy.1 hbusy.2
      have hrest : rest = [] := by
        have hsplit := heats.split
        rw [hbusy.1] at hsplit
        exact (List.append_eq_nil_iff.mp hsplit.symm).2
      have hcap : arrivalCredit (nextPending cur i) ≤ 93 := Nat.min_le_right _ _
      rw [hrest, slotsCost_nil]
      omega
  · exact (rxDropCurrent_step i hb.noDrop (hb.writeSlot_free h)).2
  · have hcount : (s.step i).rxQueue.dropCount = (s.rxStage i).2.dropCount :=
      (protocolSelectStep_rxQueue s.proto (s.rxStage i).2 s.txQueue).2.2.2
    rw [hcount]
    exact (rxDropCount_step hb.noDrop (hb.writeSlot_free h)).trans hb.dropCount

structure Decided (consumed waiting : List RxSlot) (inputs : List RxPins) : Prop where
  rx : RxAt consumed waiting (rxPending inputs) (runFrom inputs)
  backlog : Backlog waiting (rxPending inputs) (runFrom inputs)
  published : publishedPackets inputs = consumed ++ waiting
  replies : (handedRequests inputs).filter ProtocolTxRequest.isArpReply =
    arpReplies (consumed.filterMap slotRequester)

theorem Decided.step {inputs : List RxPins} (h : Decided consumed waiting inputs) (i : RxPins) :
    ∃ eaten rest, Decided (consumed ++ eaten) rest (inputs ++ [i]) ∧
      waiting ++ ((runFrom inputs).rxPublished i).toList = eaten ++ rest ∧ eaten.length ≤ 1 ∧
      StepWork (runFrom inputs).proto (runFrom (inputs ++ [i])).proto
        (waiting ++ ((runFrom inputs).rxPublished i).toList) eaten := by
  obtain ⟨sent, held, left, htx, -⟩ := txAt_run inputs
  obtain ⟨eaten, rest, heats, hrx, hwork, hb⟩ := h.backlog.step h.rx htx.ring i
  rw [← runFrom_snoc] at hrx hwork hb
  rw [← rxPending_snoc] at hrx hb
  refine ⟨eaten, rest, ⟨hrx, hb, ?_, ?_⟩, heats.split, heats.few, hwork⟩
  · rw [publishedPackets_snoc, h.published, List.append_assoc, heats.split, List.append_assoc]
  · rw [handedRequests_snoc, List.filter_append, h.replies, List.filterMap_append, arpReplies,
      arpReplies, List.map_append]
    exact congrArg _ heats.replies

/-- After every run the published packets are those decided and those waiting, in order, and the
backlog is bounded. -/
theorem decided_run (inputs : List RxPins) :
    ∃ consumed waiting, Decided consumed waiting inputs := by
  induction inputs using List.reverseRecOn with
  | nil => exact ⟨[], [], rxAt_reset, backlog_reset, rfl, rfl⟩
  | append_singleton inputs i ih =>
    obtain ⟨consumed, waiting, h⟩ := ih
    obtain ⟨eaten, rest, h', -⟩ := h.step i
    exact ⟨consumed ++ eaten, rest, h'⟩

/-- How far the packets published by `inputs` are from being decided after `n` more cycles. -/
def Ahead (inputs : List RxPins) (n : ℕ) (consumed ahead : List RxSlot) (st : Protocol) : Prop :=
  ahead = [] ∧ publishedPackets inputs <+: consumed ∨
    publishedPackets inputs = consumed ++ ahead ∧
      slotsCost ahead + st.buildCost + n ≤ 236 + st.parseCredit

theorem ahead_run (inputs more : List RxPins) :
    ∃ consumed ahead later, Decided consumed (ahead ++ later) (inputs ++ more) ∧
      Ahead inputs more.length consumed ahead (runFrom (inputs ++ more)).proto := by
  induction more using List.reverseRecOn with
  | nil =>
    obtain ⟨consumed, waiting, h⟩ := decided_run inputs
    have hbound := h.backlog.bound
    refine ⟨consumed, waiting, [], by simpa using h, Or.inr ⟨h.published, ?_⟩⟩
    simp only [List.append_nil, List.length_nil]
    omega
  | append_singleton more i ih =>
    obtain ⟨consumed, ahead, later, h, hahead⟩ := ih
    obtain ⟨eaten, rest, h', hsplit, hfew, hwork⟩ := h.step i
    rw [List.append_assoc] at h' hwork
    rcases hahead with ⟨rfl, hinit⟩ | ⟨hpub, hcost⟩
    · exact ⟨consumed ++ eaten, [], rest, h', Or.inl ⟨rfl, hinit.trans (List.prefix_append _ _)⟩⟩
    · cases ahead with
      | nil =>
        refine ⟨consumed ++ eaten, [], rest, h', Or.inl ⟨rfl, ?_⟩⟩
        rw [hpub, List.append_nil]
        exact List.prefix_append _ _
      | cons slot ahead =>
        have hstep := hwork.busy (Or.inl (by simp))
        rw [slotsCost_cons] at hcost
        rw [List.append_assoc, List.cons_append] at hsplit
        rw [List.length_append, List.length_singleton]
        cases eaten with
        | nil =>
          rw [List.append_nil, ← List.nil_append rest, ← hsplit, ← List.cons_append] at h'
          refine ⟨consumed, slot :: ahead, _, h', Or.inr ⟨hpub, ?_⟩⟩
          rw [slotsCost_nil] at hstep
          rw [slotsCost_cons]
          omega
        | cons first eaten =>
          have hnil : eaten = [] := by simpa using hfew
          subst hnil
          obtain ⟨rfl, hrest⟩ := List.cons.inj hsplit
          change _ = rest at hrest
          rw [← hrest] at h'
          refine ⟨consumed ++ [slot], ahead, _, h', Or.inr ⟨by rw [hpub]; simp, ?_⟩⟩
          rw [slotsCost_cons, slotsCost_nil] at hstep
          omega

/-- A published packet is decided within 200 cycles, whatever arrives meanwhile. -/
theorem decided_within (inputs more : List RxPins) (hmore : 200 ≤ more.length) :
    ∃ consumed waiting, Decided consumed waiting (inputs ++ more) ∧
      publishedPackets inputs <+: consumed := by
  obtain ⟨consumed, ahead, later, h, hahead⟩ := ahead_run inputs more
  refine ⟨consumed, ahead ++ later, h, ?_⟩
  rcases hahead with ⟨-, hinit⟩ | ⟨hpub, hcost⟩
  · exact hinit
  · have hcredit := h.rx.parseCredit_le
    cases ahead with
    | nil => simp [hpub]
    | cons slot ahead =>
      have hmin := (slotCost_bounds slot).1
      rw [slotsCost_cons] at hcost
      by_cases hzero : (runFrom (inputs ++ more)).proto.parseCredit = 0
      · omega
      · obtain ⟨first, rest, hhead, hslot⟩ := hcredit.2 hzero
        rw [List.cons_append] at hhead
        rw [(List.cons.inj hhead).1] at hcost
        omega

theorem Decided.consumed_eq {consumed' waiting' : List RxSlot} {inputs : List RxPins}
    (h : Decided consumed waiting inputs) (h' : Decided consumed' waiting' inputs) :
    consumed = consumed' := by
  have hlen : waiting.length = waiting'.length := by
    rw [← h.rx.stage.ring.validCount_eq, ← h'.rx.stage.ring.validCount_eq]
  exact (List.append_inj' (h.published.symm.trans h'.published) hlen).1

theorem rxPending_nil_iff {s : Endpoint} {cur : List RxPins}
    (h : RxAt consumed waiting cur s) : cur = [] ↔ s.capture.mii.rxInFrame = false := by
  rw [h.stage.burst.inFrame, Bool.not_eq_false', List.isEmpty_iff]

theorem published_of_completed {inputs : List RxPins} {i : RxPins} {packet : Option Packet}
    (h : completedPacket (rxPending inputs) i = packet) :
    ((runFrom inputs).rxPublished i).map slotPacket = packet := by
  obtain ⟨consumed, waiting, hd⟩ := decided_run inputs
  rw [← h]
  exact hd.rx.stage.published_eq hd.backlog.noDrop

theorem published_none {inputs : List RxPins} {i : RxPins}
    (h : i.ethRxDv = true ∨ rxPending inputs = []) : (runFrom inputs).rxPublished i = none := by
  exact Option.map_eq_none_iff.mp (published_of_completed (completedPacket_none h))

/-- No burst is lost: the published packets are the packets of the bursts that have ended. -/
theorem map_slotPacket_publishedPackets (inputs : List RxPins) :
    (publishedPackets inputs).map slotPacket = (rxBursts inputs).filterMap burstPacket := by
  induction inputs using List.reverseRecOn with
  | nil => rfl
  | append_singleton inputs i ih =>
    have hpub : ((runFrom inputs).rxPublished i).map slotPacket =
        completedPacket (rxPending inputs) i := published_of_completed rfl
    rw [publishedPackets_snoc, List.map_append, ih, filterMap_rxBursts_snoc, ← hpub]
    cases (runFrom inputs).rxPublished i <;> rfl

end ArtyEthernet
