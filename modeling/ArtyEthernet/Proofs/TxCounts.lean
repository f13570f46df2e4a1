import ArtyEthernet.Proofs.TxRuns

/-!
# Requests and counters

Every request handed over is accepted or refused. The drop counter of the transmit ring counts the
refused ones, the uptime counter the accepted beacons, and an accepted request is published or
still being prepared.
-/

namespace ArtyEthernet
open Words

def ProtocolTxRequest.isBeacon (r : ProtocolTxRequest) : Bool := r.kind == .beacon

/-- The request refused in this cycle: no transmit slot was free. -/
def Endpoint.refused (s : Endpoint) (i : RxPins) : Option ProtocolTxRequest :=
  if packetQueueWriteSlotAvailable s.txQueue then none else s.handed i

/-- The packet whose last byte is written in this cycle, which publishes its slot. -/
def Endpoint.txPublished (s : Endpoint) (i : RxPins) : Option TxPacketMeta :=
  let stage := protocolSelectStep s.proto (s.rxStage i).2 s.txQueue
  if stage.st.preparingPayload && (prepareTxSlotFrameBodyStep
      (stage.txQueue.bytes stage.st.prepareTxIdx) stage.st.prepareRequest
      stage.st.prepareIndex).2 then
    some ⟨stage.st.prepareRequest.len⟩
  else none

def refusedRequests (inputs : List RxPins) : List ProtocolTxRequest :=
  Synchronous.events Endpoint.step Endpoint.refused .reset inputs

def txPublishedPackets (inputs : List RxPins) : List TxPacketMeta :=
  Synchronous.events Endpoint.step Endpoint.txPublished .reset inputs

@[simp] theorem refusedRequests_snoc (inputs : List RxPins) (i : RxPins) :
    refusedRequests (inputs ++ [i]) =
      refusedRequests inputs ++ ((runFrom inputs).refused i).toList :=
  Synchronous.events_snoc Endpoint.refused .reset inputs i

@[simp] theorem txPublishedPackets_snoc (inputs : List RxPins) (i : RxPins) :
    txPublishedPackets (inputs ++ [i]) =
      txPublishedPackets inputs ++ ((runFrom inputs).txPublished i).toList :=
  Synchronous.events_snoc Endpoint.txPublished .reset inputs i

theorem Endpoint.handed_split (s : Endpoint) (i : RxPins) :
    (s.handed i).toList = (s.accepted i).toList ++ (s.refused i).toList := by
  unfold Endpoint.accepted Endpoint.refused
  split_ifs <;> simp

theorem countP_handedRequests (p : ProtocolTxRequest → Bool) (inputs : List RxPins) :
    (handedRequests inputs).countP p =
      (acceptedRequests inputs).countP p + (refusedRequests inputs).countP p := by
  induction inputs using List.reverseRecOn with
  | nil => rfl
  | append_singleton inputs i ih =>
    rw [handedRequests_snoc, acceptedRequests_snoc, refusedRequests_snoc, List.countP_append,
      List.countP_append, List.countP_append, ih, Endpoint.handed_split, List.countP_append]
    omega

theorem length_handedRequests (inputs : List RxPins) :
    (handedRequests inputs).length =
      (acceptedRequests inputs).length + (refusedRequests inputs).length := by
  have h := countP_handedRequests (fun _ => true) inputs
  simpa using h

/-- The three requests the handler offers. -/
inductive ProtocolTxRequest.Offered : ProtocolTxRequest → Prop where
  | gratuitousArp : Offered protocolTxGratuitousArpRequest
  | beacon (st : Protocol) (rxQueue : RxPacketQueue) (txQueue : TxPacketQueue) :
      Offered (beaconSnapshot st rxQueue txQueue)
  | arpReply (mac : BitVec 48) (ip : BitVec 32) : Offered (arpReplyRequest mac ip)

theorem protocolSelectStep_offered (st : Protocol) (rxQueue : RxPacketQueue)
    (txQueue : TxPacketQueue) {r : ProtocolTxRequest}
    (hr : (protocolSelectStep st rxQueue txQueue).handed = some r) : r.Offered := by
  have hmove := protocolSelectStep_move st rxQueue txQueue
  generalize protocolSelectStep st rxQueue txQueue = stage at hmove hr
  cases hmove with
  | announce =>
    rw [← Option.some.inj hr]
    exact .gratuitousArp
  | beacon =>
    rw [← Option.some.inj hr]
    exact .beacon st rxQueue txQueue
  | reply =>
    rw [← Option.some.inj hr]
    exact .arpReply _ _
  | _ => simp at hr

theorem Endpoint.handed_of_accepted {s : Endpoint} {i : RxPins} {r : ProtocolTxRequest}
    (hr : s.accepted i = some r) : s.handed i = some r := by
  unfold Endpoint.accepted at hr
  split_ifs at hr
  exact hr

theorem offered_of_accepted (inputs : List RxPins) :
    ∀ r ∈ acceptedRequests inputs, r.Offered := by
  induction inputs using List.reverseRecOn with
  | nil => simp [acceptedRequests]
  | append_singleton inputs i ih =>
    intro r hr
    rw [acceptedRequests_snoc, List.mem_append, Option.mem_toList] at hr
    rcases hr with hr | hr
    · exact ih r hr
    · exact protocolSelectStep_offered _ _ _ (Endpoint.handed_of_accepted hr)

theorem offeredRing_dropCount (txQueue : TxPacketQueue) :
    (offeredRing txQueue).dropCount =
      if packetQueueWriteSlotAvailable txQueue then txQueue.dropCount
      else txQueue.dropCount + 1 := by
  unfold offeredRing
  split_ifs <;> rfl

theorem protocolSelectStep_dropCount (st : Protocol) (rxQueue : RxPacketQueue)
    (txQueue : TxPacketQueue) :
    (protocolSelectStep st rxQueue txQueue).txQueue.dropCount =
      if (protocolSelectStep st rxQueue txQueue).handed.isSome then
        (offeredRing txQueue).dropCount
      else txQueue.dropCount := by
  have hmove := protocolSelectStep_move st rxQueue txQueue
  generalize protocolSelectStep st rxQueue txQueue = stage at hmove ⊢
  cases hmove <;> rfl

theorem TxRingAt.prepare_dropCount {st : Protocol} {txQueue : TxPacketQueue}
    {held : List ProtocolTxRequest} (h : TxRingAt st txQueue held) :
    (protocolPrepareStep st txQueue).2.dropCount = txQueue.dropCount := by
  cases hprep : st.preparingPayload with
  | false => rw [protocolPrepareStep_off st txQueue hprep]
  | true =>
    have hb := h.building hprep
    have hidx := hb.index
    by_cases hlast : st.prepareIndex.toNat + 1 = st.prepareRequest.len.toNat
    · have hfree : (st.builtRing txQueue).valid (st.builtRing txQueue).writeIdx = false := hb.free
      rw [protocolPrepareStep_last st txQueue hprep hlast, packetQueuePublishWriteSlot, hfree]
      rfl
    · rw [protocolPrepareStep_more st txQueue hprep (by omega)]
      rfl

variable {sent held : List ProtocolTxRequest} {pins : List TxPins} {left : ℕ} {s : Endpoint}

theorem TxAt.dropCount_step (h : TxAt sent held pins left s) (i : RxPins) :
    (s.step i).txQueue.dropCount =
      s.txQueue.dropCount + BitVec.ofNat 32 (s.refused i).toList.length := by
  have hdrain : (s.step i).txQueue.dropCount = (s.protoStage i).txQueue.dropCount := by
    change (s.txStage i).2.1.dropCount = _
    cases h.drainMove i with
    | keep ring => rw [ring]
    | consume request rest _ ring =>
      rw [ring]
      rfl
  have hselect := (h.ring.select (s.rxStage i).2).1.prepare_dropCount
  have hhanded : s.handed i = (protocolSelectStep s.proto (s.rxStage i).2 s.txQueue).handed := rfl
  rw [hdrain]
  refine hselect.trans ?_
  rw [protocolSelectStep_dropCount, ← hhanded, offeredRing_dropCount, Endpoint.refused]
  cases s.handed i <;> cases packetQueueWriteSlotAvailable s.txQueue <;> simp

theorem txDropCount_run (inputs : List RxPins) :
    (runFrom inputs).txQueue.dropCount = BitVec.ofNat 32 (refusedRequests inputs).length := by
  induction inputs using List.reverseRecOn with
  | nil => rfl
  | append_singleton inputs i ih =>
    obtain ⟨sent, held, left, h, -⟩ := txAt_run inputs
    rw [runFrom_snoc, h.dropCount_step, ih, refusedRequests_snoc, List.length_append,
      BitVec.ofNat_add]

theorem prepareTxSlotFrameBodyStep_done {buf : Buffer txFrameBodyBytesInt}
    {request : ProtocolTxRequest} {index : BitVec 11} (h : index.toNat < request.len.toNat) :
    (prepareTxSlotFrameBodyStep buf request index).2 =
      decide (index.toNat + 1 = request.len.toNat) := by
  have hlen : request.len ≠ 0 := by
    intro h0
    simp [h0] at h
  have hlast : index = request.len - 1 ↔ index.toNat + 1 = request.len.toNat := by
    rw [← BitVec.toNat_inj, BitVec.toNat_sub_of_le (by rw [BitVec.le_def]; simp; omega)]
    simp
    omega
  simp only [prepareTxSlotFrameBodyStep, beq_eq_false_iff_ne.mpr hlen, Bool.false_or]
  rw [Bool.eq_iff_iff, beq_iff_eq, decide_eq_true_iff]
  exact hlast

theorem TxAt.txPublished_eq (h : TxAt sent held pins left s) (i : RxPins) :
    (s.txPublished i).toList = (s.finished i).map fun r => ⟨r.len⟩ := by
  have hring := (h.ring.select (s.rxStage i).2).1
  simp only [Endpoint.txPublished, Endpoint.finished, Protocol.finishing]
  generalize protocolSelectStep s.proto (s.rxStage i).2 s.txQueue = stage at hring ⊢
  cases hprep : stage.st.preparingPayload with
  | false => simp
  | true =>
    rw [prepareTxSlotFrameBodyStep_done (hring.building hprep).index]
    by_cases hlast : stage.st.prepareIndex.toNat + 1 = stage.st.prepareRequest.len.toNat <;>
      simp [hlast]

/-- Every accepted request is published or being prepared. -/
theorem length_acceptedRequests (inputs : List RxPins) :
    (acceptedRequests inputs).length =
      (txPublishedPackets inputs).length + (runFrom inputs).proto.building.length := by
  induction inputs using List.reverseRecOn with
  | nil => rfl
  | append_singleton inputs i ih =>
    obtain ⟨sent, held, left, h, -⟩ := txAt_run inputs
    have hbuild := congrArg List.length (h.ring_proto i).2
    have hpub := congrArg List.length (h.txPublished_eq i)
    rw [List.length_append, List.length_append] at hbuild
    rw [List.length_map] at hpub
    rw [acceptedRequests_snoc, txPublishedPackets_snoc, runFrom_snoc, List.length_append,
      List.length_append, ih, hpub]
    change _ = _ + ((runFrom inputs).protoStage i).st.building.length
    omega

/-- A beacon is handed over between packets and shows the counters of that moment. -/
theorem protocolSelectStep_beacon (st : Protocol) (rxQueue : RxPacketQueue)
    (txQueue : TxPacketQueue) {r : ProtocolTxRequest}
    (hr : (protocolSelectStep st rxQueue txQueue).handed = some r) (hkind : r.isBeacon = true) :
    r = beaconSnapshot st rxQueue txQueue ∧ st.protocolState = .protoIdle := by
  have hmove := protocolSelectStep_move st rxQueue txQueue
  generalize protocolSelectStep st rxQueue txQueue = stage at hmove hr
  cases hmove with
  | beacon hprep hstate => exact ⟨(Option.some.inj hr).symm, hstate⟩
  | announce =>
    rw [← Option.some.inj hr] at hkind
    simp [ProtocolTxRequest.isBeacon, protocolTxGratuitousArpRequest] at hkind
  | reply =>
    rw [← Option.some.inj hr] at hkind
    simp [ProtocolTxRequest.isBeacon, Protocol.reply, arpReplyRequest] at hkind
  | _ => simp at hr

theorem protocolSelectStep_uptime (st : Protocol) (rxQueue : RxPacketQueue)
    (txQueue : TxPacketQueue) :
    (protocolSelectStep st rxQueue txQueue).st.uptimeBeaconCount =
      st.uptimeBeaconCount + BitVec.ofNat 32 ((takenRequest txQueue
        (protocolSelectStep st rxQueue txQueue).handed).toList.countP
          ProtocolTxRequest.isBeacon) := by
  have hmove := protocolSelectStep_move st rxQueue txQueue
  generalize protocolSelectStep st rxQueue txQueue = stage at hmove ⊢
  cases hmove with
  | beacon =>
    have hkind : (beaconSnapshot st rxQueue txQueue).isBeacon = true := rfl
    cases hfree : packetQueueWriteSlotAvailable txQueue <;> simp [takenRequest, hfree, hkind]
  | announce =>
    have hkind : protocolTxGratuitousArpRequest.isBeacon = false := rfl
    simp only [takenRequest]
    split_ifs <;> simp [hkind, Protocol.offer, Protocol.ticked]
  | reply =>
    have hkind : (st.reply rxQueue).isBeacon = false := rfl
    simp only [takenRequest]
    split_ifs <;> simp [hkind, Protocol.offer, Protocol.ticked]
  | _ => simp [takenRequest, Protocol.ticked]

theorem Endpoint.uptime_step (s : Endpoint) (i : RxPins) :
    (s.step i).proto.uptimeBeaconCount = s.proto.uptimeBeaconCount +
      BitVec.ofNat 32 ((s.accepted i).toList.countP ProtocolTxRequest.isBeacon) := by
  obtain ⟨preparing, request, index, hst, -⟩ :=
    protocolPrepareStep_fst (protocolSelectStep s.proto (s.rxStage i).2 s.txQueue).st
      (protocolSelectStep s.proto (s.rxStage i).2 s.txQueue).txQueue
  have hsame : (s.step i).proto.uptimeBeaconCount =
      (protocolSelectStep s.proto (s.rxStage i).2 s.txQueue).st.uptimeBeaconCount := by
    change (protocolPrepareStep _ _).1.uptimeBeaconCount = _
    rw [hst]
  rw [hsame, protocolSelectStep_uptime]
  rfl

theorem uptimeBeaconCount_run (inputs : List RxPins) :
    (runFrom inputs).proto.uptimeBeaconCount =
      BitVec.ofNat 32 ((acceptedRequests inputs).countP ProtocolTxRequest.isBeacon) := by
  induction inputs using List.reverseRecOn with
  | nil => rfl
  | append_singleton inputs i ih =>
    rw [runFrom_snoc, Endpoint.uptime_step, ih, acceptedRequests_snoc, List.countP_append,
      BitVec.ofNat_add]

theorem Endpoint.accepted_beacon {s : Endpoint} {i : RxPins} {r : ProtocolTxRequest}
    (hr : s.accepted i = some r) (hkind : r.isBeacon = true) :
    r = beaconSnapshot s.proto (s.rxStage i).2 s.txQueue ∧ s.proto.protocolState = .protoIdle := by
  exact protocolSelectStep_beacon s.proto (s.rxStage i).2 s.txQueue
    (Endpoint.handed_of_accepted hr) hkind

/-- The `UP` fields of the accepted beacons count up from zero. -/
theorem uptimes_run (inputs : List RxPins) :
    ((acceptedRequests inputs).filter ProtocolTxRequest.isBeacon).map
        ProtocolTxRequest.uptimeBeaconCount =
      (List.range ((acceptedRequests inputs).countP ProtocolTxRequest.isBeacon)).map
        (BitVec.ofNat 32) := by
  induction inputs using List.reverseRecOn with
  | nil => rfl
  | append_singleton inputs i ih =>
    rw [acceptedRequests_snoc, List.filter_append, List.map_append, List.countP_append, ih]
    cases hr : (runFrom inputs).accepted i with
    | none => simp
    | some r =>
      cases hkind : r.isBeacon with
      | false => simp [hkind]
      | true =>
        obtain ⟨rfl, -⟩ := Endpoint.accepted_beacon hr hkind
        have huptime : (beaconSnapshot (runFrom inputs).proto ((runFrom inputs).rxStage i).2
            (runFrom inputs).txQueue).uptimeBeaconCount =
              (runFrom inputs).proto.uptimeBeaconCount := rfl
        simp [hkind, List.range_succ, huptime, uptimeBeaconCount_run]

end ArtyEthernet
