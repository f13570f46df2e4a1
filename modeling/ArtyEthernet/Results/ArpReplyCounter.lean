import ArtyEthernet.Proofs.Backlog
import ArtyEthernet.Proofs.TxCounts

/-!
# The ARP reply counter

`arp_reply_count` is raised before the reply is offered to the transmit ring. It counts the
accepted replies exactly as long as no reply meets a full ring.
-/

namespace ArtyEthernet
open Words

/-- The replies that found a transmit slot, in order. -/
def acceptedReplies (inputs : List RxPins) : List ProtocolTxRequest :=
  (acceptedRequests inputs).filter ProtocolTxRequest.isArpReply

/-- The counter, and with it the `ARP` field of a beacon accepted next, counts the replies
accepted so far. -/
structure CountsReplies (inputs : List RxPins) : Prop where
  counter : (runFrom inputs).proto.arpReplyCount = BitVec.ofNat 32 (acceptedReplies inputs).length
  beacon : ∀ i r, (runFrom inputs).accepted i = some r → r.isBeacon = true →
    r.arpReplyCount = BitVec.ofNat 32 (acceptedReplies inputs).length

/-- The parse of a valid request ends in this cycle while the transmit ring is full. -/
structure Endpoint.RefusesReply (s : Endpoint) (i : RxPins) : Prop where
  notPreparing : s.proto.preparingPayload = false
  parsing : s.proto.protocolState = .protoParseArp
  lastByte : s.proto.parseIndex = 27
  arpValid : (s.proto.parsed (s.rxStage i).2).arpValid = true
  full : packetQueueWriteSlotAvailable s.txQueue = false

theorem protocolSelectStep_reply_iff (st : Protocol) (rxQueue : RxPacketQueue)
    (txQueue : TxPacketQueue) :
    (protocolSelectStep st rxQueue txQueue).handed.toList.countP ProtocolTxRequest.isArpReply =
      if st.preparingPayload = false ∧ st.protocolState = .protoParseArp ∧ st.parseIndex = 27 ∧
        (st.parsed rxQueue).arpValid = true then 1 else 0 := by
  have hmove := protocolSelectStep_move st rxQueue txQueue
  generalize protocolSelectStep st rxQueue txQueue = stage at hmove ⊢
  cases hmove with
  | busy hprep => simp [hprep]
  | parked hprep hstate => simp [hstate]
  | quiet hprep hstate => simp [hstate]
  | drop hprep hstate => simp [hstate]
  | beginParse hprep hstate => simp [hstate]
  | announce hprep hstate =>
    have hkind : protocolTxGratuitousArpRequest.isArpReply = false := rfl
    simp [hstate, hkind]
  | beacon hprep hstate =>
    have hkind : (beaconSnapshot st rxQueue txQueue).isArpReply = false := rfl
    simp [hstate, hkind]
  | readByte hprep hstate hmore =>
    rw [if_neg (by rintro ⟨-, -, h, -⟩; exact hmore h)]
    rfl
  | reject hprep hstate hlast hbad => simp [hbad]
  | reply hprep hstate hlast hgood =>
    have hkind : (st.reply rxQueue).isArpReply = true := rfl
    rw [if_pos ⟨hprep, hstate, hlast, hgood⟩]
    simp [hkind]

theorem Endpoint.countP_refused (s : Endpoint) (i : RxPins) :
    (s.RefusesReply i → (s.refused i).toList.countP ProtocolTxRequest.isArpReply = 1) ∧
      (¬ s.RefusesReply i → (s.refused i).toList.countP ProtocolTxRequest.isArpReply = 0) := by
  have hreply := protocolSelectStep_reply_iff s.proto (s.rxStage i).2 s.txQueue
  change (s.handed i).toList.countP _ = _ at hreply
  unfold Endpoint.refused
  constructor
  · rintro ⟨hprep, hstate, hlast, hgood, hfull⟩
    rw [if_pos ⟨hprep, hstate, hlast, hgood⟩] at hreply
    rw [hfull, if_neg Bool.false_ne_true, hreply]
  · intro hnot
    cases hfull : packetQueueWriteSlotAvailable s.txQueue with
    | true => rfl
    | false =>
      rw [if_neg Bool.false_ne_true, hreply, if_neg]
      rintro ⟨hprep, hstate, hlast, hgood⟩
      exact hnot ⟨hprep, hstate, hlast, hgood, hfull⟩

theorem arpReplyCount_run (inputs : List RxPins) :
    (runFrom inputs).proto.arpReplyCount = BitVec.ofNat 32 (acceptedReplies inputs).length +
      BitVec.ofNat 32 ((refusedRequests inputs).countP ProtocolTxRequest.isArpReply) := by
  obtain ⟨consumed, waiting, h⟩ := decided_run inputs
  have hlen := congrArg List.length h.replies
  rw [← List.countP_eq_length_filter, countP_handedRequests, arpReplies, List.length_map] at hlen
  rw [h.rx.handler.arpReplyCount, ← hlen, BitVec.ofNat_add, acceptedReplies,
    List.countP_eq_length_filter]

theorem countsReplies_iff (inputs : List RxPins) :
    CountsReplies inputs ↔
      BitVec.ofNat 32 ((refusedRequests inputs).countP ProtocolTxRequest.isArpReply) = 0#32 := by
  have hcount := arpReplyCount_run inputs
  constructor
  · intro h
    rw [h.counter] at hcount
    simpa using hcount
  · intro hzero
    rw [hzero, BitVec.add_zero] at hcount
    refine ⟨hcount, fun i r hr hkind => ?_⟩
    obtain ⟨rfl, -⟩ := Endpoint.accepted_beacon hr hkind
    exact hcount

theorem countP_refusedRequests (inputs : List RxPins)
    (hnone : ∀ history i, history ++ [i] <+: inputs → ¬ (runFrom history).RefusesReply i) :
    (refusedRequests inputs).countP ProtocolTxRequest.isArpReply = 0 := by
  induction inputs using List.reverseRecOn with
  | nil => rfl
  | append_singleton inputs i ih =>
    have hhistory := ih fun history j hj =>
      hnone history j (hj.trans (List.prefix_append inputs [i]))
    have hlast := ((runFrom inputs).countP_refused i).2 (hnone inputs i (List.prefix_refl _))
    rw [refusedRequests_snoc, List.countP_append, hhistory, hlast]

/-- The counter counts accepted replies throughout a run exactly when no reply of the run meets
a full ring. -/
theorem arp_reply_counter_exact (inputs : List RxPins) :
    (∀ history, history <+: inputs → CountsReplies history) ↔
      ∀ history i, history ++ [i] <+: inputs → ¬ (runFrom history).RefusesReply i := by
  constructor
  · intro hcounts history i hrun hrefuses
    have hbefore := (countsReplies_iff history).mp
      (hcounts history ((List.prefix_append history [i]).trans hrun))
    have hafter := (countsReplies_iff (history ++ [i])).mp (hcounts _ hrun)
    rw [refusedRequests_snoc, List.countP_append, BitVec.ofNat_add, hbefore,
      ((runFrom history).countP_refused i).1 hrefuses] at hafter
    exact absurd hafter (by decide)
  · intro hnone history hrun
    rw [countsReplies_iff, countP_refusedRequests history fun earlier i hi =>
      hnone earlier i (hi.trans hrun)]

/-- Eight requests for the endpoint without preamble, each followed by one idle cycle, and the
28 cycles in which the last one is parsed. -/
def arpFlood : List RxPins :=
  let request := toBytes 6 broadcastMac ++ toBytes 6 0x020000000002#48 ++
    toBytes 2 arpEthertype ++ arpRequestPrefix ++ toBytes 6 0x020000000002#48 ++
    toBytes 4 0xC0A80101#32 ++ toBytes 6 0#48 ++ toBytes 4 fpgaIp ++ toBytes 4 0#32
  let burst := (toNibbles request).map (fun d => ⟨true, d, false⟩) ++ [⟨false, 0, false⟩]
  (List.replicate 8 burst).flatten ++ List.replicate 28 ⟨false, 0, false⟩

set_option maxRecDepth 100000 in
/-- The eighth reply meets a full ring and is counted all the same. -/
theorem arp_flood_overcounts : ¬ CountsReplies arpFlood := by
  intro h
  have hcount : (runFrom arpFlood).proto.arpReplyCount = 8#32 := by decide +kernel
  have haccepted : (acceptedReplies arpFlood).length = 7 := by decide +kernel
  have hequal := h.counter
  rw [hcount, haccepted] at hequal
  exact absurd hequal (by decide)

end ArtyEthernet
