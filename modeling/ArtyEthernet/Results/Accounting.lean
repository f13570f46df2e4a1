import ArtyEthernet.Proofs.Backlog
import ArtyEthernet.Proofs.TxCounts
import ArtyEthernet.Results.WireFrames

/-!
# Packet accounting

The counters of the endpoint against the events they count, and what the beacons on the wire show
of them.
-/

namespace ArtyEthernet
open Words

/-- The valid receive slots the handler has not looked at yet. -/
def Endpoint.unexamined (s : Endpoint) : ℕ := s.rxQueue.validCount - s.proto.examining

/-- A complete frame of the beacon EtherType. -/
def isBeaconFrame (frame : List Byte) : Bool :=
  (frame.drop 20).take 2 == toBytes 2 diagnosticBeaconEthertype

def shownDigits (offset : ℕ) (frame : List Byte) : List Byte := (frame.drop (22 + offset)).take 8

/-- The balances of a run. -/
structure Accounts (inputs : List RxPins) : Prop where
  packets : (runFrom inputs).proto.rxPacketCount =
    (runFrom inputs).proto.rxProtocolDropCount + (runFrom inputs).proto.arpReplyCount +
      BitVec.ofNat 32 (runFrom inputs).proto.examining
  published : BitVec.ofNat 32 (publishedPackets inputs).length =
    (runFrom inputs).proto.rxPacketCount + BitVec.ofNat 32 (runFrom inputs).unexamined
  requests : BitVec.ofNat 32 (handedRequests inputs).length =
    BitVec.ofNat 32 (txPublishedPackets inputs).length + (runFrom inputs).txQueue.dropCount +
      BitVec.ofNat 32 (runFrom inputs).proto.preparingPayload.toNat
  /-- Every beacon on the wire shows `RX = RXP + ARP`. -/
  balance : ∀ frame ∈ emittedFrames inputs, isBeaconFrame frame = true →
    ∃ rx rxp arp : BitVec 32, shownDigits 44 frame = hexText 8 rx ∧
      shownDigits 70 frame = hexText 8 rxp ∧ shownDigits 96 frame = hexText 8 arp ∧
      rx = rxp + arp
  /-- The `UP` fields of the beacons on the wire count up from zero. -/
  uptimes : ((emittedFrames inputs).filter isBeaconFrame).map (shownDigits 121) =
    (List.range ((emittedFrames inputs).countP isBeaconFrame)).map fun k =>
      hexText 8 (BitVec.ofNat 32 k)

theorem length_eq_verdicts (slots : List RxSlot) :
    slots.length = slots.countP (fun slot => (slotRequester slot).isNone) +
      (slots.filterMap slotRequester).length := by
  induction slots with
  | nil => rfl
  | cons slot slots ih =>
    rw [List.length_cons, ih]
    cases hv : slotRequester slot <;> simp [hv] <;> omega

theorem HandlerAt.balance {consumed waiting : List RxSlot} {st : Protocol}
    {rxQueue : RxPacketQueue} (h : HandlerAt consumed waiting st rxQueue) :
    st.rxPacketCount =
      st.rxProtocolDropCount + st.arpReplyCount + BitVec.ofNat 32 st.examining := by
  rw [h.rxPacketCount, h.rxProtocolDropCount, h.arpReplyCount, ← BitVec.ofNat_add,
    ← BitVec.ofNat_add, ← length_eq_verdicts]

theorem HandlerAt.examining_le {consumed waiting : List RxSlot} {st : Protocol}
    {rxQueue : RxPacketQueue} (h : HandlerAt consumed waiting st rxQueue) :
    st.examining ≤ waiting.length := by
  unfold Protocol.examining
  split_ifs with hstate
  · obtain ⟨slot, rest, rfl, -⟩ := h.parsing hstate
    simp
  · exact Nat.zero_le _

theorem packetBalance_run (inputs : List RxPins) :
    (runFrom inputs).proto.rxPacketCount =
      (runFrom inputs).proto.rxProtocolDropCount + (runFrom inputs).proto.arpReplyCount +
        BitVec.ofNat 32 (runFrom inputs).proto.examining := by
  obtain ⟨consumed, waiting, h⟩ := decided_run inputs
  exact h.rx.handler.balance

theorem publishedBalance_run (inputs : List RxPins) :
    BitVec.ofNat 32 (publishedPackets inputs).length =
      (runFrom inputs).proto.rxPacketCount + BitVec.ofNat 32 (runFrom inputs).unexamined := by
  obtain ⟨consumed, waiting, h⟩ := decided_run inputs
  have hle := h.rx.handler.examining_le
  rw [Endpoint.unexamined, h.rx.stage.ring.validCount_eq, h.rx.handler.rxPacketCount, h.published,
    List.length_append, ← BitVec.ofNat_add]
  congr 1
  omega

theorem requestBalance_run (inputs : List RxPins) :
    BitVec.ofNat 32 (handedRequests inputs).length =
      BitVec.ofNat 32 (txPublishedPackets inputs).length + (runFrom inputs).txQueue.dropCount +
        BitVec.ofNat 32 (runFrom inputs).proto.preparingPayload.toNat := by
  have hbuilding : (runFrom inputs).proto.building.length =
      (runFrom inputs).proto.preparingPayload.toNat := by
    unfold Protocol.building
    cases (runFrom inputs).proto.preparingPayload <;> rfl
  rw [txDropCount_run, ← BitVec.ofNat_add, ← BitVec.ofNat_add, length_handedRequests,
    length_acceptedRequests, hbuilding]
  congr 1
  omega

theorem balance_accepted (inputs : List RxPins) :
    ∀ r ∈ acceptedRequests inputs, r.isBeacon = true →
      r.rxPacketCount = r.rxProtocolDropCount + r.arpReplyCount := by
  induction inputs using List.reverseRecOn with
  | nil => simp [acceptedRequests]
  | append_singleton inputs i ih =>
    intro r hr hkind
    rw [acceptedRequests_snoc, List.mem_append, Option.mem_toList] at hr
    rcases hr with hr | hr
    · exact ih r hr hkind
    · obtain ⟨rfl, hidle⟩ := Endpoint.accepted_beacon hr hkind
      have hbalance := packetBalance_run inputs
      rw [Protocol.examining, if_neg (by simp [hidle]), BitVec.add_zero] at hbalance
      exact hbalance

theorem wireFrame_split (r : ProtocolTxRequest) :
    ∃ tail, r.wireFrame =
      List.replicate 7 0x55#8 ++ 0xd5#8 :: (r.header.toBytes ++ (r.payload ++ tail)) := by
  refine ⟨List.replicate (minBody - r.frameBody.length) 0#8 ++ fcsBytes (padBody r.frameBody), ?_⟩
  simp [ProtocolTxRequest.wireFrame, wireBytes, padBody, ProtocolTxRequest.frameBody]

theorem wireFrame_ethertype (r : ProtocolTxRequest) :
    (r.wireFrame.drop 20).take 2 = toBytes 2 r.header.ethertype := by
  obtain ⟨tail, hsplit⟩ := wireFrame_split r
  rw [hsplit]
  generalize r.payload ++ tail = rest
  rfl

theorem shownDigits_wireFrame (r : ProtocolTxRequest) :
    ∃ tail, ∀ offset, shownDigits offset r.wireFrame =
      ((r.payload ++ tail).drop offset).take 8 := by
  obtain ⟨tail, hsplit⟩ := wireFrame_split r
  have hdrop : r.wireFrame.drop 22 = r.payload ++ tail := by
    rw [hsplit]
    generalize r.payload ++ tail = rest
    rfl
  refine ⟨tail, fun offset => ?_⟩
  rw [shownDigits, ← List.drop_drop, hdrop]

theorem isBeaconFrame_wireFrame {r : ProtocolTxRequest} (hr : r.Offered) :
    isBeaconFrame r.wireFrame = r.isBeacon := by
  have harp : (toBytes 2 arpEthertype == toBytes 2 diagnosticBeaconEthertype) = false := by decide
  rw [isBeaconFrame, wireFrame_ethertype]
  cases hr with
  | gratuitousArp => exact harp
  | beacon => exact beq_self_eq_true (toBytes 2 diagnosticBeaconEthertype)
  | arpReply => exact harp

theorem wireFrame_counters {r : ProtocolTxRequest} (hkind : r.isBeacon = true) :
    shownDigits 44 r.wireFrame = hexText 8 r.rxPacketCount ∧
      shownDigits 70 r.wireFrame = hexText 8 r.rxProtocolDropCount ∧
      shownDigits 96 r.wireFrame = hexText 8 r.arpReplyCount ∧
      shownDigits 121 r.wireFrame = hexText 8 r.uptimeBeaconCount := by
  have hbeacon : r.kind = .beacon := by simpa [ProtocolTxRequest.isBeacon] using hkind
  obtain ⟨tail, hshown⟩ := shownDigits_wireFrame r
  -- nested to the right, a field is reached by dropping what stands before it
  simp only [hshown, payload_of_beacon hbeacon, beaconText, List.append_assoc]
  exact ⟨rfl, rfl, rfl, rfl⟩

theorem emittedFrames_accepted (inputs : List RxPins) :
    ∃ emitted, emitted <+: acceptedRequests inputs ∧
      emittedFrames inputs = emitted.map ProtocolTxRequest.wireFrame := by
  obtain ⟨sent, held, left, h, hacc⟩ := txAt_run inputs
  obtain ⟨emitted, waiting, hcarries⟩ := h.wireCarries hacc
  refine ⟨emitted, ⟨waiting ++ (runFrom inputs).proto.building, ?_⟩, hcarries.frames⟩
  rw [hcarries.accepted, List.append_assoc]

theorem filter_map_wireFrame {requests : List ProtocolTxRequest}
    (hoffered : ∀ r ∈ requests, r.Offered) :
    (requests.map ProtocolTxRequest.wireFrame).filter isBeaconFrame =
      (requests.filter ProtocolTxRequest.isBeacon).map ProtocolTxRequest.wireFrame := by
  rw [List.filter_map]
  congr 1
  apply List.filter_congr
  intro r hr
  exact isBeaconFrame_wireFrame (hoffered r hr)

/-- After every run the counters balance, and so do the fields of every beacon sent. -/
theorem packet_accounting (inputs : List RxPins) : Accounts inputs := by
  obtain ⟨emitted, hprior, hframes⟩ := emittedFrames_accepted inputs
  have hoffered : ∀ r ∈ emitted, r.Offered :=
    fun r hr => offered_of_accepted inputs r (hprior.subset hr)
  have hfilter := filter_map_wireFrame hoffered
  refine ⟨packetBalance_run inputs, publishedBalance_run inputs, requestBalance_run inputs, ?_, ?_⟩
  · intro frame hframe hbeacon
    rw [hframes] at hframe
    obtain ⟨r, hr, rfl⟩ := List.mem_map.mp hframe
    have hkind : r.isBeacon = true := by rw [← isBeaconFrame_wireFrame (hoffered r hr), hbeacon]
    obtain ⟨hrx, hrxp, harp, -⟩ := wireFrame_counters hkind
    exact ⟨_, _, _, hrx, hrxp, harp, balance_accepted inputs r (hprior.subset hr) hkind⟩
  · have hups : (emitted.filter ProtocolTxRequest.isBeacon).map
        ProtocolTxRequest.uptimeBeaconCount =
          (List.range (emitted.countP ProtocolTxRequest.isBeacon)).map (BitVec.ofNat 32) := by
      have hall := (hprior.filter ProtocolTxRequest.isBeacon).map
        ProtocolTxRequest.uptimeBeaconCount
      rw [uptimes_run] at hall
      have htake := List.prefix_iff_eq_take.mp hall
      rw [htake, ← List.map_take, List.take_range, List.length_map,
        ← List.countP_eq_length_filter, Nat.min_eq_left hprior.sublist.countP_le]
    have hcount : (emittedFrames inputs).countP isBeaconFrame =
        emitted.countP ProtocolTxRequest.isBeacon := by
      rw [List.countP_eq_length_filter, List.countP_eq_length_filter, hframes, hfilter,
        List.length_map]
    rw [hcount, hframes, hfilter, List.map_map]
    have hshown : ∀ r ∈ emitted.filter ProtocolTxRequest.isBeacon,
        shownDigits 121 r.wireFrame = hexText 8 r.uptimeBeaconCount :=
      fun r hr => (wireFrame_counters (List.mem_filter.mp hr).2).2.2.2
    refine (List.map_congr_left hshown).trans ?_
    have hhex := congrArg (List.map (hexText 8)) hups
    rw [List.map_map, List.map_map] at hhex
    exact hhex

end ArtyEthernet
