import ArtyEthernet.Proofs.Backlog

/-!
# The ARP responder

Which bursts ask for the endpoint's address is stated on their data bytes alone. Over every run
the replies handed over are the answers to these bursts, in order, none invented and none left
out for long.
-/

namespace ArtyEthernet
open Words

/-- The sender of a burst that is an intact ARP request for the endpoint. -/
def acceptedRequester (r : RxBurst) : Option (BitVec 48 × BitVec 32) :=
  let data := burstData r
  let payload := (data.drop 14).take (data.length - 18)
  if burstClean r = true ∧ 46 ≤ data.length ∧ data.length ≤ 1518 ∧
      (Words.ofBytes 48 (data.take 6) = fpgaMac ∨ Words.ofBytes 48 (data.take 6) = broadcastMac) ∧
      Words.ofBytes 16 ((data.drop 12).take 2) = arpEthertype ∧
      payload.take 8 = arpRequestPrefix ∧ (payload.drop 24).take 4 = toBytes 4 fpgaIp then
    some (Words.ofBytes 48 ((payload.drop 8).take 6), Words.ofBytes 32 ((payload.drop 14).take 4))
  else none

theorem wantsArpParse_capturedPacket {data : List Byte} (hmin : 18 ≤ data.length) :
    (capturedPacket data).wantsArpParse = true ↔
      46 ≤ data.length ∧ data.length ≤ 1518 ∧
        (Words.ofBytes 48 (data.take 6) = fpgaMac ∨
          Words.ofBytes 48 (data.take 6) = broadcastMac) ∧
        Words.ofBytes 16 ((data.drop 12).take 2) = arpEthertype := by
  by_cases hmax : data.length ≤ 1518
  · have hheader : (capturedPacket data).header = .ofBytes (data.take 14) := by
      rw [capturedPacket, headerBytes_eq_take (by omega) (by omega)]
    have hdst : (data.take 14).take 6 = data.take 6 := by
      rw [List.take_take]
      rfl
    have htype : ((data.take 14).drop 12).take 2 = (data.drop 12).take 2 := by
      rw [List.drop_take, List.take_take]
      rfl
    have hlen : (capturedPacket data).payload.length = data.length - 18 := by
      simp only [capturedPacket, List.length_take, List.length_drop]
      omega
    have hwhole : (capturedPacket data).truncated = false := by
      simp only [capturedPacket, decide_eq_false_iff_not]
      omega
    simp only [Packet.wantsArpParse, hheader, hlen, hwhole, EthHeader.ofBytes, hdst, htype,
      Bool.not_false, Bool.true_and, Bool.and_eq_true, Bool.or_eq_true, beq_iff_eq,
      decide_eq_true_eq]
    constructor
    · rintro ⟨⟨hmac, het⟩, hpay⟩
      exact ⟨by omega, hmax, hmac, het⟩
    · rintro ⟨hfull, -, hmac, het⟩
      exact ⟨⟨hmac, het⟩, by omega⟩
  · have htrunc : (capturedPacket data).truncated = true := by
      simp only [capturedPacket, decide_eq_true_eq]
      omega
    simp only [Packet.wantsArpParse, htrunc, Bool.not_true, Bool.false_and, Bool.false_eq_true,
      false_iff]
    rintro ⟨-, h, -⟩
    exact hmax h

theorem arpRequester_burstPacket (r : RxBurst) :
    (burstPacket r).bind Packet.arpRequester = acceptedRequester r := by
  simp only [burstPacket, acceptedRequester]
  generalize hdata : burstData r = data
  by_cases hclean : burstClean r = true
  · by_cases hmin : 18 ≤ data.length
    · by_cases hmax : data.length ≤ 1518
      · have hmod : 18 ≤ data.length % 65536 := by omega
        have hpayload : (capturedPacket data).payload = (data.drop 14).take (data.length - 18) := by
          rw [capturedPacket, Nat.min_eq_right (by omega)]
        rw [if_pos ⟨hmod, hclean⟩, Option.bind_some, Packet.arpRequester, hpayload]
        simp only [wantsArpParse_capturedPacket hmin, hclean, true_and, and_assoc]
      · rw [if_neg (c := _ ∧ _ ∧ _) (by rintro ⟨-, -, h, -⟩; exact hmax h)]
        by_cases hmod : 18 ≤ data.length % 65536
        · have hwants : (capturedPacket data).wantsArpParse ≠ true := by
            rw [Ne, wantsArpParse_capturedPacket hmin]
            rintro ⟨-, h, -⟩
            exact hmax h
          rw [if_pos ⟨hmod, hclean⟩, Option.bind_some, Packet.arpRequester, if_neg]
          rintro ⟨h, -⟩
          exact hwants h
        · rw [if_neg (by rintro ⟨h, -⟩; exact hmod h), Option.bind_none]
    · rw [if_neg (c := _ ∧ _ ∧ _) (by rintro ⟨-, h, -⟩; omega),
        if_neg (by rintro ⟨h, -⟩; exact hmin (h.trans (Nat.mod_le _ _))), Option.bind_none]
  · rw [if_neg (by rintro ⟨-, h⟩; exact hclean h), if_neg (by rintro ⟨h, -⟩; exact hclean h),
      Option.bind_none]

/-- The requesters among the bursts that have ended, in order. -/
def requesters (inputs : List RxPins) : List (BitVec 48 × BitVec 32) :=
  (rxBursts inputs).filterMap acceptedRequester

/-- The ARP replies handed to `startProtocolTxRequest`, in order. -/
def handedReplies (inputs : List RxPins) : List ProtocolTxRequest :=
  (handedRequests inputs).filter ProtocolTxRequest.isArpReply

theorem requesters_eq (inputs : List RxPins) :
    requesters inputs = (publishedPackets inputs).filterMap slotRequester := by
  have hmap : (publishedPackets inputs).filterMap slotRequester =
      ((publishedPackets inputs).map slotPacket).filterMap Packet.arpRequester := by
    rw [List.filterMap_map]
    rfl
  rw [hmap, map_slotPacket_publishedPackets, List.filterMap_filterMap, requesters]
  exact List.filterMap_congr fun r _ => (arpRequester_burstPacket r).symm

theorem arpReplies_prefix {xs ys : List (BitVec 48 × BitVec 32)} (h : xs <+: ys) :
    arpReplies xs <+: arpReplies ys := h.map _

/-- Soundness and completeness of the responder, after every number of cycles: the replies are
the answers to the first accepted bursts, to all of them when no packet is waiting, and every
burst accepted so far has been answered after at most 200 further cycles of any input. -/
theorem arp_responder_sound_complete (inputs : List RxPins) :
    handedReplies inputs <+: arpReplies (requesters inputs) ∧
      (packetQueueReadSlotValid (runFrom inputs).rxQueue = false →
        handedReplies inputs = arpReplies (requesters inputs)) ∧
      ∀ more : List RxPins, 200 ≤ more.length →
        arpReplies (requesters inputs) <+: handedReplies (inputs ++ more) := by
  obtain ⟨consumed, waiting, h⟩ := decided_run inputs
  have hreplies : handedReplies inputs = arpReplies (consumed.filterMap slotRequester) := h.replies
  refine ⟨?_, ?_, ?_⟩
  · rw [hreplies, requesters_eq, h.published]
    exact arpReplies_prefix ((List.prefix_append _ _).filterMap _)
  · intro hempty
    rw [hreplies, requesters_eq, h.published, h.rx.handler.waiting_nil hempty, List.append_nil]
  · intro more hmore
    obtain ⟨consumed', waiting', h', hinit⟩ := decided_within inputs more hmore
    have hreplies' : handedReplies (inputs ++ more) =
        arpReplies (consumed'.filterMap slotRequester) := h'.replies
    rw [hreplies', requesters_eq]
    exact arpReplies_prefix (hinit.filterMap _)

end ArtyEthernet
