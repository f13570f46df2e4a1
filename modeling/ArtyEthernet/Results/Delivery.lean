import ArtyEthernet.Library.MarkedLists
import ArtyEthernet.Proofs.Delivery
import ArtyEthernet.Results.Accounting
import ArtyEthernet.Results.ArpReplyCounter
import ArtyEthernet.Results.ArpResponder

/-!
# Delivery

How long a request can take from its acceptance to the wire, and what becomes of every ARP request
the endpoint is asked. Nothing is assumed of what is received in the meantime.
-/

namespace ArtyEthernet
open Words MarkedLists

def Endpoint.verdict (s : Endpoint) (i : RxPins) : Option (ProtocolTxRequest × Bool) :=
  (s.handed i).map fun r => (r, packetQueueWriteSlotAvailable s.txQueue)

def requestVerdicts (inputs : List RxPins) : List (ProtocolTxRequest × Bool) :=
  Synchronous.events Endpoint.step Endpoint.verdict .reset inputs

@[simp] theorem requestVerdicts_snoc (inputs : List RxPins) (i : RxPins) :
    requestVerdicts (inputs ++ [i]) =
      requestVerdicts inputs ++ ((runFrom inputs).verdict i).toList :=
  Synchronous.events_snoc Endpoint.verdict .reset inputs i

/-- What the verdicts of a run say. -/
structure Verdicts (inputs : List RxPins) : Prop where
  handed : (requestVerdicts inputs).map Prod.fst = handedRequests inputs
  accepted : picked true (requestVerdicts inputs) = acceptedRequests inputs
  refused : picked false (requestVerdicts inputs) = refusedRequests inputs

theorem verdicts_run (inputs : List RxPins) : Verdicts inputs := by
  induction inputs using List.reverseRecOn with
  | nil => exact ⟨rfl, rfl, rfl⟩
  | append_singleton inputs i ih =>
    refine ⟨?_, ?_, ?_⟩
    · rw [requestVerdicts_snoc, handedRequests_snoc, List.map_append, ih.handed, Endpoint.verdict]
      cases (runFrom inputs).handed i <;> rfl
    · rw [requestVerdicts_snoc, acceptedRequests_snoc, picked_append, ih.accepted,
        Endpoint.verdict, Endpoint.accepted]
      cases (runFrom inputs).handed i <;>
        cases packetQueueWriteSlotAvailable (runFrom inputs).txQueue <;> rfl
    · rw [requestVerdicts_snoc, refusedRequests_snoc, picked_append, ih.refused,
        Endpoint.verdict, Endpoint.refused]
      cases (runFrom inputs).handed i <;>
        cases packetQueueWriteSlotAvailable (runFrom inputs).txQueue <;> rfl

set_option maxRecDepth 100000 in
theorem requestVerdicts_arpFlood :
    (requestVerdicts arpFlood).map Prod.snd = List.replicate 7 true ++ [false] := by
  decide +kernel

theorem length_acceptedRequests_arpFlood : (acceptedRequests arpFlood).length = 7 := by
  rw [← (verdicts_run arpFlood).accepted, length_picked, requestVerdicts_arpFlood]
  rfl

/-- Everything accepted has left the endpoint 1316 cycles later, in the order of acceptance. -/
theorem accepted_requests_delivered (inputs later : List RxPins) (hlater : 1316 ≤ later.length) :
    (acceptedRequests inputs).map ProtocolTxRequest.wireFrame <+:
      emittedFrames (inputs ++ later) :=
  emitted_within inputs later hlater

/-- The seven replies that find a slot in a flood of requests. -/
theorem accepted_requests_delivered_flood :
    (acceptedRequests arpFlood).length = 7 ∧
      (acceptedRequests arpFlood).map ProtocolTxRequest.wireFrame <+:
        emittedFrames (arpFlood ++ List.replicate 1316 ⟨false, 0, false⟩) :=
  ⟨length_acceptedRequests_arpFlood,
    accepted_requests_delivered arpFlood _ List.length_replicate.ge⟩

theorem acceptedRequests_mono (inputs later : List RxPins) :
    acceptedRequests inputs <+: acceptedRequests (inputs ++ later) := by
  rw [acceptedRequests, acceptedRequests, Synchronous.events_append]
  exact List.prefix_append _ _

theorem refusedRequests_mono (inputs later : List RxPins) :
    refusedRequests inputs <+: refusedRequests (inputs ++ later) := by
  rw [refusedRequests, refusedRequests, Synchronous.events_append]
  exact List.prefix_append _ _

theorem emitted_requests (inputs later : List RxPins) (hlater : 1316 ≤ later.length) :
    ∃ emitted, emitted <+: acceptedRequests (inputs ++ later) ∧
      emittedFrames (inputs ++ later) = emitted.map ProtocolTxRequest.wireFrame ∧
      acceptedRequests inputs <+: emitted := by
  obtain ⟨emitted, hprior, hframes⟩ := emittedFrames_accepted (inputs ++ later)
  have hlen := (emitted_within inputs later hlater).length_le
  rw [hframes, List.length_map, List.length_map] at hlen
  exact ⟨emitted, hprior, hframes,
    List.prefix_of_prefix_length_le (acceptedRequests_mono inputs later) hprior hlen⟩

/-- What has become of the requests of `inputs`: `outcome` says for each of them whether it was
answered. -/
structure Settles (inputs : List RxPins) (outcome : List ((BitVec 48 × BitVec 32) × Bool))
    (later : List RxPins) : Prop where
  all : outcome.map Prod.fst = requesters inputs
  /-- The answers are the first replies on the wire, in the order of the bursts. -/
  answered : ∃ emitted, emitted <+: acceptedRequests (inputs ++ later) ∧
    emittedFrames (inputs ++ later) = emitted.map ProtocolTxRequest.wireFrame ∧
    arpReplies (picked true outcome) <+: emitted.filter ProtocolTxRequest.isArpReply
  /-- The others are the first replies refused. -/
  unanswered : arpReplies (picked false outcome) <+:
    (refusedRequests (inputs ++ later)).filter ProtocolTxRequest.isArpReply
  counted : (runFrom (inputs ++ later)).txQueue.dropCount =
    BitVec.ofNat 32 (refusedRequests (inputs ++ later)).length

/-- Every ARP request for the endpoint is answered on the wire within 1516 cycles of the end of
its burst, in order, or its reply was refused and counted. -/
theorem requests_answered_or_counted (inputs later : List RxPins)
    (hlater : 1516 ≤ later.length) : ∃ outcome, Settles inputs outcome later := by
  have hsplit : inputs ++ later = (inputs ++ later.take 200) ++ later.drop 200 := by simp
  obtain ⟨consumed, waiting, hd, hinit⟩ := decided_within inputs (later.take 200)
    (by rw [List.length_take]; omega)
  have hv := verdicts_run (inputs ++ later.take 200)
  -- the replies handed over start with the answers to the bursts of `inputs`
  have hhanded : (requesters inputs).map (fun q => arpReplyRequest q.1 q.2) <+:
      ((requestVerdicts (inputs ++ later.take 200)).filter fun p => p.1.isArpReply).map
        Prod.fst := by
    have hfst : ((requestVerdicts (inputs ++ later.take 200)).filter fun p =>
        p.1.isArpReply).map Prod.fst =
          (handedRequests (inputs ++ later.take 200)).filter ProtocolTxRequest.isArpReply := by
      rw [← hv.handed, List.filter_map]
      rfl
    rw [hfst, hd.replies, requesters_eq]
    exact arpReplies_prefix (hinit.filterMap _)
  obtain ⟨outcome, hall, hpre⟩ := exists_pairs_of_prefix hhanded
  have hpicked (flag : Bool) : arpReplies (picked flag outcome) <+:
      (picked flag (requestVerdicts (inputs ++ later.take 200))).filter
        ProtocolTxRequest.isArpReply := by
    have h := picked_prefix flag hpre
    rw [picked_map flag fun q : BitVec 48 × BitVec 32 => arpReplyRequest q.1 q.2,
      picked_filter] at h
    exact h
  refine ⟨outcome, hall, ?_, ?_, txDropCount_run _⟩
  · obtain ⟨emitted, hprior, hframes, hold⟩ := emitted_requests (inputs ++ later.take 200)
      (later.drop 200) (by rw [List.length_drop]; omega)
    rw [← hsplit] at hprior hframes
    refine ⟨emitted, hprior, hframes, (hpicked true).trans ?_⟩
    rw [hv.accepted]
    exact hold.filter _
  · refine (hpicked false).trans ?_
    rw [hv.refused, hsplit]
    exact (refusedRequests_mono _ _).filter _

/-- Seven requests of the flood are answered and one is refused. -/
theorem requests_answered_or_counted_flood :
    (requestVerdicts arpFlood).map Prod.snd = List.replicate 7 true ++ [false] ∧
      ∃ outcome, Settles arpFlood outcome (List.replicate 1516 ⟨false, 0, false⟩) :=
  ⟨requestVerdicts_arpFlood, requests_answered_or_counted arpFlood _ List.length_replicate.ge⟩

end ArtyEthernet
