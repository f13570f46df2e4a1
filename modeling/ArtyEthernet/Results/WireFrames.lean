import ArtyEthernet.Proofs.TxRuns

/-!
# The wire carries the accepted requests

The frames that have left the endpoint completely are those of the first accepted requests; the
other accepted requests are in the ring, in order, or being prepared.
-/

namespace ArtyEthernet
open Words

/-- Whether the last check-sequence nibble of the head packet has gone out. -/
def Endpoint.inGap (s : Endpoint) : Bool := s.drain.framer.txState == .txIfg

/-- The runs of `eth_tx_en` that carry a complete frame. The last one may still be open: it is
complete as soon as the framer has entered its gap. -/
def emittedRuns (inputs : List RxPins) : List (List Nibble) :=
  wireRuns (drivenPins inputs) ++
    if (runFrom inputs).inGap = true ∧ wireOpen (drivenPins inputs) ≠ [] then
      [wireOpen (drivenPins inputs)]
    else []

/-- The frames completely emitted, decoded low nibble first. -/
def emittedFrames (inputs : List RxPins) : List (List Byte) := (emittedRuns inputs).map pairNibbles

def partialRun (inputs : List RxPins) : List Nibble :=
  if (runFrom inputs).inGap = true then [] else wireOpen (drivenPins inputs)

/-- How the accepted requests of a run are spread over the transmit path. -/
structure WireCarries (inputs : List RxPins) (emitted waiting : List ProtocolTxRequest) : Prop where
  /-- Every accepted request is emitted, waiting in the ring or being prepared, in this order. -/
  accepted : acceptedRequests inputs =
    emitted ++ waiting ++ (runFrom inputs).proto.building
  /-- The runs on the wire are the frames of the emitted requests, nibble for nibble. -/
  runs : emittedRuns inputs = emitted.map ProtocolTxRequest.nibbles
  frames : emittedFrames inputs = emitted.map ProtocolTxRequest.wireFrame
  /-- The valid slots are the waiting requests, behind the one whose gap is passing. -/
  slots : ∃ gapped slots, (runFrom inputs).txQueue.Holds slots ∧
    List.Forall₂ SlotHolds slots (gapped ++ waiting) ∧ gapped <:+ emitted ∧
    gapped.length = if (runFrom inputs).inGap then 1 else 0
  /-- A frame in progress is a prefix of the first waiting one. -/
  progress : partialRun inputs <+: (waiting.head?.map ProtocolTxRequest.nibbles).getD []

theorem emittedFrames_eq {inputs : List RxPins} {emitted : List ProtocolTxRequest}
    (h : emittedRuns inputs = emitted.map ProtocolTxRequest.nibbles) :
    emittedFrames inputs = emitted.map ProtocolTxRequest.wireFrame := by
  rw [emittedFrames, h, List.map_map]
  exact List.map_congr_left fun r _ => pairNibbles_toNibbles r.wireFrame

theorem wireCarries_sending {inputs : List RxPins} {sent rest : List ProtocolTxRequest}
    {r : ProtocolTxRequest} {k : ℕ} {slots : List TxSlot}
    (hring : (runFrom inputs).txQueue.Holds slots)
    (hslots : List.Forall₂ SlotHolds slots (r :: rest))
    (hacc : acceptedRequests inputs = sent ++ (r :: rest) ++ (runFrom inputs).proto.building)
    (frame : FramerAt (padBody r.frameBody) k (runFrom inputs).drain.framer)
    (hk : k ≤ wireNibbles (padBody r.frameBody))
    (hruns : wireRuns (drivenPins inputs) = sent.map ProtocolTxRequest.nibbles)
    (hopen : wireOpen (drivenPins inputs) = r.nibbles.take k) :
    ∃ emitted waiting, WireCarries inputs emitted waiting := by
  have hgap := frame.gap_iff
  by_cases hlast : k = wireNibbles (padBody r.frameBody)
  · have hin : (runFrom inputs).inGap = true := by
      simp [Endpoint.inGap, hgap, hlast]
    have hwhole : wireOpen (drivenPins inputs) = r.nibbles := by
      rw [hopen, List.take_of_length_le]
      rw [length_nibbles, hlast]
    have hemitted : emittedRuns inputs = (sent ++ [r]).map ProtocolTxRequest.nibbles := by
      rw [emittedRuns, hwhole, if_pos ⟨hin, nibbles_ne_nil r⟩, hruns, List.map_append]
      rfl
    refine ⟨sent ++ [r], rest, ?_, hemitted, emittedFrames_eq hemitted, ?_, ?_⟩
    · rw [hacc]
      simp
    · exact ⟨[r], slots, hring, hslots, List.suffix_append _ _, by simp [hin]⟩
    · simp [partialRun, hin]
  · have hin : (runFrom inputs).inGap = false := by
      have hlt : ¬ wireNibbles (padBody r.frameBody) ≤ k := by omega
      simp [Endpoint.inGap, hgap, hlt]
    have hemitted : emittedRuns inputs = sent.map ProtocolTxRequest.nibbles := by
      simp [emittedRuns, hin, hruns]
    refine ⟨sent, r :: rest, hacc, hemitted, emittedFrames_eq hemitted, ?_, ?_⟩
    · exact ⟨[], slots, hring, hslots, List.nil_suffix, by simp [hin]⟩
    · simp only [partialRun, hin, hopen]
      exact List.take_prefix k _

theorem TxAt.wireCarries {inputs : List RxPins} {sent held : List ProtocolTxRequest} {left : ℕ}
    (h : TxAt sent held (drivenPins inputs) left (runFrom inputs))
    (hacc : acceptedRequests inputs = sent ++ held ++ (runFrom inputs).proto.building) :
    ∃ emitted waiting, WireCarries inputs emitted waiting := by
  obtain ⟨slots, hring, hslots⟩ := h.ring.slots
  cases h.wire with
  | resting inactive idle hruns hopen =>
    have hin : (runFrom inputs).inGap = false := by simp [Endpoint.inGap, idle]
    have hemitted : emittedRuns inputs = sent.map ProtocolTxRequest.nibbles := by
      simp [emittedRuns, hin, hruns]
    refine ⟨sent, held, hacc, hemitted, emittedFrames_eq hemitted, ?_, ?_⟩
    · exact ⟨[], slots, hring, hslots, List.nil_suffix, by simp [hin]⟩
    · simp [partialRun, hin, hopen]
  | sending r rest k hheld _ _ frame _ hk hruns hopen =>
    rw [hheld] at hacc hslots
    exact wireCarries_sending hring hslots hacc frame hk hruns hopen
  | gap r rest k hheld _ _ frame hk hruns hopen =>
    rw [hheld] at hacc hslots
    have hin : (runFrom inputs).inGap = true := by
      simp [Endpoint.inGap, frame.gap_iff, hk.le]
    have hemitted : emittedRuns inputs = (sent ++ [r]).map ProtocolTxRequest.nibbles := by
      simp [emittedRuns, hopen, hruns]
    refine ⟨sent ++ [r], rest, ?_, hemitted, emittedFrames_eq hemitted, ?_, ?_⟩
    · rw [hacc]
      simp
    · exact ⟨[r], slots, hring, hslots, List.suffix_append _ _, by simp [hin]⟩
    · simp [partialRun, hin]

/-- The wire carries exactly the accepted requests, in order. -/
theorem wire_carries_accepted (inputs : List RxPins) :
    ∃ emitted waiting, WireCarries inputs emitted waiting := by
  obtain ⟨sent, held, left, h, hacc⟩ := txAt_run inputs
  exact h.wireCarries hacc

end ArtyEthernet
