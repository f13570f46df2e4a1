import ArtyEthernet.Proofs.ReplyLine
import ArtyEthernet.Results.QuiescentReply

/-!
# Between two frames

Before the gap behind a frame has passed the endpoint is not quiescent yet, but it can already
receive. From such a moment on one burst is served at a time: while no timer ticks the next such
moment comes with the end of the answer, or 214 cycles after a burst without one.
-/

namespace ArtyEthernet
open Words Synchronous

def drivenAfter (prior window : List RxPins) : List TxPins :=
  trace Endpoint.step Endpoint.outputs (runFrom prior) window

theorem drivenPins_append (prior window : List RxPins) :
    drivenPins (prior ++ window) = drivenPins prior ++ drivenAfter prior window :=
  trace_append _ _ _ _ _

/-- Everything accepted is on the wire, and no frame is open. -/
structure Settled (inputs : List RxPins) : Prop where
  runs : wireRuns (drivenPins inputs) = (acceptedRequests inputs).map ProtocolTxRequest.nibbles
  closed : wireOpen (drivenPins inputs) = []

section Wire
variable {prior window inputs : List RxPins} {sent held : List ProtocolTxRequest} {left : ℕ}

theorem Settled.wire (h : Settled prior) (window : List RxPins) :
    wireRuns (drivenPins (prior ++ window)) =
        (acceptedRequests prior).map ProtocolTxRequest.nibbles ++
          wireRuns (drivenAfter prior window) ∧
      wireOpen (drivenPins (prior ++ window)) = wireOpen (drivenAfter prior window) := by
  have hpending : MaximalRuns.pending TxPins.ethTxEn (drivenPins prior) = [] :=
    List.map_eq_nil_iff.mp h.closed
  obtain ⟨hbursts, hopen⟩ := MaximalRuns.scan_append (drivenPins prior) (drivenAfter prior window)
    hpending
  rw [drivenPins_append, ← h.runs]
  constructor
  · rw [wireRuns, hbursts, List.map_append]
    rfl
  · rw [wireOpen, hopen]
    rfl

theorem txWork_of_building_nil {st : Protocol} (h : st.building = []) : st.txWork left = left := by
  rw [Protocol.txWork, h, buildCost_off (Protocol.building_nil.mp h)]
  rfl

/-- What is left when everything accepted is on the wire: a gap at most. -/
structure GapLeft (held : List ProtocolTxRequest) (left : ℕ) (inputs : List RxPins) : Prop where
  settled : Settled inputs
  building : (runFrom inputs).proto.building = []
  held : held.length ≤ 1
  work : (runFrom inputs).proto.txWork left ≤ 24

/-- The runs on the wire are never more than the requests accepted. -/
theorem gapLeft_of_count (h : TxAt sent held (drivenPins inputs) left (runFrom inputs))
    (hcarried : acceptedRequests inputs = sent ++ held ++ (runFrom inputs).proto.building)
    (hcount : (acceptedRequests inputs).length ≤ (wireRuns (drivenPins inputs)).length) :
    GapLeft held left inputs := by
  rw [hcarried, List.length_append, List.length_append] at hcount
  cases h.wire with
  | resting _ _ hruns hopen hleft =>
    rw [hruns, List.length_map] at hcount
    have hheld : held = [] := List.length_eq_zero_iff.mp (by omega)
    have hbuilding : (runFrom inputs).proto.building = [] := List.length_eq_zero_iff.mp (by omega)
    rw [hheld, heldCycles_nil] at hleft
    refine ⟨⟨?_, hopen⟩, hbuilding, by simp [hheld], ?_⟩
    · rw [hruns, hcarried, hheld, hbuilding, List.append_nil, List.append_nil]
    · rw [txWork_of_building_nil hbuilding]
      omega
  | sending r rest k hheld _ _ _ _ _ hruns =>
    rw [hruns, List.length_map, hheld, List.length_cons] at hcount
    omega
  | gap r rest k hheld _ _ _ hk hruns hopen hleft =>
    rw [hruns, List.length_map, hheld, List.length_append, List.length_cons,
      List.length_singleton] at hcount
    have hrest : rest = [] := List.length_eq_zero_iff.mp (by omega)
    have hbuilding : (runFrom inputs).proto.building = [] := List.length_eq_zero_iff.mp (by omega)
    subst hrest
    rw [hheld, heldCycles_cons, heldCycles_nil, ProtocolTxRequest.cycles, frameCycles] at hleft
    refine ⟨⟨?_, hopen⟩, hbuilding, by simp [hheld], ?_⟩
    · rw [hruns, hcarried, hheld, hbuilding, List.append_nil]
    · rw [txWork_of_building_nil hbuilding]
      omega

/-- While nothing is accepted the wire stays silent. -/
theorem Settled.keep (h : Settled prior)
    (hsame : acceptedRequests (prior ++ window) = acceptedRequests prior) :
    Settled (prior ++ window) := by
  obtain ⟨sent, held, left, htx, hcarried⟩ := txAt_run (prior ++ window)
  refine (gapLeft_of_count htx hcarried ?_).settled
  rw [(h.wire window).1, hsame, List.length_append, List.length_map]
  exact Nat.le_add_right _ _

theorem Settled.silent (h : Settled prior)
    (hsame : acceptedRequests (prior ++ window) = acceptedRequests prior) :
    ∀ p ∈ drivenAfter prior window, p.ethTxEn = false := by
  have hkeep := h.keep hsame
  obtain ⟨hruns, hopen⟩ := h.wire window
  rw [hkeep.runs, hsame, List.self_eq_append_right] at hruns
  rw [hkeep.closed] at hopen
  exact MaximalRuns.all_off (List.map_eq_nil_iff.mp hruns) (List.map_eq_nil_iff.mp hopen.symm)

end Wire

/-- No timer ticks in the next `n` cycles. -/
def Calm (inputs : List RxPins) (n : ℕ) : Prop := inputs.length % 25000000 + n < 25000000

instance (inputs : List RxPins) (n : ℕ) : Decidable (Calm inputs n) :=
  inferInstanceAs (Decidable (_ < _))

theorem Calm.ticks {prior history : List RxPins} {n : ℕ} (h : Calm prior n)
    (hlen : history.length < n) : (runFrom (prior ++ history)).proto.ticks = ⟨false, false⟩ := by
  unfold Calm at h
  rw [ticks_run, ticksAfter, List.length_append, decide_eq_false (by omega),
    decide_eq_false (by omega)]

/-- Everything received is decided and everything accepted is on the wire, its gap aside. -/
structure Between (inputs : List RxPins) : Prop where
  serving : ∃ base sent held left,
    Serving base (acceptedRequests inputs) 24 inputs [] [] sent held left
  closed : rxPending inputs = []
  settled : Settled inputs

section Between
variable {base new waiting : List RxSlot} {earlier sent held : List ProtocolTxRequest}
  {budget more left : ℕ} {prior inputs on idle : List RxPins} {stop : RxPins}

theorem Serving.mono (h : Serving base earlier budget inputs new waiting sent held left)
    (hle : budget ≤ more) : Serving base earlier more inputs new waiting sent held left :=
  { h with work := h.work.trans (Nat.add_le_add_right hle _) }

theorem Serving.between (h : Serving base earlier budget inputs new [] sent held left)
    (hclosed : rxPending inputs = [])
    (hcount : (acceptedRequests inputs).length ≤ (wireRuns (drivenPins inputs)).length) :
    Between inputs := by
  have hgap := gapLeft_of_count h.tx h.carried hcount
  refine ⟨⟨base ++ new, sent, held, left, ?_, h.tx, h.carried, ?_, ?_, ?_⟩, hclosed, hgap.settled⟩
  · rw [List.append_nil]
    exact h.rx
  · simp [arpReplies]
  · rw [hgap.building]
    simpa using hgap.held
  · have hwork := hgap.work
    rw [slotsCost_nil, List.length_nil]
    omega

/-- With no work left everything accepted is on the wire. -/
theorem Serving.settled (h : Serving base earlier 0 inputs new waiting sent held left) :
    Settled inputs :=
  ⟨h.wire_rest.1, h.wire_rest.2⟩

theorem between_quiescent (hquiescent : (runFrom prior).Quiescent) : Between prior := by
  obtain ⟨base, sent, left, h⟩ := serving_of_quiescent prior hquiescent
  apply h.between ((rxPending_nil_iff h.rx.rx).mpr hquiescent.noBurst)
  rw [h.settled.runs, List.length_map]

theorem Serving.published_since
    (h : Serving base earlier budget inputs new waiting sent held left) {bursts : List RxBurst}
    (hbase : publishedPackets prior = base) (hbursts : rxBursts inputs = rxBursts prior ++ bursts) :
    (new ++ waiting).map slotPacket = bursts.filterMap burstPacket := by
  have hall := map_slotPacket_publishedPackets inputs
  rw [hbursts, List.filterMap_append, ← map_slotPacket_publishedPackets, h.rx.published, hbase,
    List.append_assoc, List.map_append, List.append_cancel_left_eq] at hall
  exact hall

theorem Serving.run_burst (h : Serving base earlier budget prior [] [] sent held left)
    (hon : ∀ p ∈ on, p.ethRxDv = true) (hcalm : Calm prior on.length)
    (hclosed : rxPending prior = []) :
    ∃ sent' held' left',
      Serving base earlier (budget - on.length) (prior ++ on) [] [] sent' held' left' := by
  obtain ⟨new, waiting, sent', held', left', h'⟩ := h.run_quiet on fun history j hj => by
    have hlt := hj.length_le
    rw [List.length_append, List.length_singleton] at hlt
    exact ⟨hcalm.ticks (by omega), published_none (Or.inl (hon j (hj.subset (by simp))))⟩
  have hbase : publishedPackets prior = base := by
    rw [h.rx.published, List.append_nil, List.append_nil]
  have hbursts : rxBursts (prior ++ on) = rxBursts prior ++ [] := by
    rw [rxBursts, (MaximalRuns.scan_append prior on hclosed).1,
      (MaximalRuns.scan_all_on on hon).1]
    rfl
  obtain ⟨rfl, rfl⟩ := List.append_eq_nil_iff.mp
    (List.map_eq_nil_iff.mp (h'.published_since hbase hbursts))
  exact ⟨sent', held', left', h'⟩

/-- What a burst and the idle cycles after it leave of the packet the burst carried. -/
structure Served (prior on : List RxPins) (stop : RxPins) (idle : List RxPins) : Prop where
  serving : ∃ base new waiting sent held left,
    Serving base (acceptedRequests prior) (238 - idle.length) (prior ++ (on ++ [stop]) ++ idle)
      new waiting sent held left ∧
    (new ++ waiting).map slotPacket = (burstPacket ⟨on, stop⟩).toList
  closed : rxPending (prior ++ (on ++ [stop]) ++ idle) = []
  settled : Settled (prior ++ (on ++ [stop]))
  accepted : acceptedRequests (prior ++ (on ++ [stop])) = acceptedRequests prior

theorem Serving.stop_burst
    (h : Serving base earlier (24 - on.length) (prior ++ on) [] [] sent held left)
    (hstop : stop.ethRxDv = false) (hclosed : rxPending prior = [])
    (hon : ∀ p ∈ on, p.ethRxDv = true)
    (hticks : (runFrom (prior ++ on)).proto.ticks = ⟨false, false⟩) :
    ∃ new waiting sent' held' left',
      Serving base earlier 238 (prior ++ on ++ [stop]) new waiting sent' held' left' := by
  have hcompleted : completedPacket on stop = if on = [] then none else burstPacket ⟨on, stop⟩ := by
    simp [completedPacket, hstop]
  have hpub : ((runFrom (prior ++ on)).rxPublished stop).map slotPacket = completedPacket on stop :=
    published_of_completed (by rw [rxPending_on hclosed hon])
  cases hslot : (runFrom (prior ++ on)).rxPublished stop with
  | none =>
    obtain ⟨new, waiting, sent', held', left', h'⟩ := h.step_quiet hticks hslot
    exact ⟨new, waiting, sent', held', left', h'.mono (by omega)⟩
  | some slot =>
    rw [hslot, Option.map_some] at hpub
    have hcost := cost_le_burst hpub.symm
    have hlong : 24 ≤ on.length := by
      split_ifs at hcost <;> omega
    rw [Nat.sub_eq_zero_of_le hlong] at h
    exact h.step_arrival hticks hslot

theorem rxBursts_burst (hprior : rxPending prior = []) (hon : ∀ p ∈ on, p.ethRxDv = true)
    (hstop : stop.ethRxDv = false) (hidle : ∀ p ∈ idle, p.ethRxDv = false) :
    rxBursts (prior ++ on ++ [stop] ++ idle) =
      rxBursts prior ++ if on = [] then [] else [⟨on, stop⟩] := by
  have hend : MaximalRuns.pending RxPins.ethRxDv (prior ++ on ++ [stop]) = [] :=
    MaximalRuns.pending_snoc_off _ hstop
  have hopen : MaximalRuns.pending RxPins.ethRxDv (prior ++ on) = on := rxPending_on hprior hon
  rw [rxBursts, (MaximalRuns.scan_append _ idle hend).1, (MaximalRuns.scan_all_off idle hidle).1,
    List.append_nil, MaximalRuns.bursts_snoc_off _ hstop, hopen,
    (MaximalRuns.scan_append prior on hprior).1, (MaximalRuns.scan_all_on on hon).1,
    List.append_nil]
  rfl

theorem filterMap_burst (on : List RxPins) (stop : RxPins) :
    (if on = [] then [] else [(⟨on, stop⟩ : RxBurst)]).filterMap burstPacket =
      (burstPacket ⟨on, stop⟩).toList := by
  split_ifs with hempty
  · have hnone : burstPacket ⟨on, stop⟩ = none := by
      have hzero : (burstData ⟨[], stop⟩).length = 0 := rfl
      rw [hempty]
      refine if_neg fun h => ?_
      omega
    rw [hnone]
    rfl
  · cases hpacket : burstPacket ⟨on, stop⟩ <;> simp [hpacket]

theorem Between.serve (h : Between prior) (hon : ∀ p ∈ on, p.ethRxDv = true)
    (hstop : stop.ethRxDv = false) (hidle : ∀ p ∈ idle, p.ethRxDv = false)
    (hcalm : Calm prior (on.length + 1 + idle.length)) : Served prior on stop idle := by
  obtain ⟨base, sent, held, left, hserving⟩ := h.serving
  have hbase : publishedPackets prior = base := by
    rw [hserving.rx.published, List.append_nil, List.append_nil]
  have hburstCalm : Calm prior on.length := by
    unfold Calm at hcalm ⊢
    omega
  have hticks : (runFrom (prior ++ on)).proto.ticks = ⟨false, false⟩ := hcalm.ticks (by omega)
  obtain ⟨sent₁, held₁, left₁, hburst⟩ := hserving.run_burst hon hburstCalm h.closed
  obtain ⟨new₂, waiting₂, sent₂, held₂, left₂, hstopped⟩ :=
    hburst.stop_burst hstop h.closed hon hticks
  have hpending {history : List RxPins} (hoff : ∀ p ∈ history, p.ethRxDv = false) :
      rxPending (prior ++ on ++ [stop] ++ history) = [] := by
    have hend : rxPending (prior ++ on ++ [stop]) = [] := MaximalRuns.pending_snoc_off _ hstop
    exact (MaximalRuns.scan_append _ history hend).2.trans (MaximalRuns.scan_all_off history hoff).2
  obtain ⟨new, waiting, sent', held', left', hdone⟩ := hstopped.run_quiet idle <| by
    intro history j hj
    have hlt := hj.length_le
    rw [List.length_append, List.length_singleton] at hlt
    refine ⟨?_, published_none (Or.inr (hpending fun p hp =>
      hidle p (hj.subset (List.mem_append_left [j] hp))))⟩
    have hlater := hcalm.ticks (show (on ++ [stop] ++ history).length < _ by simp; omega)
    rwa [← List.append_assoc, ← List.append_assoc] at hlater
  have hsame : acceptedRequests (prior ++ on ++ [stop]) = acceptedRequests prior := by
    have hnone := handed_none_of_idle (i := stop) hticks hburst.rx.rx.idle_of_nil
    rw [acceptedRequests_snoc, accepted_none (by rw [hnone]; rfl), hburst.accepted]
    simp [arpReplies]
  have hbursts := rxBursts_burst h.closed hon hstop hidle
  have hpackets := hdone.published_since hbase hbursts
  rw [filterMap_burst] at hpackets
  have hsettled : _ → Settled (prior ++ (on ++ [stop])) := h.settled.keep
  rw [← List.append_assoc] at hsettled
  constructor
  case serving =>
    rw [← List.append_assoc]
    exact ⟨base, new, waiting, sent', held', left', hdone, hpackets⟩
  case closed =>
    rw [← List.append_assoc]
    exact hpending hidle
  case settled =>
    rw [← List.append_assoc]
    exact hsettled hsame
  case accepted =>
    rw [← List.append_assoc]
    exact hsame

theorem Served.requester {new waiting : List RxSlot}
    (hpackets : (new ++ waiting).map slotPacket = (burstPacket ⟨on, stop⟩).toList) :
    new.filterMap slotRequester ++ waiting.filterMap slotRequester =
      (acceptedRequester ⟨on, stop⟩).toList := by
  rw [← List.filterMap_append, ← arpRequester_burstPacket]
  have hmap : (new ++ waiting).filterMap slotRequester =
      ((new ++ waiting).map slotPacket).filterMap Packet.arpRequester := by
    rw [List.filterMap_map]
    rfl
  rw [hmap, hpackets]
  cases hpacket : burstPacket ⟨on, stop⟩ with
  | none => rfl
  | some packet => cases hverdict : packet.arpRequester <;> simp [hverdict]

theorem Served.quiet (h : Served prior on stop idle) (hnone : acceptedRequester ⟨on, stop⟩ = none) :
    acceptedRequests (prior ++ (on ++ [stop]) ++ idle) = acceptedRequests prior ∧
      (214 ≤ idle.length → Between (prior ++ (on ++ [stop]) ++ idle)) := by
  obtain ⟨base, new, waiting, sent, held, left, hserving, hpackets⟩ := h.serving
  have hrequester := Served.requester hpackets
  rw [hnone, Option.toList_none, List.append_eq_nil_iff] at hrequester
  have hsame : acceptedRequests (prior ++ (on ++ [stop]) ++ idle) = acceptedRequests prior := by
    rw [hserving.accepted, hrequester.1, arpReplies, List.map_nil, List.append_nil]
  refine ⟨hsame, fun hlong => ?_⟩
  have hwork := hserving.work
  have hcredit := hserving.rx.rx.parseCredit_le.1
  obtain rfl : waiting = [] := List.length_eq_zero_iff.mp (by omega)
  apply hserving.between h.closed
  rw [(h.settled.keep (hsame.trans h.accepted.symm)).runs, List.length_map]

section Answer
variable {mac : BitVec 48} {ip : BitVec 32}

theorem Served.answer (h : Served prior on stop idle)
    (hsome : acceptedRequester ⟨on, stop⟩ = some (mac, ip)) (hlong : 238 ≤ idle.length) :
    acceptedRequests (prior ++ (on ++ [stop]) ++ idle) =
        acceptedRequests prior ++ [arpReplyRequest mac ip] ∧
      Settled (prior ++ (on ++ [stop]) ++ idle) := by
  obtain ⟨base, new, waiting, sent, held, left, hserving, hpackets⟩ := h.serving
  rw [Nat.sub_eq_zero_of_le hlong] at hserving
  have hrequester := Served.requester hpackets
  rw [hserving.rest.waiting, List.filterMap_nil, List.append_nil, hsome] at hrequester
  refine ⟨?_, hserving.settled⟩
  rw [hserving.accepted, hrequester]
  rfl

/-- Once its answer is on the wire the next burst may begin. -/
theorem Served.between_answered (h : Served prior on stop idle)
    (hcount : (acceptedRequests prior).length <
      (wireRuns (drivenPins (prior ++ (on ++ [stop]) ++ idle))).length) :
    Between (prior ++ (on ++ [stop]) ++ idle) := by
  obtain ⟨base, new, waiting, sent, held, left, hserving, hpackets⟩ := h.serving
  have hpublished := congrArg List.length hpackets
  have hone : (burstPacket ⟨on, stop⟩).toList.length ≤ 1 := by
    cases burstPacket ⟨on, stop⟩ <;> simp
  have hanswers := List.length_filterMap_le slotRequester new
  have haccepted := congrArg List.length hserving.accepted
  rw [List.length_append, arpReplies, List.length_map] at haccepted
  rw [List.length_map, List.length_append] at hpublished
  have hle : (acceptedRequests (prior ++ (on ++ [stop]) ++ idle)).length ≤
      (wireRuns (drivenPins (prior ++ (on ++ [stop]) ++ idle))).length := by omega
  have hruns := (gapLeft_of_count hserving.tx hserving.carried hle).settled.runs
  rw [hruns, List.length_map] at hcount
  obtain rfl : waiting = [] := List.length_eq_zero_iff.mp (by omega)
  exact hserving.between h.closed hle

end Answer

end Between

end ArtyEthernet
