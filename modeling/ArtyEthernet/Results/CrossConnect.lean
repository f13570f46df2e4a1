import ArtyEthernet.Library.DelayLine
import ArtyEthernet.Proofs.Backlog
import ArtyEthernet.Proofs.TxCounts
import ArtyEthernet.Proofs.WirePacket

/-!
# Two endpoints back to back

Each endpoint receives what the other sends, some cycles later. Beacons and gratuitous ARP frames
are captured whole and dropped, so neither endpoint ever replies.
-/

namespace ArtyEthernet
open Words Synchronous

def TxPins.toRxPins (p : TxPins) : RxPins := ⟨p.ethTxEn, p.ethTxd, false⟩

def RxPins.idle : RxPins := ⟨false, 0, false⟩

/-- Two endpoints and the links between them. -/
structure Pair where
  left : Endpoint
  right : Endpoint
  toLeft : DelayLine RxPins
  toRight : DelayLine RxPins

namespace Pair

/-- Both endpoints out of reset, on idle links of `d + 1` and `e + 1` cycles. -/
def reset (d e : ℕ) : Pair := ⟨.reset, .reset, .filled .idle d, .filled .idle e⟩

def step (s : Pair) (_ : Unit) : Pair where
  left := s.left.step s.toLeft.front
  right := s.right.step s.toRight.front
  toLeft := s.toLeft.shift (s.right.outputs s.toRight.front).toRxPins
  toRight := s.toRight.shift (s.left.outputs s.toLeft.front).toRxPins

def after (d e n : ℕ) : Pair := run step (reset d e) (List.replicate n ())

def leftInputs (d e n : ℕ) : List RxPins :=
  trace step (fun s _ => s.toLeft.front) (reset d e) (List.replicate n ())

def rightInputs (d e n : ℕ) : List RxPins :=
  trace step (fun s _ => s.toRight.front) (reset d e) (List.replicate n ())

theorem after_succ (d e n : ℕ) : after d e (n + 1) = (after d e n).step () := by
  rw [after, List.replicate_succ', run_snoc]
  rfl

theorem leftInputs_succ (d e n : ℕ) :
    leftInputs d e (n + 1) = leftInputs d e n ++ [(after d e n).toLeft.front] := by
  rw [leftInputs, List.replicate_succ', trace_snoc]
  rfl

theorem rightInputs_succ (d e n : ℕ) :
    rightInputs d e (n + 1) = rightInputs d e n ++ [(after d e n).toRight.front] := by
  rw [rightInputs, List.replicate_succ', trace_snoc]
  rfl

@[simp] theorem length_leftInputs (d e n : ℕ) : (leftInputs d e n).length = n := by
  simp [leftInputs]

@[simp] theorem length_rightInputs (d e n : ℕ) : (rightInputs d e n).length = n := by
  simp [rightInputs]

theorem take_leftInputs (d e : ℕ) {m n : ℕ} (h : m ≤ n) :
    (leftInputs d e n).take m = leftInputs d e m := by
  rw [leftInputs, take_trace, List.take_replicate, Nat.min_eq_left h]
  rfl

theorem take_rightInputs (d e : ℕ) {m n : ℕ} (h : m ≤ n) :
    (rightInputs d e n).take m = rightInputs d e m := by
  rw [rightInputs, take_trace, List.take_replicate, Nat.min_eq_left h]
  rfl

end Pair

def sentPins (inputs : List RxPins) : List RxPins := (drivenPins inputs).map TxPins.toRxPins

theorem sentPins_snoc (inputs : List RxPins) (i : RxPins) :
    sentPins (inputs ++ [i]) =
      sentPins inputs ++ [((runFrom inputs).outputs i).toRxPins] := by
  simp [sentPins]

/-- Each endpoint runs on its own input, which is the other's output behind the link. -/
structure PairAt (d e n : ℕ) : Prop where
  left : (Pair.after d e n).left = runFrom (Pair.leftInputs d e n)
  right : (Pair.after d e n).right = runFrom (Pair.rightInputs d e n)
  toLeft : (Pair.after d e n).toLeft =
    run DelayLine.shift (.filled .idle d) (sentPins (Pair.rightInputs d e n))
  toRight : (Pair.after d e n).toRight =
    run DelayLine.shift (.filled .idle e) (sentPins (Pair.leftInputs d e n))
  leftHears : Pair.leftInputs d e n =
    trace DelayLine.shift DelayLine.leaving (.filled .idle d) (sentPins (Pair.rightInputs d e n))
  rightHears : Pair.rightInputs d e n =
    trace DelayLine.shift DelayLine.leaving (.filled .idle e) (sentPins (Pair.leftInputs d e n))

theorem pairAt (d e n : ℕ) : PairAt d e n := by
  induction n with
  | zero => exact ⟨rfl, rfl, rfl, rfl, rfl, rfl⟩
  | succ n ih =>
    have hleft : (Pair.after d e n).left.outputs (Pair.after d e n).toLeft.front =
        (runFrom (Pair.leftInputs d e n)).outputs (Pair.after d e n).toLeft.front := by
      rw [ih.left]
    have hright : (Pair.after d e n).right.outputs (Pair.after d e n).toRight.front =
        (runFrom (Pair.rightInputs d e n)).outputs (Pair.after d e n).toRight.front := by
      rw [ih.right]
    constructor
    · rw [Pair.after_succ, Pair.leftInputs_succ, runFrom_snoc, ← ih.left]
      rfl
    · rw [Pair.after_succ, Pair.rightInputs_succ, runFrom_snoc, ← ih.right]
      rfl
    · rw [Pair.after_succ, Pair.rightInputs_succ, sentPins_snoc, run_snoc, ← ih.toLeft, ← hright]
      rfl
    · rw [Pair.after_succ, Pair.leftInputs_succ, sentPins_snoc, run_snoc, ← ih.toRight, ← hleft]
      rfl
    · rw [Pair.leftInputs_succ, Pair.rightInputs_succ, sentPins_snoc, trace_snoc, ← ih.leftHears,
        ← ih.toLeft]
      rfl
    · rw [Pair.leftInputs_succ, Pair.rightInputs_succ, sentPins_snoc, trace_snoc, ← ih.rightHears,
        ← ih.toRight]
      rfl

/-- The packet a receiver finds in the frame of a request. -/
def ProtocolTxRequest.packet (r : ProtocolTxRequest) : Packet := bodyPacket (padBody r.frameBody)

/-- The endpoint that has received `own`, the first frames of the endpoint that has received
`peer`, captures each of them whole, drops it and stays silent. -/
structure DropsFrames (own peer : List RxPins) : Prop where
  arpReplyCount : (runFrom own).proto.arpReplyCount = 0
  noReply : ∀ r ∈ handedRequests own, r.isArpReply = false
  /-- Every frame the peer has sent completely is a beacon or a gratuitous ARP frame, and is
  captured as one packet. -/
  captured : ∃ frames, frames <+: acceptedRequests peer ∧
    wireRuns (drivenPins peer) = frames.map ProtocolTxRequest.nibbles ∧
    (∀ r ∈ frames, r.kind = .beacon ∨ r.kind = .gratuitousArp) ∧
    (publishedPackets own).map slotPacket = frames.map ProtocolTxRequest.packet
  whole : ∀ slot ∈ publishedPackets own, slot.1.truncated = false
  /-- The packets decided so far, among them all that have been captured for 200 cycles, were
  dropped. -/
  dropped : ∃ consumed waiting, publishedPackets own = consumed ++ waiting ∧
    (runFrom own).rxQueue.Holds waiting ∧
    (runFrom own).proto.rxProtocolDropCount = BitVec.ofNat 32 consumed.length ∧
    ∀ earlier more, own = earlier ++ more → 200 ≤ more.length →
      publishedPackets earlier <+: consumed

theorem EthHeader.ofBytes_toBytes (header : EthHeader) :
    EthHeader.ofBytes header.toBytes = header := by
  have hdst : Words.ofBytes 48 (header.toBytes.take 6) = header.dstMac :=
    Words.ofBytes_toBytes (n := 6) header.dstMac rfl
  have hsrc : Words.ofBytes 48 ((header.toBytes.drop 6).take 6) = header.srcMac :=
    Words.ofBytes_toBytes (n := 6) header.srcMac rfl
  have htype : Words.ofBytes 16 ((header.toBytes.drop 12).take 2) = header.ethertype :=
    Words.ofBytes_toBytes (n := 2) header.ethertype rfl
  rw [EthHeader.ofBytes, hdst, hsrc, htype]

theorem arpRequester_arpPayload (dst src senderMac targetMac : BitVec 48) (sip tip : BitVec 32)
    (pad : List Byte) :
    (bodyPacket ((EthHeader.mk dst src arpEthertype).toBytes ++
        (arpPayload arpOpcodeRequest senderMac sip targetMac tip ++ pad))).arpRequester =
      if (dst = fpgaMac ∨ dst = broadcastMac) ∧ toBytes 4 tip = toBytes 4 fpgaIp then
        some (senderMac, sip)
      else none := by
  generalize hpayload : arpPayload arpOpcodeRequest senderMac sip targetMac tip = payload
  obtain ⟨hrequest, hsmac, hsip, htip⟩ : (payload ++ pad).take 8 = arpRequestPrefix ∧
      ((payload ++ pad).drop 8).take 6 = toBytes 6 senderMac ∧
      ((payload ++ pad).drop 14).take 4 = toBytes 4 sip ∧
      ((payload ++ pad).drop 24).take 4 = toBytes 4 tip := by
    rw [← hpayload]
    exact ⟨rfl, rfl, rfl, rfl⟩
  have hlen : 28 ≤ payload.length + pad.length := by
    rw [← hpayload, length_arpPayload]
    exact Nat.le_add_right 28 pad.length
  have hbody : bodyPacket ((EthHeader.mk dst src arpEthertype).toBytes ++ (payload ++ pad)) =
      ⟨⟨dst, src, arpEthertype⟩, payload ++ pad, false⟩ :=
    congrArg (fun header => Packet.mk header (payload ++ pad) false)
      (EthHeader.ofBytes_toBytes ⟨dst, src, arpEthertype⟩)
  have hwants : (bodyPacket ((EthHeader.mk dst src arpEthertype).toBytes ++
      (payload ++ pad))).wantsArpParse = true ↔ dst = fpgaMac ∨ dst = broadcastMac := by
    rw [hbody]
    simp [Packet.wantsArpParse, hlen]
  rw [Packet.arpRequester, hbody]
  rw [hbody] at hwants
  simp only [hwants, hrequest, hsmac, hsip, htip, true_and,
    ofBytes_toBytes (n := 6) senderMac rfl, ofBytes_toBytes (n := 4) sip rfl]

theorem ProtocolTxRequest.Offered.arpRequester_packet {r : ProtocolTxRequest} (hr : r.Offered)
    (hkind : r.isArpReply = false) :
    r.packet.arpRequester = none ∧ (r.kind = .beacon ∨ r.kind = .gratuitousArp) := by
  cases hr with
  | gratuitousArp => exact ⟨by decide, Or.inr rfl⟩
  | beacon st rxQueue txQueue =>
    have hheader : (beaconSnapshot st rxQueue txQueue).packet.header =
        protocolTxBeaconRequest.header :=
      EthHeader.ofBytes_toBytes protocolTxBeaconRequest.header
    refine ⟨?_, Or.inl rfl⟩
    rw [Packet.arpRequester, if_neg]
    rintro ⟨hwants, -⟩
    rw [Packet.wantsArpParse, hheader] at hwants
    simp [protocolTxBeaconRequest, diagnosticBeaconEthertype, arpEthertype] at hwants
  | arpReply mac ip => simp [ProtocolTxRequest.isArpReply, arpReplyRequest] at hkind

theorem ProtocolTxRequest.Offered.wellFormed {r : ProtocolTxRequest} (hr : r.Offered) :
    r.WellFormed := by
  cases hr with
  | gratuitousArp => exact wellFormed_gratuitousArp
  | beacon st rxQueue txQueue => exact wellFormed_beaconSnapshot st rxQueue txQueue
  | arpReply mac ip => exact wellFormed_arpReply mac ip

theorem rxBursts_heard (k : ℕ) (peer : List RxPins) :
    rxBursts (List.replicate k .idle ++ sentPins peer) =
      (MaximalRuns.bursts TxPins.ethTxEn (drivenPins peer)).map
        (MaximalRuns.Burst.map TxPins.toRxPins) := by
  have hidle : ∀ p ∈ List.replicate k RxPins.idle, p.ethRxDv = false := by
    intro p hp
    rw [List.eq_of_mem_replicate hp]
    rfl
  obtain ⟨hnone, hpending⟩ := MaximalRuns.scan_all_off _ hidle
  rw [rxBursts, (MaximalRuns.scan_append _ (sentPins peer) hpending).1, hnone, List.nil_append]
  exact (MaximalRuns.scan_map TxPins.toRxPins RxPins.ethRxDv (drivenPins peer)).1

theorem wireRuns_frames (inputs : List RxPins) :
    ∃ frames, frames <+: acceptedRequests inputs ∧
      wireRuns (drivenPins inputs) = frames.map ProtocolTxRequest.nibbles := by
  obtain ⟨sent, held, left, h, hacc⟩ := txAt_run inputs
  rw [hacc, List.append_assoc]
  cases h.wire with
  | resting _ _ hruns => exact ⟨sent, List.prefix_append _ _, hruns⟩
  | sending _ _ _ _ _ _ _ _ _ hruns => exact ⟨sent, List.prefix_append _ _, hruns⟩
  | gap r rest _ hheld _ _ _ _ hruns =>
    refine ⟨sent ++ [r], ⟨rest ++ (runFrom inputs).proto.building, ?_⟩, hruns⟩
    rw [hheld]
    simp

theorem burstPacket_heard {run : MaximalRuns.Burst TxPins} {r : ProtocolTxRequest}
    (hr : r.WellFormed) (hrun : run.body.map TxPins.ethTxd = r.nibbles) :
    burstPacket (run.map TxPins.toRxPins) = some r.packet := by
  have hbounds := hr.len_bounds
  apply burstPacket_wire
  · refine Eq.trans ?_ hrun
    simp [MaximalRuns.Burst.map, TxPins.toRxPins]
  · simp [burstClean, MaximalRuns.Burst.map, TxPins.toRxPins]
  · rw [length_padBody]
    exact le_max_right _ _
  · rw [length_padBody, hr.length_frameBody, minBody]
    omega

theorem filterMap_heard {runs : List (MaximalRuns.Burst TxPins)} {frames : List ProtocolTxRequest}
    (hframes : ∀ r ∈ frames, r.WellFormed)
    (hruns : (runs.map fun run => run.body.map TxPins.ethTxd) =
      frames.map ProtocolTxRequest.nibbles) :
    (runs.map (MaximalRuns.Burst.map TxPins.toRxPins)).filterMap burstPacket =
      frames.map ProtocolTxRequest.packet := by
  induction runs generalizing frames with
  | nil =>
    rw [List.map_nil] at hruns
    rw [List.map_eq_nil_iff.mp hruns.symm]
    rfl
  | cons run runs ih =>
    obtain ⟨r, frames, rfl, hhead, htail⟩ := List.map_eq_cons_iff.mp hruns.symm
    have hpacket := burstPacket_heard (hframes r (by simp)) hhead.symm
    have hrest := ih (fun q hq => hframes q (by simp [hq])) htail.symm
    rw [List.map_cons, List.filterMap_cons_some hpacket, hrest]
    rfl

theorem dropsFrames_of_quiet (k : ℕ) {own peer : List RxPins}
    (hown : own = List.replicate k .idle ++ sentPins peer)
    (hpeer : ∀ r ∈ acceptedRequests peer, r.isArpReply = false) : DropsFrames own peer := by
  obtain ⟨frames, hprior, hruns⟩ := wireRuns_frames peer
  have hoffered : ∀ r ∈ frames, r.Offered :=
    fun r hr => offered_of_accepted peer r (hprior.subset hr)
  have hkinds : ∀ r ∈ frames,
      r.packet.arpRequester = none ∧ (r.kind = .beacon ∨ r.kind = .gratuitousArp) :=
    fun r hr => (hoffered r hr).arpRequester_packet (hpeer r (hprior.subset hr))
  have hpublished : (publishedPackets own).map slotPacket =
      frames.map ProtocolTxRequest.packet := by
    rw [map_slotPacket_publishedPackets, hown, rxBursts_heard]
    exact filterMap_heard (fun r hr => (hoffered r hr).wellFormed) hruns
  have hslot : ∀ slot ∈ publishedPackets own,
      slot.1.truncated = false ∧ slotRequester slot = none := by
    intro slot hmem
    have hpacket := List.mem_map_of_mem (f := slotPacket) hmem
    rw [hpublished] at hpacket
    obtain ⟨r, hr, heq⟩ := List.mem_map.mp hpacket
    refine ⟨(congrArg Packet.truncated heq).symm, ?_⟩
    rw [slotRequester, ← heq]
    exact (hkinds r hr).1
  obtain ⟨consumed, waiting, hd⟩ := decided_run own
  have hnone : ∀ slot ∈ consumed, slotRequester slot = none :=
    fun slot hmem => (hslot slot (by rw [hd.published]; exact List.mem_append_left _ hmem)).2
  have hverdicts : consumed.filterMap slotRequester = [] :=
    List.filterMap_eq_nil_iff.mpr hnone
  have hreplies := hd.replies
  rw [hverdicts] at hreplies
  refine ⟨?_, ?_, ⟨frames, hprior, hruns, fun r hr => (hkinds r hr).2, hpublished⟩,
    fun slot hmem => (hslot slot hmem).1,
    ⟨consumed, waiting, hd.published, hd.rx.stage.ring, ?_, ?_⟩⟩
  · rw [hd.rx.handler.arpReplyCount, hverdicts]
    rfl
  · intro r hr
    rw [← Bool.not_eq_true]
    exact List.filter_eq_nil_iff.mp hreplies r hr
  · rw [hd.rx.handler.rxProtocolDropCount]
    congr 1
    exact List.countP_eq_length.mpr fun slot hmem => by rw [hnone slot hmem]; rfl
  · rintro earlier more rfl hlong
    obtain ⟨consumed', waiting', hd', hwithin⟩ := decided_within earlier more hlong
    rw [hd.consumed_eq hd']
    exact hwithin

theorem heard_eq (d : ℕ) {own peer : List RxPins} (hlen : own.length = peer.length)
    (hown : own = trace DelayLine.shift DelayLine.leaving (.filled .idle d) (sentPins peer)) :
    own = List.replicate (min own.length (d + 1)) .idle ++
      sentPins (peer.take (own.length - (d + 1))) := by
  have hsent : (sentPins peer).length = own.length := by
    rw [hlen, sentPins, List.length_map]
    exact length_trace _ _ _ _
  have htake : sentPins (peer.take (own.length - (d + 1))) =
      (sentPins peer).take (own.length - (d + 1)) := by
    rw [sentPins, sentPins, ← List.map_take]
    exact congrArg _ (take_trace _ _ _ _ _).symm
  rw [DelayLine.trace_leaving, hsent, DelayLine.cells_filled, List.take_append,
    List.take_replicate, List.length_replicate] at hown
  rw [htake]
  exact hown

theorem noReply_accepted {inputs : List RxPins}
    (h : ∀ r ∈ handedRequests inputs, r.isArpReply = false) :
    ∀ r ∈ acceptedRequests inputs, r.isArpReply = false := by
  have hcount := countP_handedRequests ProtocolTxRequest.isArpReply inputs
  rw [List.countP_eq_zero.mpr fun r hr => by simp [h r hr]] at hcount
  have hzero : (acceptedRequests inputs).countP ProtocolTxRequest.isArpReply = 0 := by omega
  intro r hr
  simpa using List.countP_eq_zero.mp hzero r hr

/-- Both endpoints of a pair after `n` cycles. The left one has heard what the right one sent in
its first `n - (d + 1)` cycles, and conversely. -/
structure PairDrops (d e n : ℕ) : Prop where
  left : DropsFrames (Pair.leftInputs d e n) (Pair.rightInputs d e (n - (d + 1)))
  right : DropsFrames (Pair.rightInputs d e n) (Pair.leftInputs d e (n - (e + 1)))

theorem pairDrops (d e n : ℕ) : PairDrops d e n := by
  induction n using Nat.strong_induction_on with
  | _ n ih =>
    have hat := pairAt d e n
    have hleft := heard_eq d (by simp) hat.leftHears
    have hright := heard_eq e (by simp) hat.rightHears
    rw [Pair.length_leftInputs, Pair.take_rightInputs d e (Nat.sub_le _ _)] at hleft
    rw [Pair.length_rightInputs, Pair.take_leftInputs d e (Nat.sub_le _ _)] at hright
    -- what is heard now was sent in a shorter run
    have hquiet : ∀ m, m < n ∨ m = 0 →
        (∀ r ∈ acceptedRequests (Pair.leftInputs d e m), r.isArpReply = false) ∧
          ∀ r ∈ acceptedRequests (Pair.rightInputs d e m), r.isArpReply = false := by
      rintro m (hm | rfl)
      · exact ⟨noReply_accepted (ih m hm).left.noReply, noReply_accepted (ih m hm).right.noReply⟩
      · exact ⟨by simp [Pair.leftInputs, acceptedRequests],
          by simp [Pair.rightInputs, acceptedRequests]⟩
    exact ⟨dropsFrames_of_quiet _ hleft (hquiet _ (by omega)).2,
      dropsFrames_of_quiet _ hright (hquiet _ (by omega)).1⟩

/-- No reply storm: two cross-connected endpoints never reply to each other, whatever the delays
of the links, and drop every frame they hear. -/
theorem no_reply_storm (d e n : ℕ) :
    (Pair.after d e n).left.proto.arpReplyCount = 0 ∧
      (Pair.after d e n).right.proto.arpReplyCount = 0 ∧
      (Pair.after d e n).left = runFrom (Pair.leftInputs d e n) ∧
      (Pair.after d e n).right = runFrom (Pair.rightInputs d e n) ∧ PairDrops d e n := by
  have hat := pairAt d e n
  have hdrops := pairDrops d e n
  refine ⟨?_, ?_, hat.left, hat.right, hdrops⟩
  · rw [hat.left]
    exact hdrops.left.arpReplyCount
  · rw [hat.right]
    exact hdrops.right.arpReplyCount

end ArtyEthernet
