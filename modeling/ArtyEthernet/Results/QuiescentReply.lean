import ArtyEthernet.Proofs.Serving
import ArtyEthernet.Results.ArpResponder
import ArtyEthernet.Results.WireFrames

/-!
# A quiescent endpoint answers

Any well-formed ARP request, behind any preamble, is answered by exactly one frame and leaves the
endpoint as idle as it was.
-/

namespace ArtyEthernet
open Words

/-- No burst in progress, both rings empty, nothing parsed, prepared or sent. -/
structure Endpoint.Quiescent (s : Endpoint) : Prop where
  noBurst : s.capture.mii.rxInFrame = false
  rxEmpty : ∀ i, s.rxQueue.valid i = false
  txEmpty : ∀ i, s.txQueue.valid i = false
  protocolIdle : s.proto.protocolState = .protoIdle
  notPreparing : s.proto.preparingPayload = false
  framerIdle : s.drain.framer.txState = .txIdle

/-- An Ethernet frame that carries an ARP request for the endpoint. -/
structure ArpRequestFrame where
  dstMac : BitVec 48
  srcMac : BitVec 48
  senderMac : BitVec 48
  senderIp : BitVec 32
  targetMac : BitVec 48
  tail : List Byte
  fcs : BitVec 32
  dst_ok : dstMac = fpgaMac ∨ dstMac = broadcastMac
  tail_le : tail.length ≤ 1472

namespace ArpRequestFrame

def payload (f : ArpRequestFrame) : List Byte :=
  arpPayload arpOpcodeRequest f.senderMac f.senderIp f.targetMac fpgaIp ++ f.tail

def data (f : ArpRequestFrame) : List Byte :=
  toBytes 6 f.dstMac ++ toBytes 6 f.srcMac ++ toBytes 2 arpEthertype ++ f.payload ++ toBytes 4 f.fcs

/-- The pins that carry the frame behind `k` preamble bytes and the delimiter. -/
def pins (f : ArpRequestFrame) (k : ℕ) : List RxPins :=
  (toNibbles (List.replicate k 0x55#8 ++ 0xd5#8 :: f.data)).map fun d => ⟨true, d, false⟩

def answerBody (f : ArpRequestFrame) : List Byte :=
  toBytes 6 f.senderMac ++ toBytes 6 fpgaMac ++ toBytes 2 arpEthertype ++
    arpPayload arpOpcodeReply fpgaMac fpgaIp f.senderMac f.senderIp ++ List.replicate 18 0#8

theorem length_payload (f : ArpRequestFrame) : f.payload.length = 28 + f.tail.length := by
  simp [payload]

theorem length_data (f : ArpRequestFrame) : f.data.length = f.payload.length + 18 := by
  simp [data]
  omega

theorem length_pins (f : ArpRequestFrame) (k : ℕ) :
    (f.pins k).length = 2 * (k + 1 + (46 + f.tail.length)) := by
  simp only [pins, List.length_map, length_toNibbles, List.length_append, List.length_replicate,
    List.length_cons, f.length_data, f.length_payload]
  omega

theorem ethRxDv_pins (f : ArpRequestFrame) (k : ℕ) : ∀ p ∈ f.pins k, p.ethRxDv = true := by
  intro p hp
  obtain ⟨d, -, rfl⟩ := List.mem_map.mp hp
  rfl

theorem acceptedRequester_pins (f : ArpRequestFrame) (k : ℕ) {stop : RxPins}
    (hclean : stop.ethRxerr = false) :
    acceptedRequester ⟨f.pins (k + 1), stop⟩ = some (f.senderMac, f.senderIp) := by
  have htail := f.tail_le
  have hlen := f.length_payload
  have hdata : burstData ⟨f.pins (k + 1), stop⟩ = f.data := by
    have hnibbles : (f.pins (k + 1)).map RxPins.ethRxd =
        toNibbles (List.replicate (k + 1) 0x55#8 ++ 0xd5#8 :: f.data) := by
      rw [pins, List.map_map]
      exact List.map_id _
    rw [burstData, pinBytes, hnibbles, pairNibbles_toNibbles, dataBytes_preamble]
  have hburst : burstClean ⟨f.pins (k + 1), stop⟩ = true := by
    simp [burstClean, pins, hclean]
  have hdst : Words.ofBytes 48 (f.data.take 6) = f.dstMac := ofBytes_toBytes (n := 6) f.dstMac rfl
  have htype : Words.ofBytes 16 ((f.data.drop 12).take 2) = arpEthertype :=
    ofBytes_toBytes (n := 2) arpEthertype rfl
  have hpayload : (f.data.drop 14).take (f.data.length - 18) = f.payload := by
    rw [f.length_data, Nat.add_sub_cancel]
    exact List.take_left
  have hrequest : f.payload.take 8 = arpRequestPrefix := rfl
  have htarget : (f.payload.drop 24).take 4 = toBytes 4 fpgaIp := rfl
  have hmac : Words.ofBytes 48 ((f.payload.drop 8).take 6) = f.senderMac :=
    ofBytes_toBytes (n := 6) f.senderMac rfl
  have hip : Words.ofBytes 32 ((f.payload.drop 14).take 4) = f.senderIp :=
    ofBytes_toBytes (n := 4) f.senderIp rfl
  simp only [acceptedRequester, hdata, hpayload, hmac, hip]
  rw [if_pos ⟨hburst, by rw [f.length_data]; omega, by rw [f.length_data]; omega,
    hdst ▸ f.dst_ok, htype, hrequest, htarget⟩]

end ArpRequestFrame

section Rest
variable {base new waiting : List RxSlot} {earlier sent held : List ProtocolTxRequest} {left : ℕ}
  {inputs : List RxPins}

theorem TxAt.held_of_empty (h : TxAt sent held (drivenPins inputs) left (runFrom inputs))
    (hempty : ∀ i, (runFrom inputs).txQueue.valid i = false) : held = [] := by
  obtain ⟨slots, hring, hslots⟩ := h.ring.slots
  rw [hring.nil_iff.mpr hempty] at hslots
  exact List.forall₂_nil_left_iff.mp hslots

/-- No burst is open and nothing waits, is held or prepared. -/
theorem quiescent_of_rest {consumed : List RxSlot}
    (hrx : RxAt consumed [] (rxPending inputs) (runFrom inputs))
    (htx : TxAt sent [] (drivenPins inputs) left (runFrom inputs))
    (hpending : rxPending inputs = [])
    (hprep : (runFrom inputs).proto.preparingPayload = false) : (runFrom inputs).Quiescent := by
  obtain ⟨slots, hring, hslots⟩ := htx.ring.slots
  have hnil : slots = [] := List.forall₂_nil_right_iff.mp hslots
  exact ⟨(rxPending_nil_iff hrx).mp hpending, hrx.stage.ring.nil_iff.mp rfl,
    hring.nil_iff.mp hnil, hrx.idle_of_nil, hprep, htx.wire.rest.1⟩

theorem serving_of_quiescent (prior : List RxPins) (h : (runFrom prior).Quiescent) :
    ∃ base sent left, Serving base (acceptedRequests prior) 0 prior [] [] sent [] left := by
  obtain ⟨base, waiting, hrx⟩ := decided_run prior
  obtain ⟨sent, held, left, htx, hcarried⟩ := txAt_run prior
  obtain rfl : waiting = [] := hrx.rx.stage.ring.nil_iff.mpr h.rxEmpty
  obtain rfl := htx.held_of_empty h.txEmpty
  have hbuilding := Protocol.building_nil.mpr h.notPreparing
  refine ⟨base, sent, left, by rwa [List.append_nil], htx, hcarried, by simp [arpReplies], ?_, ?_⟩
  · rw [hbuilding]
    exact Nat.zero_le 1
  · obtain ⟨-, -, -, hleft⟩ := htx.wire.rest
    rw [Protocol.txWork, hbuilding, buildCost_off h.notPreparing, hleft]
    exact Nat.zero_le _

theorem Serving.quiescent (h : Serving base earlier 0 inputs new waiting sent held left)
    (hpending : rxPending inputs = []) : (runFrom inputs).Quiescent := by
  obtain ⟨rfl, rfl, -, hprep, -⟩ := h.rest
  exact quiescent_of_rest h.rx.rx h.tx hpending hprep

theorem Serving.wire_rest (h : Serving base earlier 0 inputs new waiting sent held left) :
    wireRuns (drivenPins inputs) = (acceptedRequests inputs).map ProtocolTxRequest.nibbles ∧
      wireOpen (drivenPins inputs) = [] := by
  obtain ⟨rfl, rfl, -, hprep, -⟩ := h.rest
  obtain ⟨-, hruns, hopen, -⟩ := h.tx.wire.rest
  refine ⟨?_, hopen⟩
  rw [hruns, h.carried, Protocol.building_nil.mpr hprep, List.append_nil, List.append_nil]

theorem Serving.emittedFrames_rest
    (h : Serving base earlier 0 inputs new waiting sent held left) :
    emittedFrames inputs = (acceptedRequests inputs).map ProtocolTxRequest.wireFrame := by
  obtain ⟨hruns, hopen⟩ := h.wire_rest
  apply emittedFrames_eq
  simp [emittedRuns, hruns, hopen]

end Rest

def NoTicks (prior window : List RxPins) : Prop :=
  ∀ history i, history ++ [i] <+: window →
    (runFrom (prior ++ history)).proto.ticks = ⟨false, false⟩

theorem rxBursts_window {prior on rest : List RxPins} {stop : RxPins}
    (hprior : rxPending prior = []) (hne : on ≠ []) (hon : ∀ p ∈ on, p.ethRxDv = true)
    (hstop : stop.ethRxDv = false) (hrest : ∀ p ∈ rest, p.ethRxDv = false) :
    rxBursts (prior ++ on ++ stop :: rest) = rxBursts prior ++ [⟨on, stop⟩] ∧
      rxPending (prior ++ on ++ stop :: rest) = [] := by
  have hwindow := MaximalRuns.scan_run_then_off on stop rest hne hon hstop hrest
  have happend := MaximalRuns.scan_append prior (on ++ stop :: rest) hprior
  rw [List.append_assoc]
  exact ⟨happend.1.trans (congrArg _ hwindow.1), happend.2.trans hwindow.2⟩

theorem rxPending_on {prior on : List RxPins} (hprior : rxPending prior = [])
    (hon : ∀ p ∈ on, p.ethRxDv = true) : rxPending (prior ++ on) = on :=
  (MaximalRuns.scan_append prior on hprior).2.trans (MaximalRuns.scan_all_on on hon).2

theorem new_of_window {base new : List RxSlot} {earlier sent held : List ProtocolTxRequest}
    {sent₀ : List ProtocolTxRequest} {left left₀ : ℕ} {prior inputs : List RxPins} {r : RxBurst}
    {packet : Packet} {waiting : List RxSlot}
    (hprior : Serving base earlier 0 prior [] [] sent₀ [] left₀)
    (h : Serving base earlier 0 inputs new waiting sent held left)
    (hbursts : rxBursts inputs = rxBursts prior ++ [r]) (hpacket : burstPacket r = some packet) :
    new.filterMap slotRequester = packet.arpRequester.toList := by
  have hbefore := map_slotPacket_publishedPackets prior
  have hafter := map_slotPacket_publishedPackets inputs
  rw [hprior.rx.published, List.append_nil, List.append_nil] at hbefore
  rw [h.rx.published, h.rest.waiting, List.append_nil, List.map_append, hbefore, hbursts,
    List.filterMap_append, List.append_cancel_left_eq] at hafter
  have hnew : new.map slotPacket = [packet] := by
    rw [hafter]
    simp [hpacket]
  have hverdicts : new.filterMap slotRequester =
      (new.map slotPacket).filterMap Packet.arpRequester := by
    rw [List.filterMap_map]
    rfl
  rw [hverdicts, hnew]
  cases hv : packet.arpRequester <;> simp [hv]

/-- A quiescent endpoint that receives one packet is quiescent again when the line has been idle
for 239 cycles, and has sent the answer if the packet asked for one. -/
theorem serve_window {prior on rest : List RxPins} {stop : RxPins} {packet : Packet}
    (hquiescent : (runFrom prior).Quiescent) (hne : on ≠ [])
    (hon : ∀ p ∈ on, p.ethRxDv = true) (hstop : stop.ethRxDv = false)
    (hrest : ∀ p ∈ rest, p.ethRxDv = false) (hlong : 238 ≤ rest.length)
    (hticks : NoTicks prior (on ++ stop :: rest))
    (hpacket : burstPacket ⟨on, stop⟩ = some packet) :
    emittedFrames (prior ++ on ++ stop :: rest) = emittedFrames prior ++
        (arpReplies packet.arpRequester.toList).map ProtocolTxRequest.wireFrame ∧
      (runFrom (prior ++ on ++ stop :: rest)).Quiescent := by
  obtain ⟨base, sent₀, left₀, hserve⟩ := serving_of_quiescent prior hquiescent
  have hprior : rxPending prior = [] := (rxPending_nil_iff hserve.rx.rx).mpr hquiescent.noBurst
  have hsplit : on ++ stop :: rest = on ++ [stop] ++ rest := by simp
  rw [hsplit] at hticks
  obtain ⟨new₁, waiting₁, sent₁, held₁, left₁, hburst⟩ := hserve.run_quiet on fun history j hj => by
    have hrun : history ++ [j] <+: on ++ [stop] ++ rest := by
      rw [List.append_assoc]
      exact hj.trans (List.prefix_append on _)
    exact ⟨hticks history j hrun, published_none (Or.inl (hon j (hj.subset (by simp))))⟩
  rw [Nat.zero_sub] at hburst
  have hcompleted : completedPacket (rxPending (prior ++ on)) stop = some packet := by
    rw [rxPending_on hprior hon, completedPacket, if_neg (by simp [hstop, hne]), hpacket]
  obtain ⟨slot, hslot, -⟩ := Option.map_eq_some_iff.mp (published_of_completed hcompleted)
  obtain ⟨new₂, waiting₂, sent₂, held₂, left₂, harrived⟩ :=
    hburst.step_arrival (hticks on stop (List.prefix_append _ rest)) hslot
  obtain ⟨new, waiting, sent, held, left, hdone⟩ := harrived.run_quiet rest fun history j hj => by
    have hidle : ∀ p ∈ history, p.ethRxDv = false :=
      fun p hp => hrest p (hj.subset (List.mem_append_left _ hp))
    have hpending := (rxBursts_window hprior hne hon hstop hidle).2
    have hclosed : prior ++ on ++ stop :: history = prior ++ on ++ [stop] ++ history := by simp
    rw [hclosed] at hpending
    refine ⟨?_, published_none (Or.inr hpending)⟩
    have hlater := hticks (on ++ [stop] ++ history) j (by
      rw [List.append_assoc, List.append_assoc, List.append_assoc on]
      exact (List.prefix_append_right_inj _).mpr ((List.prefix_append_right_inj _).mpr hj))
    simpa using hlater
  have hwhole : prior ++ on ++ [stop] ++ rest = prior ++ on ++ stop :: rest := by simp
  rw [hwhole, Nat.sub_eq_zero_of_le hlong] at hdone
  obtain ⟨hbursts, hpending⟩ := rxBursts_window hprior hne hon hstop hrest
  refine ⟨?_, hdone.quiescent hpending⟩
  rw [hdone.emittedFrames_rest, hdone.accepted, new_of_window hserve hdone hbursts hpacket,
    List.map_append, hserve.emittedFrames_rest]

namespace ArpRequestFrame

theorem wireFrame_answer (f : ArpRequestFrame) :
    (arpReplyRequest f.senderMac f.senderIp).wireFrame = wireBytes f.answerBody := by
  have hpad : padBody (arpReplyRequest f.senderMac f.senderIp).frameBody = f.answerBody := by
    rw [padBody, (wellFormed_arpReply _ _).length_frameBody]
    rfl
  rw [ProtocolTxRequest.wireFrame, hpad]

theorem serve_pins (prior : List RxPins) (f : ArpRequestFrame) (k : ℕ) (idle : List RxPins)
    (hquiescent : (runFrom prior).Quiescent) (hk : 0 < k) (hlen : 239 ≤ idle.length)
    (hidle : ∀ p ∈ idle, p.ethRxDv = false) (hclean : ∀ p ∈ idle.head?, p.ethRxerr = false)
    (hticks : NoTicks prior (f.pins k ++ idle)) :
    emittedFrames (prior ++ f.pins k ++ idle) =
        emittedFrames prior ++ [wireBytes f.answerBody] ∧
      (runFrom (prior ++ f.pins k ++ idle)).Quiescent := by
  obtain ⟨k, rfl⟩ := Nat.exists_eq_add_of_le' hk
  obtain ⟨stop, rest, rfl⟩ := List.exists_cons_of_length_pos (show 0 < idle.length by omega)
  have hstop : stop.ethRxDv = false := hidle stop (by simp)
  have hrequester := f.acceptedRequester_pins k (hclean stop rfl)
  rw [← arpRequester_burstPacket] at hrequester
  obtain ⟨packet, hpacket, hanswer⟩ := Option.bind_eq_some_iff.mp hrequester
  have hon := f.ethRxDv_pins (k + 1)
  have hne : f.pins (k + 1) ≠ [] := by
    simp [ArpRequestFrame.pins, List.replicate_succ]
  have hrest : ∀ p ∈ rest, p.ethRxDv = false := fun p hp => hidle p (by simp [hp])
  rw [List.length_cons] at hlen
  obtain ⟨hframes, hquiet⟩ := serve_window hquiescent hne hon hstop hrest (by omega) hticks hpacket
  refine ⟨?_, hquiet⟩
  rw [hframes, hanswer]
  exact congrArg (fun frame => emittedFrames prior ++ [frame]) f.wireFrame_answer

end ArpRequestFrame

/-- A quiescent endpoint answers every well-formed ARP request with exactly one frame, its body
padded to 60 bytes, and is quiescent again 256 idle cycles after the request. -/
theorem quiescent_reply (prior : List RxPins) (f : ArpRequestFrame) (k : ℕ) (idle : List RxPins)
    (hquiescent : (runFrom prior).Quiescent) (hk : 0 < k) (hlen : idle.length = 256)
    (hidle : ∀ p ∈ idle, p.ethRxDv = false) (hclean : ∀ p ∈ idle.head?, p.ethRxerr = false)
    (hticks : NoTicks prior (f.pins k ++ idle)) :
    emittedFrames (prior ++ f.pins k ++ idle) =
        emittedFrames prior ++ [wireBytes f.answerBody] ∧
      f.answerBody.length = 60 ∧ (runFrom (prior ++ f.pins k ++ idle)).Quiescent := by
  obtain ⟨hframes, hquiet⟩ := f.serve_pins prior k idle hquiescent hk (by omega) hidle hclean hticks
  exact ⟨hframes, by simp [ArpRequestFrame.answerBody], hquiet⟩

def ArpRequestFrame.probe : ArpRequestFrame where
  dstMac := broadcastMac
  srcMac := 0x020000000002
  senderMac := 0x020000000002
  senderIp := 0xC0A80101
  targetMac := 0
  tail := List.replicate 18 0
  fcs := 0
  dst_ok := Or.inr rfl
  tail_le := by simp

theorem noTicks_early {window : List RxPins} (h : window.length < 25000000) :
    NoTicks [] window := by
  intro history i hi
  have hlen := hi.length_le
  rw [List.length_append, List.length_singleton] at hlen
  rw [ticks_run, List.nil_append, ticksAfter, decide_eq_false (by omega),
    decide_eq_false (by omega)]

theorem quiescent_reset : (runFrom []).Quiescent := ⟨rfl, fun _ => rfl, fun _ => rfl, rfl, rfl, rfl⟩

/-- The first request after reset. -/
theorem quiescent_reply_probe :
    emittedFrames ([] ++ ArpRequestFrame.probe.pins 7 ++
        List.replicate 256 ⟨false, 0, false⟩) =
        emittedFrames [] ++ [wireBytes ArpRequestFrame.probe.answerBody] ∧
      ArpRequestFrame.probe.answerBody.length = 60 ∧
      (runFrom ([] ++ ArpRequestFrame.probe.pins 7 ++
        List.replicate 256 ⟨false, 0, false⟩)).Quiescent :=
  quiescent_reply [] .probe 7 _ quiescent_reset (by decide) (List.length_replicate ..)
    (fun p hp => by rw [List.eq_of_mem_replicate hp])
    (fun p hp => by rw [List.eq_of_mem_replicate (List.mem_of_mem_head? hp)])
    (noTicks_early (by
      rw [List.length_append, ArpRequestFrame.length_pins, List.length_replicate]
      decide))

end ArtyEthernet
