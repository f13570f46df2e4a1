import ArtyEthernet.Proofs.Backlog

/-!
# Who owns which slot

Five machines share the two rings through copied slot indices. In every reachable state each copy
still names the slot it was taken from, so writers only touch free slots and readers only valid
ones.
-/

namespace ArtyEthernet
open Words

structure SlotOwnership (s : Endpoint) : Prop where
  rxFlags : s.rxQueue.FlagsCyclic
  txFlags : s.txQueue.FlagsCyclic
  /-- A burst is captured into a slot that is not valid. -/
  capturing : s.capture.mii.rxInFrame = true → s.capture.rxDropCurrent = false →
    s.rxQueue.valid s.rxQueue.writeIdx = false
  /-- The packet being parsed is the first one in the ring and long enough. -/
  parsing : s.proto.protocolState = .protoParseArp →
    s.proto.parseRxIdx = s.rxQueue.readIdx ∧ s.rxQueue.valid s.rxQueue.readIdx = true ∧
      (s.rxQueue.slotMeta s.rxQueue.readIdx).truncated = false ∧
      28 ≤ (s.rxQueue.slotMeta s.rxQueue.readIdx).payloadLen.toNat
  /-- A response is built in the write slot, which is not valid. -/
  preparing : s.proto.preparingPayload = true →
    s.proto.prepareTxIdx = s.txQueue.writeIdx ∧ s.txQueue.valid s.txQueue.writeIdx = false ∧
      s.proto.prepareIndex.toNat < s.proto.prepareRequest.len.toNat ∧
      s.proto.prepareRequest.len.toNat ≤ 143
  framing : s.drain.framerActive = true ↔ s.drain.framer.txState ≠ .txIdle
  /-- The framer drains the first packet in the ring. -/
  framingSlot : s.drain.framerActive = true →
    s.drain.framerSlotIdx = s.txQueue.readIdx ∧ s.txQueue.valid s.txQueue.readIdx = true

theorem WireAt.framing {sent held : List ProtocolTxRequest} {drain : TxDrain}
    {readIdx : BitVec 2} {pins : List TxPins} {left : ℕ}
    (h : WireAt sent held drain readIdx pins left) :
    (drain.framerActive = true ↔ drain.framer.txState ≠ .txIdle) ∧
      (drain.framerActive = true → drain.framerSlotIdx = readIdx ∧ held ≠ []) := by
  cases h with
  | resting inactive idle => simp [inactive, idle]
  | sending r rest k hheld active slot frame =>
    exact ⟨⟨fun _ => frame.not_idle, fun _ => active⟩, fun _ => ⟨slot, by simp [hheld]⟩⟩
  | gap r rest k hheld active slot frame =>
    exact ⟨⟨fun _ => frame.not_idle, fun _ => active⟩, fun _ => ⟨slot, by simp [hheld]⟩⟩

theorem slotOwnership {consumed waiting : List RxSlot} {cur : List RxPins} {s : Endpoint}
    {sent held : List ProtocolTxRequest} {pins : List TxPins} {left : ℕ}
    (hrx : RxAt consumed waiting cur s) (htx : TxAt sent held pins left s) : SlotOwnership s where
  rxFlags := hrx.stage.ring.flagsCyclic
  txFlags := by
    obtain ⟨slots, hring, -⟩ := htx.ring.slots
    exact hring.flagsCyclic
  capturing hin hdrop := by
    have hne : cur ≠ [] := by
      have hflag := hrx.stage.burst.inFrame
      rintro rfl
      simp [hin] at hflag
    exact hrx.stage.writeSlot_free hne hdrop
  parsing hstate := by
    obtain ⟨slot, rest, hwaiting, hat⟩ := hrx.handler.parsing hstate
    have hring := hrx.handler.ring
    rw [hwaiting] at hring
    have hwants := hat.wants
    simp only [RxPacketMeta.wantsArpParse, Bool.and_eq_true, decide_eq_true_eq] at hwants
    rw [hring.head.1]
    exact ⟨hat.rxIdx, hring.readSlotValid_cons, hat.whole, hwants.2⟩
  preparing hprep := by
    have hb := htx.ring.building hprep
    exact ⟨hb.slot, hb.free, hb.index, hb.request.len_bounds.2⟩
  framing := htx.wire.framing.1
  framingSlot hactive := by
    obtain ⟨hslot, hne⟩ := htx.wire.framing.2 hactive
    obtain ⟨slots, hring, hslots⟩ := htx.ring.slots
    exact ⟨hslot, (ringShows hring hslots).valid.mpr hne⟩

def Endpoint.selectStage (s : Endpoint) (i : RxPins) : ProtocolStage :=
  protocolSelectStep s.proto (s.rxStage i).2 s.txQueue

def Endpoint.framerSlot (s : Endpoint) (i : RxPins) : BitVec 2 :=
  if txStartRequest s.drain (s.protoStage i).txQueue then (s.protoStage i).txQueue.readIdx
  else s.drain.framerSlotIdx

structure SlotSafety (s : Endpoint) (i : RxPins) : Prop where
  /-- Metadata and bytes of a packet do not change while it is in its ring. -/
  rxKept : ∀ slot, s.rxQueue.valid slot = true →
    (s.step i).rxQueue.cell slot = s.rxQueue.cell slot
  txKept : ∀ slot, s.txQueue.valid slot = true →
    (s.step i).txQueue.cell slot = s.txQueue.cell slot
  /-- Bytes are written into slots that are not valid. -/
  captureWrite : (rxSampleStep s.capture i s.rxQueue).event.byteValid = true →
    (rxSampleStep s.capture i s.rxQueue).rxDropCurrent = false →
    s.rxQueue.valid s.rxQueue.writeIdx = false
  prepareWrite : (s.selectStage i).st.preparingPayload = true →
    (s.selectStage i).txQueue.valid (s.selectStage i).st.prepareTxIdx = false
  /-- The parser and the framer read valid slots. -/
  parseRead : s.proto.protocolState = .protoParseArp →
    (s.rxStage i).2.valid s.proto.parseRxIdx = true ∧
      s.proto.parseIndex.toNat < ((s.rxStage i).2.slotMeta s.proto.parseRxIdx).payloadLen.toNat
  framerRead :
    s.drain.framerActive = true ∨ txStartRequest s.drain (s.protoStage i).txQueue = true →
      (s.protoStage i).txQueue.valid (s.framerSlot i) = true
  /-- Only valid slots are consumed. -/
  rxConsume : (s.step i).rxQueue = (s.rxStage i).2 ∨
    (s.step i).rxQueue = packetQueueConsumeReadSlot (s.rxStage i).2 ∧
      (s.rxStage i).2.valid (s.rxStage i).2.readIdx = true
  txConsume : (s.step i).txQueue = (s.protoStage i).txQueue ∨
    (s.step i).txQueue = packetQueueConsumeReadSlot (s.protoStage i).txQueue ∧
      (s.protoStage i).txQueue.valid (s.protoStage i).txQueue.readIdx = true
  /-- A packet is published into a free slot. -/
  rxPublish : (rxSampleStep s.capture i s.rxQueue).published.isSome = true →
    packetQueueWriteSlotAvailable (rxSampleStep s.capture i s.rxQueue).rxQueue = true
  txPublish : s.finished i ≠ [] → packetQueueWriteSlotAvailable (s.selectStage i).txQueue = true

structure IndexBounds (s : Endpoint) (i : RxPins) : Prop where
  fcsTail : s.capture.parser.rxFcsTailCount.toNat ≤ 4
  payload : s.capture.parser.rxPayloadCount.toNat ≤ maxEthPayloadBytesInt
  parse : s.proto.protocolState = .protoParseArp →
    s.proto.parseIndex.toNat < maxEthPayloadBytesInt
  prepare : (s.selectStage i).st.preparingPayload = true →
    (s.selectStage i).st.prepareIndex.toNat < txFrameBodyBytesInt
  framer : s.drain.framer.txState = .txData →
    s.drain.framer.txByteIndex.toNat < txFrameBodyBytesInt

variable {consumed waiting : List RxSlot} {cur : List RxPins} {s : Endpoint}
  {sent held : List ProtocolTxRequest} {pins : List TxPins} {left : ℕ}

theorem RxAt.cell_kept (h : RxAt consumed waiting cur s) (i : RxPins) {slot : BitVec 3}
    (hvalid : s.rxQueue.valid slot = true) :
    (s.step i).rxQueue.cell slot = s.rxQueue.cell slot := by
  have spec := rxSampleStep_spec s.capture i s.rxQueue
  have hbytes := h.stage.sample_bytes i hvalid
  obtain ⟨hb, hm, -, -⟩ := protocolSelectStep_rxQueue s.proto (s.rxStage i).2 s.txQueue
  change (s.protoStage i).rxQueue.bytes = _ at hb
  change (s.protoStage i).rxQueue.slotMeta = _ at hm
  change (s.protoStage i).rxQueue.cell slot = _
  rw [PacketSlotQueue.cell, hb, hm]
  simp only [Endpoint.rxStage, ethernetRxQueueStep]
  cases hpub : (rxSampleStep s.capture i s.rxQueue).published with
  | none => rw [hbytes, spec.slotMeta]; rfl
  | some rxMeta =>
    have hroom := h.stage.published_room (Option.isSome_of_eq_some hpub)
    have hw : s.rxQueue.valid s.rxQueue.writeIdx = false := h.stage.ring.write_free_iff.mpr hroom
    have hne : slot ≠ s.rxQueue.writeIdx := by
      rintro rfl
      rw [hw] at hvalid
      exact absurd hvalid (by simp)
    simp [packetQueuePublishWriteSlot, spec.valid, spec.writeIdx, spec.slotMeta, hw, hne, hbytes,
      PacketSlotQueue.cell]

theorem RxAt.captureWrite (h : RxAt consumed waiting cur s) (i : RxPins)
    (hbyte : (rxSampleStep s.capture i s.rxQueue).event.byteValid = true)
    (hdrop : (rxSampleStep s.capture i s.rxQueue).rxDropCurrent = false) :
    s.rxQueue.valid s.rxQueue.writeIdx = false := by
  have spec := rxSampleStep_spec s.capture i s.rxQueue
  rcases h.stage.capturing_free (by rw [← spec.drop, hdrop]) with hfree | ⟨_, hdv⟩
  · exact hfree
  · rw [spec.event, hdv, assembler_gap] at hbyte
    exact absurd hbyte (by simp)

theorem HandlerAt.parseRead {st : Protocol} {rxQueue : RxPacketQueue}
    (h : HandlerAt consumed waiting st rxQueue) (hstate : st.protocolState = .protoParseArp) :
    rxQueue.valid st.parseRxIdx = true ∧
      st.parseIndex.toNat < (rxQueue.slotMeta st.parseRxIdx).payloadLen.toNat := by
  obtain ⟨slot, rest, hwaiting, hat⟩ := h.parsing hstate
  have hring := h.ring
  rw [hwaiting] at hring
  have hwants := hat.wants
  simp only [RxPacketMeta.wantsArpParse, Bool.and_eq_true, decide_eq_true_eq] at hwants
  rw [hat.rxIdx, hring.head.1]
  exact ⟨hring.readSlotValid_cons, Nat.lt_of_lt_of_le hat.index hwants.2⟩

theorem HandlerAt.consume_valid {st : Protocol} {rxQueue : RxPacketQueue}
    (h : HandlerAt consumed waiting st rxQueue) (txQueue : TxPacketQueue) :
    (protocolSelectStep st rxQueue txQueue).rxQueue = rxQueue ∨
      (protocolSelectStep st rxQueue txQueue).rxQueue = packetQueueConsumeReadSlot rxQueue ∧
        rxQueue.valid rxQueue.readIdx = true := by
  have hparse : st.protocolState = .protoParseArp → rxQueue.valid rxQueue.readIdx = true := by
    intro hstate
    obtain ⟨slot, rest, hwaiting, hat⟩ := h.parsing hstate
    rw [← hat.rxIdx]
    exact (h.parseRead hstate).1
  have hmove := protocolSelectStep_move st rxQueue txQueue
  generalize protocolSelectStep st rxQueue txQueue = stage at hmove ⊢
  cases hmove with
  | drop _ _ hvalid => exact Or.inr ⟨rfl, hvalid⟩
  | reject _ hstate => exact Or.inr ⟨rfl, hparse hstate⟩
  | reply _ hstate => exact Or.inr ⟨rfl, hparse hstate⟩
  | _ => exact Or.inl rfl

theorem TxRingAt.prepare_cell {st : Protocol} {txQueue : TxPacketQueue}
    (h : TxRingAt st txQueue held) {slot : BitVec 2} (hvalid : txQueue.valid slot = true) :
    (protocolPrepareStep st txQueue).2.cell slot = txQueue.cell slot := by
  cases hprep : st.preparingPayload with
  | false => rw [protocolPrepareStep_off st txQueue hprep]
  | true =>
    have hb := h.building hprep
    have hne : slot ≠ txQueue.writeIdx := by
      rintro rfl
      rw [hb.free] at hvalid
      exact absurd hvalid (by simp)
    have hbuilt : (st.builtRing txQueue).cell slot = txQueue.cell slot := by
      simp [Protocol.builtRing, PacketSlotQueue.cell, PacketSlotQueue.setBytes, hb.slot, hne]
    by_cases hlast : st.prepareIndex.toNat + 1 = st.prepareRequest.len.toNat
    · rw [protocolPrepareStep_last st txQueue hprep hlast, ← hbuilt]
      have hw : (st.builtRing txQueue).valid (st.builtRing txQueue).writeIdx = false := hb.free
      have hne' : slot ≠ (st.builtRing txQueue).writeIdx := hne
      simp [packetQueuePublishWriteSlot, hw, hne', PacketSlotQueue.cell]
    · have hidx := hb.index
      rw [protocolPrepareStep_more st txQueue hprep (by omega), hbuilt]

theorem TxAt.cell_kept (h : TxAt sent held pins left s) (i : RxPins) {slot : BitVec 2}
    (hvalid : s.txQueue.valid slot = true) :
    (s.step i).txQueue.cell slot = s.txQueue.cell slot := by
  have hselect : (s.selectStage i).txQueue =
      { s.txQueue with dropCount := (s.selectStage i).txQueue.dropCount } :=
    protocolSelectStep_txQueue s.proto (s.rxStage i).2 s.txQueue
  have hvalid' : (s.selectStage i).txQueue.valid slot = true := by
    rw [hselect]
    exact hvalid
  have hproto : (s.protoStage i).txQueue.cell slot = s.txQueue.cell slot := by
    have hkept := (h.ring.select (s.rxStage i).2).1.prepare_cell hvalid'
    refine Eq.trans hkept ?_
    change (s.selectStage i).txQueue.cell slot = _
    rw [hselect]
    rfl
  rw [← hproto]
  change (s.txStage i).2.1.cell slot = _
  cases h.drainMove i with
  | keep ring => rw [ring]
  | consume request rest hheld ring => rw [ring]; rfl

theorem TxAt.framerRead (h : TxAt sent held pins left s) (i : RxPins)
    (hreads : s.drain.framerActive = true ∨
      txStartRequest s.drain (s.protoStage i).txQueue = true) :
    (s.protoStage i).txQueue.valid (s.framerSlot i) = true := by
  obtain ⟨slots, hholds, hslots⟩ := (h.ring_proto i).1.slots
  have hshow := ringShows hholds hslots
  have hframing := (h.wire_proto i).framing.2
  unfold Endpoint.framerSlot
  cases hstart : txStartRequest s.drain (s.protoStage i).txQueue with
  | true =>
    rw [if_pos rfl]
    simp only [txStartRequest, Bool.and_eq_true] at hstart
    exact hstart.2
  | false =>
    rw [hstart] at hreads
    obtain ⟨hslot, hne⟩ := hframing (by simpa using hreads)
    rw [if_neg Bool.false_ne_true, hslot]
    exact hshow.valid.mpr hne

theorem TxAt.txConsume (h : TxAt sent held pins left s) (i : RxPins) :
    (s.step i).txQueue = (s.protoStage i).txQueue ∨
      (s.step i).txQueue = packetQueueConsumeReadSlot (s.protoStage i).txQueue ∧
        (s.protoStage i).txQueue.valid (s.protoStage i).txQueue.readIdx = true := by
  obtain ⟨slots, hholds, hslots⟩ := (h.ring_proto i).1.slots
  cases h.drainMove i with
  | keep ring => exact Or.inl ring
  | consume request rest hheld ring =>
    refine Or.inr ⟨ring, (ringShows hholds hslots).valid.mpr ?_⟩
    rw [hheld]
    exact List.cons_ne_nil _ _

theorem TxAt.selectBuilding (h : TxAt sent held pins left s) (i : RxPins)
    (hprep : (s.selectStage i).st.preparingPayload = true) :
    Building (s.selectStage i).st (s.selectStage i).txQueue :=
  (h.ring.select (s.rxStage i).2).1.building hprep

theorem TxAt.txPublish (h : TxAt sent held pins left s) (i : RxPins) (hfin : s.finished i ≠ []) :
    packetQueueWriteSlotAvailable (s.selectStage i).txQueue = true := by
  have hprep : (s.selectStage i).st.preparingPayload = true := by
    by_contra hoff
    apply hfin
    change (s.selectStage i).st.finishing = []
    simp [Protocol.finishing, hoff]
  simp [packetQueueWriteSlotAvailable, (h.selectBuilding i hprep).free]

theorem slotSafety (hrx : RxAt consumed waiting cur s) (htx : TxAt sent held pins left s)
    (i : RxPins) : SlotSafety s i where
  rxKept _ hvalid := hrx.cell_kept i hvalid
  txKept _ hvalid := htx.cell_kept i hvalid
  captureWrite := hrx.captureWrite i
  prepareWrite hprep := by
    have hb := htx.selectBuilding i hprep
    rw [hb.slot]
    exact hb.free
  parseRead := (hrx.arrive i).parseRead
  framerRead := htx.framerRead i
  rxConsume := (hrx.arrive i).consume_valid s.txQueue
  txConsume := htx.txConsume i
  rxPublish hsome := by
    have spec := rxSampleStep_spec s.capture i s.rxQueue
    have hroom := hrx.stage.published_room hsome
    rw [packetQueueWriteSlotAvailable, spec.valid, spec.writeIdx]
    exact hrx.stage.ring.writeSlotAvailable.mpr hroom
  txPublish := htx.txPublish i

structure ParserBounds (st : RxParser) : Prop where
  fcsTail : st.rxFcsTailCount.toNat ≤ 4
  payload : st.rxPayloadCount.toNat ≤ 1500

theorem rxCapturePayloadByte_bounds {st : RxParser} (h : ParserBounds st)
    (buf : Buffer maxEthPayloadBytesInt) (b : Byte) :
    ParserBounds (rxCapturePayloadByte st buf b).1 := by
  obtain ⟨htail, hpayload⟩ := h
  simp only [rxCapturePayloadByte]
  split_ifs with hfill hroom
  · have hlt : st.rxFcsTailCount.toNat < 4 := hfill
    refine ⟨?_, hpayload⟩
    rw [BitVec.toNat_add]
    simp
    omega
  · have hlt : st.rxPayloadCount.toNat < 1500 := hroom
    refine ⟨htail, ?_⟩
    rw [BitVec.toNat_add]
    simp
    omega
  · exact ⟨htail, hpayload⟩

theorem rxDataByteStep_bounds {st : RxParser} (h : ParserBounds st)
    (buf : Buffer maxEthPayloadBytesInt) (b : Byte) :
    ParserBounds (rxDataByteStep st buf b).1 := by
  simp only [rxDataByteStep]
  split_ifs
  · exact ⟨h.fcsTail, h.payload⟩
  · have hnext := rxCapturePayloadByte_bounds h buf b
    exact ⟨hnext.fcsTail, hnext.payload⟩

theorem rxByteStep_bounds {st : RxParser} (h : ParserBounds st)
    (buf : Buffer maxEthPayloadBytesInt) (b : Byte) : ParserBounds (rxByteStep st buf b).1 := by
  unfold rxByteStep
  cases st.rxState with
  | rxSearch =>
    simp only
    split_ifs
    · exact ⟨h.fcsTail, h.payload⟩
    · exact h
    · exact ⟨h.fcsTail, h.payload⟩
    · have hdata : ParserBounds { st with rxState := .rxData } := ⟨h.fcsTail, h.payload⟩
      exact rxDataByteStep_bounds hdata buf b
  | rxData => exact rxDataByteStep_bounds h buf b

theorem ethernetRxParserStep_bounds {st : RxParser} (h : ParserBounds st)
    (frameStart byteValid : Bool) (b : Byte) (frameEnd ethRxerr : Bool)
    (buf : Buffer maxEthPayloadBytesInt) :
    ParserBounds (ethernetRxParserStep st frameStart byteValid b frameEnd ethRxerr buf).1 := by
  have hstart : ParserBounds (if frameStart then st.startFrame else st) := by
    split_ifs
    · exact ⟨Nat.zero_le _, Nat.zero_le _⟩
    · exact h
  unfold ethernetRxParserStep
  generalize (if frameStart then st.startFrame else st) = first at hstart
  have herr : ParserBounds { first with rxFrameError := first.rxFrameError || ethRxerr } :=
    ⟨hstart.fcsTail, hstart.payload⟩
  cases frameEnd with
  | true => exact ⟨Nat.zero_le _, Nat.zero_le _⟩
  | false =>
    cases byteValid with
    | true => exact rxByteStep_bounds herr buf b
    | false => exact herr

theorem parserBounds_run (inputs : List RxPins) : ParserBounds (runFrom inputs).capture.parser := by
  induction inputs using List.reverseRecOn with
  | nil => exact ⟨Nat.zero_le _, Nat.zero_le _⟩
  | append_singleton inputs i ih =>
    have spec := rxSampleStep_spec (runFrom inputs).capture i (runFrom inputs).rxQueue
    rw [runFrom_snoc]
    change ParserBounds (rxSampleStep (runFrom inputs).capture i (runFrom inputs).rxQueue).parser
    rw [spec.parser]
    exact ethernetRxParserStep_bounds ih _ _ _ _ _ _

theorem FramerAt.byteIndex_lt {body : List Byte} {k : ℕ} {f : Framer} (h : FramerAt body k f)
    (hmax : body.length < 2048) (hdata : f.txState = .txData) :
    f.txByteIndex.toNat < body.length := by
  cases h with
  | data j phase hj state index =>
    rw [index, BitVec.toNat_ofNat, Nat.mod_eq_of_lt (by omega)]
    exact hj
  | preamble j phase hj state => simp [state] at hdata
  | fcs j phase hj state => simp [state] at hdata
  | gap c hc state => simp [state] at hdata

theorem TxAt.framerIndex (h : TxAt sent held pins left s)
    (hdata : s.drain.framer.txState = .txData) :
    s.drain.framer.txByteIndex.toNat < txFrameBodyBytesInt := by
  obtain ⟨slots, hring, hslots⟩ := h.ring.slots
  have hshow := ringShows hring hslots
  have hbody (r : ProtocolTxRequest) (rest : List ProtocolTxRequest) (k : ℕ)
      (hheld : held = r :: rest) (hframe : FramerAt (padBody r.frameBody) k s.drain.framer) :
      s.drain.framer.txByteIndex.toNat < txFrameBodyBytesInt := by
    have hhead := hshow.head r rest hheld
    have hlt := hframe.byteIndex_lt hhead.padded.2.2 hdata
    have hmax := hhead.wellFormed.len_bounds.2
    rw [hhead.padded.1, minBody] at hlt
    simp only [txFrameBodyBytesInt, ethHeaderBytesInt, maxEthPayloadBytesInt]
    omega
  cases h.wire with
  | resting _ idle => simp [idle] at hdata
  | sending r rest k hheld _ _ frame => exact hbody r rest k hheld frame
  | gap r rest k hheld _ _ frame => exact hbody r rest k hheld frame

theorem indexBounds (hparser : ParserBounds s.capture.parser)
    (hrx : RxAt consumed waiting cur s) (htx : TxAt sent held pins left s) (i : RxPins) :
    IndexBounds s i where
  fcsTail := hparser.fcsTail
  payload := hparser.payload
  parse hstate := by
    obtain ⟨slot, rest, -, hat⟩ := hrx.handler.parsing hstate
    exact Nat.lt_of_lt_of_le hat.index (by decide)
  prepare hprep := by
    have hb := htx.selectBuilding i hprep
    have hmax := hb.request.len_bounds.2
    have hidx := hb.index
    simp only [txFrameBodyBytesInt, ethHeaderBytesInt, maxEthPayloadBytesInt]
    omega
  framer := htx.framerIndex

/-- In every reachable state the copied slot indices are right, and whatever arrives next, the
cycle respects the slots that hold packets. -/
theorem slot_ownership (inputs : List RxPins) (i : RxPins) :
    SlotOwnership (runFrom inputs) ∧ SlotSafety (runFrom inputs) i ∧
      IndexBounds (runFrom inputs) i := by
  obtain ⟨consumed, waiting, hrx⟩ := decided_run inputs
  obtain ⟨sent, held, left, htx, -⟩ := txAt_run inputs
  exact ⟨slotOwnership hrx.rx htx, slotSafety hrx.rx htx i,
    indexBounds (parserBounds_run inputs) hrx.rx htx i⟩

end ArtyEthernet
