import ArtyEthernet.Library.MaximalRuns
import ArtyEthernet.Model.Endpoint
import ArtyEthernet.Proofs.TxRing

/-!
# From transmit slots to the wire

`WireAt sent held` relates the framer to the runs of `eth_tx_en` seen so far: every request in
`sent` is a complete run, the head of `held` is the run in progress, and `left` counts the cycles
until everything held is on the wire and its gap has passed.
-/

namespace ArtyEthernet
open Words

def ProtocolTxRequest.nibbles (r : ProtocolTxRequest) : List Nibble := toNibbles r.wireFrame

/-- The cycles a held request occupies the framer: one to start it, its nibbles and the gap. -/
def ProtocolTxRequest.cycles (r : ProtocolTxRequest) : ℕ := frameCycles (padBody r.frameBody) + 1

def heldCycles (held : List ProtocolTxRequest) : ℕ := (held.map ProtocolTxRequest.cycles).sum

/-- The completed runs of `eth_tx_en`, as nibbles. -/
def wireRuns (pins : List TxPins) : List (List Nibble) :=
  (MaximalRuns.bursts TxPins.ethTxEn pins).map fun run => run.body.map TxPins.ethTxd

/-- The run in progress. -/
def wireOpen (pins : List TxPins) : List Nibble :=
  (MaximalRuns.pending TxPins.ethTxEn pins).map TxPins.ethTxd

section Runs
variable (pins : List TxPins) {p : TxPins}

theorem wireRuns_snoc_on (hp : p.ethTxEn = true) : wireRuns (pins ++ [p]) = wireRuns pins := by
  rw [wireRuns, MaximalRuns.bursts_snoc_on pins hp]
  rfl

theorem wireOpen_snoc_on (hp : p.ethTxEn = true) :
    wireOpen (pins ++ [p]) = wireOpen pins ++ [p.ethTxd] := by
  rw [wireOpen, MaximalRuns.pending_snoc_on pins hp, List.map_append]
  rfl

theorem wireRuns_snoc_off (hp : p.ethTxEn = false) :
    wireRuns (pins ++ [p]) =
      wireRuns pins ++ if wireOpen pins = [] then [] else [wireOpen pins] := by
  rw [wireRuns, MaximalRuns.bursts_snoc_off pins hp, List.map_append]
  by_cases hopen : MaximalRuns.pending TxPins.ethTxEn pins = [] <;>
    simp [wireRuns, wireOpen, hopen]

theorem wireOpen_snoc_off (hp : p.ethTxEn = false) : wireOpen (pins ++ [p]) = [] := by
  rw [wireOpen, MaximalRuns.pending_snoc_off pins hp]
  rfl

end Runs

@[simp] theorem length_nibbles (r : ProtocolTxRequest) :
    r.nibbles.length = wireNibbles (padBody r.frameBody) := by
  simp only [ProtocolTxRequest.nibbles, ProtocolTxRequest.wireFrame, length_toNibbles,
    length_wireBytes, wireNibbles]

theorem nibbles_ne_nil (r : ProtocolTxRequest) : r.nibbles ≠ [] := by
  intro h
  have hlen := congrArg List.length h
  simp [wireNibbles] at hlen

inductive WireAt (sent held : List ProtocolTxRequest) (drain : TxDrain) (readIdx : BitVec 2)
    (pins : List TxPins) (left : ℕ) : Prop where
  | resting (inactive : drain.framerActive = false) (idle : drain.framer.txState = .txIdle)
      (hruns : wireRuns pins = sent.map ProtocolTxRequest.nibbles) (hopen : wireOpen pins = [])
      (hleft : left = heldCycles held)
  | sending (r : ProtocolTxRequest) (rest : List ProtocolTxRequest) (k : ℕ)
      (hheld : held = r :: rest) (active : drain.framerActive = true)
      (slot : drain.framerSlotIdx = readIdx)
      (frame : FramerAt (padBody r.frameBody) k drain.framer) (len : drain.framer.txLen = r.len)
      (hk : k ≤ wireNibbles (padBody r.frameBody))
      (hruns : wireRuns pins = sent.map ProtocolTxRequest.nibbles)
      (hopen : wireOpen pins = r.nibbles.take k) (hleft : left + (k + 1) = heldCycles held)
  | gap (r : ProtocolTxRequest) (rest : List ProtocolTxRequest) (k : ℕ)
      (hheld : held = r :: rest) (active : drain.framerActive = true)
      (slot : drain.framerSlotIdx = readIdx)
      (frame : FramerAt (padBody r.frameBody) k drain.framer)
      (hk : wireNibbles (padBody r.frameBody) < k)
      (hruns : wireRuns pins = (sent ++ [r]).map ProtocolTxRequest.nibbles)
      (hopen : wireOpen pins = []) (hleft : left + (k + 1) = heldCycles held)

variable {sent held : List ProtocolTxRequest} {drain : TxDrain} {readIdx : BitVec 2}
  {pins : List TxPins} {left : ℕ}

theorem heldCycles_append (held more : List ProtocolTxRequest) :
    heldCycles (held ++ more) = heldCycles held + heldCycles more := by
  simp [heldCycles]

@[simp] theorem heldCycles_nil : heldCycles [] = 0 := rfl

@[simp] theorem heldCycles_cons (r : ProtocolTxRequest) (held : List ProtocolTxRequest) :
    heldCycles (r :: held) = r.cycles + heldCycles held := by
  simp [heldCycles]

/-- Requests published behind the frame in progress wait. -/
theorem WireAt.append (h : WireAt sent held drain readIdx pins left)
    (more : List ProtocolTxRequest) :
    WireAt sent (held ++ more) drain readIdx pins (left + heldCycles more) := by
  have hsum := heldCycles_append held more
  cases h with
  | resting inactive idle hruns hopen hleft =>
    exact .resting inactive idle hruns hopen (by omega)
  | sending r rest k hheld active slot frame len hk hruns hopen hleft =>
    exact .sending r (rest ++ more) k (by rw [hheld]; rfl) active slot frame len hk hruns hopen
      (by omega)
  | gap r rest k hheld active slot frame hk hruns hopen hleft =>
    exact .gap r (rest ++ more) k (by rw [hheld]; rfl) active slot frame hk hruns hopen (by omega)

/-- With nothing held the framer is idle and the wire shows what has been sent. -/
theorem WireAt.rest (h : WireAt sent [] drain readIdx pins left) :
    drain.framer.txState = .txIdle ∧ wireRuns pins = sent.map ProtocolTxRequest.nibbles ∧
      wireOpen pins = [] ∧ left = 0 := by
  cases h with
  | resting inactive idle hruns hopen hleft => exact ⟨idle, hruns, hopen, hleft⟩
  | sending r rest k hheld => exact absurd hheld (List.cons_ne_nil r rest).symm
  | gap r rest k hheld => exact absurd hheld (List.cons_ne_nil r rest).symm

section Drain
variable (drain) (txQueue : TxPacketQueue)

def drainStart : Framer × FramerPins :=
  ethernetTxFramerStep drain.framer (packetQueueReadSlotValid txQueue)
    (txQueue.slotMeta txQueue.readIdx).frameBodyLen
    (txQueue.bytes (if packetQueueReadSlotValid txQueue then txQueue.readIdx
      else drain.framerSlotIdx))

def drainMore : Framer × FramerPins :=
  ethernetTxFramerStep drain.framer false (txQueue.slotMeta txQueue.readIdx).frameBodyLen
    (txQueue.bytes drain.framerSlotIdx)

theorem ethernetTxQueueStep_rest (hoff : drain.framerActive = false)
    (hempty : packetQueueReadSlotValid txQueue = false) :
    ethernetTxQueueStep drain txQueue =
      (⟨false, drain.framerSlotIdx, (drainMore drain txQueue).1⟩, txQueue,
        (drainMore drain txQueue).2) := by
  simp [ethernetTxQueueStep, txStartRequest, drainMore, packetQueueReadSlot, hoff, hempty]

theorem ethernetTxQueueStep_start (hoff : drain.framerActive = false)
    (hvalid : packetQueueReadSlotValid txQueue = true)
    (hbusy : (drainStart drain txQueue).2.txIdle = false) :
    ethernetTxQueueStep drain txQueue =
      (⟨true, txQueue.readIdx, (drainStart drain txQueue).1⟩, txQueue,
        (drainStart drain txQueue).2) := by
  simp only [drainStart, hvalid, if_true] at hbusy ⊢
  simp [ethernetTxQueueStep, txStartRequest, packetQueueReadSlot, hoff, hvalid, hbusy]

theorem ethernetTxQueueStep_more (hon : drain.framerActive = true)
    (hbusy : (drainMore drain txQueue).2.txIdle = false) :
    ethernetTxQueueStep drain txQueue =
      (⟨true, drain.framerSlotIdx, (drainMore drain txQueue).1⟩, txQueue,
        (drainMore drain txQueue).2) := by
  simp only [drainMore] at hbusy ⊢
  simp [ethernetTxQueueStep, txStartRequest, packetQueueReadSlot, hon, hbusy]

theorem ethernetTxQueueStep_done (hon : drain.framerActive = true)
    (hdone : (drainMore drain txQueue).2.txIdle = true) :
    ethernetTxQueueStep drain txQueue =
      (⟨false, drain.framerSlotIdx, (drainMore drain txQueue).1⟩,
        packetQueueConsumeReadSlot txQueue, (drainMore drain txQueue).2) := by
  simp only [drainMore] at hdone ⊢
  simp [ethernetTxQueueStep, txStartRequest, packetQueueReadSlot, hon, hdone]

end Drain

/-- What the transmit path reads from its ring. -/
structure RingShows (txQueue : TxPacketQueue) (held : List ProtocolTxRequest) : Prop where
  valid : packetQueueReadSlotValid txQueue = true ↔ held ≠ []
  head : ∀ r rest, held = r :: rest → SlotHolds (txQueue.cell txQueue.readIdx) r

theorem ringShows {txQueue : TxPacketQueue} {slots : List TxSlot} (hring : txQueue.Holds slots)
    (hslots : List.Forall₂ SlotHolds slots held) : RingShows txQueue held where
  valid := by
    rw [hring.readSlotValid, ← List.length_pos_iff, ← List.length_pos_iff, hslots.length_eq]
  head := by
    rintro r rest rfl
    cases hslots with
    | cons hhead _ =>
      rw [PacketSlotQueue.cell, hring.head.1, hring.head.2]
      exact hhead

theorem SlotHolds.shows {slot : TxSlot} {r : ProtocolTxRequest} (h : SlotHolds slot r) :
    ShowsBody slot.2 r.len (padBody r.frameBody) := by
  have hmax := h.wellFormed.len_bounds.2
  rw [← h.body]
  exact showsBody_bufferBody slot.2 (by omega)

theorem SlotHolds.padded {slot : TxSlot} {r : ProtocolTxRequest} (h : SlotHolds slot r) :
    (padBody r.frameBody).length = max r.len.toNat minBody ∧ 0 < (padBody r.frameBody).length ∧
      (padBody r.frameBody).length < 2048 := by
  have hbounds := h.wellFormed.len_bounds
  rw [length_padBody, h.wellFormed.length_frameBody, minBody]
  refine ⟨rfl, ?_, ?_⟩
  · omega
  · omega

/-- The transmit path keeps its ring, or consumes the packet whose gap has passed. -/
inductive DrainMove (sent held : List ProtocolTxRequest) (txQueue : TxPacketQueue)
    (pins : List TxPins) (left : ℕ) : TxDrain × TxPacketQueue × FramerPins → Prop where
  | keep {r : TxDrain × TxPacketQueue × FramerPins} (ring : r.2.1 = txQueue)
      (wire : WireAt sent held r.1 txQueue.readIdx pins left) :
      DrainMove sent held txQueue pins left r
  | consume {r : TxDrain × TxPacketQueue × FramerPins} (request : ProtocolTxRequest)
      (rest : List ProtocolTxRequest) (hheld : held = request :: rest)
      (ring : r.2.1 = packetQueueConsumeReadSlot txQueue)
      (wire : WireAt (sent ++ [request]) rest r.1 (txQueue.readIdx + 1) pins left) :
      DrainMove sent held txQueue pins left r

variable {txQueue : TxPacketQueue} {p : TxPins}

theorem WireAt.step_rest (hshow : RingShows txQueue held) (inactive : drain.framerActive = false)
    (idle : drain.framer.txState = .txIdle)
    (hruns : wireRuns pins = sent.map ProtocolTxRequest.nibbles) (hopen : wireOpen pins = [])
    (hleft : left = heldCycles held)
    (hen : p.ethTxEn = (ethernetTxQueueStep drain txQueue).2.2.ethTxEn) :
    DrainMove sent held txQueue (pins ++ [p]) (left - 1) (ethernetTxQueueStep drain txQueue) := by
  cases held with
  | nil =>
    have hempty : packetQueueReadSlotValid txQueue = false := by
      simpa using mt hshow.valid.mp (not_not_intro rfl)
    rw [ethernetTxQueueStep_rest drain txQueue inactive hempty] at hen ⊢
    obtain ⟨hstay, hpins⟩ := framer_rest idle (txQueue.bytes drain.framerSlotIdx)
      (txQueue.slotMeta txQueue.readIdx).frameBodyLen
    have hoff : p.ethTxEn = false := by rw [hen, drainMore, hpins]; rfl
    refine .keep rfl (.resting rfl hstay ?_ (wireOpen_snoc_off pins hoff) ?_)
    · rw [wireRuns_snoc_off pins hoff, hopen, hruns, if_pos rfl, List.append_nil]
    · rw [hleft]
      rfl
  | cons r rest =>
    have hvalid : packetQueueReadSlotValid txQueue = true :=
      hshow.valid.mpr (List.cons_ne_nil r rest)
    have hhead := hshow.head r rest rfl
    have hlen : (txQueue.slotMeta txQueue.readIdx).frameBodyLen = r.len := hhead.len
    have hstart : drainStart drain txQueue =
        ethernetTxFramerStep drain.framer true r.len (txQueue.bytes txQueue.readIdx) := by
      simp only [drainStart, hvalid, hlen, if_true]
    obtain ⟨hframe, htxLen, hpins⟩ := FramerAt.start idle (txQueue.bytes txQueue.readIdx)
      r.len hhead.padded.1
    rw [← hstart] at hframe htxLen hpins
    rw [ethernetTxQueueStep_start drain txQueue inactive hvalid (by rw [hpins]; rfl)] at hen ⊢
    have hoff : p.ethTxEn = false := by rw [hen, hpins]; rfl
    refine .keep rfl (.sending r rest 0 rfl rfl rfl hframe htxLen (Nat.zero_le _) ?_ ?_ ?_)
    · rw [wireRuns_snoc_off pins hoff, hopen, hruns, if_pos rfl, List.append_nil]
    · rw [wireOpen_snoc_off pins hoff, List.take_zero]
    · rw [hleft, heldCycles_cons, ProtocolTxRequest.cycles]
      omega

theorem WireAt.step_send {r : ProtocolTxRequest} {rest : List ProtocolTxRequest} {k : ℕ}
    (hhead : SlotHolds (txQueue.cell txQueue.readIdx) r) (active : drain.framerActive = true)
    (slot : drain.framerSlotIdx = txQueue.readIdx)
    (frame : FramerAt (padBody r.frameBody) k drain.framer) (len : drain.framer.txLen = r.len)
    (hk : k < wireNibbles (padBody r.frameBody))
    (hruns : wireRuns pins = sent.map ProtocolTxRequest.nibbles)
    (hopen : wireOpen pins = r.nibbles.take k) (hleft : left + (k + 1) = heldCycles (r :: rest))
    (hen : p.ethTxEn = (ethernetTxQueueStep drain txQueue).2.2.ethTxEn)
    (hd : p.ethTxd = (ethernetTxQueueStep drain txQueue).2.2.ethTxd) :
    DrainMove sent (r :: rest) txQueue (pins ++ [p]) (left - 1)
      (ethernetTxQueueStep drain txQueue) := by
  have hshows : ShowsBody (txQueue.bytes drain.framerSlotIdx) drain.framer.txLen
      (padBody r.frameBody) := by
    rw [slot, len]
    exact hhead.shows
  have hemit := frame.emits false (txQueue.slotMeta txQueue.readIdx).frameBodyLen hk
    hhead.padded.2.1 hhead.padded.2.2 hshows
  change Emits _ k drain.framer (drainMore drain txQueue) at hemit
  rw [ethernetTxQueueStep_more drain txQueue active hemit.busy] at hen hd ⊢
  have hon : p.ethTxEn = true := by rw [hen]; exact hemit.enabled
  have hnib : r.nibbles[k]? = some p.ethTxd := by rw [hd]; exact hemit.nibble
  refine .keep rfl
    (.sending r rest (k + 1) rfl rfl slot hemit.next (hemit.len.trans len) hk ?_ ?_ ?_)
  · rw [wireRuns_snoc_on pins hon, hruns]
  · rw [wireOpen_snoc_on pins hon, hopen, List.take_add_one, hnib]
    rfl
  · rw [heldCycles_cons, ProtocolTxRequest.cycles, frameCycles] at hleft ⊢
    omega

theorem WireAt.step_gap {r : ProtocolTxRequest} {rest : List ProtocolTxRequest} {k : ℕ}
    (active : drain.framerActive = true) (slot : drain.framerSlotIdx = txQueue.readIdx)
    (frame : FramerAt (padBody r.frameBody) k drain.framer)
    (hk : wireNibbles (padBody r.frameBody) ≤ k)
    (hruns : wireRuns (pins ++ [p]) = (sent ++ [r]).map ProtocolTxRequest.nibbles)
    (hopen : wireOpen (pins ++ [p]) = []) (hleft : left + (k + 1) = heldCycles (r :: rest)) :
    DrainMove sent (r :: rest) txQueue (pins ++ [p]) (left - 1)
      (ethernetTxQueueStep drain txQueue) := by
  obtain ⟨hpins, hnext, hend, -⟩ := frame.gap_step false
    (txQueue.slotMeta txQueue.readIdx).frameBodyLen (txQueue.bytes drain.framerSlotIdx) hk
  change (drainMore drain txQueue).2 = _ at hpins
  have hlt := frame.lt_frameCycles
  rw [heldCycles_cons, ProtocolTxRequest.cycles] at hleft
  by_cases hlast : k + 1 = frameCycles (padBody r.frameBody)
  · rw [decide_eq_true hlast] at hpins
    rw [ethernetTxQueueStep_done drain txQueue active (by rw [hpins]; rfl)]
    exact .consume r rest rfl rfl (.resting rfl (hend hlast) hruns hopen (by omega))
  · rw [decide_eq_false hlast] at hpins
    rw [ethernetTxQueueStep_more drain txQueue active (by rw [hpins]; rfl)]
    refine .keep rfl (.gap r rest (k + 1) rfl rfl slot (hnext (by omega)) (by omega) hruns hopen ?_)
    rw [heldCycles_cons, ProtocolTxRequest.cycles]
    omega

theorem drain_gap_off {r : ProtocolTxRequest} {k : ℕ} (active : drain.framerActive = true)
    (frame : FramerAt (padBody r.frameBody) k drain.framer)
    (hk : wireNibbles (padBody r.frameBody) ≤ k) :
    (ethernetTxQueueStep drain txQueue).2.2.ethTxEn = false := by
  obtain ⟨hpins, -⟩ := frame.gap_step false
    (txQueue.slotMeta txQueue.readIdx).frameBodyLen (txQueue.bytes drain.framerSlotIdx) hk
  change (drainMore drain txQueue).2 = _ at hpins
  have hsame : (ethernetTxQueueStep drain txQueue).2.2 = (drainMore drain txQueue).2 := by
    cases hdone : (drainMore drain txQueue).2.txIdle with
    | true => rw [ethernetTxQueueStep_done drain txQueue active hdone]
    | false => rw [ethernetTxQueueStep_more drain txQueue active hdone]
  rw [hsame, hpins]
  rfl

theorem WireAt.step (h : WireAt sent held drain txQueue.readIdx pins left)
    (hshow : RingShows txQueue held)
    (hen : p.ethTxEn = (ethernetTxQueueStep drain txQueue).2.2.ethTxEn)
    (hd : p.ethTxd = (ethernetTxQueueStep drain txQueue).2.2.ethTxd) :
    DrainMove sent held txQueue (pins ++ [p]) (left - 1) (ethernetTxQueueStep drain txQueue) := by
  cases h with
  | resting inactive idle hruns hopen hleft =>
    exact WireAt.step_rest hshow inactive idle hruns hopen hleft hen
  | sending r rest k hheld active slot frame len hk hruns hopen hleft =>
    subst hheld
    by_cases hlast : k = wireNibbles (padBody r.frameBody)
    · have hoff : p.ethTxEn = false := hen.trans (drain_gap_off active frame hlast.ge)
      have hwhole : wireOpen pins = r.nibbles := by
        rw [hopen, List.take_of_length_le]
        rw [length_nibbles, hlast]
      refine WireAt.step_gap active slot frame hlast.ge ?_ (wireOpen_snoc_off pins hoff) hleft
      rw [wireRuns_snoc_off pins hoff, hwhole, if_neg (nibbles_ne_nil r), hruns, List.map_append]
      rfl
    · exact WireAt.step_send (hshow.head r rest rfl) active slot frame len (by omega) hruns hopen
        hleft hen hd
  | gap r rest k hheld active slot frame hk hruns hopen hleft =>
    subst hheld
    have hoff : p.ethTxEn = false := hen.trans (drain_gap_off active frame hk.le)
    refine WireAt.step_gap active slot frame hk.le ?_ (wireOpen_snoc_off pins hoff) hleft
    rw [wireRuns_snoc_off pins hoff, hopen, if_pos rfl, List.append_nil, hruns]

end ArtyEthernet
