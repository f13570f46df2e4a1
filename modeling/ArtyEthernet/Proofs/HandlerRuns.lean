import ArtyEthernet.Proofs.ArpParse
import ArtyEthernet.Proofs.HandlerMoves
import ArtyEthernet.Proofs.TxRing

/-!
# The handler and the received packets

`HandlerAt consumed waiting` relates the handler to the packets it has finished with and to those
still in the ring: the counters count verdicts over `consumed`, and in `protoParseArp` the
registers hold what has been read of the first waiting packet.
-/

namespace ArtyEthernet
open Words

/-- The verdict on a slot: the requester to answer, if any. -/
def slotRequester (slot : RxSlot) : Option (BitVec 48 × BitVec 32) := (slotPacket slot).arpRequester

def arpReplies (requesters : List (BitVec 48 × BitVec 32)) : List ProtocolTxRequest :=
  requesters.map fun requester => arpReplyRequest requester.1 requester.2

def ProtocolTxRequest.isArpReply (r : ProtocolTxRequest) : Bool := r.kind == .arpReply

/-- One while a packet has been looked at but not yet decided. -/
def Protocol.examining (st : Protocol) : ℕ := if st.protocolState = .protoParseArp then 1 else 0

structure ParsingAt (st : Protocol) (rxQueue : RxPacketQueue) (slot : RxSlot) : Prop where
  notPreparing : st.preparingPayload = false
  rxIdx : st.parseRxIdx = rxQueue.readIdx
  whole : slot.1.truncated = false
  wants : slot.1.wantsArpParse = true
  index : st.parseIndex.toNat < 28
  regs : st.parseArp = parseRegs slot.2 st.parseIndex.toNat

structure HandlerAt (consumed waiting : List RxSlot) (st : Protocol) (rxQueue : RxPacketQueue) :
    Prop where
  ring : rxQueue.Holds waiting
  state : st.protocolState ≠ .protoPrepareTx
  parsing : st.protocolState = .protoParseArp →
    ∃ slot rest, waiting = slot :: rest ∧ ParsingAt st rxQueue slot
  rxPacketCount : st.rxPacketCount = BitVec.ofNat 32 (consumed.length + st.examining)
  rxProtocolDropCount : st.rxProtocolDropCount =
    BitVec.ofNat 32 (consumed.countP fun slot => (slotRequester slot).isNone)
  arpReplyCount : st.arpReplyCount = BitVec.ofNat 32 (consumed.filterMap slotRequester).length

variable {consumed waiting : List RxSlot} {st st' : Protocol} {rxQueue : RxPacketQueue}

theorem HandlerAt.arrive {rxQueue' : RxPacketQueue} {more : List RxSlot}
    (h : HandlerAt consumed waiting st rxQueue) (hring : rxQueue'.Holds (waiting ++ more))
    (hread : rxQueue'.readIdx = rxQueue.readIdx) :
    HandlerAt consumed (waiting ++ more) st rxQueue' where
  ring := hring
  state := h.state
  parsing hp := by
    obtain ⟨slot, rest, hwaiting, hat⟩ := h.parsing hp
    exact ⟨slot, rest ++ more, by rw [hwaiting]; rfl, hat.notPreparing, by rw [hat.rxIdx, hread],
      hat.whole, hat.wants, hat.index, hat.regs⟩
  rxPacketCount := h.rxPacketCount
  rxProtocolDropCount := h.rxProtocolDropCount
  arpReplyCount := h.arpReplyCount

/-- What a handler cycle does to the packets: `eaten` leave the ring with their verdicts. -/
structure Eats (consumed waiting eaten rest : List RxSlot) (stage : ProtocolStage) : Prop where
  split : waiting = eaten ++ rest
  few : eaten.length ≤ 1
  next : HandlerAt (consumed ++ eaten) rest stage.st stage.rxQueue
  replies : stage.handed.toList.filter ProtocolTxRequest.isArpReply =
    arpReplies (eaten.filterMap slotRequester)

/-- The cycles a packet may cost the handler: it is dropped at first sight, or it is parsed and
answered. -/
def slotCost (slot : RxSlot) : ℕ := if (slotPacket slot).wantsArpParse then 93 else 37

def slotsCost (slots : List RxSlot) : ℕ := (slots.map slotCost).sum

/-- The cycles the response being prepared still takes. -/
def Protocol.buildCost (st : Protocol) : ℕ :=
  if st.preparingPayload then st.prepareRequest.len.toNat - st.prepareIndex.toNat else 0

/-- The part of the first packet's cost that has been spent. -/
def Protocol.parseCredit (st : Protocol) : ℕ :=
  if st.protocolState = .protoParseArp then 24 + st.parseIndex.toNat else 0

/-- The cost left after a selection: a cycle that ends preparing goes on to write a byte, any
other has to pay for itself. -/
def Protocol.selectCost (st : Protocol) : ℕ :=
  st.buildCost + if st.preparingPayload then 0 else 1

/-- A selection with something to do costs nothing; with nothing to do it starts at most one
response. A packet it leaves in the ring is being parsed. -/
structure SelectWork (st st' : Protocol) (waiting eaten : List RxSlot) : Prop where
  busy : waiting ≠ [] ∨ st.preparingPayload = true →
    st'.selectCost + st.parseCredit ≤ st.buildCost + st'.parseCredit + slotsCost eaten
  idle : waiting = [] → st.preparingPayload = false →
    st'.selectCost ≤ 143
  looks : waiting ≠ [] → st.preparingPayload = false → eaten = [] → 24 ≤ st'.parseCredit

theorem ofNat_succ (n : ℕ) : BitVec.ofNat 32 n + 1#32 = BitVec.ofNat 32 (n + 1) := by
  rw [BitVec.ofNat_add]

theorem HandlerAt.keep (h : HandlerAt consumed waiting st rxQueue) {txQueue : TxPacketQueue}
    {handed : Option ProtocolTxRequest}
    (hidle : st.protocolState = .protoParseArp → st' = st.ticked)
    (hstate : st'.protocolState = st.protocolState)
    (hcount : st'.rxPacketCount = st.rxPacketCount)
    (hdrop : st'.rxProtocolDropCount = st.rxProtocolDropCount)
    (harp : st'.arpReplyCount = st.arpReplyCount)
    (hhanded : handed.toList.filter ProtocolTxRequest.isArpReply = []) :
    Eats consumed waiting [] waiting ⟨st', rxQueue, txQueue, handed⟩ where
  split := rfl
  few := Nat.zero_le 1
  replies := hhanded
  next := by
    rw [List.append_nil]
    constructor
    case ring => exact h.ring
    case state => rw [hstate]; exact h.state
    case parsing =>
      intro hp
      rw [hstate] at hp
      obtain ⟨slot, rest, hwaiting, hat⟩ := h.parsing hp
      rw [hidle hp]
      exact ⟨slot, rest, hwaiting, hat.notPreparing, hat.rxIdx, hat.whole, hat.wants, hat.index,
        hat.regs⟩
    case rxPacketCount =>
      rw [hcount, h.rxPacketCount, Protocol.examining, Protocol.examining, hstate]
    case rxProtocolDropCount => rw [hdrop, h.rxProtocolDropCount]
    case arpReplyCount => rw [harp, h.arpReplyCount]

theorem HandlerAt.eat {slot : RxSlot} {rest : List RxSlot} {txQueue : TxPacketQueue}
    {handed : Option ProtocolTxRequest} (h : HandlerAt consumed (slot :: rest) st rxQueue)
    (hstate : st'.protocolState = .protoIdle)
    (hcount : st'.rxPacketCount = BitVec.ofNat 32 (consumed.length + 1))
    (hdrop : st'.rxProtocolDropCount =
      if (slotRequester slot).isNone then st.rxProtocolDropCount + 1 else st.rxProtocolDropCount)
    (harp : st'.arpReplyCount =
      if (slotRequester slot).isNone then st.arpReplyCount else st.arpReplyCount + 1)
    (hhanded : handed.toList.filter ProtocolTxRequest.isArpReply =
      arpReplies (slotRequester slot).toList) :
    Eats consumed (slot :: rest) [slot] rest
      ⟨st', packetQueueConsumeReadSlot rxQueue, txQueue, handed⟩ where
  split := rfl
  few := le_rfl
  replies := by
    rw [hhanded]
    cases hv : slotRequester slot <;> simp [hv]
  next := by
    constructor
    case ring => exact h.ring.consume
    case state => simp [hstate]
    case parsing => simp [hstate]
    case rxPacketCount => simp [hcount, Protocol.examining, hstate]
    case rxProtocolDropCount =>
      rw [hdrop, h.rxProtocolDropCount, List.countP_append]
      cases hv : slotRequester slot <;> simp [hv, ofNat_succ]
    case arpReplyCount =>
      rw [harp, h.arpReplyCount, List.filterMap_append]
      cases hv : slotRequester slot <;> simp [hv, ofNat_succ]

theorem HandlerAt.head (h : HandlerAt consumed waiting st rxQueue)
    (hvalid : packetQueueReadSlotValid rxQueue = true) :
    ∃ slot rest, waiting = slot :: rest ∧ rxQueue.slotMeta rxQueue.readIdx = slot.1 ∧
      rxQueue.bytes rxQueue.readIdx = slot.2 := by
  obtain ⟨slot, rest, rfl⟩ := List.exists_cons_of_ne_nil (h.ring.readSlotValid.mp hvalid)
  exact ⟨slot, rest, rfl, h.ring.head⟩

theorem ParsingAt.parsed_eq {slot : RxSlot} (hat : ParsingAt st rxQueue slot)
    (hbytes : rxQueue.bytes rxQueue.readIdx = slot.2) :
    st.parsed rxQueue = parseRegs slot.2 (st.parseIndex.toNat + 1) := by
  rw [parseRegs_succ, ← hat.regs, Protocol.parsed, hat.rxIdx, hbytes]

theorem HandlerAt.examining_idle (h : HandlerAt consumed waiting st rxQueue)
    (hstate : st.protocolState = .protoIdle) :
    st.rxPacketCount = BitVec.ofNat 32 consumed.length := by
  simpa [Protocol.examining, hstate] using h.rxPacketCount

theorem HandlerAt.examining_parse (h : HandlerAt consumed waiting st rxQueue)
    (hstate : st.protocolState = .protoParseArp) :
    st.rxPacketCount = BitVec.ofNat 32 (consumed.length + 1) := by
  simpa [Protocol.examining, hstate] using h.rxPacketCount

theorem slotCost_parsed {slot : RxSlot} (hwhole : slot.1.truncated = false)
    (hwants : slot.1.wantsArpParse = true) : slotCost slot = 93 := by
  rw [slotCost, slotPacket_wantsArpParse, hwhole, hwants]
  rfl

theorem slotCost_bounds (slot : RxSlot) : 37 ≤ slotCost slot ∧ slotCost slot ≤ 93 := by
  unfold slotCost
  split_ifs <;> omega

@[simp] theorem slotsCost_nil : slotsCost [] = 0 := rfl

@[simp] theorem slotsCost_cons (slot : RxSlot) (slots : List RxSlot) :
    slotsCost (slot :: slots) = slotCost slot + slotsCost slots := by
  simp [slotsCost]

theorem slotsCost_append (xs ys : List RxSlot) :
    slotsCost (xs ++ ys) = slotsCost xs + slotsCost ys := by
  simp [slotsCost]

theorem buildCost_off (hprep : st.preparingPayload = false) : st.buildCost = 0 := by
  simp [Protocol.buildCost, hprep]

theorem selectCost_off (hprep : st.preparingPayload = false) : st.selectCost = 1 := by
  simp [Protocol.selectCost, Protocol.buildCost, hprep]

theorem parseCredit_idle (hstate : st.protocolState = .protoIdle) : st.parseCredit = 0 := by
  simp [Protocol.parseCredit, hstate]

theorem parseCredit_parse (hstate : st.protocolState = .protoParseArp) :
    st.parseCredit = 24 + st.parseIndex.toNat := by
  simp [Protocol.parseCredit, hstate]

theorem offer_selectCost {r : ProtocolTxRequest} (txQueue : TxPacketQueue) (hr : r.WellFormed)
    (hprep : st.preparingPayload = false)
    (hsame : st'.preparingPayload = (st.ticked.offer r txQueue).preparingPayload)
    (hreq : st'.prepareRequest = (st.ticked.offer r txQueue).prepareRequest)
    (hidx : st'.prepareIndex = (st.ticked.offer r txQueue).prepareIndex) :
    st'.selectCost ≤ r.len.toNat := by
  have hmin := hr.len_bounds.1
  unfold Protocol.selectCost
  cases hfree : packetQueueWriteSlotAvailable txQueue with
  | true =>
    simp only [Protocol.offer, hfree, Bool.true_or, if_true] at hsame hreq hidx
    simp [Protocol.buildCost, hsame, hreq, hidx]
  | false =>
    have hoff : st'.preparingPayload = false := by
      simpa [Protocol.offer, Protocol.ticked, hfree, hprep] using hsame
    rw [buildCost_off hoff, hoff]
    simp only [Bool.false_eq_true, if_false]
    omega

theorem HandlerAt.waiting_nil (h : HandlerAt consumed waiting st rxQueue)
    (hempty : packetQueueReadSlotValid rxQueue = false) : waiting = [] := by
  by_contra hne
  rw [h.ring.readSlotValid.mpr hne] at hempty
  exact absurd hempty (by simp)

theorem SelectWork.of_empty (hprep : st.preparingPayload = false)
    (hmax : st'.selectCost ≤ 143) : SelectWork st st' [] [] where
  busy hbusy := by simp [hprep] at hbusy
  idle _ _ := hmax
  looks hne := absurd rfl hne

theorem SelectWork.of_waiting {slot : RxSlot} {rest eaten : List RxSlot}
    (hwork : st'.selectCost + st.parseCredit ≤
      st.buildCost + st'.parseCredit + slotsCost eaten)
    (hlooks : eaten = [] → 24 ≤ st'.parseCredit) :
    SelectWork st st' (slot :: rest) eaten where
  busy _ := hwork
  idle hnil := absurd hnil (List.cons_ne_nil slot rest)
  looks _ _ := hlooks

theorem HandlerAt.beginParse (h : HandlerAt consumed waiting st rxQueue) (txQueue : TxPacketQueue)
    (hprep : st.preparingPayload = false) (hstate : st.protocolState = .protoIdle)
    (hvalid : packetQueueReadSlotValid rxQueue = true)
    (hwhole : (rxQueue.slotMeta rxQueue.readIdx).truncated = false)
    (hwants : (rxQueue.slotMeta rxQueue.readIdx).wantsArpParse = true) :
    let begun : Protocol := { st.ticked with
      rxPacketCount := st.rxPacketCount + 1
      parseRxIdx := rxQueue.readIdx
      parseIndex := 0
      parseArp := .zero
      protocolState := .protoParseArp }
    ∃ eaten rest, Eats consumed waiting eaten rest ⟨begun, rxQueue, txQueue, none⟩ ∧
      SelectWork st begun waiting eaten := by
  obtain ⟨slot, rest, rfl, hmeta, -⟩ := h.head hvalid
  rw [hmeta] at hwhole hwants
  refine ⟨[], slot :: rest, ⟨rfl, Nat.zero_le 1, ?_, rfl⟩, .of_waiting ?_ fun _ => ?_⟩
  · rw [List.append_nil]
    constructor
    case ring => exact h.ring
    case state => simp
    case parsing => exact fun _ => ⟨slot, rest, rfl, hprep, rfl, hwhole, hwants, by simp, rfl⟩
    case rxPacketCount =>
      rw [h.examining_idle hstate]
      exact ofNat_succ _
    case rxProtocolDropCount => exact h.rxProtocolDropCount
    case arpReplyCount => exact h.arpReplyCount
  · rw [selectCost_off (by exact hprep), parseCredit_idle hstate, parseCredit_parse (by rfl)]
    omega
  · rw [parseCredit_parse (by rfl)]
    omega

theorem HandlerAt.readByte (h : HandlerAt consumed waiting st rxQueue) (txQueue : TxPacketQueue)
    (hprep : st.preparingPayload = false) (hstate : st.protocolState = .protoParseArp)
    (hmore : st.parseIndex ≠ 27) :
    let read : Protocol := { st.ticked with
      parseArp := st.parsed rxQueue
      parseIndex := st.parseIndex + 1 }
    ∃ eaten rest, Eats consumed waiting eaten rest ⟨read, rxQueue, txQueue, none⟩ ∧
      SelectWork st read waiting eaten := by
  obtain ⟨slot, rest, rfl, hat⟩ := h.parsing hstate
  have hindex : (st.parseIndex + 1).toNat = st.parseIndex.toNat + 1 := by
    have hlt := hat.index
    rw [BitVec.toNat_add]
    simp
    omega
  have hne : st.parseIndex.toNat ≠ 27 := by
    intro h27
    exact hmore (BitVec.eq_of_toNat_eq h27)
  refine ⟨[], slot :: rest, ⟨rfl, Nat.zero_le 1, ?_, rfl⟩, .of_waiting ?_ fun _ => ?_⟩
  · rw [List.append_nil]
    constructor
    case ring => exact h.ring
    case state => exact h.state
    case parsing =>
      refine fun _ => ⟨slot, rest, rfl, hprep, hat.rxIdx, hat.whole, hat.wants, ?_, ?_⟩
      · have hlt := hat.index
        rw [hindex]
        omega
      · rw [hindex]
        exact hat.parsed_eq h.ring.head.2
    case rxPacketCount => exact h.rxPacketCount
    case rxProtocolDropCount => exact h.rxProtocolDropCount
    case arpReplyCount => exact h.arpReplyCount
  · rw [selectCost_off (by exact hprep), parseCredit_parse hstate,
      parseCredit_parse (by exact hstate)]
    simp only [hindex]
    omega
  · rw [parseCredit_parse (by exact hstate)]
    omega

theorem HandlerAt.reject (h : HandlerAt consumed waiting st rxQueue) (txQueue : TxPacketQueue)
    (hprep : st.preparingPayload = false) (hstate : st.protocolState = .protoParseArp)
    (hlast : st.parseIndex = 27) (hbad : (st.parsed rxQueue).arpValid = false) :
    let rejected : Protocol := { st.ticked with
      parseArp := st.parsed rxQueue
      rxProtocolDropCount := st.rxProtocolDropCount + 1
      protocolState := .protoIdle }
    ∃ eaten rest, Eats consumed waiting eaten rest
        ⟨rejected, packetQueueConsumeReadSlot rxQueue, txQueue, none⟩ ∧
      SelectWork st rejected waiting eaten := by
  obtain ⟨slot, rest, rfl, hat⟩ := h.parsing hstate
  have h27 : st.parseIndex.toNat = 27 := congrArg BitVec.toNat hlast
  rw [hat.parsed_eq h.ring.head.2, h27] at hbad
  have hverdict : slotRequester slot = none := by
    rw [slotRequester, arpRequester_slotPacket hat.whole hat.wants, hbad]
    rfl
  refine ⟨[slot], rest, h.eat rfl (h.examining_parse hstate) ?_ ?_ ?_,
    .of_waiting ?_ (by simp)⟩
  · simp [hverdict]
  · simp [hverdict, Protocol.ticked]
  · simp [hverdict, arpReplies]
  · rw [selectCost_off (by exact hprep), parseCredit_parse hstate, h27, slotsCost_cons,
      slotCost_parsed hat.whole hat.wants]
    omega

theorem HandlerAt.reply (h : HandlerAt consumed waiting st rxQueue) (txQueue : TxPacketQueue)
    (hprep : st.preparingPayload = false) (hstate : st.protocolState = .protoParseArp)
    (hlast : st.parseIndex = 27) (hgood : (st.parsed rxQueue).arpValid = true) :
    let answered : Protocol := { st.ticked.offer (st.reply rxQueue) txQueue with
      parseArp := st.parsed rxQueue
      arpReplyCount := st.arpReplyCount + 1
      protocolState := .protoIdle }
    ∃ eaten rest, Eats consumed waiting eaten rest
        ⟨answered, packetQueueConsumeReadSlot rxQueue, offeredRing txQueue,
          some (st.reply rxQueue)⟩ ∧
      SelectWork st answered waiting eaten := by
  obtain ⟨slot, rest, rfl, hat⟩ := h.parsing hstate
  have h27 : st.parseIndex.toNat = 27 := congrArg BitVec.toNat hlast
  have hregs := hat.parsed_eq h.ring.head.2
  rw [h27] at hregs
  rw [hregs] at hgood
  have hverdict : slotRequester slot =
      some ((parseRegs slot.2 28).senderMac, (parseRegs slot.2 28).senderIp) := by
    rw [slotRequester, arpRequester_slotPacket hat.whole hat.wants, if_pos hgood]
  refine ⟨[slot], rest, h.eat rfl (h.examining_parse hstate) ?_ ?_ ?_,
    .of_waiting ?_ (by simp)⟩
  · simp [hverdict, Protocol.offer, Protocol.ticked]
  · simp [hverdict]
  · rw [hverdict, Protocol.reply, hregs]
    generalize parseRegs slot.2 28 = regs
    rfl
  · have hr := wellFormed_arpReply (st.parsed rxQueue).senderMac (st.parsed rxQueue).senderIp
    have h42 : (arpReplyRequest (st.parsed rxQueue).senderMac
        (st.parsed rxQueue).senderIp).len.toNat = 42 := rfl
    refine (Nat.add_le_add_right
      (offer_selectCost txQueue hr hprep rfl rfl rfl) _).trans ?_
    rw [h42, parseCredit_parse hstate, h27, slotsCost_cons, slotCost_parsed hat.whole hat.wants]
    omega

theorem HandlerAt.select (h : HandlerAt consumed waiting st rxQueue) (txQueue : TxPacketQueue) :
    ∃ eaten rest,
      Eats consumed waiting eaten rest (protocolSelectStep st rxQueue txQueue) ∧
        SelectWork st (protocolSelectStep st rxQueue txQueue).st waiting eaten := by
  have hmove := protocolSelectStep_move st rxQueue txQueue
  generalize protocolSelectStep st rxQueue txQueue = stage at hmove ⊢
  cases hmove with
  | busy hprep =>
    refine ⟨[], waiting, h.keep (fun _ => rfl) rfl rfl rfl rfl rfl, fun _ => ?_, ?_, ?_⟩
    · have hon : st.ticked.preparingPayload = true := hprep
      simp only [Protocol.selectCost, hon, if_true]
      exact le_rfl
    · simp [hprep]
    · simp [hprep]
  | parked _ hstate => exact absurd hstate h.state
  | quiet hprep hstate hempty =>
    have hnil := h.waiting_nil hempty
    subst hnil
    refine ⟨[], [], h.keep (fun _ => rfl) rfl rfl rfl rfl rfl, .of_empty hprep ?_⟩
    rw [selectCost_off (by exact hprep)]
    omega
  | announce hprep hstate hempty =>
    have hnil := h.waiting_nil hempty
    subst hnil
    refine ⟨[], [], h.keep (fun hp => by simp [hstate] at hp) rfl rfl rfl rfl rfl,
      .of_empty hprep ?_⟩
    have hr := wellFormed_gratuitousArp
    exact (offer_selectCost txQueue hr hprep rfl rfl rfl).trans hr.len_bounds.2
  | beacon hprep hstate hempty =>
    have hnil := h.waiting_nil hempty
    subst hnil
    refine ⟨[], [], h.keep (fun hp => by simp [hstate] at hp) rfl rfl rfl rfl rfl,
      .of_empty hprep ?_⟩
    have hr := wellFormed_beaconSnapshot st rxQueue txQueue
    exact (offer_selectCost txQueue hr hprep rfl rfl rfl).trans hr.len_bounds.2
  | drop hprep hstate hvalid hbad =>
    obtain ⟨slot, rest, rfl, hmeta, -⟩ := h.head hvalid
    rw [hmeta] at hbad
    have hverdict : slotRequester slot = none := arpRequester_dropped hbad
    refine ⟨[slot], rest, h.eat hstate ?_ ?_ ?_ ?_, .of_waiting ?_ (by simp)⟩
    · rw [h.examining_idle hstate]
      exact ofNat_succ _
    · simp [hverdict]
    · simp [hverdict, Protocol.ticked]
    · simp [hverdict, arpReplies]
    · have hcost := (slotCost_bounds slot).1
      rw [buildCost_off hprep, selectCost_off (by exact hprep), parseCredit_idle hstate,
        slotsCost_cons]
      omega
  | beginParse hprep hstate hvalid hwhole hwants =>
    exact h.beginParse txQueue hprep hstate hvalid hwhole hwants
  | readByte hprep hstate hmore => exact h.readByte txQueue hprep hstate hmore
  | reject hprep hstate hlast hbad => exact h.reject txQueue hprep hstate hlast hbad
  | reply hprep hstate hlast hgood => exact h.reply txQueue hprep hstate hlast hgood

theorem buildCost_prepare (txQueue : TxPacketQueue)
    (hindex : st.preparingPayload = true →
      st.prepareIndex.toNat < st.prepareRequest.len.toNat) :
    (protocolPrepareStep st txQueue).1.buildCost + 1 = st.selectCost := by
  cases hprep : st.preparingPayload with
  | false =>
    rw [protocolPrepareStep_off st txQueue hprep, buildCost_off hprep, selectCost_off hprep]
  | true =>
    have hlt := hindex hprep
    have hcost : st.selectCost = st.prepareRequest.len.toNat - st.prepareIndex.toNat := by
      simp [Protocol.selectCost, Protocol.buildCost, hprep]
    rw [hcost]
    by_cases hlast : st.prepareIndex.toNat + 1 = st.prepareRequest.len.toNat
    · rw [protocolPrepareStep_last st txQueue hprep hlast, buildCost_off (by rfl)]
      omega
    · rw [protocolPrepareStep_more st txQueue hprep (by omega)]
      have hnext : (st.prepareIndex + 1).toNat = st.prepareIndex.toNat + 1 := by
        have hmax := st.prepareRequest.len.isLt
        rw [BitVec.toNat_add]
        simp
        omega
      simp only [Protocol.buildCost, hprep, if_true, hnext]
      omega

/-- What a cycle of the handler costs. -/
structure StepWork (st st' : Protocol) (waiting eaten : List RxSlot) : Prop where
  busy : waiting ≠ [] ∨ st.preparingPayload = true →
    st'.buildCost + 1 + st.parseCredit ≤ st.buildCost + st'.parseCredit + slotsCost eaten
  idle : waiting = [] → st.preparingPayload = false → st'.buildCost + 1 ≤ 143
  looks : waiting ≠ [] → st.preparingPayload = false → eaten = [] → 24 ≤ st'.parseCredit

theorem HandlerAt.queueStep {txQueue : TxPacketQueue} {held : List ProtocolTxRequest}
    (h : HandlerAt consumed waiting st rxQueue) (htx : TxRingAt st txQueue held) :
    ∃ eaten rest,
      Eats consumed waiting eaten rest (protocolQueueStep st rxQueue txQueue) ∧
        StepWork st (protocolQueueStep st rxQueue txQueue).st waiting eaten := by
  obtain ⟨eaten, rest, ⟨hsplit, hfew, hnext, hreplies⟩, hwork⟩ := h.select txQueue
  have hselect := (htx.select rxQueue).1
  have hcost := buildCost_prepare (protocolSelectStep st rxQueue txQueue).txQueue
    fun hp => (hselect.building hp).index
  obtain ⟨preparing, request, index, hst, hoff⟩ :=
    protocolPrepareStep_fst (protocolSelectStep st rxQueue txQueue).st
      (protocolSelectStep st rxQueue txQueue).txQueue
  have hstage : (protocolQueueStep st rxQueue txQueue).st =
      (protocolPrepareStep (protocolSelectStep st rxQueue txQueue).st
        (protocolSelectStep st rxQueue txQueue).txQueue).1 := rfl
  have hcredit : (protocolQueueStep st rxQueue txQueue).st.parseCredit =
      (protocolSelectStep st rxQueue txQueue).st.parseCredit := by
    rw [hstage, hst]
    rfl
  refine ⟨eaten, rest, ⟨hsplit, hfew, ?_, hreplies⟩, ?_, ?_, ?_⟩
  · rw [hstage, hst]
    refine ⟨hnext.ring, hnext.state, fun hp => ?_, hnext.rxPacketCount,
      hnext.rxProtocolDropCount, hnext.arpReplyCount⟩
    obtain ⟨slot, more, hwaiting, hat⟩ := hnext.parsing hp
    exact ⟨slot, more, hwaiting, hoff hat.notPreparing, hat.rxIdx, hat.whole, hat.wants,
      hat.index, hat.regs⟩
  · intro hbusy
    rw [hcredit, hstage, hcost]
    exact hwork.busy hbusy
  · intro hnil hprep
    rw [hstage, hcost]
    exact hwork.idle hnil hprep
  · rw [hcredit]
    exact hwork.looks

end ArtyEthernet
