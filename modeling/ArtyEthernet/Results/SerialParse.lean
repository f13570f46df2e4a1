import ArtyEthernet.Proofs.ParseRuns
import ArtyEthernet.Proofs.ViewReads
import ArtyEthernet.Results.QuiescentReply

/-!
# The two ARP parsers agree

The handler reads an ARP payload a byte per cycle into partly filled registers;
`parse_arp_ipv4_request` reads it at once by offset. From every reachable idle state, and whatever
is received meanwhile, the first decides as the second.
-/

namespace ArtyEthernet
open Words

theorem parseArpIpv4Request_eq (bytes : Buffer maxEthPayloadBytesInt) {len : BitVec 11}
    (hlen : 28 ≤ len.toNat) :
    parseArpIpv4Request bytes ⟨0, len⟩ =
      ⟨(parseRegs bytes 28).arpValid, (parseRegs bytes 28).senderMac,
        (parseRegs bytes 28).senderIp⟩ := by
  have hlong : ¬ len < arpPayloadBytes.setWidth 11 := by
    rw [BitVec.lt_def]
    exact Nat.not_lt.mpr hlen
  have hbyte (index : ℕ) : arrayReader bytes index = pure (bytes.get index) := rfl
  have hword (index : BitVec 11) := (shows_arrayReader bytes index.toNat 2).be16
  have hdouble (index : BitVec 11) := (shows_arrayReader bytes index.toNat 4).be32
  have hmac (index : BitVec 11) := (shows_arrayReader bytes index.toNat 6).mac48
  rw [parseArpIpv4Request, readArpIpv4Request, if_neg hlong, parseRegs_complete]
  simp only [hbyte, hword, hdouble, hmac, pure_bind]
  rfl

def afterCycles (history : List RxPins) (pins : ℕ → RxPins) (k : ℕ) : Endpoint :=
  runFrom (history ++ (List.range k).map pins)

def ringAfter (history : List RxPins) (pins : ℕ → RxPins) (k : ℕ) : RxPacketQueue :=
  ((afterCycles history pins k).rxStage (pins k)).2

/-- A packet that is read as ARP. -/
structure ArpCandidate (packet : RxPacketMeta) : Prop where
  whole : packet.truncated = false
  addressed : packet.header.dstMac = fpgaMac ∨ packet.header.dstMac = broadcastMac
  ethertype : packet.header.ethertype = arpEthertype
  long : 28 ≤ packet.payloadLen.toNat

/-- The parse of `slot`, which starts after `wait` cycles and decides as `info`. -/
structure SerialParse (history : List RxPins) (pins : ℕ → RxPins) (slot : RxSlot)
    (info : ArpRequestInfo) (wait : ℕ) : Prop where
  waits : ∀ k ≤ wait, (afterCycles history pins k).proto.protocolState = .protoIdle
  parses : ∀ k, wait < k → k ≤ wait + 28 →
    (afterCycles history pins k).proto.protocolState = .protoParseArp
  ends : (afterCycles history pins (wait + 29)).proto.protocolState = .protoIdle
  /-- Until the last cycle the slot stays at the head of the ring and nothing is raised. -/
  holds : ∀ k ≤ wait + 28, packetQueueReadSlotValid (ringAfter history pins k) = true ∧
    headSlot (ringAfter history pins k) = slot ∧
    (ringAfter history pins k).readIdx = (ringAfter history pins 0).readIdx
  silent : ∀ k < wait + 28, (afterCycles history pins k).handed (pins k) = none
  consumed : (afterCycles history pins (wait + 29)).rxQueue =
    packetQueueConsumeReadSlot (ringAfter history pins (wait + 28))
  handed : (afterCycles history pins (wait + 28)).handed (pins (wait + 28)) =
    if info.valid then some (arpReplyRequest info.senderMac info.senderIp) else none
  dropCount : (afterCycles history pins (wait + 29)).proto.rxProtocolDropCount =
    if info.valid then (runFrom history).proto.rxProtocolDropCount
    else (runFrom history).proto.rxProtocolDropCount + 1

theorem ArpCandidate.wantsArpParse {packet : RxPacketMeta} (h : ArpCandidate packet) :
    packet.wantsArpParse = true := by
  have hlen : arpPayloadBytes.setWidth 11 ≤ packet.payloadLen := h.long
  have hdst : (packet.header.dstMac == fpgaMac || packet.header.dstMac == broadcastMac) = true := by
    simpa using h.addressed
  simp [RxPacketMeta.wantsArpParse, hdst, h.ethertype, hlen]

section Cycles
variable {history : List RxPins} {pins : ℕ → RxPins} {k : ℕ} {slot : RxSlot}

theorem afterCycles_zero : afterCycles history pins 0 = runFrom history := by
  simp [afterCycles]

theorem afterCycles_succ :
    afterCycles history pins (k + 1) = (afterCycles history pins k).step (pins k) := by
  rw [afterCycles, List.range_succ, List.map_append, ← List.append_assoc]
  exact runFrom_snoc _ _

/-- `slot` is still the first packet and nothing has been decided since `history`. -/
structure Untouched (history : List RxPins) (pins : ℕ → RxPins) (slot : RxSlot) (k : ℕ) :
    Prop where
  valid : packetQueueReadSlotValid (ringAfter history pins k) = true
  head : headSlot (ringAfter history pins k) = slot
  readIdx : (ringAfter history pins k).readIdx = (ringAfter history pins 0).readIdx
  dropCount : (afterCycles history pins k).proto.rxProtocolDropCount =
    (runFrom history).proto.rxProtocolDropCount

theorem Untouched.next (h : Untouched history pins slot k)
    (hpass : Passes (afterCycles history pins k).proto (ringAfter history pins k)
      ((afterCycles history pins k).protoStage (pins k))) :
    Untouched history pins slot (k + 1) := by
  have hring : (afterCycles history pins (k + 1)).rxQueue = ringAfter history pins k := by
    rw [afterCycles_succ]
    exact hpass.rxQueue
  have hstage := headSlot_rxStage (history ++ (List.range (k + 1)).map pins) (pins (k + 1)) (by
    change packetQueueReadSlotValid (afterCycles history pins (k + 1)).rxQueue = true
    rw [hring]
    exact h.valid)
  have hidx : (ringAfter history pins (k + 1)).readIdx = (ringAfter history pins k).readIdx := by
    rw [← hring]
    exact ethernetRxQueueStep_readIdx _ _ _
  refine ⟨hstage.1, ?_, hidx.trans h.readIdx, ?_⟩
  · refine hstage.2.trans ?_
    change headSlot (afterCycles history pins (k + 1)).rxQueue = slot
    rw [hring, h.head]
  · rw [afterCycles_succ]
    exact hpass.dropCount.trans h.dropCount

/-- Where the handler is: `k` cycles towards a parse that starts after `wait` of them. -/
structure ParsePhase (history : List RxPins) (pins : ℕ → RxPins) (slot : RxSlot) (wait k : ℕ) :
    Prop where
  untouched : Untouched history pins slot k
  waiting : k ≤ wait → (afterCycles history pins k).proto.protocolState = .protoIdle ∧
    (afterCycles history pins k).proto.buildCost + k = wait
  reading : wait < k → ReadsAt (afterCycles history pins k).proto
    (ringAfter history pins 0).readIdx slot.2 (k - (wait + 1))

theorem prepareIndex_lt (inputs : List RxPins)
    (hprep : (runFrom inputs).proto.preparingPayload = true) :
    (runFrom inputs).proto.prepareIndex.toNat <
      (runFrom inputs).proto.prepareRequest.len.toNat := by
  obtain ⟨sent, held, left, htx, -⟩ := txAt_run inputs
  exact (htx.ring.building hprep).index

theorem ParsePhase.step {wait : ℕ} (h : ParsePhase history pins slot wait k)
    (hslot : ArpCandidate slot.1) (hk : k < wait + 28) :
    Passes (afterCycles history pins k).proto (ringAfter history pins k)
        ((afterCycles history pins k).protoStage (pins k)) ∧
      ParsePhase history pins slot wait (k + 1) := by
  have hindex := prepareIndex_lt (history ++ (List.range k).map pins)
  have hhead := h.untouched.head
  have hmeta : (ringAfter history pins k).slotMeta (ringAfter history pins k).readIdx = slot.1 :=
    congrArg Prod.fst hhead
  have hbytes : (ringAfter history pins k).bytes (ringAfter history pins k).readIdx = slot.2 :=
    congrArg Prod.snd hhead
  have hproto : (afterCycles history pins (k + 1)).proto =
      ((afterCycles history pins k).protoStage (pins k)).st := by
    rw [afterCycles_succ]
    rfl
  rcases Nat.lt_trichotomy k wait with hlt | rfl | hgt
  · -- the response in front of the parse is still being built
    obtain ⟨hidle, hcost⟩ := h.waiting (Nat.le_of_lt hlt)
    have hprep : (afterCycles history pins k).proto.preparingPayload = true := by
      by_contra hoff
      rw [buildCost_off (by simpa using hoff)] at hcost
      omega
    obtain ⟨hpass, hstate, hbuild⟩ := @queueStep_wait _ (ringAfter history pins k)
      (afterCycles history pins k).txQueue hprep (hindex hprep)
    refine ⟨hpass, h.untouched.next hpass, fun _ => ?_, fun hafter => by omega⟩
    have hnext : ((afterCycles history pins k).protoStage (pins k)).st.buildCost + 1 =
        (afterCycles history pins k).proto.buildCost := hbuild
    rw [hproto]
    exact ⟨hstate.trans hidle, by omega⟩
  · obtain ⟨hidle, hcost⟩ := h.waiting le_rfl
    have hprep : (afterCycles history pins k).proto.preparingPayload = false := by
      by_contra hon
      have hon : (afterCycles history pins k).proto.preparingPayload = true := by simpa using hon
      have hlt : (afterCycles history pins k).proto.prepareIndex.toNat <
        (afterCycles history pins k).proto.prepareRequest.len.toNat := hindex hon
      simp only [Protocol.buildCost, hon, if_true] at hcost
      omega
    obtain ⟨hpass, hreads⟩ := @queueStep_examine _ _ (afterCycles history pins k).txQueue
      hprep hidle h.untouched.valid (by rw [hmeta]; exact hslot.whole)
      (by rw [hmeta]; exact hslot.wantsArpParse) slot.2
    refine ⟨hpass, h.untouched.next hpass, fun hbefore => by omega, fun _ => ?_⟩
    rw [hproto, Nat.sub_self, ← h.untouched.readIdx]
    exact hreads
  · have hread := h.reading hgt
    rw [← h.untouched.readIdx] at hread
    obtain ⟨hpass, hreads⟩ := @ReadsAt.step _ _ (afterCycles history pins k).txQueue _ _ hread
      (by omega) hbytes
    refine ⟨hpass, h.untouched.next hpass, fun hbefore => by omega, fun _ => ?_⟩
    rw [hproto, ← h.untouched.readIdx, show k + 1 - (wait + 1) = k - (wait + 1) + 1 by omega]
    exact hreads

theorem parsePhase_run {wait : ℕ} (h : ParsePhase history pins slot wait 0)
    (hslot : ArpCandidate slot.1) {k : ℕ} (hk : k ≤ wait + 28) :
    ParsePhase history pins slot wait k := by
  induction k with
  | zero => exact h
  | succ k ih => exact ((ih (by omega)).step hslot (by omega)).2

end Cycles

/-- From every reachable state between packets, whatever is received from then on: a packet of
ARP size for the endpoint at the head of the receive ring is read for exactly 28 cycles, consumed
once, and answered or counted as dropped as the one-shot parser says. -/
theorem serial_parse_agrees (history : List RxPins) (pins : ℕ → RxPins)
    (hidle : (runFrom history).proto.protocolState = .protoIdle)
    (hvalid : packetQueueReadSlotValid (ringAfter history pins 0) = true)
    (hslot : ArpCandidate (headSlot (ringAfter history pins 0)).1) :
    SerialParse history pins (headSlot (ringAfter history pins 0))
      (parseArpIpv4Request (headSlot (ringAfter history pins 0)).2
        ⟨0, (headSlot (ringAfter history pins 0)).1.payloadLen⟩)
      (runFrom history).proto.buildCost := by
  generalize hslot₀ : headSlot (ringAfter history pins 0) = slot at hslot ⊢
  generalize hwait : (runFrom history).proto.buildCost = wait
  have hstart : ParsePhase history pins slot wait 0 := by
    refine ⟨⟨hvalid, hslot₀, rfl, ?_⟩, fun _ => ?_, fun hafter => absurd hafter (Nat.not_lt_zero _)⟩
    · rw [afterCycles_zero]
    · rw [afterCycles_zero]
      exact ⟨hidle, hwait⟩
  have hphase {k : ℕ} (hk : k ≤ wait + 28) := parsePhase_run hstart hslot hk
  have hlast := hphase le_rfl
  have hread := hlast.reading (by omega)
  rw [← hlast.untouched.readIdx, show wait + 28 - (wait + 1) = 27 by omega] at hread
  obtain ⟨hring, hstate, hhanded, hdrop, -⟩ :=
    @ReadsAt.finish _ _ (afterCycles history pins (wait + 28)).txQueue _ hread
      (congrArg Prod.snd hlast.untouched.head)
  rw [parseArpIpv4Request_eq slot.2 hslot.long]
  generalize parseRegs slot.2 28 = regs at hhanded hdrop ⊢
  exact {
    waits := fun k hk => ((hphase (by omega)).waiting hk).1
    parses := fun k hk hk' => ((hphase hk').reading hk).state
    ends := by
      rw [afterCycles_succ]
      exact hstate
    holds := fun k hk =>
      ⟨(hphase hk).untouched.valid, (hphase hk).untouched.head, (hphase hk).untouched.readIdx⟩
    silent := fun k hk => ((hphase (Nat.le_of_lt hk)).step hslot hk).1.handed
    consumed := by
      rw [afterCycles_succ]
      exact hring
    handed := hhanded
    dropCount := by
      rw [afterCycles_succ, ← hlast.untouched.dropCount]
      exact hdrop }

theorem serial_parse_agrees_probe :
    SerialParse (ArpRequestFrame.probe.pins 7) (fun _ => ⟨false, 0, false⟩)
      (headSlot (ringAfter (ArpRequestFrame.probe.pins 7) (fun _ => ⟨false, 0, false⟩) 0))
      (parseArpIpv4Request
        (headSlot (ringAfter (ArpRequestFrame.probe.pins 7) (fun _ => ⟨false, 0, false⟩) 0)).2
        ⟨0, (headSlot (ringAfter (ArpRequestFrame.probe.pins 7)
          (fun _ => ⟨false, 0, false⟩) 0)).1.payloadLen⟩)
      (runFrom (ArpRequestFrame.probe.pins 7)).proto.buildCost :=
  serial_parse_agrees _ _ (by decide +kernel) (by decide +kernel)
    ⟨by decide +kernel, by decide +kernel, by decide +kernel, by decide +kernel⟩

end ArtyEthernet
