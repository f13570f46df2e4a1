import ArtyEthernet.Library.FinishTimes
import ArtyEthernet.Proofs.ParseRuns
import ArtyEthernet.Proofs.Serving

/-!
# The timing of replies

A packet is looked at in the cycle its burst ends, its 28 bytes are read in the next 28 cycles, and
the reply is built in 42 cycles starting with that of the last byte. On the wire it takes 169. While
nothing has been refused, `LineAt` gives the state of the handler and the cycles left on the wire
from the times at which the answered bursts ended.
-/

namespace ArtyEthernet
open Words

/-- The sample completes a packet that is answered. -/
def endsRequest (inputs : List RxPins) (i : RxPins) : Bool :=
  (completedPacket (rxPending inputs) i).any fun packet => packet.arpRequester.isSome

/-- The cycles in which the bursts of answered packets end. -/
def requestEnds (inputs : List RxPins) : List ℕ :=
  (List.range inputs.length).filter fun t => inputs[t]?.any (endsRequest (inputs.take t))

theorem requestEnds_snoc (inputs : List RxPins) (i : RxPins) :
    requestEnds (inputs ++ [i]) =
      requestEnds inputs ++ if endsRequest inputs i then [inputs.length] else [] := by
  unfold requestEnds
  rw [List.length_append, List.length_singleton, List.range_succ, List.filter_append]
  congr 1
  · apply List.filter_congr
    intro t ht
    have hlt : t < inputs.length := List.mem_range.mp ht
    rw [List.getElem?_append_left hlt, List.take_append_of_le_length hlt.le]
  · rw [List.filter_singleton, List.getElem?_concat_length, List.take_left,
      Option.any_some]
    cases endsRequest inputs i <;> rfl

/-- The cycle in which the framer is done with the replies to these requests. -/
def wireFree (ends : List ℕ) : ℕ := FirstCome.finishTime 69 169 ends

theorem wireFree_snoc (ends : List ℕ) (e : ℕ) :
    wireFree (ends ++ [e]) = max (wireFree ends) (e + 69) + 169 :=
  FirstCome.finishTime_snoc 69 169 ends e

section Select
variable {st : Protocol} {rxQueue : RxPacketQueue} {txQueue : TxPacketQueue}

theorem protocolSelectStep_parseIndex (hprep : st.preparingPayload = false)
    (hstate : (protocolSelectStep st rxQueue txQueue).st.protocolState = .protoParseArp) :
    (st.protocolState = .protoIdle → (protocolSelectStep st rxQueue txQueue).st.parseIndex = 0) ∧
      (st.protocolState = .protoParseArp → st.parseIndex ≠ 27 ∧
        (protocolSelectStep st rxQueue txQueue).st.parseIndex = st.parseIndex + 1) := by
  have hmove := protocolSelectStep_move st rxQueue txQueue
  generalize protocolSelectStep st rxQueue txQueue = stage at hmove hstate ⊢
  cases hmove with
  | beginParse _ hidle => exact ⟨fun _ => rfl, fun hparse => by simp [hidle] at hparse⟩
  | readByte _ hparse hmore => exact ⟨fun hidle => by simp [hparse] at hidle, fun _ => ⟨hmore, rfl⟩⟩
  | busy hbusy => simp [hprep] at hbusy
  | parked _ hparked => simp_all [Protocol.ticked]
  | quiet _ hidle => simp_all [Protocol.ticked]
  | drop _ hidle => simp_all [Protocol.ticked]
  | announce _ hidle => simp_all [Protocol.ticked, Protocol.offer]
  | beacon _ hidle => simp_all [Protocol.ticked, Protocol.offer]
  | reject => simp at hstate
  | reply => simp at hstate

theorem protocolSelectStep_decides (hprep : st.preparingPayload = false)
    (hstate : st.protocolState = .protoParseArp)
    (hidle : (protocolSelectStep st rxQueue txQueue).st.protocolState = .protoIdle) :
    st.parseIndex.toNat = 27 := by
  have hmove := protocolSelectStep_move st rxQueue txQueue
  have hlast : st.parseIndex = 27 := by
    generalize protocolSelectStep st rxQueue txQueue = stage at hmove hidle
    cases hmove <;> simp_all [Protocol.ticked]
  rw [hlast]
  rfl

theorem protocolSelectStep_prepareIndex (hprep : st.preparingPayload = false)
    (hon : (protocolSelectStep st rxQueue txQueue).st.preparingPayload = true) :
    (protocolSelectStep st rxQueue txQueue).st.prepareIndex = 0 := by
  have hmove := protocolSelectStep_move st rxQueue txQueue
  generalize protocolSelectStep st rxQueue txQueue = stage at hmove hon ⊢
  cases hmove <;> simp_all [Protocol.ticked, Protocol.offer]

end Select

theorem Protocol.building_singleton {r : ProtocolTxRequest} {st : Protocol}
    (h : st.building = [r]) : st.preparingPayload = true ∧ st.prepareRequest = r := by
  unfold Protocol.building at h
  split_ifs at h with hon
  exact ⟨hon, (List.cons.inj h).1⟩

theorem arpReplyRequest_cycles (mac : BitVec 48) (ip : BitVec 32) :
    (arpReplyRequest mac ip).cycles = 169 := by
  have hwork := (wellFormed_arpReply mac ip).work_eq
  have hlen : (arpReplyRequest mac ip).len.toNat = 42 := rfl
  have hkind : (arpReplyRequest mac ip).isBeacon = false := rfl
  rw [ProtocolTxRequest.work, hlen, hkind, if_neg Bool.false_ne_true] at hwork
  omega

theorem heldCycles_replies {held : List ProtocolTxRequest} (h : ∀ r ∈ held, r.cycles = 169) :
    heldCycles held = 169 * held.length := by
  induction held with
  | nil => rfl
  | cons r held ih =>
    rw [heldCycles_cons, ih fun r hr => h r (List.mem_cons_of_mem _ hr), h r (by simp),
      List.length_cons]
    omega

/-- With only replies in the ring, a slot is free while at most three of them are still due. -/
theorem TxAt.free_iff {sent held : List ProtocolTxRequest} {pins : List TxPins} {left : ℕ}
    {s : Endpoint} (h : TxAt sent held pins left s) (hcycles : ∀ r ∈ held, r.cycles = 169) :
    packetQueueWriteSlotAvailable s.txQueue = true ↔ left ≤ 507 := by
  have hsum := heldCycles_replies hcycles
  have hbounds : left ≤ 169 * held.length ∧ 169 * held.length ≤ left + 168 := by
    cases h.wire with
    | resting _ _ _ _ hleft => omega
    | sending r rest k hheld _ _ frame _ _ _ _ hleft =>
      have hlt := frame.lt_frameCycles
      have hr := hcycles r (by simp [hheld])
      rw [ProtocolTxRequest.cycles] at hr
      omega
    | gap r rest k hheld _ _ frame _ _ _ hleft =>
      have hlt := frame.lt_frameCycles
      have hr := hcycles r (by simp [hheld])
      rw [ProtocolTxRequest.cycles] at hr
      omega
  rw [h.ring.length_held.1]
  omega

/-- Where the handler is in cycle `t` with the packet whose burst ended in cycle `e`, and the
request still to be put into the transmit ring. -/
inductive Phase (e t : ℕ) (st : Protocol) : List RxSlot → List ℕ → Prop where
  | idle (hstate : st.protocolState = .protoIdle) (hprep : st.preparingPayload = false) :
      Phase e t st [] []
  | parsing (slot : RxSlot) (hstate : st.protocolState = .protoParseArp)
      (clock : t = e + 1 + st.parseIndex.toNat) :
      Phase e t st [slot] (if (slotRequester slot).isSome then [e] else [])
  | building (hstate : st.protocolState = .protoIdle) (hprep : st.preparingPayload = true)
      (clock : st.buildCost + t = e + 70) (late : e + 29 ≤ t)
      (hcycles : ∀ r ∈ st.building, r.cycles = 169) : Phase e t st [] [e]

structure LineAt (e : ℕ) (done undone : List ℕ) (consumed waiting : List RxSlot)
    (sent held : List ProtocolTxRequest) (inputs : List RxPins) : Prop where
  decided : Decided consumed waiting inputs
  tx : TxAt sent held (drivenPins inputs) (wireFree done - inputs.length) (runFrom inputs)
  cycles : ∀ r ∈ held, r.cycles = 169
  ends : requestEnds inputs = done ++ undone
  old : ∀ k ∈ done, k + 70 ≤ inputs.length
  phase : Phase e inputs.length (runFrom inputs).proto waiting undone
  recent : waiting ≠ [] ∨ (runFrom inputs).proto.preparingPayload = true →
    e + 1 + (rxPending inputs).length ≤ inputs.length

theorem lineAt_reset : LineAt 0 [] [] [] [] [] [] [] where
  decided := ⟨rxAt_reset, backlog_reset, rfl, rfl⟩
  tx := txAt_reset
  cycles := by simp
  ends := rfl
  old := by simp
  phase := .idle rfl rfl
  recent h := absurd h (by simp [runFrom, Endpoint.reset, Protocol.init])

variable {e : ℕ} {done undone : List ℕ} {consumed waiting : List RxSlot}
  {sent held : List ProtocolTxRequest} {inputs : List RxPins} {i : RxPins}

theorem TxAt.buildCost_pos {pins : List TxPins} {left : ℕ} {s : Endpoint}
    (h : TxAt sent held pins left s) (hprep : s.proto.preparingPayload = true) :
    0 < s.proto.buildCost := by
  have hindex := (h.ring.building hprep).index
  rw [Protocol.buildCost, if_pos hprep]
  omega

/-- A packet is completed only when the handler is done with the one before. -/
theorem LineAt.arrival (h : LineAt e done undone consumed waiting sent held inputs)
    (hlong : ∀ r ∈ rxBursts (inputs ++ [i]), 144 ≤ r.body.length)
    (hsome : completedPacket (rxPending inputs) i ≠ none) :
    waiting = [] ∧ (runFrom inputs).proto.preparingPayload = false := by
  have hquiet : ¬ (i.ethRxDv = true ∨ rxPending inputs = []) := by
    intro hquiet
    rw [completedPacket_none hquiet] at hsome
    exact hsome rfl
  have hlen : 144 ≤ (rxPending inputs).length := by
    apply hlong ⟨rxPending inputs, i⟩
    rw [rxBursts_snoc, if_neg hquiet]
    simp
  have hrecent := h.recent
  cases h.phase with
  | idle hstate hprep => exact ⟨rfl, hprep⟩
  | parsing slot hstate clock =>
    have hbusy := hrecent (Or.inl (List.cons_ne_nil slot []))
    have hindex := (h.decided.rx.handler.parsing hstate)
    obtain ⟨_, _, _, hat⟩ := hindex
    have hlt := hat.index
    omega
  | building hstate hprep clock =>
    have hbusy := hrecent (Or.inr hprep)
    have hpos := h.tx.buildCost_pos hprep
    omega

theorem LineAt.tx_step (h : LineAt e done undone consumed waiting sent held inputs)
    {finished : List ProtocolTxRequest} (hfinished : (runFrom inputs).finished i = finished)
    (hcycles : ∀ r ∈ finished, r.cycles = 169) :
    ∃ sent' held', TxAt sent' held' (drivenPins (inputs ++ [i]))
        (wireFree done - inputs.length + 169 * finished.length - 1) (runFrom (inputs ++ [i])) ∧
      ∀ r ∈ held', r.cycles = 169 := by
  obtain ⟨sent', held', htx, hsplit, ⟨more, hmore⟩, -⟩ := h.tx.step i
  rw [hfinished, heldCycles_replies hcycles, ← drivenPins_snoc, ← runFrom_snoc] at htx
  refine ⟨sent', held', htx, fun r hr => ?_⟩
  rw [← hmore, List.append_assoc, List.append_assoc, List.append_cancel_left_eq, hfinished]
    at hsplit
  have hmem : r ∈ held ++ finished := hsplit ▸ List.mem_append_right more hr
  rcases List.mem_append.mp hmem with hold | hnew
  · exact h.cycles r hold
  · exact hcycles r hnew

theorem LineAt.keep (h : LineAt e done undone consumed waiting sent held inputs) {e' : ℕ}
    {undone' : List ℕ} {consumed' waiting' : List RxSlot}
    (hdecided : Decided consumed' waiting' (inputs ++ [i]))
    (hfinished : (runFrom inputs).finished i = [])
    (hends : requestEnds (inputs ++ [i]) = done ++ undone')
    (hphase : Phase e' (inputs.length + 1) (runFrom (inputs ++ [i])).proto waiting' undone')
    (hrecent : waiting' ≠ [] ∨ (runFrom (inputs ++ [i])).proto.preparingPayload = true →
      e' + 1 + (rxPending (inputs ++ [i])).length ≤ inputs.length + 1) :
    ∃ sent' held', LineAt e' done undone' consumed' waiting' sent' held' (inputs ++ [i]) := by
  obtain ⟨sent', held', htx, hcycles⟩ := h.tx_step hfinished (by simp)
  have hlen : (inputs ++ [i]).length = inputs.length + 1 := by simp
  have hleft : wireFree done - inputs.length + 169 * ([] : List ProtocolTxRequest).length - 1 =
      wireFree done - (inputs ++ [i]).length := by
    rw [List.length_nil, hlen]
    omega
  rw [hleft] at htx
  refine ⟨sent', held', hdecided, htx, hcycles, hends, fun k hk => ?_, hlen ▸ hphase, ?_⟩
  · have hold := h.old k hk
    omega
  · rw [hlen]
    exact hrecent

theorem length_rxPending_snoc (inputs : List RxPins) (i : RxPins) :
    (rxPending (inputs ++ [i])).length ≤ (rxPending inputs).length + 1 := by
  rw [rxPending_snoc, nextPending]
  split_ifs <;> simp

theorem requestEnds_quiet (hnone : completedPacket (rxPending inputs) i = none) :
    requestEnds (inputs ++ [i]) = requestEnds inputs := by
  have hoff : endsRequest inputs i = false := by rw [endsRequest, hnone, Option.any_none]
  rw [requestEnds_snoc, hoff, if_neg Bool.false_ne_true, List.append_nil]

theorem LineAt.builds (h : LineAt e done undone consumed waiting sent held inputs)
    (i : RxPins) : (runFrom inputs).finished i ++ (runFrom (inputs ++ [i])).proto.building =
      (runFrom inputs).proto.building ++ ((runFrom inputs).accepted i).toList := by
  obtain ⟨-, -, -, -, -, hbuild⟩ := h.tx.step i
  rw [runFrom_snoc]
  exact hbuild

theorem LineAt.rests (h : LineAt e done undone consumed waiting sent held inputs)
    (hprep : (runFrom inputs).proto.preparingPayload = false)
    (hnone : (runFrom inputs).accepted i = none) :
    (runFrom inputs).finished i = [] ∧
      (runFrom (inputs ++ [i])).proto.preparingPayload = false := by
  have hbuild := h.builds i
  rw [Protocol.building_nil.mpr hprep, hnone] at hbuild
  obtain ⟨hfinished, hbuilding⟩ := List.append_eq_nil_iff.mp hbuild
  exact ⟨hfinished, Protocol.building_nil.mp hbuilding⟩

theorem accepted_none {s : Endpoint} (h : (s.handed i).toList = []) : s.accepted i = none := by
  rw [Endpoint.accepted, Option.toList_eq_nil_iff.mp h, ite_self]

theorem handed_none_of_idle {s : Endpoint} (hticks : s.proto.ticks = ⟨false, false⟩)
    (hstate : s.proto.protocolState = .protoIdle) : s.handed i = none := by
  cases hr : s.handed i with
  | none => rfl
  | some r =>
    have hparse := (protocolSelectStep_noTick hticks hr).2
    rw [hstate] at hparse
    contradiction

theorem step_proto (s : Endpoint) (i : RxPins) :
    (s.step i).proto.protocolState =
        (protocolSelectStep s.proto (s.rxStage i).2 s.txQueue).st.protocolState ∧
      (s.step i).proto.parseIndex =
        (protocolSelectStep s.proto (s.rxStage i).2 s.txQueue).st.parseIndex := by
  obtain ⟨preparing, request, index, hst, -⟩ :=
    protocolPrepareStep_fst (protocolSelectStep s.proto (s.rxStage i).2 s.txQueue).st
      (protocolSelectStep s.proto (s.rxStage i).2 s.txQueue).txQueue
  have hproto : (s.step i).proto =
      (protocolPrepareStep (protocolSelectStep s.proto (s.rxStage i).2 s.txQueue).st
        (protocolSelectStep s.proto (s.rxStage i).2 s.txQueue).txQueue).1 := rfl
  rw [hproto, hst]
  exact ⟨rfl, rfl⟩

theorem parse_of_looks {st st' : Protocol} {waiting' : List RxSlot}
    (hwork : StepWork st st' waiting' []) (hne : waiting' ≠ [])
    (hprep : st.preparingPayload = false) : st'.protocolState = .protoParseArp := by
  have hcredit := hwork.looks hne hprep rfl
  unfold Protocol.parseCredit at hcredit
  by_contra hstate
  rw [if_neg hstate] at hcredit
  omega

end ArtyEthernet
