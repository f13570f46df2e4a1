import ArtyEthernet.Proofs.RxRuns
import ArtyEthernet.Proofs.TxCounts

/-!
# The work left on the transmit side

`txWork` counts the cycles until everything accepted so far has been built, sent and given its
gap. Every cycle takes one off, and only an accepted request adds to it.
-/

namespace ArtyEthernet
open Words

def Protocol.txWork (st : Protocol) (left : ℕ) : ℕ := left + st.buildCost + heldCycles st.building

/-- The cycles a request takes from its acceptance to the end of its gap. -/
def ProtocolTxRequest.work (r : ProtocolTxRequest) : ℕ := r.len.toNat + r.cycles

variable {st st' : Protocol}

theorem offer_taken {r taken : ProtocolTxRequest} (txQueue : TxPacketQueue) (hr : r.WellFormed)
    (hprep : st.preparingPayload = false)
    (hsame : st'.preparingPayload = (st.ticked.offer r txQueue).preparingPayload)
    (hreq : st'.prepareRequest = (st.ticked.offer r txQueue).prepareRequest)
    (hidx : st'.prepareIndex = (st.ticked.offer r txQueue).prepareIndex)
    (htaken : takenRequest txQueue (some r) = some taken) :
    st'.selectCost ≤ taken.len.toNat := by
  unfold takenRequest at htaken
  split_ifs at htaken
  rw [← Option.some.inj htaken]
  exact offer_selectCost txQueue hr hprep hsame hreq hidx

structure SelectCost (st : Protocol) (txQueue : TxPacketQueue) (stage : ProtocolStage) : Prop where
  busy : st.preparingPayload = true → stage.handed = none ∧ stage.st.selectCost = st.buildCost
  taken : ∀ r, takenRequest txQueue stage.handed = some r → stage.st.selectCost ≤ r.len.toNat

theorem SelectCost.of_idle {txQueue : TxPacketQueue} {stage : ProtocolStage}
    (hprep : st.preparingPayload = false)
    (htaken : ∀ r, takenRequest txQueue stage.handed = some r →
      stage.st.selectCost ≤ r.len.toNat) : SelectCost st txQueue stage where
  busy hon := by simp [hprep] at hon
  taken := htaken

theorem SelectCost.of_none {txQueue : TxPacketQueue} {stage : ProtocolStage}
    (hprep : st.preparingPayload = false) (hnone : stage.handed = none) :
    SelectCost st txQueue stage :=
  .of_idle hprep fun r hr => by simp [hnone, takenRequest] at hr

theorem protocolSelectStep_selectCost (st : Protocol) (rxQueue : RxPacketQueue)
    (txQueue : TxPacketQueue) : SelectCost st txQueue (protocolSelectStep st rxQueue txQueue) := by
  have hmove := protocolSelectStep_move st rxQueue txQueue
  generalize protocolSelectStep st rxQueue txQueue = stage at hmove ⊢
  cases hmove with
  | busy hprep =>
    refine ⟨fun _ => ⟨rfl, ?_⟩, fun r hr => by simp [takenRequest] at hr⟩
    have hon : st.ticked.preparingPayload = true := hprep
    simp only [Protocol.selectCost, hon, if_true]
    rfl
  | announce hprep =>
    exact .of_idle hprep fun r => offer_taken txQueue wellFormed_gratuitousArp hprep rfl rfl rfl
  | beacon hprep =>
    exact .of_idle hprep fun r => offer_taken txQueue
      (wellFormed_beaconSnapshot st rxQueue txQueue) hprep rfl rfl rfl
  | reply hprep =>
    exact .of_idle hprep fun r =>
      offer_taken txQueue (wellFormed_arpReply _ _) hprep rfl rfl rfl
  | parked hprep => exact .of_none hprep rfl
  | quiet hprep => exact .of_none hprep rfl
  | drop hprep => exact .of_none hprep rfl
  | beginParse hprep => exact .of_none hprep rfl
  | readByte hprep => exact .of_none hprep rfl
  | reject hprep => exact .of_none hprep rfl

variable {sent held : List ProtocolTxRequest} {pins : List TxPins} {left : ℕ} {s : Endpoint}

/-- What a cycle does to the work left, with the next value of `left` for `left'`. -/
structure WorkStep (s : Endpoint) (left left' : ℕ) (i : RxPins) : Prop where
  none : s.accepted i = none →
    (s.step i).proto.txWork left' ≤ s.proto.txWork left - 1
  some : ∀ r, s.accepted i = some r →
    (s.step i).proto.txWork left' + 1 ≤ s.proto.txWork left + r.work

theorem TxAt.work_step (h : TxAt sent held pins left s) (i : RxPins) :
    WorkStep s left (left + heldCycles (s.finished i) - 1) i := by
  have hselect := h.ring.select (s.rxStage i).2
  have hbuild := congrArg heldCycles (h.ring_proto i).2
  rw [heldCycles_append, heldCycles_append] at hbuild
  have hcost : ((s.step i).proto.buildCost) + 1 = (protocolSelectStep s.proto (s.rxStage i).2
      s.txQueue).st.selectCost := buildCost_prepare _ fun hp => (hselect.1.building hp).index
  have hspec := protocolSelectStep_selectCost s.proto (s.rxStage i).2 s.txQueue
  have htaken : s.accepted i = takenRequest s.txQueue
      (protocolSelectStep s.proto (s.rxStage i).2 s.txQueue).handed := rfl
  change heldCycles (s.finished i) + heldCycles (s.step i).proto.building = _ at hbuild
  constructor
  · intro hnone
    unfold Protocol.txWork
    rw [hnone, Option.toList_none, heldCycles_nil] at hbuild
    cases hprep : s.proto.preparingPayload with
    | true =>
      have hsame := (hspec.busy hprep).2
      omega
    | false =>
      have hempty : s.proto.building = [] := by simp [Protocol.building, hprep]
      have hstill := hselect.2
      rw [← htaken, hnone, hempty] at hstill
      have hoff : (protocolSelectStep s.proto (s.rxStage i).2 s.txQueue).st.preparingPayload =
          false := by
        simpa [Protocol.building] using hstill
      rw [selectCost_off hoff] at hcost
      rw [hempty, heldCycles_nil] at hbuild
      rw [buildCost_off hprep, hempty, heldCycles_nil]
      omega
  · intro r hr
    have hlen := hspec.taken r (htaken.symm.trans hr)
    rw [hr, Option.toList_some, heldCycles_cons, heldCycles_nil] at hbuild
    have hmin : 0 < r.cycles := Nat.succ_pos _
    unfold Protocol.txWork ProtocolTxRequest.work
    omega

theorem TxAt.held_nil (h : TxAt sent held pins 0 s) : held = [] := by
  have hpos : ∀ r : ProtocolTxRequest, 0 < r.cycles := fun r => Nat.succ_pos _
  cases h.wire with
  | resting _ _ _ _ hleft =>
    cases held with
    | nil => rfl
    | cons r rest =>
      have hr := hpos r
      rw [heldCycles_cons] at hleft
      omega
  | sending r rest k hheld _ _ frame _ _ _ _ hleft =>
    have hlt := frame.lt_frameCycles
    rw [hheld, heldCycles_cons, ProtocolTxRequest.cycles] at hleft
    omega
  | gap r rest k hheld _ _ frame _ _ _ hleft =>
    have hlt := frame.lt_frameCycles
    rw [hheld, heldCycles_cons, ProtocolTxRequest.cycles] at hleft
    omega

theorem ProtocolTxRequest.WellFormed.work_eq {r : ProtocolTxRequest} (h : r.WellFormed) :
    r.work = if r.isBeacon then 478 else 211 := by
  have hcycles : r.cycles = 2 * (max r.len.toNat 60 + 12) + 24 + 1 := by
    rw [ProtocolTxRequest.cycles, frameCycles, wireNibbles, length_padBody, h.length_frameBody,
      minBody]
  rw [ProtocolTxRequest.work, hcycles]
  rcases h.len_cases with ⟨hkind, hlen⟩ | ⟨hkind, hlen⟩
  · have hbeacon : r.isBeacon = true := by simp [ProtocolTxRequest.isBeacon, hkind]
    rw [hbeacon, hlen, if_pos rfl]
    rfl
  · have hother : r.isBeacon = false := by
      rcases hkind with hk | hk <;> simp [ProtocolTxRequest.isBeacon, hk]
    rw [hother, hlen, if_neg Bool.false_ne_true]
    rfl

end ArtyEthernet
