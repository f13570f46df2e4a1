import ArtyEthernet.Proofs.HandlerMoves
import ArtyEthernet.Proofs.Requests
import ArtyEthernet.Proofs.Rings
import Mathlib.Data.List.Forall2

/-!
# From requests to transmit slots

An accepted request is first the one being prepared and then the last packet of the transmit ring.
`TxRingAt held` says that the valid slots are the frames of `held` and that the slot being
prepared is a free one with a correct prefix, whatever stale bytes follow it.
-/

namespace ArtyEthernet
open Words

abbrev TxSlot := TxPacketMeta × Buffer txFrameBodyBytesInt

structure SlotHolds (slot : TxSlot) (r : ProtocolTxRequest) : Prop where
  wellFormed : r.WellFormed
  len : slot.1.frameBodyLen = r.len
  body : bufferBody slot.2 r.len = r.frameBody

/-- The request being prepared. -/
def Protocol.building (st : Protocol) : List ProtocolTxRequest :=
  if st.preparingPayload then [st.prepareRequest] else []

/-- The bytes already written are a prefix of the body. -/
structure Building (st : Protocol) (txQueue : TxPacketQueue) : Prop where
  slot : st.prepareTxIdx = txQueue.writeIdx
  free : txQueue.valid txQueue.writeIdx = false
  request : st.prepareRequest.WellFormed
  index : st.prepareIndex.toNat < st.prepareRequest.len.toNat
  bytes : ∀ i < st.prepareIndex.toNat, (txQueue.bytes txQueue.writeIdx).get i =
    frameBodyByte st.prepareRequest (BitVec.ofNat 11 i)

structure TxRingAt (st : Protocol) (txQueue : TxPacketQueue) (held : List ProtocolTxRequest) :
    Prop where
  slots : ∃ slots, txQueue.Holds slots ∧ List.Forall₂ SlotHolds slots held
  building : st.preparingPayload = true → Building st txQueue

/-- The request that enters the prepare registers when `handed` is offered. -/
def takenRequest (txQueue : TxPacketQueue) (handed : Option ProtocolTxRequest) :
    Option ProtocolTxRequest :=
  if packetQueueWriteSlotAvailable txQueue then handed else none

variable {st st' : Protocol} {txQueue : TxPacketQueue} {held : List ProtocolTxRequest}
  {r : ProtocolTxRequest}

theorem TxRingAt.length_held (h : TxRingAt st txQueue held) :
    (packetQueueWriteSlotAvailable txQueue = true ↔ held.length < 4) ∧ held.length ≤ 4 := by
  obtain ⟨slots, hring, hslots⟩ := h.slots
  rw [← hslots.length_eq]
  exact ⟨hring.writeSlotAvailable, hring.length_le⟩

theorem TxRingAt.congr (h : TxRingAt st txQueue held)
    (hprep : st'.preparingPayload = st.preparingPayload)
    (hreq : st'.prepareRequest = st.prepareRequest) (hidx : st'.prepareIndex = st.prepareIndex)
    (hslot : st'.prepareTxIdx = st.prepareTxIdx) :
    TxRingAt st' txQueue held ∧ st'.building = st.building := by
  constructor
  · refine ⟨h.slots, fun hp => ?_⟩
    have hb := h.building (hprep ▸ hp)
    exact ⟨hslot ▸ hb.slot, hb.free, hreq ▸ hb.request, by rw [hidx, hreq]; exact hb.index,
      by rw [hidx, hreq]; exact hb.bytes⟩
  · rw [Protocol.building, Protocol.building, hprep, hreq]

theorem TxRingAt.offer (h : TxRingAt st txQueue held) (hr : r.WellFormed)
    (hprep : st.preparingPayload = false) (hsame : st'.preparingPayload =
      (st.ticked.offer r txQueue).preparingPayload)
    (hreq : st'.prepareRequest = (st.ticked.offer r txQueue).prepareRequest)
    (hidx : st'.prepareIndex = (st.ticked.offer r txQueue).prepareIndex)
    (hslot : st'.prepareTxIdx = (st.ticked.offer r txQueue).prepareTxIdx) :
    TxRingAt st' (offeredRing txQueue) held ∧
      st'.building = st.building ++ (takenRequest txQueue (some r)).toList := by
  have hnone : st.building = [] := by simp [Protocol.building, hprep]
  cases hfree : packetQueueWriteSlotAvailable txQueue with
  | true =>
    have hring : offeredRing txQueue = txQueue := by simp [offeredRing, hfree]
    simp only [Protocol.offer, hfree, if_true, Bool.true_or] at hsame hreq hidx hslot
    rw [hring, hnone]
    refine ⟨⟨h.slots, fun _ => ?_⟩, by simp [Protocol.building, takenRequest, hsame, hreq, hfree]⟩
    refine ⟨hslot, by simpa [packetQueueWriteSlotAvailable] using hfree, hreq ▸ hr, ?_, ?_⟩
    · have hmin := hr.len_bounds.1
      rw [hreq, hidx]
      exact Nat.lt_of_lt_of_le (by decide) hmin
    · intro i hi
      rw [hidx] at hi
      exact absurd hi (Nat.not_lt_zero i)
  | false =>
    have hring : offeredRing txQueue = packetQueueDropWrite txQueue := by
      simp [offeredRing, hfree]
    have hoff : st'.preparingPayload = false := by
      simpa [Protocol.offer, Protocol.ticked, hfree, hprep] using hsame
    rw [hring, hnone]
    refine ⟨⟨h.slots, fun hp => ?_⟩, by simp [Protocol.building, takenRequest, hoff, hfree]⟩
    rw [hoff] at hp
    exact absurd hp (by simp)

theorem wellFormed_beaconSnapshot (st : Protocol) (rxQueue : RxPacketQueue)
    (txQueue : TxPacketQueue) : (beaconSnapshot st rxQueue txQueue).WellFormed :=
  ⟨rfl, by simp [beaconSnapshot, protocolTxBeaconRequest], rfl⟩

theorem wellFormed_gratuitousArp : protocolTxGratuitousArpRequest.WellFormed :=
  ⟨rfl, by simp [protocolTxGratuitousArpRequest], rfl⟩

theorem wellFormed_arpReply (mac : BitVec 48) (ip : BitVec 32) :
    (arpReplyRequest mac ip).WellFormed :=
  ⟨rfl, by simp [arpReplyRequest], rfl⟩

theorem takenRequest_none (txQueue : TxPacketQueue) : takenRequest txQueue none = none := by
  simp [takenRequest]

/-- The handler moves a request into the prepare registers exactly when a slot is free. -/
theorem TxRingAt.select (h : TxRingAt st txQueue held) (rxQueue : RxPacketQueue) :
    TxRingAt (protocolSelectStep st rxQueue txQueue).st
        (protocolSelectStep st rxQueue txQueue).txQueue held ∧
      (protocolSelectStep st rxQueue txQueue).st.building = st.building ++
        (takenRequest txQueue (protocolSelectStep st rxQueue txQueue).handed).toList := by
  have hmove := protocolSelectStep_move st rxQueue txQueue
  generalize protocolSelectStep st rxQueue txQueue = stage at hmove ⊢
  cases hmove with
  | announce hprep =>
    exact h.offer wellFormed_gratuitousArp hprep rfl rfl rfl rfl
  | beacon hprep =>
    exact h.offer (wellFormed_beaconSnapshot st rxQueue txQueue) hprep rfl rfl rfl rfl
  | reply hprep =>
    exact h.offer (wellFormed_arpReply _ _) hprep rfl rfl rfl rfl
  | _ =>
    rw [takenRequest_none, Option.toList_none, List.append_nil]
    exact h.congr rfl rfl rfl rfl

/-- The request whose last body byte is written in this cycle. -/
def Protocol.finishing (st : Protocol) : List ProtocolTxRequest :=
  if st.preparingPayload = true ∧ st.prepareIndex.toNat + 1 = st.prepareRequest.len.toNat then
    [st.prepareRequest]
  else []

theorem Building.bytes_built (h : Building st txQueue) :
    ∀ i < st.prepareIndex.toNat + 1, ((st.builtRing txQueue).bytes txQueue.writeIdx).get i =
      frameBodyByte st.prepareRequest (BitVec.ofNat 11 i) := by
  intro i hi
  have hmax := h.request.len_bounds.2
  have hidx := h.index
  simp only [Protocol.builtRing, h.slot, PacketSlotQueue.setBytes, if_true]
  by_cases hlast : i = st.prepareIndex.toNat
  · have hroom : st.prepareIndex.toNat < txFrameBodyBytesInt := by
      simp only [txFrameBodyBytesInt, ethHeaderBytesInt, maxEthPayloadBytesInt]
      omega
    rw [hlast, Buffer.get_set_self _ _ hroom, BitVec.ofNat_toNat, BitVec.setWidth_eq]
  · rw [Buffer.get_set_ne _ _ hlast]
    exact h.bytes i (by omega)

theorem TxRingAt.builtRing_holds {slots : List TxSlot} (hb : Building st txQueue)
    (hring : txQueue.Holds slots) : (st.builtRing txQueue).Holds slots := by
  rw [Protocol.builtRing, hb.slot]
  exact hring.setBytes_write hb.free _

theorem Building.slotHolds (h : Building st txQueue)
    (hlast : st.prepareIndex.toNat + 1 = st.prepareRequest.len.toNat) :
    SlotHolds (⟨st.prepareRequest.len⟩, (st.builtRing txQueue).bytes txQueue.writeIdx)
      st.prepareRequest where
  wellFormed := h.request
  len := rfl
  body := by
    rw [← map_frameBodyByte h.request, bufferBody]
    apply List.map_congr_left
    intro i hi
    have hi' := List.mem_range.mp hi
    exact h.bytes_built i (by omega)

theorem TxRingAt.prepare (h : TxRingAt st txQueue held) :
    TxRingAt (protocolPrepareStep st txQueue).1 (protocolPrepareStep st txQueue).2
        (held ++ st.finishing) ∧
      st.finishing ++ (protocolPrepareStep st txQueue).1.building = st.building := by
  cases hprep : st.preparingPayload with
  | false =>
    rw [protocolPrepareStep_off st txQueue hprep]
    simpa [Protocol.finishing, Protocol.building, hprep] using h
  | true =>
    have hb := h.building hprep
    obtain ⟨slots, hring, hslots⟩ := h.slots
    have hbuilt := TxRingAt.builtRing_holds hb hring
    by_cases hlast : st.prepareIndex.toNat + 1 = st.prepareRequest.len.toNat
    · rw [protocolPrepareStep_last st txQueue hprep hlast]
      have hfin : st.finishing = [st.prepareRequest] := by
        simp [Protocol.finishing, hprep, hlast]
      rw [hfin]
      refine ⟨⟨?_, fun hp => absurd hp (by simp)⟩, by simp [Protocol.building, hprep]⟩
      have hroom : slots.length < 2 ^ txPacketIndexBits := hring.write_free_iff.mp hb.free
      refine ⟨_, hbuilt.publish hroom _, List.rel_append hslots ?_⟩
      exact List.Forall₂.cons (hb.slotHolds hlast) List.Forall₂.nil
    · have hmore : st.prepareIndex.toNat + 1 < st.prepareRequest.len.toNat := by
        have hidx := hb.index
        omega
      rw [protocolPrepareStep_more st txQueue hprep hmore]
      have hfin : st.finishing = [] := by simp [Protocol.finishing, hlast]
      rw [hfin, List.append_nil]
      refine ⟨⟨⟨slots, hbuilt, hslots⟩, fun _ => ?_⟩, by simp [Protocol.building, hprep]⟩
      have hnext : (st.prepareIndex + 1).toNat = st.prepareIndex.toNat + 1 := by
        have hmax := hb.request.len_bounds.2
        rw [BitVec.toNat_add]
        simp
        omega
      refine ⟨hb.slot, hb.free, hb.request, ?_, ?_⟩
      · rw [hnext]
        exact hmore
      · rw [hnext]
        exact hb.bytes_built

theorem TxRingAt.queueStep (h : TxRingAt st txQueue held) (rxQueue : RxPacketQueue) :
    let stage := protocolQueueStep st rxQueue txQueue
    let finished := (protocolSelectStep st rxQueue txQueue).st.finishing
    TxRingAt stage.st stage.txQueue (held ++ finished) ∧
      finished ++ stage.st.building =
        st.building ++ (takenRequest txQueue stage.handed).toList := by
  obtain ⟨hselect, hbuild⟩ := h.select rxQueue
  obtain ⟨hring, hfin⟩ := hselect.prepare
  exact ⟨hring, hfin.trans hbuild⟩

end ArtyEthernet
