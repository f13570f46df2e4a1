import ArtyEthernet.Proofs.ReceiverRuns
import ArtyEthernet.Proofs.WirePacket

/-!
# The receiver decodes what the framer encodes

The framer on its own is started once on a buffer; its pins are fed to a receive path on its own.
-/

namespace ArtyEthernet
open Words

/-- The pins of a framer started on `len` bytes of `buf`, for the starting cycle and `n` more. -/
def framerStream (f : Framer) (buf : Buffer txFrameBodyBytesInt) (len : BitVec 11) (n : ℕ) :
    List FramerPins :=
  Synchronous.trace (fun f start => (ethernetTxFramerStep f start len buf).1)
    (fun f start => (ethernetTxFramerStep f start len buf).2) f (true :: List.replicate n false)

def FramerPins.toRxPins (p : FramerPins) : RxPins := ⟨p.ethTxEn, p.ethTxd, false⟩

section Stream
variable {f : Framer} {buf : Buffer txFrameBodyBytesInt} {body : List Byte} (len : BitVec 11)

def framerPins (f : Framer) (buf : Buffer txFrameBodyBytesInt) (n : ℕ) : List FramerPins :=
  Synchronous.trace (fun f start => (ethernetTxFramerStep f start len buf).1)
    (fun f start => (ethernetTxFramerStep f start len buf).2) f (List.replicate n false)

theorem framerPins_succ (n : ℕ) :
    framerPins len f buf (n + 1) = (ethernetTxFramerStep f false len buf).2 ::
      framerPins len (ethernetTxFramerStep f false len buf).1 buf n := rfl

theorem framerPins_idle (hidle : f.txState = .txIdle) (n : ℕ) :
    ∀ p ∈ framerPins len f buf n, p.ethTxEn = false := by
  induction n generalizing f with
  | zero => simp [framerPins]
  | succ n ih =>
    obtain ⟨hstay, hpins⟩ := framer_rest hidle buf len
    rw [framerPins_succ, hpins]
    rintro p (_ | ⟨_, hp⟩)
    · rfl
    · exact ih hstay p hp

theorem framerPins_gap {k : ℕ} (h : FramerAt body k f) (hk : wireNibbles body ≤ k) (n : ℕ) :
    ∀ p ∈ framerPins len f buf n, p.ethTxEn = false := by
  induction n generalizing f k with
  | zero => simp [framerPins]
  | succ n ih =>
    obtain ⟨hpins, hnext, hend, -⟩ := h.gap_step false len buf hk
    have hlt := h.lt_frameCycles
    rw [framerPins_succ, hpins]
    rintro p (_ | ⟨_, hp⟩)
    · rfl
    · by_cases hlast : k + 1 = frameCycles body
      · exact framerPins_idle len (hend hlast) n p hp
      · exact ih (hnext (by omega)) (by omega) p hp

theorem framerPins_frame {k : ℕ} (h : FramerAt body k f) (hmin : 0 < body.length)
    (hmax : body.length < 2048) (hread : ShowsBody buf f.txLen body) (m n : ℕ)
    (hk : k + m = wireNibbles body) :
    ∃ on off, framerPins len f buf (m + n) = on ++ off ∧ off.length = n ∧
      (∀ p ∈ on, p.ethTxEn = true) ∧ (∀ p ∈ off, p.ethTxEn = false) ∧
      on.map FramerPins.ethTxd = (toNibbles (wireBytes body)).drop k := by
  induction m generalizing f k with
  | zero =>
    refine ⟨[], framerPins len f buf n, by simp, by simp [framerPins], by simp,
      framerPins_gap len h (by omega) n, ?_⟩
    rw [List.drop_eq_nil_of_le]
    · rfl
    · rw [length_toNibbles, length_wireBytes]
      simp only [wireNibbles] at hk
      omega
  | succ m ih =>
    have hemit := h.emits false len (by omega) hmin hmax hread
    rw [← hemit.len] at hread
    obtain ⟨on, off, hsplit, hlen, hon, hoff, hd⟩ := ih hemit.next hread (by omega)
    obtain ⟨hbound, hnib⟩ := List.getElem?_eq_some_iff.mp hemit.nibble
    refine ⟨(ethernetTxFramerStep f false len buf).2 :: on, off, ?_, hlen, ?_, hoff, ?_⟩
    · rw [show m + 1 + n = m + n + 1 by omega, framerPins_succ, hsplit]
      rfl
    · rintro p (_ | ⟨_, hp⟩)
      · exact hemit.enabled
      · exact hon p hp
    · rw [List.map_cons, hd, List.drop_eq_getElem_cons hbound, hnib]

end Stream

theorem framerStream_shape {f : Framer} (buf : Buffer txFrameBodyBytesInt) {len : BitVec 11}
    (hidle : f.txState = .txIdle) (hlen : len.toNat ≤ 1514) {n : ℕ}
    (hn : wireNibbles (padBody (bufferBody buf len)) < n) :
    ∃ first on stop off, framerStream f buf len n = first :: (on ++ stop :: off) ∧
      first.ethTxEn = false ∧ (∀ p ∈ on, p.ethTxEn = true) ∧ stop.ethTxEn = false ∧
      (∀ p ∈ off, p.ethTxEn = false) ∧
      on.map FramerPins.ethTxd = toNibbles (wireBytes (padBody (bufferBody buf len))) := by
  have hbody : (padBody (bufferBody buf len)).length = max len.toNat minBody := by
    rw [length_padBody, length_bufferBody]
  obtain ⟨hframe, htxLen, hpins⟩ := FramerAt.start hidle buf len hbody
  have hread : ShowsBody buf (ethernetTxFramerStep f true len buf).1.txLen
      (padBody (bufferBody buf len)) := by
    rw [htxLen]
    exact showsBody_bufferBody buf hlen
  simp only [minBody] at hbody
  obtain ⟨on, off, hsplit, hofflen, hon, hoff, hd⟩ := framerPins_frame len hframe (by omega)
    (by omega) hread (wireNibbles (padBody (bufferBody buf len)))
    (n - wireNibbles (padBody (bufferBody buf len))) (by omega)
  rw [Nat.add_sub_cancel' hn.le] at hsplit
  obtain ⟨stop, off, rfl⟩ := List.exists_cons_of_length_pos (show 0 < off.length by omega)
  refine ⟨(ethernetTxFramerStep f true len buf).2, on, stop, off,
    congrArg (List.cons _) hsplit, by rw [hpins]; rfl, hon, hoff stop (by simp),
    fun p hp => hoff p (by simp [hp]), by rw [hd, List.drop_zero]⟩

/-- Whatever the buffer, the length and the state of the ring, the frame the framer emits is
received as exactly one packet: the padded body, split into header and payload. -/
theorem rx_decodes_tx (buf : Buffer txFrameBodyBytesInt) (len : BitVec 11) (f : Framer)
    (st : RxCapture × RxPacketQueue) (n : ℕ) (hlen : len.toNat ≤ 1514)
    (hframer : f.txState = .txIdle) (hidle : st.1.mii.rxInFrame = false)
    (hfree : packetQueueWriteSlotAvailable st.2 = true)
    (hn : wireNibbles (padBody (bufferBody buf len)) < n) :
    ∃ slot, receiverPublishes st ((framerStream f buf len n).map FramerPins.toRxPins) = [slot] ∧
      slot.1.truncated = false ∧
      slot.1.header = .ofBytes ((padBody (bufferBody buf len)).take 14) ∧
      slot.1.payloadLen.toNat = max len.toNat 60 - 14 ∧
      (List.range slot.1.payloadLen.toNat).map slot.2.get =
        (padBody (bufferBody buf len)).drop 14 := by
  have hbody : (padBody (bufferBody buf len)).length = max len.toNat 60 := by
    rw [length_padBody, length_bufferBody, minBody]
  obtain ⟨first, on, stop, off, hshape, hfirst, hon, hstop, hoff, hd⟩ :=
    framerStream_shape buf hframer hlen hn
  have hlenOn : on.length = 2 * ((padBody (bufferBody buf len)).length + 12) := by
    rw [← length_wireBytes, ← length_toNibbles, ← hd, List.length_map]
  have hne : on.map FramerPins.toRxPins ≠ [] := by
    rw [Ne, List.map_eq_nil_iff, ← List.length_eq_zero_iff]
    omega
  have hon' : ∀ p ∈ on.map FramerPins.toRxPins, p.ethRxDv = true := by
    intro q hq
    obtain ⟨p, hp, rfl⟩ := List.mem_map.mp hq
    exact hon p hp
  have hoff' : ∀ p ∈ off.map FramerPins.toRxPins, p.ethRxDv = false := by
    intro q hq
    obtain ⟨p, hp, rfl⟩ := List.mem_map.mp hq
    exact hoff p hp
  have hpub : (receiverPublishes st (first.toRxPins :: (on.map FramerPins.toRxPins ++
      stop.toRxPins :: off.map FramerPins.toRxPins))).map slotPacket =
        (burstPacket ⟨on.map FramerPins.toRxPins, stop.toRxPins⟩).toList := by
    obtain ⟨hnone, hready⟩ := (receiving_idle hidle hfree).step_idle
      (p := first.toRxPins) hfirst
    rw [receiverPublishes_cons, rxPublishedSlot, hnone]
    exact hready.publishes_burst hne hon' hstop hoff'
  have hpacket : burstPacket ⟨on.map FramerPins.toRxPins, stop.toRxPins⟩ =
      some (bodyPacket (padBody (bufferBody buf len))) :=
    burstPacket_wire (by rw [← hd, List.map_map]; rfl) (by simp [burstClean, FramerPins.toRxPins])
      (by rw [hbody, minBody]; omega) (by omega)
  rw [hpacket] at hpub
  rw [hshape, List.map_cons, List.map_append, List.map_cons]
  obtain ⟨slot, hslots, hslot⟩ := List.map_eq_singleton_iff.mp hpub
  refine ⟨slot, hslots, congrArg Packet.truncated hslot, congrArg Packet.header hslot, ?_,
    congrArg Packet.payload hslot⟩
  have hpay := congrArg (fun q => q.payload.length) hslot
  simp only [length_slotPacket_payload, bodyPacket, List.length_drop, hbody] at hpay
  exact hpay

/-- Two bytes that look like a preamble, sent to a receiver out of reset. -/
theorem rx_decodes_tx_look_alike :
    ∃ slot, receiverPublishes (.init, .zero _ _ ⟨⟨0, 0, 0⟩, 0, false⟩)
        ((framerStream Framer.init ⟨fun i => if i.val = 1 then 0xd5 else 0x55⟩ 2#11 145).map
          FramerPins.toRxPins) = [slot] ∧
      slot.1.truncated = false ∧
      slot.1.header = .ofBytes ((padBody (bufferBody
        ⟨fun i => if i.val = 1 then 0xd5 else 0x55⟩ 2#11)).take 14) ∧
      slot.1.payloadLen.toNat = max (2#11).toNat 60 - 14 ∧
      (List.range slot.1.payloadLen.toNat).map slot.2.get =
        (padBody (bufferBody ⟨fun i => if i.val = 1 then 0xd5 else 0x55⟩ 2#11)).drop 14 :=
  rx_decodes_tx _ _ _ _ _ (by decide) rfl rfl rfl (by decide)

end ArtyEthernet
