import ArtyEthernet.Model.TxPayloads
import ArtyEthernet.Proofs.Framing

/-!
# The frame a request stands for

The payload of a request as a list of bytes, and the complete frame around it. The byte selectors
of the prepare step list exactly these bytes, each kind with its own length.
-/

namespace ArtyEthernet
open Words

def text (cs : List Char) : List Byte := cs.map ascii

def hexText {w : ℕ} (n : ℕ) (x : BitVec w) : List Byte :=
  (List.range n).map fun i => hexDigitByte (x.extractLsb' (4 * (n - 1 - i)) 4)

def decimalText (x : BitVec 8) : List Byte :=
  [decimal3Byte x 0, decimal3Byte x 1, decimal3Byte x 2]

/-- A dotted address with three digits a byte. -/
def ipText (ip : BitVec 32) : List Byte :=
  decimalText (lane ip 3) ++ text ['.'] ++ decimalText (lane ip 2) ++ text ['.'] ++
    decimalText (lane ip 1) ++ text ['.'] ++ decimalText (lane ip 0)

/-- The diagnostics line with the counters of the request. -/
def beaconText (r : ProtocolTxRequest) : List Byte :=
  (text ['A', 'R', 'T', 'Y', ' ', 'I', 'P', '='] ++ ipText fpgaIp) ++
    (text [' ', 'M', 'A', 'C', '='] ++ hexText 12 fpgaMac) ++
    (text [' ', 'R', 'X', '='] ++ hexText 8 r.rxPacketCount) ++
    (text [' ', 'R', 'X', 'Q', '='] ++ hexText 8 r.rxQueueDropCount) ++
    (text [' ', 'R', 'X', 'P', '='] ++ hexText 8 r.rxProtocolDropCount) ++
    (text [' ', 'T', 'X', 'D', '='] ++ hexText 8 r.txDropCount) ++
    (text [' ', 'A', 'R', 'P', '='] ++ hexText 8 r.arpReplyCount) ++
    (text [' ', 'U', 'D', 'P', '='] ++ hexText 8 r.udpReplyCount) ++
    (text [' ', 'U', 'P', '='] ++ hexText 8 r.uptimeBeaconCount)

theorem map_range_add {α : Type*} (f : ℕ → α) (a b : ℕ) :
    (List.range (a + b)).map f = (List.range a).map f ++ (List.range b).map fun i => f (a + i) := by
  rw [List.range_add, List.map_append, List.map_map]
  rfl

theorem map_beaconPayloadLiteralByte (r : ProtocolTxRequest) :
    (List.range 129).map (fun i => beaconPayloadLiteralByte (BitVec.ofNat 8 i) r) =
      beaconText r := by
  let f := fun i => beaconPayloadLiteralByte (BitVec.ofNat 8 i) r
  have hip : (List.range 23).map f =
      text ['A', 'R', 'T', 'Y', ' ', 'I', 'P', '='] ++ ipText fpgaIp := rfl
  have hmac : (List.range 17).map (fun i => f (23 + i)) =
      text [' ', 'M', 'A', 'C', '='] ++ hexText 12 fpgaMac := rfl
  have hrx : (List.range 12).map (fun i => f (40 + i)) =
      text [' ', 'R', 'X', '='] ++ hexText 8 r.rxPacketCount := rfl
  have hrxq : (List.range 13).map (fun i => f (52 + i)) =
      text [' ', 'R', 'X', 'Q', '='] ++ hexText 8 r.rxQueueDropCount := rfl
  have hrxp : (List.range 13).map (fun i => f (65 + i)) =
      text [' ', 'R', 'X', 'P', '='] ++ hexText 8 r.rxProtocolDropCount := rfl
  have htxd : (List.range 13).map (fun i => f (78 + i)) =
      text [' ', 'T', 'X', 'D', '='] ++ hexText 8 r.txDropCount := rfl
  have harp : (List.range 13).map (fun i => f (91 + i)) =
      text [' ', 'A', 'R', 'P', '='] ++ hexText 8 r.arpReplyCount := rfl
  have hudp : (List.range 13).map (fun i => f (104 + i)) =
      text [' ', 'U', 'D', 'P', '='] ++ hexText 8 r.udpReplyCount := rfl
  have hup : (List.range 12).map (fun i => f (117 + i)) =
      text [' ', 'U', 'P', '='] ++ hexText 8 r.uptimeBeaconCount := rfl
  change (List.range (117 + 12)).map f = _
  rw [map_range_add f 117, hup, map_range_add f 104 13, hudp, map_range_add f 91 13, harp,
    map_range_add f 78 13, htxd, map_range_add f 65 13, hrxp, map_range_add f 52 13, hrxq,
    map_range_add f 40 12, hrx, map_range_add f 23 17, hmac, hip]
  rfl

def ProtocolTxRequest.payload (r : ProtocolTxRequest) : List Byte :=
  if r.kind = .arpReply ∨ r.kind = .gratuitousArp then
    arpPayload arpOpcodeReply fpgaMac fpgaIp r.arpRequesterMac r.arpRequesterIp
  else beaconText r

theorem payload_of_beacon {r : ProtocolTxRequest} (hkind : r.kind = .beacon) :
    r.payload = beaconText r := by
  rw [ProtocolTxRequest.payload, if_neg (by simp [hkind])]

def ProtocolTxRequest.frameBody (r : ProtocolTxRequest) : List Byte :=
  r.header.toBytes ++ r.payload

/-- The complete frame of a request: preamble, delimiter, padded body and check sequence. -/
def ProtocolTxRequest.wireFrame (r : ProtocolTxRequest) : List Byte :=
  wireBytes (padBody r.frameBody)

/-- Every request handed to `startProtocolTxRequest` is of one of the three kinds and has the
length of its kind. -/
structure ProtocolTxRequest.WellFormed (r : ProtocolTxRequest) : Prop where
  valid : r.valid = true
  kind : r.kind ≠ .none
  len : r.len = protocolTxFrameBodyLen r.kind

theorem ProtocolTxRequest.WellFormed.len_cases {r : ProtocolTxRequest} (h : r.WellFormed) :
    (r.kind = .beacon ∧ r.len.toNat = 143) ∨
      ((r.kind = .arpReply ∨ r.kind = .gratuitousArp) ∧ r.len.toNat = 42) := by
  have hlen := h.len
  cases hk : r.kind with
  | none => exact absurd hk h.kind
  | beacon =>
    rw [hk] at hlen
    exact Or.inl ⟨rfl, by rw [hlen]; rfl⟩
  | arpReply =>
    rw [hk] at hlen
    exact Or.inr ⟨Or.inl rfl, by rw [hlen]; rfl⟩
  | gratuitousArp =>
    rw [hk] at hlen
    exact Or.inr ⟨Or.inr rfl, by rw [hlen]; rfl⟩

theorem map_frameBodyByte_header (r : ProtocolTxRequest) :
    (List.range 14).map (fun i => frameBodyByte r (BitVec.ofNat 11 i)) = r.header.toBytes :=
  map_ethernetHeaderByte r.header

theorem frameBodyByte_payload (r : ProtocolTxRequest) {i : ℕ} (hi : i < 129) :
    frameBodyByte r (BitVec.ofNat 11 (14 + i)) =
      protocolTxPayloadByte r (BitVec.ofNat 11 i) := by
  have hge : ¬ BitVec.ofNat 11 (14 + i) < ethHeaderBytes.setWidth 11 := by
    rw [BitVec.lt_def, BitVec.toNat_ofNat, Nat.mod_eq_of_lt (by omega)]
    exact Nat.not_lt.mpr (Nat.le_add_right 14 i)
  rw [frameBodyByte, if_neg hge, Nat.add_comm, BitVec.ofNat_add]
  exact congrArg _ (BitVec.add_sub_cancel _ _)

theorem map_protocolTxPayloadByte_beacon {r : ProtocolTxRequest} (hkind : r.kind = .beacon) :
    (List.range 129).map (fun i => protocolTxPayloadByte r (BitVec.ofNat 11 i)) =
      r.payload := by
  rw [payload_of_beacon hkind, ← map_beaconPayloadLiteralByte]
  apply List.map_congr_left
  intro i _
  rw [protocolTxPayloadByte, if_neg (by simp [hkind]), BitVec.setWidth_ofNat_of_le (by omega)]

theorem map_protocolTxPayloadByte_arp {r : ProtocolTxRequest}
    (hkind : r.kind = .arpReply ∨ r.kind = .gratuitousArp) :
    (List.range 28).map (fun i => protocolTxPayloadByte r (BitVec.ofNat 11 i)) =
      r.payload := by
  rw [ProtocolTxRequest.payload, if_pos hkind, ← map_arpReplyPayloadByte]
  apply List.map_congr_left
  intro i _
  rw [protocolTxPayloadByte, if_pos hkind, BitVec.setWidth_ofNat_of_le (by omega)]

theorem map_protocolTxPayloadByte {r : ProtocolTxRequest} (h : r.WellFormed) :
    (List.range (r.len.toNat - 14)).map (fun i => protocolTxPayloadByte r (BitVec.ofNat 11 i)) =
      r.payload := by
  rcases h.len_cases with ⟨hk, hlen⟩ | ⟨hk, hlen⟩
  · rw [hlen]
    exact map_protocolTxPayloadByte_beacon hk
  · rw [hlen]
    exact map_protocolTxPayloadByte_arp hk

theorem map_frameBodyByte_add (r : ProtocolTxRequest) {n : ℕ} (hn : n ≤ 129) :
    (List.range (14 + n)).map (fun i => frameBodyByte r (BitVec.ofNat 11 i)) =
      r.header.toBytes ++
        (List.range n).map fun i => protocolTxPayloadByte r (BitVec.ofNat 11 i) := by
  rw [map_range_add, map_frameBodyByte_header]
  congr 1
  apply List.map_congr_left
  intro i hi
  have hi' := List.mem_range.mp hi
  exact frameBodyByte_payload r (by omega)

/-- The bytes the prepare step writes, one by one, are the frame body. -/
theorem map_frameBodyByte {r : ProtocolTxRequest} (h : r.WellFormed) :
    (List.range r.len.toNat).map (fun i => frameBodyByte r (BitVec.ofNat 11 i)) =
      r.frameBody := by
  have hbounds : r.len.toNat = 14 + (r.len.toNat - 14) ∧ r.len.toNat - 14 ≤ 129 := by
    rcases h.len_cases with ⟨_, hlen⟩ | ⟨_, hlen⟩ <;> omega
  rw [hbounds.1, map_frameBodyByte_add r hbounds.2, ProtocolTxRequest.frameBody,
    ← map_protocolTxPayloadByte h]

theorem ProtocolTxRequest.WellFormed.length_frameBody {r : ProtocolTxRequest}
    (h : r.WellFormed) : r.frameBody.length = r.len.toNat := by
  rw [← map_frameBodyByte h]
  simp

theorem ProtocolTxRequest.WellFormed.len_bounds {r : ProtocolTxRequest} (h : r.WellFormed) :
    42 ≤ r.len.toNat ∧ r.len.toNat ≤ 143 := by
  rcases h.len_cases with ⟨_, hlen⟩ | ⟨_, hlen⟩ <;> omega

end ArtyEthernet
