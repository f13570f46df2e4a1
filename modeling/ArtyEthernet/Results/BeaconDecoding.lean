import ArtyEthernet.Proofs.BeaconLine

/-!
# The host reads back what a beacon shows

The payload bytes of a beacon are its line. Carried in a frame, the host accepts it and reads the
seven counters.
-/

namespace ArtyEthernet
open Words

def ProtocolTxRequest.payloadBytes (r : ProtocolTxRequest) (n : ℕ) : List Byte :=
  (List.range n).map fun i => protocolTxPayloadByte r (BitVec.ofNat 11 i)

def ProtocolTxRequest.bodyBytes (r : ProtocolTxRequest) (n : ℕ) : List Byte :=
  (List.range n).map fun i => frameBodyByte r (BitVec.ofNat 11 i)

section Frames
variable {r : ProtocolTxRequest}

theorem payloadBytes_beacon (hkind : r.kind = .beacon) : r.payloadBytes 129 = beaconText r :=
  (map_protocolTxPayloadByte_beacon hkind).trans (payload_of_beacon hkind)

theorem bodyBytes_beacon (hkind : r.kind = .beacon) :
    r.bodyBytes 143 = r.header.toBytes ++ beaconText r := by
  rw [← payloadBytes_beacon hkind]
  exact map_frameBodyByte_add r (n := 129) le_rfl

theorem payload_frameOf_beacon (hkind : r.kind = .beacon) :
    (Host.frameOf r).payload = beaconText r := by
  change Host.rstripZeros r.payload = _
  rw [payload_of_beacon hkind, rstripZeros_beaconText]

end Frames

/-- The host accepts every beacon and reads back all seven counters. -/
theorem beacon_round_trip (r : ProtocolTxRequest) (hkind : r.kind = .beacon) :
    (∃ parsed, Host.parseFrame (r.bodyBytes 143) = .ok parsed ∧
      parsed.payload = r.payloadBytes 129 ∧ Host.isBeaconPayload parsed.payload = true ∧
      ∀ p ∈ r.counters, Host.readHexField parsed.payload p.1 = some p.2.toNat) ∧
    ∀ r' : ProtocolTxRequest, r'.kind = .beacon → r'.counters ≠ r.counters →
      r'.payloadBytes 129 ≠ r.payloadBytes 129 := by
  rw [payloadBytes_beacon hkind, bodyBytes_beacon hkind, Host.parseFrame_header,
    rstripZeros_beaconText]
  refine ⟨⟨_, rfl, rfl, isBeaconPayload_beaconText r, fun p => readHexField_beaconText r⟩, ?_⟩
  intro r' hkind' hne hsame
  rw [payloadBytes_beacon hkind'] at hsame
  exact hne (by rw [counters_eq_read r', counters_eq_read r, hsame])

theorem beacon_round_trip_counted :
    ∃ parsed, Host.parseFrame ({ protocolTxBeaconRequest with
        rxPacketCount := 0xDEADBEEF, uptimeBeaconCount := 7 }.bodyBytes 143) = .ok parsed ∧
      Host.isBeaconPayload parsed.payload = true ∧
      Host.readHexField parsed.payload "RX".toList = some 0xDEADBEEF ∧
      Host.readHexField parsed.payload "UP".toList = some 7 := by
  obtain ⟨⟨parsed, hparsed, -, haccepted, hread⟩, -⟩ := beacon_round_trip
    { protocolTxBeaconRequest with rxPacketCount := 0xDEADBEEF, uptimeBeaconCount := 7 } rfl
  exact ⟨parsed, hparsed, haccepted, hread ("RX".toList, 0xDEADBEEF) (by decide),
    hread ("UP".toList, 7) (by decide)⟩

end ArtyEthernet
