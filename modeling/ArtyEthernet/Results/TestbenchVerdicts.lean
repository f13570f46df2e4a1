import ArtyEthernet.Results.Accounting
import ArtyEthernet.Results.CrossConnect
import ArtyEthernet.Results.TestbenchSession

/-!
# Verdicts of the test bench

The test bench builds the frame of a request in one go and compares frames byte by byte. Every frame
the endpoint sends is the one built in one go, and passes the ARP checks exactly when its request
says so.
-/

namespace ArtyEthernet.Testbench
open Words

theorem wireBytes_inj {body body' : List Byte} (h : wireBytes body = wireBytes body') :
    body = body' := by
  have hlen := congrArg List.length h
  rw [length_wireBytes, length_wireBytes] at hlen
  have hdata := congrArg dataBytes h
  rw [dataBytes_wireBytes, dataBytes_wireBytes] at hdata
  exact (List.append_inj hdata (by omega)).1

theorem arpReplyBody_inj {mac mac' ip ip' : List Byte} (hmac : mac.length = 6)
    (hmac' : mac'.length = 6) (hip : ip.length = 4) (hip' : ip'.length = 4) :
    arpReplyBody mac ip = arpReplyBody mac' ip' ↔ mac = mac' ∧ ip = ip' := by
  constructor
  · intro h
    simp only [arpReplyBody, List.append_assoc] at h
    obtain ⟨rfl, hrest⟩ := List.append_inj h (hmac.trans hmac'.symm)
    simp only [List.append_cancel_left_eq] at hrest
    exact ⟨rfl, (List.append_inj hrest (hip.trans hip'.symm)).1⟩
  · rintro ⟨rfl, rfl⟩
    rfl

def Targets (r : ProtocolTxRequest) (mac ip : List Byte) : Prop :=
  r.isBeacon = false ∧ toBytes 6 r.arpRequesterMac = mac ∧ toBytes 4 r.arpRequesterIp = ip

/-- The frame of a request, and what the ARP checks say about it. -/
structure BenchJudges (r : ProtocolTxRequest) : Prop where
  reference : txFrameFromRequest r = r.wireFrame
  unicast : ∀ mac ip, mac.length = 6 → ip.length = 4 →
    (assertValidUnicastArpReply r.wireFrame mac ip = true ↔ Targets r mac ip)
  gratuitous : assertValidGratuitousArp r.wireFrame = true ↔ Targets r broadcastBytes fpgaIpBytes

variable {r : ProtocolTxRequest}

theorem wireFrame_targets (hr : r.Offered) (hkind : r.isBeacon = false) :
    r.wireFrame =
      wireBytes (arpReplyBody (toBytes 6 r.arpRequesterMac) (toBytes 4 r.arpRequesterIp)) := by
  have hreply (mac : BitVec 48) (ip : BitVec 32) : (arpReplyRequest mac ip).wireFrame =
      wireBytes (arpReplyBody (toBytes 6 mac) (toBytes 4 ip)) := by
    rw [← wireFrame_arpReply (length_toBytes mac) (length_toBytes ip),
      ofBytes_toBytes (n := 6) mac rfl, ofBytes_toBytes (n := 4) ip rfl]
  cases hr with
  | gratuitousArp =>
    have hbody : protocolTxGratuitousArpRequest.frameBody =
        (arpReplyRequest broadcastMac fpgaIp).frameBody := rfl
    rw [ProtocolTxRequest.wireFrame, hbody]
    exact hreply broadcastMac fpgaIp
  | beacon st rxQueue txQueue => exact Bool.noConfusion hkind
  | arpReply mac ip => exact hreply mac ip

theorem length_wireFrame_beacon (hr : r.WellFormed) (hkind : r.isBeacon = true) :
    r.wireFrame.length = 155 := by
  have hbeacon : r.kind = .beacon := beq_iff_eq.mp hkind
  have hlen : r.len.toNat = 143 := by
    rw [hr.len, hbeacon]
    rfl
  rw [ProtocolTxRequest.wireFrame, length_wireBytes, length_padBody, hr.length_frameBody, hlen]
  rfl

theorem wireFrame_eq_iff (hr : r.Offered) {mac ip : List Byte} (hmac : mac.length = 6)
    (hip : ip.length = 4) : r.wireFrame = wireBytes (arpReplyBody mac ip) ↔ Targets r mac ip := by
  cases hkind : r.isBeacon with
  | true =>
    constructor
    · intro h
      have hbeacon := length_wireFrame_beacon hr.wellFormed hkind
      rw [h, length_wireBytes, length_arpReplyBody hmac hip] at hbeacon
      omega
    · rintro ⟨hother, -⟩
      rw [hkind] at hother
      exact Bool.noConfusion hother
  | false =>
    rw [wireFrame_targets hr hkind, Targets, hkind, ← arpReplyBody_inj (length_toBytes _) hmac
      (length_toBytes _) hip]
    constructor
    · intro h
      exact ⟨rfl, wireBytes_inj h⟩
    · rintro ⟨-, h⟩
      rw [h]

theorem benchJudges_offered (hr : r.Offered) : BenchJudges r := by
  constructor
  case reference => exact txFrameFromRequest_eq hr.wellFormed
  case unicast =>
    intro mac ip hmac hip
    rw [assertValidUnicastArpReply, assertValidArpReply_iff r.wireFrame hmac hip false,
      wireFrame_eq_iff hr hmac hip]
    exact and_iff_left Bool.noConfusion
  case gratuitous =>
    rw [assertValidGratuitousArp, assertValidArpReply_iff r.wireFrame (by rfl) (by rfl) true,
      wireFrame_eq_iff hr (by rfl) (by rfl)]
    exact and_iff_left fun _ => rfl

/-- Every frame the endpoint sends in any run is the one the test bench builds for the request, and
the ARP checks accept exactly the frames that are meant for the station they name. -/
theorem emitted_frames_checked (inputs : List RxPins) :
    ∃ requests, requests <+: acceptedRequests inputs ∧
      emittedFrames inputs = requests.map txFrameFromRequest ∧ ∀ r ∈ requests, BenchJudges r := by
  obtain ⟨requests, hfirst, hframes⟩ := emittedFrames_accepted inputs
  have hjudges : ∀ r ∈ requests, BenchJudges r := fun r hr =>
    benchJudges_offered (offered_of_accepted inputs r (hfirst.subset hr))
  refine ⟨requests, hfirst, ?_, hjudges⟩
  rw [hframes]
  exact List.map_congr_left fun r hr => (hjudges r hr).reference.symm

end ArtyEthernet.Testbench
