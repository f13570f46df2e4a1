import ArtyEthernet.Proofs.HostSender
import ArtyEthernet.Results.CrossConnect
import ArtyEthernet.Results.ReplyRecognition

/-!
# Addresses and ARP requests of the host

Addresses survive being written and read back, and the frame built for an ARP request is understood
by both readers: the host's own, which trips over a target that ends in zero, and the endpoint.
-/

namespace ArtyEthernet
open Words

/-- Exactly the addresses of the right length are read back from their text, whatever text they
came from. -/
theorem addresses_round_trip (data : Host.CharacterData) :
    (∀ mac : List Byte, Host.parseMac data (Host.macText mac) = .ok mac ↔ mac.length = 6) ∧
      (∀ packed : List Byte, (∃ text, Host.packedText packed = .ok text ∧
        Host.inetAton text = .ok packed) ↔ packed.length = 4) ∧
      (∀ text mac, Host.parseMac data text = .ok mac →
        Host.parseMac data (Host.macText mac) = .ok mac) ∧
      ∀ text packed, Host.inetAton text = .ok packed → ∃ canonical,
        Host.packedText packed = .ok canonical ∧ Host.inetAton canonical = .ok packed := by
  have hpacked (packed : List Byte) (h : packed.length = 4) : ∃ text,
      Host.packedText packed = .ok text ∧ Host.inetAton text = .ok packed :=
    ⟨_, Host.packedText_eq_ok.mpr ⟨h, rfl⟩, Host.inetAton_inetNtoa packed h⟩
  refine ⟨fun mac => ⟨Host.length_parseMac, Host.parseMac_macText data mac⟩,
    fun packed => ⟨?_, hpacked packed⟩,
    fun _ mac h => Host.parseMac_macText data mac (Host.length_parseMac h),
    fun _ packed h => hpacked packed (Host.length_inetAton h)⟩
  rintro ⟨text, htext, -⟩
  exact (Host.packedText_eq_ok.mp htext).1

/-- What both readers make of a frame that asks who has the address `tip`. -/
structure AsksFor (mac sip tip frame : List Byte) : Prop where
  length : frame.length = 60
  header : ∃ payload, Host.parseFrame frame =
      .ok ⟨Host.broadcastMac, mac, Host.arpEthertype, payload, frame⟩ ∧
    Host.parseArpPayload payload =
      if tip.getLast? = some 0#8 then none
      else some ⟨1, mac, Host.inetNtoa sip, List.replicate 6 0#8, Host.inetNtoa tip⟩
  endpoint : (bodyPacket frame).arpRequester =
    if tip = toBytes 4 fpgaIp then some (ofBytes 48 mac, ofBytes 32 sip) else none

theorem getLast?_eq_zero {ip : List Byte} (hip : ip.length = 4) :
    ip.getLast? = some 0#8 ↔ lane (ofBytes 32 ip) 0 = 0#8 := by
  rw [lane_ofBytes ip 0 (by omega) (by omega), List.getLast?_eq_getElem?,
    List.getElem?_eq_getElem (by omega), Option.some.injEq]
  rfl

theorem asksFor_buildFrame {mac sip tip : List Byte} (hmac : mac.length = 6) (hsip : sip.length = 4)
    (htip : tip.length = 4) :
    AsksFor mac sip tip (Host.buildFrame Host.broadcastMac mac
      (arpPayload 1 (ofBytes 48 mac) (ofBytes 32 sip) 0 (ofBytes 32 tip)) Host.arpEthertype) := by
  have hmacs : toBytes 6 (ofBytes 48 mac) = mac := hmac ▸ toBytes_ofBytes mac (by omega)
  have hsips : toBytes 4 (ofBytes 32 sip) = sip := hsip ▸ toBytes_ofBytes sip (by omega)
  have htips : toBytes 4 (ofBytes 32 tip) = tip := htip ▸ toBytes_ofBytes tip (by omega)
  refine ⟨?_, ⟨_, Host.parseFrame_buildFrame rfl hmac _ _, ?_⟩, ?_⟩
  · rw [Host.length_buildFrame rfl hmac, length_arpPayload]
    rfl
  · by_cases hzero : lane (ofBytes 32 tip) 0 = 0#8
    · rw [if_pos ((getLast?_eq_zero htip).mpr hzero)]
      exact Host.parseArpPayload_rstripZeros _ _ _ _ _ hzero
    · rw [if_neg (mt (getLast?_eq_zero htip).mp hzero), Host.rstripZeros_arpPayload _ _ _ _ _ hzero,
        Host.parseArpPayload_arpPayload, hmacs, ← Host.inetNtoa_toBytes, ← Host.inetNtoa_toBytes,
        hsips, htips]
      rfl
  · have hbroadcast : Host.broadcastMac = toBytes 6 broadcastMac := rfl
    rw [Host.buildFrame_eq rfl hmac, hbroadcast, ofBytes_toBytes (n := 6) broadcastMac rfl, padBody,
      List.append_assoc]
    refine (arpRequester_arpPayload _ _ _ _ _ _ _).trans ?_
    rw [htips]
    simp

/-- A request is built from exactly the texts that are addresses, and asks for what it says. -/
theorem arp_request_built (mac : List Byte) (hmac : mac.length = 6) (srcIp targetIp : List Char) :
    (∀ sip tip, Host.inetAton srcIp = .ok sip → Host.inetAton targetIp = .ok tip →
        ∃ frame, Host.buildArpRequest mac srcIp targetIp = .ok frame ∧
          AsksFor mac sip tip frame) ∧
      (∀ e, Host.inetAton srcIp = .error e →
        Host.buildArpRequest mac srcIp targetIp = .error e) ∧
      ∀ sip e, Host.inetAton srcIp = .ok sip → Host.inetAton targetIp = .error e →
        Host.buildArpRequest mac srcIp targetIp = .error e := by
  refine ⟨fun sip tip hsip htip => ?_,
    fun e he => Host.buildArpRequest_error (Or.inl he),
    fun sip e hsip htip => Host.buildArpRequest_error (Or.inr ⟨⟨sip, hsip⟩, htip⟩)⟩
  exact ⟨_, Host.buildArpRequest_eq hmac hsip htip,
    asksFor_buildFrame hmac (Host.length_inetAton hsip) (Host.length_inetAton htip)⟩

theorem arp_request_built_default :
    ∃ frame, Host.buildArpRequest Host.fpgaMac "10.0".toList Host.fpgaIp = .ok frame ∧
      AsksFor Host.fpgaMac [10, 0, 0, 0] [192, 168, 1, 100] frame :=
  (arp_request_built Host.fpgaMac rfl "10.0".toList Host.fpgaIp).1 _ _ (by decide) (by decide)

end ArtyEthernet
