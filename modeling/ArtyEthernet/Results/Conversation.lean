import ArtyEthernet.Results.HardwareTests
import ArtyEthernet.Results.HostAddresses
import ArtyEthernet.Results.HostTraffic
import ArtyEthernet.Results.Recovery

/-!
# A question and its answer

The host sends an ARP request and waits. When the endpoint was at rest, or the line had paused
before the request, the answer is heard, whatever else arrives and whichever timers tick.
-/

namespace ArtyEthernet
open Words Synchronous

theorem answer_heard {prior later : List RxPins} {request : CardFrame} {mac : BitVec 48}
    {ip : BitVec 32} (hrested : Rested prior)
    (hasks : request.packet.arpRequester = some (mac, ip)) (hlater : 1516 ≤ later.length)
    {heard : List ProtocolTxRequest} (h : Heard prior (request.pins ++ later) heard) :
    arpReplyRequest mac ip ∈ heard := by
  have hpins : request.pins ++ later =
      request.burst.body ++ request.stop :: (request.rest ++ later) := by
    rw [CardFrame.pins, List.append_assoc, List.cons_append]
  have hstart : 200 ≤ (request.rest ++ later).length := by
    rw [List.length_append]
    omega
  obtain ⟨early, late, hsplit, hlong, hanswers⟩ :=
    reply_accepted hrested request.body_ne_nil request.body_on request.stop_idle
      (request.acceptedRequester_burst.trans hasks) hstart
  obtain ⟨between, haccepted⟩ := hanswers.accepted
  rw [List.length_append] at hlong
  apply h.fresh early late (between ++ [arpReplyRequest mac ip])
  · rw [hpins, hsplit]
  · omega
  · rw [haccepted, List.append_assoc]
  · exact List.mem_append_right _ (List.mem_singleton_self _)

section Test
variable {rawEth : Host.RawEthernet} {sip : List Byte} {request : CardFrame}

theorem inetAton_fpgaIp : Host.inetAton Host.fpgaIp = .ok (toBytes 4 fpgaIp) := by
  rw [← dottedText_fpgaIp, ← Host.inetNtoa_toBytes]
  exact Host.inetAton_inetNtoa _ (length_toBytes fpgaIp)

theorem arpRequester_request (hmac : rawEth.hostMac.length = 6) (hsip : sip.length = 4)
    (hrequest : Host.buildArpRequest rawEth.hostMac (Host.inetNtoa sip) Host.fpgaIp =
      .ok request.bytes) :
    request.packet.arpRequester = some (ofBytes 48 rawEth.hostMac, ofBytes 32 sip) := by
  have hbuilt := Host.buildArpRequest_eq hmac (Host.inetAton_inetNtoa sip hsip) inetAton_fpgaIp
  have hasks := asksFor_buildFrame hmac hsip (length_toBytes (n := 4) fpgaIp)
  rw [← Except.ok.inj (hrequest.symm.trans hbuilt)] at hasks
  rw [← request.bodyPacket_bytes, hasks.endpoint, if_pos rfl]

/-- The request is sent as the answer is, and the host can tell. -/
def isAnswer (sip : List Byte) (wanted r : ProtocolTxRequest) : Bool :=
  decide (Host.frameOf r = Host.frameOf wanted ∧ sip.getLast? ≠ some 0#8)

/-- The host asks an endpoint after a rest who it is, and waits. It finds the answer, and nothing
else, unless its own address ends in a zero octet, and then it finds nothing. -/
theorem arp_conversation (hmac : rawEth.hostMac.length = 6) (hsip : sip.length = 4)
    (hrequest : Host.buildArpRequest rawEth.hostMac (Host.inetNtoa sip) Host.fpgaIp =
      .ok request.bytes)
    (timeout expected : List Char) (prior later : List RxPins)
    (hrested : Rested prior) (hlater : 1516 ≤ later.length)
    (parsed : Host.ParsedFrame) :
    Host.expectFrame rawEth timeout
        (fun frame => Host.isArpReplyTo frame rawEth.hostMac (Host.inetNtoa sip)) expected
        (heardFrames prior (request.pins ++ later)) = .ok parsed ↔
      sip.getLast? ≠ some 0#8 ∧
        parsed = Host.frameOf (arpReplyRequest (ofBytes 48 rawEth.hostMac) (ofBytes 32 sip)) := by
  obtain ⟨heard, h⟩ := heard_run prior (request.pins ++ later)
  have hanswer := answer_heard hrested (arpRequester_request hmac hsip hrequest) hlater h
  generalize hwanted : arpReplyRequest (ofBytes 48 rawEth.hostMac) (ofBytes 32 sip) = wanted
    at hanswer ⊢
  have hjudge : ∀ r ∈ heard,
      Host.isArpReplyTo (Host.frameOf r) rawEth.hostMac (Host.inetNtoa sip) =
        isAnswer sip wanted r := by
    intro r hr
    have hmacs : toBytes 6 (ofBytes 48 rawEth.hostMac) = rawEth.hostMac :=
      hmac ▸ toBytes_ofBytes rawEth.hostMac (by omega)
    have hips : toBytes 4 (ofBytes 32 sip) = sip := hsip ▸ toBytes_ofBytes sip (by omega)
    have hiff := Host.isArpReplyTo_offered (h.offered r hr) (ofBytes 48 rawEth.hostMac)
      (ofBytes 32 sip)
    rw [hmacs, ← Host.inetNtoa_toBytes, hips, hwanted, Ne, ← getLast?_eq_zero hsip] at hiff
    rw [Bool.eq_iff_iff, hiff, isAnswer, decide_eq_true_eq]
  rw [h.expectFrame_ok rawEth timeout expected hjudge]
  constructor
  · rintro ⟨r, hr, rfl⟩
    have hfound : isAnswer sip wanted r = true := List.find?_some hr
    obtain ⟨hframe, hlast⟩ := of_decide_eq_true hfound
    exact ⟨hlast, hframe⟩
  · rintro ⟨hlast, rfl⟩
    have hwhole : isAnswer sip wanted wanted = true := decide_eq_true ⟨rfl, hlast⟩
    obtain ⟨r, hr⟩ := Option.isSome_iff_exists.mp (List.find?_isSome.mpr ⟨wanted, hanswer, hwhole⟩)
    have hfound : isAnswer sip wanted r = true := List.find?_some hr
    exact ⟨r, hr, (of_decide_eq_true hfound).1⟩

theorem testArpRequest_built (rawEth : Host.RawEthernet) (timeout : Rat)
    (queue : List (List Byte)) (inTime : ℕ) (received : List Byte → List (List Byte))
    {frame : List Byte}
    (h : Host.buildArpRequest rawEth.hostMac Host.testHostIp Host.fpgaIp = .ok frame) :
    ∃ shown expected, Host.testArpRequestGetsUnicastReply rawEth timeout queue inTime received =
      Host.expectFrame rawEth shown
        (fun reply => Host.isArpReplyTo reply rawEth.hostMac Host.testHostIp) expected
        (Host.drain queue inTime ++ received frame) := by
  rw [Host.testArpRequestGetsUnicastReply, h]
  exact ⟨_, _, rfl⟩

/-- Right after reset the test passes, with a frame in the queue that it drains. -/
theorem arp_conversation_reset :
    ∃ parsed, Host.testArpRequestGetsUnicastReply ⟨[], testMac⟩ 8 [testRequest.bytes] 1
        (fun _ => heardFrames [] (testRequest.pins ++ List.replicate 1516 .idle)) = .ok parsed := by
  have htext : Host.testHostIp = Host.inetNtoa [192, 168, 1, 10] := by decide
  have hmac : (Host.RawEthernet.mk [] testMac).hostMac.length = 6 := rfl
  have hbuilt : Host.buildArpRequest testMac (Host.inetNtoa [192, 168, 1, 10]) Host.fpgaIp =
      .ok testRequest.bytes :=
    Host.buildArpRequest_eq rfl (Host.inetAton_inetNtoa _ rfl) inetAton_fpgaIp
  have hreset : Rested [] := .quiescent quiescent_reset
  have hlast : ([192, 168, 1, 10] : List Byte).getLast? ≠ some 0#8 := by decide
  have hlong : 1516 ≤ (List.replicate 1516 RxPins.idle).length := List.length_replicate.ge
  obtain ⟨shown, expected, hwaits⟩ := testArpRequest_built ⟨[], testMac⟩ 8 [testRequest.bytes] 1
    (fun _ => heardFrames [] (testRequest.pins ++ List.replicate 1516 .idle)) (htext ▸ hbuilt)
  have hdrained : Host.drain [testRequest.bytes] 1 = [] := rfl
  rw [hwaits, htext, hdrained, List.nil_append]
  exact ⟨_, (arp_conversation hmac rfl hbuilt shown expected [] (List.replicate 1516 .idle)
    hreset hlong _).mpr ⟨hlast, rfl⟩⟩

end Test

end ArtyEthernet
