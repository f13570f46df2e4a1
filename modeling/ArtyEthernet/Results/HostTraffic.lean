import ArtyEthernet.Proofs.HostSender
import ArtyEthernet.Proofs.IdleLine
import ArtyEthernet.Results.Accounting
import ArtyEthernet.Results.CrossConnect
import ArtyEthernet.Results.QuiescentReply

/-!
# What the host sends

The network card puts a preamble, a delimiter and a check sequence around each frame of the host.
Whatever the frames are and however closely they follow each other, each is captured as one packet,
and the counters tell how many of them there were and how many asked for the endpoint.
-/

namespace ArtyEthernet
open Words

/-- A frame of the host on its way to the receive pins, and the idle samples behind it. -/
structure CardFrame where
  dstMac : List Byte
  srcMac : List Byte
  ethertype : BitVec 16
  payload : List Byte
  stop : RxPins
  rest : List RxPins
  dst_length : dstMac.length = 6
  src_length : srcMac.length = 6
  payload_le : payload.length ≤ 1500
  clean : stop.ethRxerr = false
  stop_idle : stop.ethRxDv = false
  rest_idle : ∀ p ∈ rest, p.ethRxDv = false

namespace CardFrame

/-- The frame as the host hands it to the card. -/
def bytes (f : CardFrame) : List Byte := Host.buildFrame f.dstMac f.srcMac f.payload f.ethertype

def burst (f : CardFrame) : RxBurst :=
  ⟨(toNibbles (wireBytes f.bytes)).map fun d => ⟨true, d, false⟩, f.stop⟩

def pins (f : CardFrame) : List RxPins := f.burst.body ++ f.stop :: f.rest

/-- The packet the endpoint should make of the frame. -/
def packet (f : CardFrame) : Packet where
  header := ⟨ofBytes 48 f.dstMac, ofBytes 48 f.srcMac, f.ethertype⟩
  payload := f.payload ++ List.replicate (46 - f.payload.length) 0#8
  truncated := false

theorem length_bytes (f : CardFrame) : f.bytes.length = 14 + max f.payload.length 46 :=
  Host.length_buildFrame f.dst_length f.src_length f.payload f.ethertype

theorem bodyPacket_bytes (f : CardFrame) : bodyPacket f.bytes = f.packet := by
  let header : EthHeader := ⟨ofBytes 48 f.dstMac, ofBytes 48 f.srcMac, f.ethertype⟩
  have hbytes : f.bytes = header.toBytes ++ f.packet.payload := by
    rw [bytes, Host.buildFrame_eq f.dst_length f.src_length, padBody, List.append_assoc]
    congr 3
    simp only [List.length_append, EthHeader.length_toBytes, minBody]
    omega
  rw [bodyPacket, hbytes]
  exact congrArg (fun h => Packet.mk h f.packet.payload false) (EthHeader.ofBytes_toBytes header)

theorem body_ne_nil (f : CardFrame) : f.burst.body ≠ [] := by
  simp [burst, wireBytes, toNibbles]

theorem body_on (f : CardFrame) : ∀ p ∈ f.burst.body, p.ethRxDv = true := by
  intro p hp
  obtain ⟨d, -, rfl⟩ := List.mem_map.mp hp
  rfl

theorem burstPacket_burst (f : CardFrame) : burstPacket f.burst = some f.packet := by
  have hmax := f.payload_le
  rw [← f.bodyPacket_bytes]
  apply burstPacket_wire
  · rw [burst, List.map_map]
    exact List.map_id _
  · simp [burstClean, burst, f.clean]
  · rw [f.length_bytes, minBody]
    omega
  · rw [f.length_bytes]
    omega

theorem acceptedRequester_burst (f : CardFrame) :
    acceptedRequester f.burst = f.packet.arpRequester := by
  rw [← arpRequester_burstPacket, f.burstPacket_burst, Option.bind_some]

theorem rxBursts_pins (f : CardFrame) {prior : List RxPins} (hprior : rxPending prior = []) :
    rxBursts (prior ++ f.pins) = rxBursts prior ++ [f.burst] ∧
      rxPending (prior ++ f.pins) = [] := by
  rw [pins, ← List.append_assoc]
  exact rxBursts_window hprior f.body_ne_nil f.body_on f.stop_idle f.rest_idle

end CardFrame

def hostTraffic (frames : List CardFrame) : List RxPins := frames.flatMap CardFrame.pins

theorem rxBursts_hostTraffic {prior : List RxPins} (hprior : rxPending prior = [])
    (frames : List CardFrame) :
    rxBursts (prior ++ hostTraffic frames) = rxBursts prior ++ frames.map CardFrame.burst ∧
      rxPending (prior ++ hostTraffic frames) = [] := by
  induction frames generalizing prior with
  | nil => simpa [hostTraffic] using hprior
  | cons f frames ih =>
    obtain ⟨hbursts, hpending⟩ := f.rxBursts_pins hprior
    obtain ⟨hrest, hend⟩ := ih hpending
    rw [hostTraffic, List.flatMap_cons, ← List.append_assoc, ← hostTraffic]
    refine ⟨?_, hend⟩
    rw [hrest, hbursts, List.append_assoc]
    rfl

theorem packets_hostTraffic {prior : List RxPins} (hprior : rxPending prior = [])
    (frames : List CardFrame) :
    (publishedPackets (prior ++ hostTraffic frames)).map slotPacket =
      (publishedPackets prior).map slotPacket ++ frames.map CardFrame.packet := by
  rw [map_slotPacket_publishedPackets, (rxBursts_hostTraffic hprior frames).1,
    List.filterMap_append, ← map_slotPacket_publishedPackets, List.filterMap_map]
  congr 1
  rw [← List.filterMap_eq_map]
  exact List.filterMap_congr fun f _ => f.burstPacket_burst

/-- The books of a run that has captured `packets`, with nothing left to decide. -/
structure Balanced (inputs : List RxPins) (packets : List Packet) : Prop where
  captured : (publishedPackets inputs).map slotPacket = packets
  decided : ∀ i, (runFrom inputs).rxQueue.valid i = false
  rxPacketCount : (runFrom inputs).proto.rxPacketCount = BitVec.ofNat 32 packets.length
  rxProtocolDropCount : (runFrom inputs).proto.rxProtocolDropCount =
    BitVec.ofNat 32 (packets.countP fun p => p.arpRequester.isNone)
  arpReplyCount : (runFrom inputs).proto.arpReplyCount =
    BitVec.ofNat 32 (packets.filterMap Packet.arpRequester).length
  replies : handedReplies inputs = arpReplies (packets.filterMap Packet.arpRequester)

theorem balanced_idle {prior idle : List RxPins} (hprior : rxPending prior = [])
    (hidle : IdleLine idle) (hlong : 200 ≤ idle.length) :
    Balanced (prior ++ idle) ((publishedPackets prior).map slotPacket) := by
  obtain ⟨consumed, hdone⟩ := rxDone_idle hprior hidle hlong
  have hsame := packets_idle hprior hidle
  have hd := hdone.decided
  have hconsumed : consumed.map slotPacket = (publishedPackets prior).map slotPacket := by
    rw [← hsame, hd.published, List.append_nil]
  have hverdicts : consumed.filterMap slotRequester =
      ((publishedPackets prior).map slotPacket).filterMap Packet.arpRequester := by
    rw [← hconsumed, List.filterMap_map]
    rfl
  have hrequests := hd.replies
  have hexamining := hd.rx.handler.examining_le
  refine ⟨hsame, hd.rx.stage.ring.nil_iff.mp rfl, ?_, ?_, ?_, ?_⟩
  · rw [hd.rx.handler.rxPacketCount, Nat.le_zero.mp hexamining, ← hconsumed, List.length_map]
    rfl
  · rw [hd.rx.handler.rxProtocolDropCount, ← hconsumed, List.countP_map]
    rfl
  · rw [hd.rx.handler.arpReplyCount, hverdicts]
  · rw [hverdicts] at hrequests
    exact hrequests

/-- Frames sent back to back on an idle line, and a pause: all are captured, in order and whole,
those that ask for the endpoint are answered, and the others are counted as dropped. -/
theorem host_traffic_balanced (prior : List RxPins) (hprior : rxPending prior = [])
    (frames : List CardFrame) (pause : List RxPins) (hpause : IdleLine pause)
    (hlong : 200 ≤ pause.length) :
    Balanced (prior ++ hostTraffic frames ++ pause)
      ((publishedPackets prior).map slotPacket ++ frames.map CardFrame.packet) := by
  rw [← packets_hostTraffic hprior]
  exact balanced_idle (rxBursts_hostTraffic hprior frames).2 hpause hlong

def testMac : List Byte := [0x0a, 0x0b, 0x0c, 0x0d, 0x0e, 0x0f]

def testRequest : CardFrame where
  dstMac := Host.broadcastMac
  srcMac := testMac
  ethertype := Host.arpEthertype
  payload := arpPayload arpOpcodeRequest (ofBytes 48 testMac) (ofBytes 32 [192, 168, 1, 10]) 0#48
    (ofBytes 32 (toBytes 4 fpgaIp))
  stop := .idle
  rest := []
  dst_length := rfl
  src_length := rfl
  payload_le := (length_arpPayload ..).trans_le (Nat.le_of_ble_eq_true rfl)
  clean := rfl
  stop_idle := rfl
  rest_idle := by simp

def dataFrame : CardFrame :=
  { testRequest with
    dstMac := Host.fpgaMac
    ethertype := Host.ipv4Ethertype
    payload := [0x45, 0x55, 0xd5, 0x01]
    dst_length := rfl
    payload_le := Nat.le_of_ble_eq_true rfl }

/-- The request is answered, the other frame counted as dropped. -/
theorem host_traffic_balanced_request :
    handedReplies (hostTraffic [testRequest, dataFrame] ++ List.replicate 200 .idle) =
        arpReplies [(ofBytes 48 testMac, ofBytes 32 [192, 168, 1, 10])] ∧
      (runFrom (hostTraffic [testRequest, dataFrame] ++
        List.replicate 200 .idle)).proto.rxProtocolDropCount = 1 := by
  have h := host_traffic_balanced [] rfl [testRequest, dataFrame] (List.replicate 200 .idle)
    (fun p hp => by rw [List.eq_of_mem_replicate hp]; rfl) List.length_replicate.ge
  exact ⟨h.replies, h.rxProtocolDropCount⟩

end ArtyEthernet
