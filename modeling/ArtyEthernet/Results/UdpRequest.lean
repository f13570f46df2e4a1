import ArtyEthernet.Proofs.TestbenchRuns
import ArtyEthernet.Results.DatagramViews

/-!
# A UDP request

The request the test bench builds carries a header that adds up to all ones. Sent to the endpoint,
it stands in a receive slot where the view parsers read every field of it back.
-/

namespace ArtyEthernet.Testbench
open Words OnesComplement

theorem addCarries_folds (sum : BitVec 32) : Folds 16 sum.toNat (addCarries sum).toNat := by
  induction sum using addCarries.induct with
  | case1 sum hcarry ih =>
    rw [addCarries, if_pos hcarry]
    rw [toNat_addCarry] at ih
    exact ih.of_step
  | case2 sum hsmall =>
    rw [addCarries, if_neg hsmall]
    apply Folds.self
    rw [shift16_ne_zero] at hsmall
    omega

def wordSum : List Byte → ℕ
  | a :: b :: rest => (ofBytes 16 [a, b]).toNat + wordSum rest
  | _ => 0

def ipHeader (flagsFragment checksum : BitVec 16) (srcIp dstIp : List Byte) : List Byte :=
  [0x45#8, 0x00#8, 0x00#8, 0x24#8, 0x12#8, 0x34#8] ++
    [(flagsFragment >>> 8).setWidth 8, flagsFragment.setWidth 8] ++ [0x40#8, 0x11#8] ++
    [(checksum >>> 8).setWidth 8, checksum.setWidth 8] ++ srcIp ++ dstIp

theorem toBytes_two (x : BitVec 16) : toBytes 2 x = [(x >>> 8).setWidth 8, x.setWidth 8] := rfl

theorem ofBytes_split (x : BitVec 16) : ofBytes 16 [(x >>> 8).setWidth 8, x.setWidth 8] = x :=
  ofBytes_toBytes (n := 2) x rfl

section Checksum
variable {srcIp dstIp : List Byte} {flagsFragment checksum : BitVec 16}

theorem wordSum_ipHeader (hsrc : srcIp.length = 4) (hdst : dstIp.length = 4) :
    wordSum (ipHeader flagsFragment checksum srcIp dstIp) =
      wordSum (ipHeader flagsFragment 0#16 srcIp dstIp) + checksum.toNat := by
  match srcIp, dstIp with
  | [s0, s1, s2, s3], [d0, d1, d2, d3] =>
    simp only [ipHeader, List.cons_append, List.nil_append, wordSum, ofBytes_split]
    simp
    omega

theorem length_ipHeader (hsrc : srcIp.length = 4) (hdst : dstIp.length = 4) :
    (ipHeader flagsFragment checksum srcIp dstIp).length = 20 := by
  simp [ipHeader, hsrc, hdst]

theorem toNat_sum (w : ℕ → BitVec 16) :
    ((List.range 10).foldl (fun sum k => if 2 * k ≠ 10 then sum + (w k).setWidth 32 else sum)
      0#32).toNat =
      (w 0).toNat + (w 1).toNat + (w 2).toNat + (w 3).toNat + (w 4).toNat + (w 6).toNat +
        (w 7).toNat + (w 8).toNat + (w 9).toNat := by
  have hlt (k : ℕ) : (w k).toNat < 65536 := (w k).isLt
  have h0 := hlt 0
  have h1 := hlt 1
  have h2 := hlt 2
  have h3 := hlt 3
  have h4 := hlt 4
  have h6 := hlt 6
  have h7 := hlt 7
  have h8 := hlt 8
  have h9 := hlt 9
  simp [List.range_succ, BitVec.toNat_add]
  omega

theorem wordSum_read {frame : List Byte} {ip : ℕ} (hsrc : srcIp.length = 4)
    (hdst : dstIp.length = 4) (h : Stands frame ip (ipHeader flagsFragment checksum srcIp dstIp)) :
    ((List.range 10).foldl (fun sum k =>
        if 2 * k ≠ 10 then sum + (readBe16 frame (ip + 2 * k)).setWidth 32 else sum) 0#32).toNat =
      wordSum (ipHeader flagsFragment 0#16 srcIp dstIp) := by
  have hlen : (ipHeader flagsFragment checksum srcIp dstIp).length = 20 :=
    length_ipHeader hsrc hdst
  have hword (k : ℕ) (hk : k < 10) : readBe16 frame (ip + 2 * k) =
      ofBytes 16 [(ipHeader flagsFragment checksum srcIp dstIp).getD (2 * k) 0#8,
        (ipHeader flagsFragment checksum srcIp dstIp).getD (2 * k + 1) 0#8] := by
    rw [readBe16, h (2 * k) (by omega), Nat.add_assoc, h (2 * k + 1) (by omega), be16_eq]
  rw [toNat_sum fun k => readBe16 frame (ip + 2 * k), hword 0 (by omega), hword 1 (by omega),
    hword 2 (by omega), hword 3 (by omega), hword 4 (by omega), hword 6 (by omega),
    hword 7 (by omega), hword 8 (by omega), hword 9 (by omega)]
  match srcIp, dstIp with
  | [s0, s1, s2, s3], [d0, d1, d2, d3] =>
    simp only [ipHeader, List.cons_append, List.nil_append, wordSum, ofBytes_split]
    simp [ofBytes_split]
    omega

/-- With its check sum the words of a header add up to all ones. -/
theorem checksum_folds {frame : List Byte} {ip : ℕ} (hsrc : srcIp.length = 4)
    (hdst : dstIp.length = 4) (h : Stands frame ip (ipHeader flagsFragment checksum srcIp dstIp)) :
    Folds 16 (wordSum (ipHeader flagsFragment (ipv4HeaderChecksum frame ip) srcIp dstIp))
      (2 ^ 16 - 1) := by
  have hsum := wordSum_read hsrc hdst h
  have hfolds := addCarries_folds ((List.range 10).foldl (fun sum k =>
    if 2 * k ≠ 10 then sum + (readBe16 frame (ip + 2 * k)).setWidth 32 else sum) 0#32)
  have hchecksum : (ipv4HeaderChecksum frame ip).toNat = 2 ^ 16 - 1 -
      (addCarries ((List.range 10).foldl (fun sum k => if 2 * k ≠ 10 then
        sum + (readBe16 frame (ip + 2 * k)).setWidth 32 else sum) 0#32)).toNat := by
    have hlt := hfolds.lt
    rw [ipv4HeaderChecksum, BitVec.toNat_setWidth, BitVec.toNat_not]
    omega
  rw [wordSum_ipHeader hsrc hdst, hchecksum]
  rw [hsum] at hfolds
  exact hfolds.complement (Nat.succ_pos 15)

end Checksum

def udpDatagram (srcIp dstIp : List Byte) (srcPort dstPort flagsFragment checksum : BitVec 16) :
    Datagram where
  typeOfService := 0x00
  identification := 0x1234
  flagsFragment := flagsFragment
  timeToLive := 0x40
  protocol := 0x11
  headerChecksum := checksum
  srcIp := ofBytes 32 srcIp
  dstIp := ofBytes 32 dstIp
  ihl := 5
  options := []
  srcPort := srcPort
  dstPort := dstPort
  udpChecksum := 0x0000
  data := [0x68#8, 0x65#8, 0x6c#8, 0x6c#8, 0x6f#8, 0x21#8, 0x00#8, 0x01#8]
  length_options := rfl

section Request
variable {dst src srcIp dstIp : List Byte} (srcPort dstPort flagsFragment : BitVec 16)

theorem ipv4Header_udpDatagram (hsrcIp : srcIp.length = 4) (hdstIp : dstIp.length = 4)
    (checksum : BitVec 16) :
    (udpDatagram srcIp dstIp srcPort dstPort flagsFragment checksum).ipv4Header =
      ipHeader flagsFragment checksum srcIp dstIp := by
  have hsrc : toBytes 4 (ofBytes 32 srcIp) = srcIp := hsrcIp ▸ toBytes_ofBytes srcIp (by omega)
  have hdst : toBytes 4 (ofBytes 32 dstIp) = dstIp := hdstIp ▸ toBytes_ofBytes dstIp (by omega)
  have htotal : (udpDatagram srcIp dstIp srcPort dstPort flagsFragment checksum).totalLen = 36 :=
    rfl
  have hversion : joinNibbles 4#4 5#4 = 0x45#8 := rfl
  rw [Datagram.ipv4Header, htotal]
  simp [udpDatagram, ipHeader, hsrc, hdst, hversion, toBytes_two]

theorem udpHeader_udpDatagram (checksum : BitVec 16) :
    (udpDatagram srcIp dstIp srcPort dstPort flagsFragment checksum).udpHeader =
      [(srcPort >>> 8).setWidth 8, srcPort.setWidth 8] ++
        [(dstPort >>> 8).setWidth 8, dstPort.setWidth 8] ++ [0x00#8, 0x10#8, 0x00#8, 0x00#8] := by
  have hlen : (udpDatagram srcIp dstIp srcPort dstPort flagsFragment checksum).udpLen = 16 := rfl
  rw [Datagram.udpHeader, hlen]
  simp [udpDatagram, toBytes_two]

theorem appendIpv4HeaderChecksum_eq (front : List Byte) :
    appendIpv4HeaderChecksum (front ++ ipHeader flagsFragment 0#16 srcIp dstIp) front.length =
      front ++ ipHeader flagsFragment (ipv4HeaderChecksum
        (front ++ ipHeader flagsFragment 0#16 srcIp dstIp) front.length) srcIp dstIp := by
  rw [appendIpv4HeaderChecksum, List.set_append_right _ _ (Nat.le_add_right _ _),
    List.set_append_right _ _ (Nat.le_add_right _ _), Nat.add_sub_cancel_left,
    Nat.add_sub_cancel_left]
  rfl

theorem udpRequestFrame_eq (dst src : List Byte) (hsrcIp : srcIp.length = 4)
    (hdstIp : dstIp.length = 4) :
    ∃ checksum, Folds 16 (wordSum
        (udpDatagram srcIp dstIp srcPort dstPort flagsFragment checksum).ipv4Header) (2 ^ 16 - 1) ∧
      udpRequestFrame dst src srcIp dstIp srcPort dstPort flagsFragment =
        wireBytes (dst ++ src ++ [0x08#8, 0x00#8] ++
          (udpDatagram srcIp dstIp srcPort dstPort flagsFragment checksum).encode) := by
  generalize hfront : preamble ++ dst ++ src ++ [0x08#8, 0x00#8] = front
  have hstands := stands_self front (ipHeader flagsFragment 0#16 srcIp dstIp)
  refine ⟨ipv4HeaderChecksum (front ++ ipHeader flagsFragment 0#16 srcIp dstIp) front.length, ?_,
    ?_⟩
  · rw [ipv4Header_udpDatagram _ _ _ hsrcIp hdstIp]
    exact checksum_folds hsrcIp hdstIp hstands
  · have hheader : front ++ [0x45#8, 0x00#8, 0x00#8, 0x24#8, 0x12#8, 0x34#8] ++
        [(flagsFragment >>> 8).setWidth 8, flagsFragment.setWidth 8] ++
        [0x40#8, 0x11#8, 0x00#8, 0x00#8] ++ srcIp ++ dstIp =
          front ++ ipHeader flagsFragment 0#16 srcIp dstIp := by
      simp [ipHeader]
    rw [udpRequestFrame, hfront, hheader, appendIpv4HeaderChecksum_eq, Datagram.encode,
      ipv4Header_udpDatagram _ _ _ hsrcIp hdstIp, udpHeader_udpDatagram, ← appendEthFcs_preamble,
      ← hfront]
    simp only [List.append_assoc]
    rfl

end Request

section Received
variable {dst src srcIp dstIp : List Byte} (srcPort dstPort flagsFragment : BitVec 16)

def udpPacket (dst src : List Byte) (d : Datagram) : Packet :=
  ⟨⟨ofBytes 48 dst, ofBytes 48 src, ipv4Ethertype⟩, d.encode, false⟩

theorem bodyPacket_udp (hdst : dst.length = 6) (hsrc : src.length = 6) (d : Datagram) :
    bodyPacket (dst ++ src ++ [0x08#8, 0x00#8] ++ d.encode) = udpPacket dst src d := by
  have hdsts : toBytes 6 (ofBytes 48 dst) = dst := hdst ▸ toBytes_ofBytes dst (by omega)
  have hsrcs : toBytes 6 (ofBytes 48 src) = src := hsrc ▸ toBytes_ofBytes src (by omega)
  have htype : toBytes 2 ipv4Ethertype = [0x08#8, 0x00#8] := rfl
  have hheader : dst ++ src ++ [0x08#8, 0x00#8] =
      (EthHeader.mk (ofBytes 48 dst) (ofBytes 48 src) ipv4Ethertype).toBytes := by
    rw [EthHeader.toBytes, hdsts, hsrcs, htype]
  rw [hheader]
  exact congrArg (fun header => Packet.mk header d.encode false) (EthHeader.ofBytes_toBytes _)

theorem length_udpDatagram (checksum : BitVec 16) :
    (udpDatagram srcIp dstIp srcPort dstPort flagsFragment checksum).encode.length = 36 := by
  rw [Datagram.length_encode]
  rfl

theorem arpRequester_udpPacket (d : Datagram) : (udpPacket dst src d).arpRequester = none := by
  have hwants : (udpPacket dst src d).wantsArpParse = false := by
    simp [udpPacket, Packet.wantsArpParse, ipv4Ethertype, arpEthertype]
  rw [Packet.arpRequester, hwants, if_neg]
  exact fun h => Bool.noConfusion h.1

theorem burstPacket_udp (hdst : dst.length = 6) (hsrc : src.length = 6) (hsrcIp : srcIp.length = 4)
    (hdstIp : dstIp.length = 4) :
    ∃ checksum, Folds 16 (wordSum
        (udpDatagram srcIp dstIp srcPort dstPort flagsFragment checksum).ipv4Header) (2 ^ 16 - 1) ∧
      burstPacket ⟨nibblePins (udpRequestFrame dst src srcIp dstIp srcPort dstPort flagsFragment),
          idlePin⟩ =
        some (udpPacket dst src
          (udpDatagram srcIp dstIp srcPort dstPort flagsFragment checksum)) := by
  obtain ⟨checksum, hfolds, hframe⟩ :=
    udpRequestFrame_eq srcPort dstPort flagsFragment dst src hsrcIp hdstIp
  have hlen : (dst ++ src ++ [0x08#8, 0x00#8] ++
      (udpDatagram srcIp dstIp srcPort dstPort flagsFragment checksum).encode).length = 50 := by
    rw [List.length_append, length_udpDatagram]
    simp [hdst, hsrc]
  refine ⟨checksum, hfolds, ?_⟩
  rw [hframe, wireBytes_eq, burstPacket_frame (length_fcsBytes _) (by omega) (by omega),
    bodyPacket_udp hdst hsrc]

theorem answer_udpRequestFrame (hdst : dst.length = 6) (hsrc : src.length = 6)
    (hsrcIp : srcIp.length = 4) (hdstIp : dstIp.length = 4) :
    answer (udpRequestFrame dst src srcIp dstIp srcPort dstPort flagsFragment) = [] := by
  obtain ⟨checksum, -, hpacket⟩ :=
    burstPacket_udp srcPort dstPort flagsFragment hdst hsrc hsrcIp hdstIp
  rw [answer, ← arpRequester_burstPacket, hpacket, Option.bind_some, arpRequester_udpPacket]

/-- A receive slot with a datagram, as the view parsers read it. -/
structure HoldsDatagram (slot : RxSlot) (dst src : List Byte) (d : Datagram) : Prop where
  packet : slotPacket slot = udpPacket dst src d
  recovers : Recovers slot.2 ⟨0, slot.1.payloadLen⟩ d
    (parseIpv4View slot.2 ⟨0, slot.1.payloadLen⟩)
    (parseUdpView slot.2 (parseIpv4View slot.2 ⟨0, slot.1.payloadLen⟩).payloadView)

theorem holdsDatagram {slot : RxSlot} {d : Datagram}
    (hpacket : slotPacket slot = udpPacket dst src d) (hmax : d.encode.length ≤ 1500) :
    HoldsDatagram slot dst src d := by
  have hpayload : (List.range slot.1.payloadLen.toNat).map slot.2.get = d.encode :=
    congrArg Packet.payload hpacket
  have hlen : slot.1.payloadLen.toNat = d.encode.length := by
    rw [← hpayload, List.length_map, List.length_range]
  have hcarries : Carries slot.2 0 d.encode := by
    rw [Carries, bufferBytes, ← hlen, ← hpayload]
    simp only [Nat.zero_add]
  have hinside : (0 : BitVec 11).toNat + slot.1.payloadLen.toNat ≤ maxEthPayloadBytesInt := by
    rw [hlen]
    exact (Nat.zero_add _).trans_le hmax
  let view : BoundedView := ⟨⟨0, slot.1.payloadLen⟩, hinside⟩
  have hcarried : CarriesDatagram slot.2 view.offset.toNat d := hcarries.datagram
  exact ⟨hpacket, hcarried.recovers hlen.ge⟩

theorem published_sent {prior : List RxPins} {frame : List Byte} {packet : Packet}
    (hprior : rxPending prior = [])
    (hpacket : burstPacket ⟨nibblePins frame, idlePin⟩ = some packet) :
    ∃ slot, publishedPackets (prior ++ sentPins frame) = publishedPackets prior ++ [slot] ∧
      slotPacket slot = packet ∧
      requesters (prior ++ sentPins frame) = requesters prior ++ packet.arpRequester.toList := by
  have hbursts : rxBursts (prior ++ sentPins frame) = rxBursts prior ++
      if nibblePins frame = [] then [] else [⟨nibblePins frame, idlePin⟩] := by
    have hnone : ∀ p ∈ ([] : List RxPins), p.ethRxDv = false := by simp
    have hwindow := rxBursts_burst hprior (ethRxDv_nibblePins frame)
      (show idlePin.ethRxDv = false from rfl) hnone
    rwa [List.append_nil, List.append_assoc] at hwindow
  obtain ⟨more, hmore⟩ : publishedPackets prior <+: publishedPackets (prior ++ sentPins frame) := by
    rw [publishedPackets, publishedPackets, Synchronous.events_append]
    exact List.prefix_append _ _
  have hslots := map_slotPacket_publishedPackets (prior ++ sentPins frame)
  rw [hbursts, List.filterMap_append, filterMap_burst, hpacket, ← map_slotPacket_publishedPackets,
    ← hmore, List.map_append, List.append_cancel_left_eq] at hslots
  obtain ⟨slot, rfl, hslot⟩ := List.map_eq_singleton_iff.mp hslots
  refine ⟨slot, hmore.symm, hslot, ?_⟩
  rw [requesters_eq, requesters_eq, ← hmore, List.filterMap_append, ← hslot]
  rfl

/-- Whatever has been received before, the request comes to stand in one more receive slot, where
the view parsers read back every field; its header adds up to all ones, and nobody is answered. -/
theorem udp_request_received (prior : List RxPins) (hprior : rxPending prior = [])
    (hdst : dst.length = 6) (hsrc : src.length = 6) (hsrcIp : srcIp.length = 4)
    (hdstIp : dstIp.length = 4) :
    ∃ checksum slot,
      Folds 16 (wordSum (udpDatagram srcIp dstIp srcPort dstPort flagsFragment checksum).ipv4Header)
        (2 ^ 16 - 1) ∧
      publishedPackets (prior ++ sentPins
        (udpRequestFrame dst src srcIp dstIp srcPort dstPort flagsFragment)) =
          publishedPackets prior ++ [slot] ∧
      HoldsDatagram slot dst src
        (udpDatagram srcIp dstIp srcPort dstPort flagsFragment checksum) ∧
      requesters (prior ++ sentPins
        (udpRequestFrame dst src srcIp dstIp srcPort dstPort flagsFragment)) =
          requesters prior := by
  obtain ⟨checksum, hfolds, hpacket⟩ :=
    burstPacket_udp srcPort dstPort flagsFragment hdst hsrc hsrcIp hdstIp
  obtain ⟨slot, hpublished, hslot, hrequesters⟩ := published_sent hprior hpacket
  rw [arpRequester_udpPacket, Option.toList_none, List.append_nil] at hrequesters
  exact ⟨checksum, slot, hfolds, hpublished,
    holdsDatagram hslot (by rw [length_udpDatagram]; omega), hrequesters⟩

end Received

theorem udp_request_received_bench :
    ∃ checksum slot,
      Folds 16 (wordSum (udpDatagram [192, 168, 1, 10] fpgaIpBytes 49152 40000 0
        checksum).ipv4Header) (2 ^ 16 - 1) ∧
      publishedPackets ([idlePin] ++ sentPins (udpRequestFrame fpgaMacBytes
        [0x66, 0x55, 0x44, 0x33, 0x22, 0x11] [192, 168, 1, 10] fpgaIpBytes 49152 40000 0)) =
          publishedPackets [idlePin] ++ [slot] ∧
      HoldsDatagram slot fpgaMacBytes [0x66, 0x55, 0x44, 0x33, 0x22, 0x11]
        (udpDatagram [192, 168, 1, 10] fpgaIpBytes 49152 40000 0 checksum) ∧
      requesters ([idlePin] ++ sentPins (udpRequestFrame fpgaMacBytes
        [0x66, 0x55, 0x44, 0x33, 0x22, 0x11] [192, 168, 1, 10] fpgaIpBytes 49152 40000 0)) =
          requesters [idlePin] :=
  udp_request_received 49152 40000 0 [idlePin] rfl rfl rfl rfl rfl

end ArtyEthernet.Testbench
