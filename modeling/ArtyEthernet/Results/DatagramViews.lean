import ArtyEthernet.Proofs.ViewReads

/-!
# IPv4 and UDP views

The view parsers are exact on every view inside the payload buffer: they read nothing outside it,
accept exactly the headers whose lengths are consistent, and read an encoded datagram back.
-/

namespace ArtyEthernet
open Words

/-- A view inside the payload buffer. -/
structure BoundedView extends PacketView where
  inside : offset.toNat + len.toNat ≤ maxEthPayloadBytesInt

/-- The reader that fails outside a view. -/
def windowReader (bytes : Buffer maxEthPayloadBytesInt) (view : PacketView) (index : ℕ) :
    Option Byte :=
  if view.offset.toNat ≤ index ∧ index < view.offset.toNat + view.len.toNat then
    some (Buffer.get bytes index)
  else none

theorem shows_windowReader (bytes : Buffer maxEthPayloadBytesInt) (view : PacketView) :
    Shows (windowReader bytes view) bytes view.offset.toNat view.len.toNat := by
  intro k hk
  exact if_pos ⟨by omega, by omega⟩

/-- A UDP datagram in an IPv4 packet with its options. -/
structure Datagram where
  typeOfService : Byte
  identification : BitVec 16
  flagsFragment : BitVec 16
  timeToLive : Byte
  protocol : Byte
  headerChecksum : BitVec 16
  srcIp : BitVec 32
  dstIp : BitVec 32
  ihl : BitVec 4
  options : List Byte
  srcPort : BitVec 16
  dstPort : BitVec 16
  udpChecksum : BitVec 16
  data : List Byte
  length_options : 20 + options.length = 4 * ihl.toNat

namespace Datagram

variable (d : Datagram)

def udpLen : ℕ := 8 + d.data.length

def totalLen : ℕ := 4 * d.ihl.toNat + d.udpLen

def ipv4Header : List Byte :=
  [joinNibbles 4 d.ihl] ++ [d.typeOfService] ++ toBytes 2 (BitVec.ofNat 16 d.totalLen) ++
    toBytes 2 d.identification ++ toBytes 2 d.flagsFragment ++ [d.timeToLive] ++ [d.protocol] ++
    toBytes 2 d.headerChecksum ++ toBytes 4 d.srcIp ++ toBytes 4 d.dstIp ++ d.options

def udpHeader : List Byte :=
  toBytes 2 d.srcPort ++ toBytes 2 d.dstPort ++ toBytes 2 (BitVec.ofNat 16 d.udpLen) ++
    toBytes 2 d.udpChecksum

def encode : List Byte := d.ipv4Header ++ d.udpHeader ++ d.data

theorem length_ipv4Header : d.ipv4Header.length = 4 * d.ihl.toNat := by
  simp only [ipv4Header, List.length_append, List.length_singleton, length_toBytes]
  exact d.length_options

theorem length_encode : d.encode.length = d.totalLen := by
  simp only [encode, List.length_append, length_ipv4Header, udpHeader, length_toBytes, totalLen,
    udpLen]
  omega

end Datagram

def Carries (bytes : Buffer maxEthPayloadBytesInt) (offset : ℕ) (bs : List Byte) : Prop :=
  bufferBytes bytes offset bs.length = bs

section Carries
variable {bytes : Buffer maxEthPayloadBytesInt} {offset : ℕ}

theorem bufferBytes_append (bytes : Buffer maxEthPayloadBytesInt) (offset m n : ℕ) :
    bufferBytes bytes offset (m + n) =
      bufferBytes bytes offset m ++ bufferBytes bytes (offset + m) n := by
  simp [bufferBytes, List.range_add, Nat.add_assoc]

theorem carries_append {xs ys : List Byte} :
    Carries bytes offset (xs ++ ys) ↔
      Carries bytes offset xs ∧ Carries bytes (offset + xs.length) ys := by
  unfold Carries
  rw [List.length_append, bufferBytes_append]
  constructor
  · intro h
    exact List.append_inj h (by rw [length_bufferBytes])
  · rintro ⟨hx, hy⟩
    rw [hx, hy]

theorem carries_singleton {b : Byte} : Carries bytes offset [b] ↔ bytes.get offset = b := by
  simp [Carries, bufferBytes]

theorem carries_be16 {x : BitVec 16} :
    Carries bytes offset (toBytes 2 x) ↔ be16At bytes offset = x := by
  rw [Carries, be16At, ofBytes_eq_iff _ _ (by rw [length_bufferBytes]), length_bufferBytes,
    length_toBytes]

theorem carries_be32 {x : BitVec 32} :
    Carries bytes offset (toBytes 4 x) ↔ be32At bytes offset = x := by
  rw [Carries, be32At, ofBytes_eq_iff _ _ (by rw [length_bufferBytes]), length_bufferBytes,
    length_toBytes]

structure CarriesDatagram (bytes : Buffer maxEthPayloadBytesInt) (offset : ℕ) (d : Datagram) :
    Prop where
  versionIhl : bytes.get offset = joinNibbles 4 d.ihl
  totalLen : be16At bytes (offset + 2) = BitVec.ofNat 16 d.totalLen
  flagsFragment : be16At bytes (offset + 6) = d.flagsFragment
  protocol : bytes.get (offset + 9) = d.protocol
  srcIp : be32At bytes (offset + 12) = d.srcIp
  dstIp : be32At bytes (offset + 16) = d.dstIp
  srcPort : be16At bytes (offset + 4 * d.ihl.toNat) = d.srcPort
  dstPort : be16At bytes (offset + 4 * d.ihl.toNat + 2) = d.dstPort
  udpLen : be16At bytes (offset + 4 * d.ihl.toNat + 4) = BitVec.ofNat 16 d.udpLen
  data : Carries bytes (offset + 4 * d.ihl.toNat + 8) d.data

theorem Carries.datagram {d : Datagram} (h : Carries bytes offset d.encode) :
    CarriesDatagram bytes offset d := by
  rw [Datagram.encode, List.append_assoc, carries_append, d.length_ipv4Header, carries_append] at h
  obtain ⟨hip, hudp, hdata⟩ := h
  simp only [Datagram.ipv4Header, List.append_assoc, carries_append, carries_singleton,
    carries_be16, carries_be32, List.length_singleton, length_toBytes, Nat.add_assoc,
    Nat.reduceAdd] at hip
  simp only [Datagram.udpHeader, List.append_assoc, carries_append, carries_be16, length_toBytes,
    Nat.add_assoc, Nat.reduceAdd] at hudp
  obtain ⟨hversion, -, htotal, -, hflags, -, hprotocol, -, hsrc, hdst, -⟩ := hip
  obtain ⟨hsrcPort, hdstPort, hudpLen, -⟩ := hudp
  refine ⟨hversion, htotal, hflags, hprotocol, hsrc, hdst, hsrcPort, ?_, ?_, ?_⟩
  · simpa [Nat.add_assoc] using hdstPort
  · simpa [Nat.add_assoc] using hudpLen
  · simpa [Datagram.udpHeader, Nat.add_assoc] using hdata

end Carries

/-- The parsers report the fields and the data of a datagram at the start of a view. -/
structure Recovers (bytes : Buffer maxEthPayloadBytesInt) (view : PacketView) (d : Datagram)
    (ipv4 : Ipv4View) (udp : UdpView) : Prop where
  ipv4_valid : ipv4.valid = true
  headerLen : ipv4.headerLen = d.ihl
  totalLen : ipv4.totalLen.toNat = d.totalLen
  protocol : ipv4.protocol = d.protocol
  flagsFragment : ipv4.flagsFragment = d.flagsFragment
  srcIp : ipv4.srcIp = d.srcIp
  dstIp : ipv4.dstIp = d.dstIp
  udp_valid : udp.valid = true
  srcPort : udp.srcPort = d.srcPort
  dstPort : udp.dstPort = d.dstPort
  length : udp.length.toNat = d.udpLen
  data_offset : udp.payloadView.offset.toNat = view.offset.toNat + 4 * d.ihl.toNat + 8
  data_len : udp.payloadView.len.toNat = d.data.length
  data : bufferBytes bytes udp.payloadView.offset.toNat udp.payloadView.len.toNat = d.data

/-- What holds of the parsers on a view. -/
structure ViewsExact (bytes : Buffer maxEthPayloadBytesInt) (view : PacketView) (ipv4 : Ipv4View)
    (udp : UdpView) : Prop where
  /-- Both parsers succeed, with the same result, when reads outside the view fail. -/
  reads : readIpv4View (windowReader bytes view) view = some ipv4 ∧
    readUdpView (windowReader bytes view) ipv4.payloadView = some udp
  ipv4_valid : ipv4.valid = true ↔ Ipv4Fits bytes view
  ipv4_payload : ipv4.valid = true →
    ipv4.payloadView.offset.toNat = view.offset.toNat + 4 * ihlAt bytes view ∧
      ipv4.payloadView.offset.toNat + ipv4.payloadView.len.toNat =
        view.offset.toNat + totalLenAt bytes view
  udp_valid : udp.valid = true ↔ UdpFits bytes ipv4.payloadView
  udp_payload : udp.valid = true →
    ipv4.payloadView.offset.toNat ≤ udp.payloadView.offset.toNat ∧
      udp.payloadView.offset.toNat + udp.payloadView.len.toNat ≤
        ipv4.payloadView.offset.toNat + ipv4.payloadView.len.toNat
  recovers : ∀ d : Datagram, d.encode.length ≤ view.len.toNat →
    Carries bytes view.offset.toNat d.encode → Recovers bytes view d ipv4 udp

variable (bytes : Buffer maxEthPayloadBytesInt)

theorem parsed_ipv4_valid (view : BoundedView) :
    (parseIpv4View bytes view.toPacketView).valid = true ↔ Ipv4Fits bytes view.toPacketView := by
  rw [parseIpv4View_eq bytes view.inside]
  split_ifs with hfits
  · simp only [ipv4ViewAt, hfits]
  · simp only [Ipv4View.blank, hfits, Bool.false_eq_true]

theorem parsed_udp_valid (view : BoundedView) :
    (parseUdpView bytes view.toPacketView).valid = true ↔ UdpFits bytes view.toPacketView := by
  rw [parseUdpView_eq bytes view.inside]
  split_ifs with hfits
  · simp only [udpViewAt, hfits]
  · simp only [UdpView.blank, hfits, Bool.false_eq_true]

theorem ipv4ViewAt_payload (view : BoundedView) (h : Ipv4Fits bytes view.toPacketView) :
    (ipv4ViewAt bytes view.toPacketView).payloadView.offset.toNat =
        view.offset.toNat + 4 * ihlAt bytes view.toPacketView ∧
      (ipv4ViewAt bytes view.toPacketView).payloadView.len.toNat =
        totalLenAt bytes view.toPacketView - 4 * ihlAt bytes view.toPacketView := by
  have hin := view.inside
  obtain ⟨-, -, -, hheader, hfits, htotal⟩ := h
  simp only [ipv4ViewAt, BitVec.toNat_ofNat, maxEthPayloadBytesInt] at hin ⊢
  omega

theorem udpViewAt_payload (view : BoundedView) (h : UdpFits bytes view.toPacketView) :
    (udpViewAt bytes view.toPacketView).payloadView.offset.toNat = view.offset.toNat + 8 ∧
      (udpViewAt bytes view.toPacketView).payloadView.len.toNat =
        udpLenAt bytes view.toPacketView - 8 := by
  have hin := view.inside
  obtain ⟨h8, hheader, hfits⟩ := h
  simp only [udpViewAt, BitVec.toNat_ofNat, maxEthPayloadBytesInt] at hin ⊢
  omega

theorem parsed_payload_inside (view : BoundedView) :
    view.offset.toNat ≤ (parseIpv4View bytes view.toPacketView).payloadView.offset.toNat ∧
      (parseIpv4View bytes view.toPacketView).payloadView.offset.toNat +
          (parseIpv4View bytes view.toPacketView).payloadView.len.toNat ≤
        view.offset.toNat + view.len.toNat := by
  rw [parseIpv4View_eq bytes view.inside]
  split_ifs with h
  · obtain ⟨hoffset, hlen⟩ := ipv4ViewAt_payload bytes view h
    obtain ⟨-, -, -, hheader, hfits, htotal⟩ := h
    omega
  · simp [Ipv4View.blank]

def ipv4Payload (view : BoundedView) : BoundedView where
  toPacketView := (parseIpv4View bytes view.toPacketView).payloadView
  inside := (parsed_payload_inside bytes view).2.trans view.inside

theorem reads_window (view : BoundedView) :
    readIpv4View (windowReader bytes view.toPacketView) view.toPacketView =
        some (parseIpv4View bytes view.toPacketView) ∧
      readUdpView (windowReader bytes view.toPacketView) (ipv4Payload bytes view).toPacketView =
        some (parseUdpView bytes (ipv4Payload bytes view).toPacketView) := by
  have hshows := shows_windowReader bytes view.toPacketView
  obtain ⟨hlow, hhigh⟩ := parsed_payload_inside bytes view
  obtain ⟨k, hk⟩ := Nat.exists_eq_add_of_le hlow
  have hpiece : Shows (windowReader bytes view.toPacketView) bytes
      (ipv4Payload bytes view).offset.toNat (ipv4Payload bytes view).len.toNat := by
    change Shows _ _ (parseIpv4View bytes view.toPacketView).payloadView.offset.toNat _
    rw [hk]
    apply hshows.piece
    change k + (parseIpv4View bytes view.toPacketView).payloadView.len.toNat ≤ _
    omega
  rw [parseIpv4View_eq bytes view.inside, parseUdpView_eq bytes (ipv4Payload bytes view).inside]
  exact ⟨hshows.ipv4 view.inside, hpiece.udp (ipv4Payload bytes view).inside⟩

theorem CarriesDatagram.fits {bytes : Buffer maxEthPayloadBytesInt} {view : BoundedView}
    {d : Datagram} (h : CarriesDatagram bytes view.offset.toNat d)
    (hfit : d.encode.length ≤ view.len.toNat) :
    Ipv4Fits bytes view.toPacketView ∧ ihlAt bytes view.toPacketView = d.ihl.toNat ∧
      totalLenAt bytes view.toPacketView = d.totalLen := by
  have hin := view.inside
  have hihl := d.ihl.isLt
  have hoptions := d.length_options
  rw [d.length_encode] at hfit
  simp only [maxEthPayloadBytesInt, Datagram.totalLen, Datagram.udpLen] at hin hfit
  have hversion : versionAt bytes view.toPacketView = 4 := by
    rw [versionAt, h.versionIhl, ← toNat_highNibble, highNibble_joinNibbles]
    rfl
  have hheader : ihlAt bytes view.toPacketView = d.ihl.toNat := by
    rw [ihlAt, h.versionIhl, ← toNat_lowNibble, lowNibble_joinNibbles]
  have htotal : totalLenAt bytes view.toPacketView = d.totalLen := by
    rw [totalLenAt, ← toNat_be16At, h.totalLen, BitVec.toNat_ofNat]
    simp only [Datagram.totalLen, Datagram.udpLen]
    omega
  refine ⟨?_, hheader, htotal⟩
  simp only [Ipv4Fits, hversion, hheader, htotal, Datagram.totalLen, Datagram.udpLen, true_and]
  omega

theorem CarriesDatagram.recovers {bytes : Buffer maxEthPayloadBytesInt} {view : BoundedView}
    {d : Datagram} (h : CarriesDatagram bytes view.offset.toNat d)
    (hfit : d.encode.length ≤ view.len.toNat) :
    Recovers bytes view.toPacketView d (parseIpv4View bytes view.toPacketView)
      (parseUdpView bytes (ipv4Payload bytes view).toPacketView) := by
  have hin := view.inside
  obtain ⟨hfits, hheader, htotal⟩ := h.fits hfit
  have hip : parseIpv4View bytes view.toPacketView = ipv4ViewAt bytes view.toPacketView := by
    rw [parseIpv4View_eq bytes view.inside, if_pos hfits]
  obtain ⟨hoffset, hlen⟩ := ipv4ViewAt_payload bytes view hfits
  rw [← hip, hheader] at hoffset hlen
  rw [htotal, Datagram.totalLen, Nat.add_sub_cancel_left] at hlen
  change (ipv4Payload bytes view).offset.toNat = _ at hoffset
  change (ipv4Payload bytes view).len.toNat = _ at hlen
  rw [d.length_encode, Datagram.totalLen] at hfit
  simp only [maxEthPayloadBytesInt] at hin
  have hudpLen : udpLenAt bytes (ipv4Payload bytes view).toPacketView = d.udpLen := by
    rw [udpLenAt, ← toNat_be16At, hoffset, h.udpLen, BitVec.toNat_ofNat]
    omega
  have hudpFits : UdpFits bytes (ipv4Payload bytes view).toPacketView := by
    simp only [UdpFits, hudpLen, hlen, Datagram.udpLen]
    omega
  have hudp : parseUdpView bytes (ipv4Payload bytes view).toPacketView =
      udpViewAt bytes (ipv4Payload bytes view).toPacketView := by
    rw [parseUdpView_eq bytes (ipv4Payload bytes view).inside, if_pos hudpFits]
  obtain ⟨hdataOffset, hdataLen⟩ := udpViewAt_payload bytes (ipv4Payload bytes view) hudpFits
  rw [hoffset] at hdataOffset
  rw [hudpLen, Datagram.udpLen, Nat.add_sub_cancel_left] at hdataLen
  rw [hip, hudp]
  exact {
    ipv4_valid := rfl
    headerLen := by rw [ipv4ViewAt, h.versionIhl, lowNibble_joinNibbles]
    totalLen := by rw [ipv4ViewAt, toNat_be16At, ← totalLenAt, htotal]
    protocol := h.protocol
    flagsFragment := h.flagsFragment
    srcIp := h.srcIp
    dstIp := h.dstIp
    udp_valid := rfl
    srcPort := by rw [udpViewAt, hoffset, h.srcPort]
    dstPort := by rw [udpViewAt, hoffset, h.dstPort]
    length := by rw [udpViewAt, toNat_be16At, ← udpLenAt, hudpLen]
    data_offset := hdataOffset
    data_len := hdataLen
    data := by
      rw [hdataOffset, hdataLen]
      exact h.data }

/-- For every buffer and every view inside it. -/
theorem ipv4_udp_views_exact (view : BoundedView) :
    ViewsExact bytes view.toPacketView (parseIpv4View bytes view.toPacketView)
      (parseUdpView bytes (parseIpv4View bytes view.toPacketView).payloadView) := by
  change ViewsExact _ _ _ (parseUdpView bytes (ipv4Payload bytes view).toPacketView)
  refine ⟨reads_window bytes view, parsed_ipv4_valid bytes view, ?_,
    parsed_udp_valid bytes (ipv4Payload bytes view), ?_, ?_⟩
  · intro h
    have hfits := (parsed_ipv4_valid bytes view).mp h
    obtain ⟨hoffset, hlen⟩ := ipv4ViewAt_payload bytes view hfits
    rw [parseIpv4View_eq bytes view.inside, if_pos hfits]
    obtain ⟨-, -, -, -, hle, -⟩ := hfits
    exact ⟨hoffset, by omega⟩
  · intro h
    have hfits := (parsed_udp_valid bytes (ipv4Payload bytes view)).mp h
    obtain ⟨hoffset, hlen⟩ := udpViewAt_payload bytes (ipv4Payload bytes view) hfits
    rw [parseUdpView_eq bytes (ipv4Payload bytes view).inside, if_pos hfits]
    change (ipv4Payload bytes view).offset.toNat ≤ _ ∧
      _ ≤ (ipv4Payload bytes view).offset.toNat + (ipv4Payload bytes view).len.toNat
    obtain ⟨h8, hle, hin⟩ := hfits
    omega
  · intro d hfit hcarries
    exact hcarries.datagram.recovers hfit

end ArtyEthernet
