import ArtyEthernet.Proofs.ArpParse

/-!
# What the view parsers read

A reader shows the bytes of a range of a buffer when it returns them there; elsewhere it may do
anything. The parsers return the same view from every reader that shows the range they are given.
-/

namespace ArtyEthernet
open Words

def be16At (bytes : Buffer maxEthPayloadBytesInt) (offset : ℕ) : BitVec 16 :=
  Words.ofBytes 16 (bufferBytes bytes offset 2)

def be32At (bytes : Buffer maxEthPayloadBytesInt) (offset : ℕ) : BitVec 32 :=
  Words.ofBytes 32 (bufferBytes bytes offset 4)

def mac48At (bytes : Buffer maxEthPayloadBytesInt) (offset : ℕ) : BitVec 48 :=
  Words.ofBytes 48 (bufferBytes bytes offset 6)

theorem toNat_be16At (bytes : Buffer maxEthPayloadBytesInt) (offset : ℕ) :
    (be16At bytes offset).toNat =
      256 * (bytes.get offset).toNat + (bytes.get (offset + 1)).toNat := by
  have h0 := (bytes.get offset).isLt
  have h1 := (bytes.get (offset + 1)).isLt
  have hlow : (bytes.get (offset + 1)).toNat % 65536 = (bytes.get (offset + 1)).toNat := by omega
  have hhigh : (bytes.get offset).toNat % 65536 = (bytes.get offset).toNat := by omega
  have hshift : (bytes.get offset).toNat <<< 8 = 256 * (bytes.get offset).toNat := by
    rw [Nat.shiftLeft_eq, Nat.mul_comm]
  have hfit : 256 * (bytes.get offset).toNat % 65536 = 256 * (bytes.get offset).toNat := by omega
  have hor : (be16At bytes offset).toNat =
      256 * (bytes.get offset).toNat ||| (bytes.get (offset + 1)).toNat := by
    simp [be16At, bufferBytes, Words.ofBytes, List.range_succ, hlow, hhigh, hshift, hfit]
  rw [hor, ← hshift, Nat.shiftLeft_add_eq_or_of_lt h1]

section Readers
variable {m : Type → Type} [Monad m]

/-- The reader shows `len` bytes of the buffer from `offset` on. -/
def Shows (read : ℕ → m Byte) (bytes : Buffer maxEthPayloadBytesInt) (offset len : ℕ) : Prop :=
  ∀ k < len, read (offset + k) = pure (bytes.get (offset + k))

variable {read : ℕ → m Byte} {bytes : Buffer maxEthPayloadBytesInt} {offset len : ℕ}

theorem Shows.byte (h : Shows read bytes offset len) (hlen : 0 < len) :
    read offset = pure (bytes.get offset) := h 0 hlen

theorem Shows.piece (h : Shows read bytes offset len) {k n : ℕ} (hk : k + n ≤ len) :
    Shows read bytes (offset + k) n := by
  intro i hi
  rw [Nat.add_assoc]
  exact h (k + i) (by omega)

variable [LawfulMonad m]

theorem Shows.be16 {index : BitVec 11} (h : Shows read bytes index.toNat 2) :
    readBe16 read index = pure (be16At bytes index.toNat) := by
  have h0 := h.byte (by omega)
  have h1 := h 1 (by omega)
  simp [readBe16, h0, h1, be16At, Words.ofBytes, bufferBytes, List.range_succ]

theorem Shows.be32 {index : BitVec 11} (h : Shows read bytes index.toNat 4) :
    readBe32 read index = pure (be32At bytes index.toNat) := by
  have h0 := h.byte (by omega)
  have h1 := h 1 (by omega)
  have h2 := h 2 (by omega)
  have h3 := h 3 (by omega)
  simp [readBe32, h0, h1, h2, h3, be32At, Words.ofBytes, bufferBytes, List.range_succ,
    BitVec.shiftLeft_or_distrib, ← BitVec.shiftLeft_add]

theorem Shows.mac48 {index : BitVec 11} (h : Shows read bytes index.toNat 6) :
    readMac48 read index = pure (mac48At bytes index.toNat) := by
  have h0 := h.byte (by omega)
  have h1 := h 1 (by omega)
  have h2 := h 2 (by omega)
  have h3 := h 3 (by omega)
  have h4 := h 4 (by omega)
  have h5 := h 5 (by omega)
  simp [readMac48, h0, h1, h2, h3, h4, h5, mac48At, Words.ofBytes, bufferBytes,
    List.range_succ, BitVec.shiftLeft_or_distrib, ← BitVec.shiftLeft_add]

theorem shows_arrayReader (bytes : Buffer maxEthPayloadBytesInt) (offset len : ℕ) :
    Shows (arrayReader bytes) bytes offset len := fun _ _ => rfl

end Readers

/-- Inside the buffer a base does not wrap. -/
theorem toNat_add_inside {base k : BitVec 11}
    (h : base.toNat + k.toNat ≤ maxEthPayloadBytesInt) :
    (base + k).toNat = base.toNat + k.toNat := by
  apply BitVec.toNat_add_of_lt
  simp only [maxEthPayloadBytesInt] at h
  omega

theorem toNat_highNibble (b : Byte) : (highNibble b).toNat = b.toNat / 16 := by
  have hb := b.isLt
  simp [highNibble, Nat.shiftRight_eq_div_pow]
  omega

theorem toNat_lowNibble (b : Byte) : (lowNibble b).toNat = b.toNat % 16 := by
  simp [lowNibble]

section Headers
variable (bytes : Buffer maxEthPayloadBytesInt) (view : PacketView)

def versionAt : ℕ := (bytes.get view.offset.toNat).toNat / 16

def ihlAt : ℕ := (bytes.get view.offset.toNat).toNat % 16

def totalLenAt : ℕ :=
  256 * (bytes.get (view.offset.toNat + 2)).toNat + (bytes.get (view.offset.toNat + 3)).toNat

def udpLenAt : ℕ :=
  256 * (bytes.get (view.offset.toNat + 4)).toNat + (bytes.get (view.offset.toNat + 5)).toNat

def Ipv4Fits : Prop :=
  20 ≤ view.len.toNat ∧ versionAt bytes view = 4 ∧ 5 ≤ ihlAt bytes view ∧
    4 * ihlAt bytes view ≤ view.len.toNat ∧ 4 * ihlAt bytes view ≤ totalLenAt bytes view ∧
    totalLenAt bytes view ≤ view.len.toNat

instance : Decidable (Ipv4Fits bytes view) := inferInstanceAs (Decidable (_ ∧ _))

def ipv4ViewAt : Ipv4View where
  valid := true
  headerLen := lowNibble (bytes.get view.offset.toNat)
  totalLen := be16At bytes (view.offset.toNat + 2)
  protocol := bytes.get (view.offset.toNat + 9)
  flagsFragment := be16At bytes (view.offset.toNat + 6)
  srcIp := be32At bytes (view.offset.toNat + 12)
  dstIp := be32At bytes (view.offset.toNat + 16)
  payloadView :=
    ⟨BitVec.ofNat 11 (view.offset.toNat + 4 * ihlAt bytes view),
      BitVec.ofNat 11 (totalLenAt bytes view - 4 * ihlAt bytes view)⟩

def UdpFits : Prop :=
  8 ≤ view.len.toNat ∧ 8 ≤ udpLenAt bytes view ∧ udpLenAt bytes view ≤ view.len.toNat

instance : Decidable (UdpFits bytes view) := inferInstanceAs (Decidable (_ ∧ _))

def udpViewAt : UdpView where
  valid := true
  srcPort := be16At bytes view.offset.toNat
  dstPort := be16At bytes (view.offset.toNat + 2)
  length := be16At bytes (view.offset.toNat + 4)
  payloadView :=
    ⟨BitVec.ofNat 11 (view.offset.toNat + 8), BitVec.ofNat 11 (udpLenAt bytes view - 8)⟩

end Headers

section Parsers
variable {m : Type → Type} [Monad m] [LawfulMonad m] {read : ℕ → m Byte}
  {bytes : Buffer maxEthPayloadBytesInt} {view : PacketView}

omit [LawfulMonad m] in
theorem Shows.field (h : Shows read bytes view.offset.toNat view.len.toNat)
    (hin : view.offset.toNat + view.len.toNat ≤ maxEthPayloadBytesInt) (k : BitVec 11) {n : ℕ}
    (hk : k.toNat + n ≤ view.len.toNat) :
    (view.offset + k).toNat = view.offset.toNat + k.toNat ∧
      Shows read bytes (view.offset + k).toNat n := by
  have hbase := @toNat_add_inside view.offset k (by omega)
  refine ⟨hbase, ?_⟩
  rw [hbase]
  exact h.piece hk

theorem Shows.headerWord (h : Shows read bytes view.offset.toNat view.len.toNat)
    (hin : view.offset.toNat + view.len.toNat ≤ maxEthPayloadBytesInt) (k : BitVec 11)
    (hk : k.toNat + 2 ≤ view.len.toNat) :
    readBe16 read (view.offset + k) = pure (be16At bytes (view.offset.toNat + k.toNat)) := by
  obtain ⟨hbase, hfield⟩ := h.field hin k hk
  rw [hfield.be16, hbase]

theorem Shows.headerDouble (h : Shows read bytes view.offset.toNat view.len.toNat)
    (hin : view.offset.toNat + view.len.toNat ≤ maxEthPayloadBytesInt) (k : BitVec 11)
    (hk : k.toNat + 4 ≤ view.len.toNat) :
    readBe32 read (view.offset + k) = pure (be32At bytes (view.offset.toNat + k.toNat)) := by
  obtain ⟨hbase, hfield⟩ := h.field hin k hk
  rw [hfield.be32, hbase]

/-- Four times a header length does not wrap in eight bits. -/
theorem toNat_headerBytes (ihl : BitVec 4) : (ihl.setWidth 8 <<< 2).toNat = 4 * ihl.toNat := by
  have hlt := ihl.isLt
  simp [BitVec.toNat_shiftLeft, BitVec.toNat_setWidth, Nat.shiftLeft_eq]
  omega

/-- The checks of the IPv4 parser compare the lengths as numbers. -/
theorem ipv4Rejected_iff (bytes : Buffer maxEthPayloadBytesInt) (view : PacketView)
    (hlen : 20 ≤ view.len.toNat) :
    (!(highNibble (bytes.get view.offset.toNat) == 4 &&
          decide (5 ≤ lowNibble (bytes.get view.offset.toNat)) &&
          decide (((lowNibble (bytes.get view.offset.toNat)).setWidth 8 <<< 2).setWidth 11 ≤
            view.len)) ||
        !(decide (((lowNibble (bytes.get view.offset.toNat)).setWidth 8 <<< 2).setWidth 16 ≤
            be16At bytes (view.offset.toNat + 2)) &&
          decide (be16At bytes (view.offset.toNat + 2) ≤ view.len.setWidth 16))) = true ↔
      ¬ Ipv4Fits bytes view := by
  have hihl : (lowNibble (bytes.get view.offset.toNat)).toNat = ihlAt bytes view :=
    toNat_lowNibble _
  have htotal : (be16At bytes (view.offset.toNat + 2)).toNat = totalLenAt bytes view :=
    toNat_be16At _ _
  have hversion : highNibble (bytes.get view.offset.toNat) = 4 ↔ versionAt bytes view = 4 := by
    rw [← BitVec.toNat_inj, toNat_highNibble]
    rfl
  have hlt := (lowNibble (bytes.get view.offset.toNat)).isLt
  have hview := view.len.isLt
  simp only [← Bool.not_and, Bool.not_eq_true', ← Bool.not_eq_true, Bool.and_eq_true, beq_iff_eq,
    decide_eq_true_eq, BitVec.le_def, BitVec.toNat_setWidth, toNat_headerBytes, hversion, htotal,
    Nat.mod_eq_of_lt (show view.len.toNat < 2 ^ 16 by omega)]
  rw [hihl] at hlt ⊢
  rw [Nat.mod_eq_of_lt (show 4 * ihlAt bytes view < 2 ^ 11 by omega),
    Nat.mod_eq_of_lt (show 4 * ihlAt bytes view < 2 ^ 16 by omega)]
  simp only [Ipv4Fits, hlen, true_and, and_assoc]
  rfl

/-- The range after an IPv4 header does not wrap. -/
theorem ipv4Payload_eq (bytes : Buffer maxEthPayloadBytesInt) (view : PacketView)
    (h : Ipv4Fits bytes view) :
    (⟨view.offset + ((lowNibble (bytes.get view.offset.toNat)).setWidth 8 <<< 2).setWidth 11,
        (be16At bytes (view.offset.toNat + 2) -
          ((lowNibble (bytes.get view.offset.toNat)).setWidth 8 <<< 2).setWidth 16).setWidth
            11⟩ : PacketView) = (ipv4ViewAt bytes view).payloadView := by
  have hihl : (lowNibble (bytes.get view.offset.toNat)).toNat = ihlAt bytes view :=
    toNat_lowNibble _
  have htotal : (be16At bytes (view.offset.toNat + 2)).toNat = totalLenAt bytes view :=
    toNat_be16At _ _
  have hlt := (lowNibble (bytes.get view.offset.toNat)).isLt
  obtain ⟨-, -, -, -, hheader, -⟩ := h
  have hoffset (x : BitVec 4) : view.offset + (x.setWidth 8 <<< 2).setWidth 11 =
      BitVec.ofNat 11 (view.offset.toNat + 4 * x.toNat) := by
    rw [← toNat_headerBytes, BitVec.ofNat_add, BitVec.ofNat_toNat, BitVec.ofNat_toNat,
      BitVec.setWidth_eq]
  have hbytes : (((lowNibble (bytes.get view.offset.toNat)).setWidth 8 <<< 2).setWidth 16).toNat =
      4 * ihlAt bytes view := by
    rw [BitVec.toNat_setWidth, toNat_headerBytes, Nat.mod_eq_of_lt (by omega), hihl]
  rw [hoffset, hihl, ← BitVec.ofNat_toNat,
    BitVec.toNat_sub_of_le (by rw [BitVec.le_def, hbytes, htotal]; exact hheader), hbytes, htotal]
  rfl

theorem udpPayload_eq (bytes : Buffer maxEthPayloadBytesInt) (view : PacketView)
    (h : UdpFits bytes view) :
    (⟨view.offset + udpHeaderBytes.setWidth 11,
        (be16At bytes (view.offset.toNat + 4) - udpHeaderBytes.setWidth 16).setWidth
          11⟩ : PacketView) = (udpViewAt bytes view).payloadView := by
  have hlength : (be16At bytes (view.offset.toNat + 4)).toNat = udpLenAt bytes view :=
    toNat_be16At _ _
  obtain ⟨-, hheader, -⟩ := h
  have hoffset : view.offset + udpHeaderBytes.setWidth 11 =
      BitVec.ofNat 11 (view.offset.toNat + 8) := by
    rw [BitVec.ofNat_add, BitVec.ofNat_toNat, BitVec.setWidth_eq]
    rfl
  have hbytes : (udpHeaderBytes.setWidth 16).toNat = 8 := rfl
  rw [hoffset, ← BitVec.ofNat_toNat,
    BitVec.toNat_sub_of_le (by rw [BitVec.le_def, hbytes, hlength]; exact hheader), hbytes, hlength]
  rfl

theorem Shows.ipv4 (h : Shows read bytes view.offset.toNat view.len.toNat)
    (hin : view.offset.toNat + view.len.toNat ≤ maxEthPayloadBytesInt) :
    readIpv4View read view =
      pure (if Ipv4Fits bytes view then ipv4ViewAt bytes view else .blank view) := by
  have hlen : view.len < ipv4HeaderBytes.setWidth 11 ↔ view.len.toNat < 20 := Iff.rfl
  unfold readIpv4View
  by_cases h20 : view.len.toNat < 20
  · have hshort : ¬ 20 ≤ view.len.toNat := by omega
    rw [if_pos (hlen.mpr h20), if_neg (fun hc => hshort hc.1)]
  · have hlong : 20 ≤ view.len.toNat := by omega
    have hword (k : BitVec 11) (hk : k.toNat + 2 ≤ 20) := h.headerWord hin k (by omega)
    have hdouble (k : BitVec 11) (hk : k.toNat + 4 ≤ 20) := h.headerDouble hin k (by omega)
    have htotal := hword 2 (by simp)
    have hflags := hword 6 (by simp)
    have hsrc := hdouble 12 (by simp)
    have hdst := hdouble 16 (by simp)
    have hrejected := ipv4Rejected_iff bytes view hlong
    simp only [if_neg (mt hlen.mp h20), h.byte (by omega), h 9 (by omega), htotal, hflags, hsrc,
      hdst, pure_bind]
    split_ifs with hbad hgood hgood
    · exact absurd hgood (hrejected.mp hbad)
    · rfl
    · exact congrArg (fun payload => pure (Ipv4View.mk true _ _ _ _ _ _ payload))
        (ipv4Payload_eq bytes view hgood)
    · exact absurd (hrejected.mpr hgood) hbad

theorem Shows.udp (h : Shows read bytes view.offset.toNat view.len.toNat)
    (hin : view.offset.toNat + view.len.toNat ≤ maxEthPayloadBytesInt) :
    readUdpView read view =
      pure (if UdpFits bytes view then udpViewAt bytes view else .blank view) := by
  have hlen : view.len < udpHeaderBytes.setWidth 11 ↔ view.len.toNat < 8 := Iff.rfl
  unfold readUdpView
  by_cases h8 : view.len.toNat < 8
  · have hshort : ¬ 8 ≤ view.len.toNat := by omega
    rw [if_pos (hlen.mpr h8), if_neg (fun hc => hshort hc.1)]
  · have hword (k : BitVec 11) (hk : k.toNat + 2 ≤ 8) := h.headerWord hin k (by omega)
    have hlength := hword 4 (by simp)
    have hsrc := hword 0 (by simp)
    have hdst := hword 2 (by simp)
    have hnat : (be16At bytes (view.offset.toNat + 4)).toNat = udpLenAt bytes view :=
      toNat_be16At _ _
    have hrejected : (decide (be16At bytes (view.offset.toNat + 4) < udpHeaderBytes.setWidth 16) ||
        decide (view.len.setWidth 16 < be16At bytes (view.offset.toNat + 4))) = true ↔
          ¬ UdpFits bytes view := by
      have hbytes : (udpHeaderBytes.setWidth 16).toNat = 8 := rfl
      simp only [Bool.or_eq_true, decide_eq_true_eq, BitVec.lt_def, BitVec.toNat_setWidth,
        Nat.mod_eq_of_lt (show view.len.toNat < 2 ^ 16 by omega), hnat, UdpFits]
      rw [← BitVec.toNat_setWidth, hbytes]
      omega
    simp only [if_neg (mt hlen.mp h8), hlength, hsrc, hdst, pure_bind]
    split_ifs with hbad hgood hgood
    · exact absurd hgood (hrejected.mp hbad)
    · rfl
    · exact congrArg (fun payload => pure (UdpView.mk true _ _ _ payload))
        (udpPayload_eq bytes view hgood)
    · exact absurd (hrejected.mpr hgood) hbad

end Parsers

theorem parseIpv4View_eq (bytes : Buffer maxEthPayloadBytesInt) {view : PacketView}
    (hin : view.offset.toNat + view.len.toNat ≤ maxEthPayloadBytesInt) :
    parseIpv4View bytes view =
      if Ipv4Fits bytes view then ipv4ViewAt bytes view else .blank view := by
  have h := (shows_arrayReader bytes view.offset.toNat view.len.toNat).ipv4 hin
  rw [parseIpv4View, h]
  rfl

theorem parseUdpView_eq (bytes : Buffer maxEthPayloadBytesInt) {view : PacketView}
    (hin : view.offset.toNat + view.len.toNat ≤ maxEthPayloadBytesInt) :
    parseUdpView bytes view = if UdpFits bytes view then udpViewAt bytes view else .blank view := by
  have h := (shows_arrayReader bytes view.offset.toNat view.len.toNat).udp hin
  rw [parseUdpView, h]
  rfl

end ArtyEthernet
