import ArtyEthernet.Model.HostSender
import ArtyEthernet.Proofs.HostFrames

/-!
# Addresses and frames as the host writes them

An octet is read back from its text, and so are the addresses put together of octets.
-/

namespace ArtyEthernet.Host
open Words

theorem digitValue_digitChar {b d : ℕ} (hb : b ≤ 16) (hd : d < b) :
    digitValue b d.digitChar = some d := by
  have hindex : ∀ d < 16, digitSymbols.idxOf? (d.digitChar).toLower = some d := by decide
  rw [digitValue, hindex d (by omega), Option.filter_some, if_pos (decide_eq_true hd)]

theorem digitValue_symbol {d : ℕ} (hd : d < 16) :
    digitValue 16 (digitSymbols.getD d '0') = some d := by
  have hsymbol : ∀ d < 16, digitSymbols.getD d '0' = d.digitChar := by decide
  rw [hsymbol d hd, digitValue_digitChar le_rfl hd]

theorem hexText_octet (b : Byte) : ∃ hi lo : ℕ, hi < 16 ∧ lo < 16 ∧
    hexText 2 b.toNat = [digitSymbols.getD hi '0', digitSymbols.getD lo '0'] :=
  ⟨b.toNat / 16 % 16, b.toNat % 16, Nat.mod_lt _ (by omega), Nat.mod_lt _ (by omega), by
    simp [hexText, Numerals.digits, List.range_succ]⟩

theorem intBase16_octet (data : CharacterData) {hi lo : ℕ} (hhi : hi < 16) (hlo : lo < 16) :
    intBase16 data [digitSymbols.getD hi '0', digitSymbols.getD lo '0'] =
      (Numerals.read (digitValue 16) 16
        [digitSymbols.getD hi '0', digitSymbols.getD lo '0']).map fun n : ℕ => (n : ℤ) := by
  have hascii : ∀ hi < 16, ∀ lo < 16, [digitSymbols.getD hi '0', digitSymbols.getD lo '0'].all
      (·.toNat < 128) = true := by decide
  have hplain : ∀ hi < 16, ∀ lo < 16,
      readBase16 [digitSymbols.getD hi '0', digitSymbols.getD lo '0'] =
        (Numerals.read (digitValue 16) 16
          [digitSymbols.getD hi '0', digitSymbols.getD lo '0']).map fun n : ℕ => (n : ℤ) := by
    decide
  rw [intBase16, if_pos (hascii hi hhi lo hlo), hplain hi hhi lo hlo]

theorem parseOctet_hexText (data : CharacterData) (b : Byte) :
    parseOctet data (hexText 2 b.toNat) = .ok b := by
  obtain ⟨hi, lo, hhi, hlo, htext⟩ := hexText_octet b
  have hvalue : Numerals.read (digitValue 16) 16 (hexText 2 b.toNat) = some b.toNat := by
    have hread := Numerals.read_digits (b := 16) (by omega)
      (fun d hd => digitValue_symbol hd) 2 b.toNat
    rwa [Nat.mod_eq_of_lt (by simpa using b.isLt)] at hread
  have hlt := b.isLt
  rw [parseOctet, htext, intBase16_octet data hhi hlo, ← htext, hvalue]
  have hrange : (0 : ℤ) ≤ (b.toNat : ℤ) ∧ (b.toNat : ℤ) < 256 := by omega
  simp only [Option.map_some]
  rw [if_pos hrange, BitVec.ofInt_natCast, BitVec.ofNat_toNat, BitVec.setWidth_eq]

theorem colon_not_mem_hexText (b : Byte) : ':' ∉ hexText 2 b.toNat := by
  obtain ⟨hi, lo, hhi, hlo, htext⟩ := hexText_octet b
  have hsymbol : ∀ d < 16, ':' ≠ digitSymbols.getD d '0' := by decide
  rw [htext, List.mem_cons, List.mem_singleton]
  exact not_or_intro (hsymbol hi hhi) (hsymbol lo hlo)

theorem parseMac_macText (data : CharacterData) (mac : List Byte) (h : mac.length = 6) :
    parseMac data (macText mac) = .ok mac := by
  have hne : mac.map (fun octet => hexText 2 octet.toNat) ≠ [] := by
    intro hnil
    rw [List.map_eq_nil_iff.mp hnil] at h
    contradiction
  have hcolon : ∀ part ∈ mac.map (fun octet => hexText 2 octet.toNat), ':' ∉ part := by
    intro part hpart
    obtain ⟨b, -, rfl⟩ := List.mem_map.mp hpart
    exact colon_not_mem_hexText b
  have hparts : (macText mac).splitOn ':' = mac.map fun octet => hexText 2 octet.toNat :=
    List.splitOn_intercalate ':' hcolon hne
  have hitems : ∀ bs : List Byte,
      (bs.map fun octet => hexText 2 octet.toNat).mapM (parseOctet data) = .ok bs := by
    intro bs
    induction bs with
    | nil => rfl
    | cons b bs ih =>
      rw [List.map_cons, List.mapM_cons, parseOctet_hexText, ih]
      rfl
  simp only [parseMac, hparts, List.length_map, h]
  exact hitems mac

theorem isDigit_toDigits {n : ℕ} : ∀ c ∈ Nat.toDigits 10 n, (digitValue 10 c).isSome = true := by
  intro c hc
  obtain ⟨d, hd, rfl⟩ := Numerals.mem_toDigits (by omega) hc
  rw [digitValue_digitChar (by omega) hd]
  rfl

theorem strtoul_decimal {c : Char} (hc : c ≠ '0') (cs : List Char) :
    strtoul (c :: cs) =
      ((Numerals.read (digitValue 10) 10
          ((c :: cs).takeWhile fun c => (digitValue 10 c).isSome)).getD 0,
        (c :: cs).dropWhile fun c => (digitValue 10 c).isSome) := by
  unfold strtoul
  split
  · next b body hmatch =>
    split at hmatch
    · next heq => exact absurd (List.cons.inj heq).1 hc
    · next heq => exact absurd (List.cons.inj heq).1 hc
    · cases hmatch
      rfl

theorem strtoul_toDigits (n : ℕ) (rest : List Char)
    (hrest : rest = [] ∨ ∃ more, rest = '.' :: more) :
    strtoul (Nat.toDigits 10 n ++ rest) = (n, rest) := by
  rcases Nat.eq_zero_or_pos n with rfl | hpos
  · rw [Nat.toDigits_zero]
    rcases hrest with rfl | ⟨more, rfl⟩
    · decide
    · rfl
  · obtain ⟨d, cs, hd, hlt, htext⟩ := Numerals.toDigits_pos (b := 10) (by omega) hpos
    have hfirst : d.digitChar ≠ '0' := by
      have hall : ∀ d < 10, 0 < d → d.digitChar ≠ '0' := by decide
      exact hall d hlt hd
    have hstop : rest.takeWhile (fun c => (digitValue 10 c).isSome) = [] ∧
        rest.dropWhile (fun c => (digitValue 10 c).isSome) = rest := by
      rcases hrest with rfl | ⟨more, rfl⟩ <;> exact ⟨rfl, rfl⟩
    have hread := Numerals.read_toDigits (b := 10) (by omega)
      (fun d hd => digitValue_digitChar (by omega) hd) n
    have hdecimal := strtoul_decimal hfirst (cs ++ rest)
    rw [← List.cons_append, ← htext, List.takeWhile_append_of_pos isDigit_toDigits,
      List.dropWhile_append_of_pos isDigit_toDigits, hstop.1, hstop.2, List.append_nil, hread]
      at hdecimal
    exact hdecimal

theorem head_toDigits (n : ℕ) (rest : List Char) :
    ((Nat.toDigits 10 n ++ rest).head?.bind (digitValue 10)).isNone = false := by
  obtain ⟨c, cs, htext⟩ := List.exists_cons_of_ne_nil (Nat.toDigits_ne_nil (n := n) (b := 10))
  have hdigit := isDigit_toDigits (n := n) c (by rw [htext]; exact List.mem_cons_self)
  rw [htext, List.cons_append, List.head?_cons, Option.bind_some, ← Option.not_isSome, hdigit]
  rfl

theorem inetAtonFrom_part (n : ℕ) (b : Byte) (cs : List Char) :
    inetAtonFrom (n + 2) (Nat.toDigits 10 b.toNat ++ '.' :: cs) =
      (inetAtonFrom (n + 1) cs).map (b :: ·) := by
  have hlt := b.isLt
  have hnum := strtoul_toDigits b.toNat ('.' :: cs) (Or.inr ⟨cs, rfl⟩)
  rw [inetAtonFrom, head_toDigits, hnum]
  simp only [Bool.false_eq_true, if_false]
  rw [if_neg (by omega), if_neg (by omega), BitVec.ofNat_toNat, BitVec.setWidth_eq]

theorem inetAtonFrom_last (b : Byte) : inetAtonFrom 1 (Nat.toDigits 10 b.toNat) = some [b] := by
  have hlt := b.isLt
  have hnum := strtoul_toDigits b.toNat [] (Or.inl rfl)
  have hhead := head_toDigits b.toNat []
  have hbyte : toBytes 1 (BitVec.ofNat 32 b.toNat) = [b] := by
    have hlane : lane (BitVec.ofNat 32 b.toNat) 0 = b := by
      apply BitVec.eq_of_toNat_eq
      simp only [lane, BitVec.extractLsb'_toNat, BitVec.toNat_ofNat]
      omega
    exact congrArg (fun c => [c]) hlane
  rw [List.append_nil] at hnum hhead
  rw [inetAtonFrom, hhead, hnum]
  simp only [Bool.false_eq_true, if_false]
  rw [if_neg (by omega), if_pos (by omega), hbyte]

theorem nul_not_mem_toDigits (n : ℕ) : nul ∉ Nat.toDigits 10 n := by
  intro hmem
  have hdigit := isDigit_toDigits nul hmem
  revert hdigit
  decide

/-- Dotted decimals are an address. -/
theorem inetAton_inetNtoa (octets : List Byte) (h : octets.length = 4) :
    inetAton (inetNtoa octets) = .ok octets := by
  obtain ⟨a, b, c, d, rfl⟩ : ∃ a b c d, octets = [a, b, c, d] := by
    match octets, h with
    | [a, b, c, d], _ => exact ⟨a, b, c, d, rfl⟩
  have htext : inetNtoa [a, b, c, d] =
      Nat.toDigits 10 a.toNat ++ '.' :: (Nat.toDigits 10 b.toNat ++ '.' ::
        (Nat.toDigits 10 c.toNat ++ '.' :: Nat.toDigits 10 d.toNat)) := by
    simp [inetNtoa, List.intercalate]
  have hdot : nul ≠ '.' := by decide
  have hnul : nul ∉ inetNtoa [a, b, c, d] := by
    rw [htext]
    simp only [List.mem_append, List.mem_cons, nul_not_mem_toDigits, hdot, or_self,
      not_false_eq_true]
  rw [inetAton, if_neg hnul, htext, inetAtonFrom_part, inetAtonFrom_part, inetAtonFrom_part,
    inetAtonFrom_last]
  rfl

theorem packedText_eq_ok {packed : List Byte} {text : List Char} :
    packedText packed = .ok text ↔ packed.length = 4 ∧ inetNtoa packed = text := by
  rw [packedText]
  split_ifs with h
  · exact ⟨False.elim, fun hlen => absurd hlen.1 h⟩
  · rw [Except.ok.injEq, and_iff_right (not_not.mp h)]

theorem length_inetAtonFrom {n : ℕ} {cs : List Char} {octets : List Byte}
    (h : inetAtonFrom n cs = some octets) : octets.length = n := by
  induction n generalizing cs octets with
  | zero => cases h
  | succ n ih =>
    rw [inetAtonFrom] at h
    generalize strtoul cs = number at h
    obtain ⟨val, rest⟩ := number
    dsimp only at h
    split at h
    · cases h
    split at h
    · cases h
    split at h
    · split at h
      · cases h
      · obtain ⟨octets, hrest, rfl⟩ := Option.map_eq_some_iff.mp h
        rw [List.length_cons, ih hrest]
    · split at h
      · rw [← Option.some.inj h, length_toBytes]
      · cases h
    · split at h
      · rw [← Option.some.inj h, length_toBytes]
      · cases h

theorem length_inetAton {ip : List Char} {octets : List Byte} (h : inetAton ip = .ok octets) :
    octets.length = 4 := by
  rw [inetAton] at h
  split_ifs at h
  split at h
  · cases h
  · next hfrom => exact Except.ok.inj h ▸ length_inetAtonFrom hfrom

theorem length_parseMac {data : CharacterData} {text : List Char} {mac : List Byte}
    (h : parseMac data text = .ok mac) : mac.length = 6 := by
  have hitems : ∀ (parts : List (List Char)) (bs : List Byte),
      parts.mapM (parseOctet data) = .ok bs → bs.length = parts.length := by
    intro parts
    induction parts with
    | nil => rintro bs ⟨⟩; rfl
    | cons part parts ih =>
      intro bs hbs
      rw [List.mapM_cons] at hbs
      cases hpart : parseOctet data part with
      | error e => rw [hpart] at hbs; cases hbs
      | ok b =>
        cases hrest : parts.mapM (parseOctet data) with
        | error e => rw [hpart, hrest] at hbs; cases hbs
        | ok rest =>
          rw [hpart, hrest] at hbs
          cases hbs
          rw [List.length_cons, List.length_cons, ih rest hrest]
  simp only [parseMac] at h
  split_ifs at h with hparts
  rw [hitems _ _ h, not_not.mp hparts]

/-- The host pads as the endpoint does. -/
theorem buildFrame_header (header : EthHeader) (payload : List Byte) :
    buildFrame (toBytes 6 header.dstMac) (toBytes 6 header.srcMac) payload header.ethertype =
      padBody (header.toBytes ++ payload) := by
  have hpad : minBody - (header.toBytes ++ payload).length = minEthPayload - payload.length := by
    simp only [List.length_append, EthHeader.length_toBytes, minBody, minEthPayload]
    omega
  rw [buildFrame, padBody, hpad]
  split_ifs with hshort
  · exact (List.append_assoc _ _ _).symm
  · rw [show minEthPayload - payload.length = 0 by omega]
    exact (List.append_nil _).symm

section Frames
variable {dst src : List Byte} (hdst : dst.length = 6) (hsrc : src.length = 6)
include hdst hsrc

theorem buildFrame_eq (payload : List Byte) (ethertype : BitVec 16) :
    buildFrame dst src payload ethertype =
      padBody ((EthHeader.mk (ofBytes 48 dst) (ofBytes 48 src) ethertype).toBytes ++ payload) := by
  rw [← buildFrame_header, ← hdst, toBytes_ofBytes dst (by omega), hdst, ← hsrc,
    toBytes_ofBytes src (by omega)]

/-- Built and parsed, a frame keeps its payload up to the last byte that is not zero. -/
theorem parseFrame_buildFrame (payload : List Byte) (ethertype : BitVec 16) :
    parseFrame (buildFrame dst src payload ethertype) = .ok {
      dstMac := dst
      srcMac := src
      ethertype
      payload := rstripZeros payload
      raw := buildFrame dst src payload ethertype } := by
  rw [buildFrame_eq hdst hsrc, padBody, List.append_assoc, parseFrame_header, rstripZeros_padding,
    ← hdst, toBytes_ofBytes dst (by omega), hdst, ← hsrc, toBytes_ofBytes src (by omega)]

end Frames

theorem length_buildFrame {dst src : List Byte} (hdst : dst.length = 6) (hsrc : src.length = 6)
    (payload : List Byte) (ethertype : BitVec 16) :
    (buildFrame dst src payload ethertype).length = 14 + max payload.length 46 := by
  rw [buildFrame_eq hdst hsrc, length_padBody, List.length_append, EthHeader.length_toBytes,
    minBody]
  omega

section ArpRequest
variable {mac sip tip : List Byte} {srcIp targetIp : List Char}

theorem buildArpRequest_eq (hmac : mac.length = 6) (hsip : inetAton srcIp = .ok sip)
    (htip : inetAton targetIp = .ok tip) :
    buildArpRequest mac srcIp targetIp = .ok (buildFrame broadcastMac mac
      (arpPayload 1 (ofBytes 48 mac) (ofBytes 32 sip) 0 (ofBytes 32 tip)) arpEthertype) := by
  have hsiplen := length_inetAton hsip
  have htiplen := length_inetAton htip
  have hmacs : toBytes 6 (ofBytes 48 mac) = mac := hmac ▸ toBytes_ofBytes mac (by omega)
  have hsips : toBytes 4 (ofBytes 32 sip) = sip := hsiplen ▸ toBytes_ofBytes sip (by omega)
  have htips : toBytes 4 (ofBytes 32 tip) = tip := htiplen ▸ toBytes_ofBytes tip (by omega)
  rw [buildArpRequest, hsip, htip, arpPayload, hmacs, hsips, htips]
  rfl

/-- Nothing is built from a text that is no address: its error is passed on. -/
theorem buildArpRequest_error {e : String}
    (h : inetAton srcIp = .error e ∨
      (∃ sip, inetAton srcIp = .ok sip) ∧ inetAton targetIp = .error e) :
    buildArpRequest mac srcIp targetIp = .error e := by
  rw [buildArpRequest]
  rcases h with hsip | ⟨⟨sip, hsip⟩, htip⟩
  · rw [hsip]
    rfl
  · rw [hsip, htip]
    rfl

end ArpRequest

end ArtyEthernet.Host
