import ArtyEthernet.Library.MaximalRuns
import ArtyEthernet.Model.Mii
import ArtyEthernet.Model.PacketQueue
import ArtyEthernet.Model.ProtocolHelpers
import Mathlib.Data.List.TakeWhile

/-!
# What a receive burst means

The bytes of a burst, the data bytes left after an optional preamble, and the packet they stand
for. None of this mentions the parser: it is what the receive path is meant to compute.
-/

namespace ArtyEthernet
open Words

/-- The data bytes: the leading `0x55` run is removed, and then one `0xd5` if that run was
nonempty. -/
def dataBytes (bs : List Byte) : List Byte :=
  let rest := bs.dropWhile (· == 0x55#8)
  if bs.head? = some 0x55#8 ∧ rest.head? = some 0xd5#8 then rest.tail else rest

def Preambular (bs : List Byte) : Prop := ∀ b ∈ bs, b = 0x55#8

/-- The search for the first data byte is over. -/
def Synced (bs : List Byte) : Prop := ¬ Preambular bs

theorem preambular_nil : Preambular [] := by simp [Preambular]

theorem preambular_snoc (bs : List Byte) (b : Byte) :
    Preambular (bs ++ [b]) ↔ Preambular bs ∧ b = 0x55#8 := by
  constructor
  · intro h
    exact ⟨fun a ha => h a (by simp [ha]), h b (by simp)⟩
  · rintro ⟨h, rfl⟩ a ha
    rcases List.mem_append.mp ha with hold | hnew
    · exact h a hold
    · exact List.mem_singleton.mp hnew

theorem synced_snoc (bs : List Byte) {b : Byte} (hb : b ≠ 0x55#8) : Synced (bs ++ [b]) :=
  fun h => hb ((preambular_snoc bs b).mp h).2

theorem sfd_ne_preamble : 0xd5#8 ≠ 0x55#8 := by simp

theorem dropWhile_eq_nil {bs : List Byte} :
    bs.dropWhile (· == 0x55#8) = [] ↔ Preambular bs := by
  simp [List.dropWhile_eq_nil_iff, Preambular]

theorem dataBytes_preambular {bs : List Byte} (h : Preambular bs) : dataBytes bs = [] := by
  simp [dataBytes, dropWhile_eq_nil.mpr h]

theorem dropWhile_snoc_preambular {bs : List Byte} (h : Preambular bs) {b : Byte}
    (hb : b ≠ 0x55#8) : (bs ++ [b]).dropWhile (· == 0x55#8) = [b] := by
  rw [List.dropWhile_append, dropWhile_eq_nil.mpr h]
  simpa using hb

theorem dataBytes_snoc_sfd {bs : List Byte} (h : Preambular bs) (hne : bs ≠ []) :
    dataBytes (bs ++ [0xd5#8]) = [] := by
  obtain ⟨a, rest, rfl⟩ := List.exists_cons_of_ne_nil hne
  have ha : a = 0x55#8 := h a (by simp)
  simp only [dataBytes, dropWhile_snoc_preambular h sfd_ne_preamble]
  simp [ha]

theorem dataBytes_snoc_first {bs : List Byte} (h : Preambular bs) {b : Byte} (hb : b ≠ 0x55#8)
    (hsfd : bs = [] ∨ b ≠ 0xd5#8) : dataBytes (bs ++ [b]) = [b] := by
  simp only [dataBytes, dropWhile_snoc_preambular h hb, List.head?_cons, Option.some.injEq]
  rw [if_neg]
  rintro ⟨h55, hd5⟩
  rcases hsfd with rfl | hne
  · exact hb (by simpa using h55)
  · exact hne hd5

theorem dataBytes_snoc_synced {bs : List Byte} (h : Synced bs) (b : Byte) :
    dataBytes (bs ++ [b]) = dataBytes bs ++ [b] := by
  obtain ⟨c, rest, hc⟩ := List.exists_cons_of_ne_nil (mt dropWhile_eq_nil.mp h)
  have hbs : bs ≠ [] := by
    rintro rfl
    exact h preambular_nil
  have hhead : (bs ++ [b]).head? = bs.head? := by
    obtain ⟨a, tail, rfl⟩ := List.exists_cons_of_ne_nil hbs
    rfl
  have hdrop : (bs ++ [b]).dropWhile (· == 0x55#8) = c :: rest ++ [b] := by
    rw [List.dropWhile_append, hc]
    rfl
  simp only [dataBytes, hhead, hdrop, hc, List.cons_append, List.head?_cons, List.tail_cons]
  split_ifs <;> rfl

theorem dataBytes_append_synced {bs : List Byte} (h : Synced bs) (more : List Byte) :
    dataBytes (bs ++ more) = dataBytes bs ++ more := by
  induction more using List.reverseRecOn with
  | nil => simp
  | append_singleton more b ih =>
    have hs : Synced (bs ++ more) := fun hp => h fun a ha => hp a (by simp [ha])
    rw [← List.append_assoc, dataBytes_snoc_synced hs, ih, List.append_assoc]

/-- Any nonempty preamble and its delimiter are removed, whatever follows. -/
theorem dataBytes_preamble (k : ℕ) (data : List Byte) :
    dataBytes (List.replicate (k + 1) 0x55#8 ++ 0xd5#8 :: data) = data := by
  have hp : Preambular (List.replicate (k + 1) 0x55#8) := by
    intro b hb
    exact (List.mem_replicate.mp hb).2
  have hsync : Synced (List.replicate (k + 1) 0x55#8 ++ [0xd5#8]) := synced_snoc _ sfd_ne_preamble
  have hsplit : List.replicate (k + 1) 0x55#8 ++ 0xd5#8 :: data =
      List.replicate (k + 1) 0x55#8 ++ [0xd5#8] ++ data := by simp
  rw [hsplit, dataBytes_append_synced hsync, dataBytes_snoc_sfd hp (by simp), List.nil_append]

theorem length_dataBytes_le (bs : List Byte) : (dataBytes bs).length ≤ bs.length := by
  have hdrop : (bs.dropWhile (· == 0x55#8)).length ≤ bs.length :=
    (List.dropWhile_suffix _).length_le
  simp only [dataBytes]
  split_ifs
  · rw [List.length_tail]
    omega
  · exact hdrop

def EthHeader.byteAt (header : EthHeader) (k : ℕ) : Byte :=
  if k < 6 then lane header.dstMac (5 - k)
  else if k < 12 then lane header.srcMac (11 - k)
  else lane header.ethertype (13 - k)

def EthHeader.ofBytes (bs : List Byte) : EthHeader where
  dstMac := Words.ofBytes 48 (bs.take 6)
  srcMac := Words.ofBytes 48 ((bs.drop 6).take 6)
  ethertype := Words.ofBytes 16 ((bs.drop 12).take 2)

theorem EthHeader.ext_byteAt {a b : EthHeader} (h : ∀ k < 14, a.byteAt k = b.byteAt k) : a = b := by
  obtain ⟨ad, as, ae⟩ := a
  obtain ⟨bd, bs, be⟩ := b
  have hd : ad = bd := by
    apply ext_lanes (n := 6) rfl
    intro k hk
    have hb := h (5 - k) (by omega)
    simpa [byteAt, show 5 - k < 6 by omega, show 5 - (5 - k) = k by omega] using hb
  have hs : as = bs := by
    apply ext_lanes (n := 6) rfl
    intro k hk
    have hb := h (11 - k) (by omega)
    simpa [byteAt, show ¬ 11 - k < 6 by omega, show 11 - k < 12 by omega,
      show 11 - (11 - k) = k by omega] using hb
  have he : ae = be := by
    apply ext_lanes (n := 2) rfl
    intro k hk
    have hb := h (13 - k) (by omega)
    simpa [byteAt, show ¬ 13 - k < 6 by omega, show ¬ 13 - k < 12 by omega,
      show 13 - (13 - k) = k by omega] using hb
  rw [hd, hs, he]

theorem EthHeader.byteAt_ofBytes {bs : List Byte} (hlen : 14 ≤ bs.length) {k : ℕ} (hk : k < 14) :
    (EthHeader.ofBytes bs).byteAt k = bs[k] := by
  by_cases h6 : k < 6
  · simp only [byteAt, if_pos h6, ofBytes]
    rw [lane_ofBytes _ _ (by simp; omega) (by omega), List.getElem_take]
    congr 1
    simp
    omega
  · by_cases h12 : k < 12
    · simp only [byteAt, if_neg h6, if_pos h12, ofBytes]
      rw [lane_ofBytes _ _ (by simp; omega) (by omega), List.getElem_take, List.getElem_drop]
      congr 1
      simp
      omega
    · simp only [byteAt, if_neg h6, if_neg h12, ofBytes]
      rw [lane_ofBytes _ _ (by simp; omega) (by omega), List.getElem_take, List.getElem_drop]
      congr 1
      simp
      omega

/-- The data byte last counted as header byte `k`. The byte counter has sixteen bits, so every
65536 data bytes another fourteen are taken for a header. -/
def headerByte (data : List Byte) (k : ℕ) : Byte :=
  data.getD (k + 65536 * ((data.length - 1 - k) / 65536)) 0

def headerBytes (data : List Byte) : List Byte := (List.range 14).map (headerByte data)

theorem headerBytes_eq_take {data : List Byte} (hmin : 14 ≤ data.length)
    (hmax : data.length < 65536) : headerBytes data = data.take 14 := by
  apply List.ext_getElem
  · simp [headerBytes]
    omega
  · intro k h1 h2
    have hk : k < 14 := by simpa [headerBytes] using h1
    have hdiv : (data.length - 1 - k) / 65536 = 0 := by omega
    simp [headerBytes, headerByte, hdiv, show k < data.length by omega]

structure Packet where
  header : EthHeader
  payload : List Byte
  truncated : Bool
deriving DecidableEq, Repr

/-- The packet made of the data bytes of a burst, without its last four bytes. -/
def capturedPacket (data : List Byte) : Packet where
  header := .ofBytes (headerBytes data)
  payload := (data.drop 14).take (min 1500 (data.length - 18))
  truncated := decide (1500 < data.length - 18)

def slotPacket (slot : RxPacketMeta × Buffer maxEthPayloadBytesInt) : Packet where
  header := slot.1.header
  payload := (List.range slot.1.payloadLen.toNat).map slot.2.get
  truncated := slot.1.truncated

@[simp] theorem length_slotPacket_payload
    (slot : RxPacketMeta × Buffer maxEthPayloadBytesInt) :
    (slotPacket slot).payload.length = slot.1.payloadLen.toNat := by
  simp [slotPacket]

abbrev RxBurst := MaximalRuns.Burst RxPins

/-- The completed receive bursts of an input sequence. -/
def rxBursts (inputs : List RxPins) : List RxBurst := MaximalRuns.bursts RxPins.ethRxDv inputs

/-- The burst still being received. -/
def rxPending (inputs : List RxPins) : List RxPins := MaximalRuns.pending RxPins.ethRxDv inputs

def pinBytes (pins : List RxPins) : List Byte := pairNibbles (pins.map RxPins.ethRxd)

def burstData (r : RxBurst) : List Byte := dataBytes (pinBytes r.body)

/-- No receive error on the burst and on the first idle cycle after it. -/
def burstClean (r : RxBurst) : Bool := r.body.all (!·.ethRxerr) && !r.stop.ethRxerr

/-- The packet the receive path makes of a burst. -/
def burstPacket (r : RxBurst) : Option Packet :=
  if 18 ≤ (burstData r).length % 65536 ∧ burstClean r = true then
    some (capturedPacket (burstData r))
  else none

end ArtyEthernet
