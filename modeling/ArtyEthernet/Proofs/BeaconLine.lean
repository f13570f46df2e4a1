import ArtyEthernet.Proofs.HostFrames

/-!
# The line of a beacon

The diagnostics text is a line of words, a word for each key and its value, so the host takes it
apart into the pairs it was put together from.
-/

namespace ArtyEthernet
open Words

/-- The counters of a request under the keys a beacon shows them with. -/
def ProtocolTxRequest.counters (r : ProtocolTxRequest) : List (List Char × BitVec 32) :=
  [("RX".toList, r.rxPacketCount), ("RXQ".toList, r.rxQueueDropCount),
    ("RXP".toList, r.rxProtocolDropCount), ("TXD".toList, r.txDropCount),
    ("ARP".toList, r.arpReplyCount), ("UDP".toList, r.udpReplyCount),
    ("UP".toList, r.uptimeBeaconCount)]

def hexChar (d : ℕ) : Char := Host.hexDigits.getD d '0'

def hexField (x : BitVec 32) : List Char := (Numerals.digits 16 8 x.toNat).map hexChar

theorem hexChar_mem : ∀ d < 16, hexChar d ∈ Host.hexDigits := by decide

theorem idxOf_hexChar : ∀ d < 16, Host.hexDigits.idxOf? (hexChar d) = some d := by decide

theorem mem_hexField {x : BitVec 32} {c : Char} (hc : c ∈ hexField x) : c ∈ Host.hexDigits := by
  obtain ⟨d, hd, rfl⟩ := List.mem_map.mp hc
  exact hexChar_mem d (Numerals.lt_of_mem_digits (by omega) hd)

theorem isHexField_hexField (x : BitVec 32) : Host.isHexField (hexField x) = true := by
  have hlen : (hexField x).length = 8 := by simp [hexField]
  have hall : ∀ c ∈ hexField x, c ∈ Host.hexDigits := fun _ hc => mem_hexField hc
  simpa [Host.isHexField, hlen] using hall

theorem read_hexField (x : BitVec 32) :
    Numerals.read (fun c => Host.hexDigits.idxOf? c) 16 (hexField x) = some x.toNat := by
  rw [hexField, Numerals.read_digits (by omega) idxOf_hexChar]
  exact congrArg some (Nat.mod_eq_of_lt x.isLt)

theorem decodeAscii_append (as bs : List Byte) :
    Host.decodeAscii (as ++ bs) = Host.decodeAscii as ++ Host.decodeAscii bs := by
  rw [Host.decodeAscii, List.filter_append, List.map_append]
  rfl

theorem decodeAscii_map {α : Type*} {byte : α → Byte} {char : α → Char} {as : List α}
    (h : ∀ a ∈ as, Host.decodeAscii [byte a] = [char a]) :
    Host.decodeAscii (as.map byte) = as.map char := by
  induction as with
  | nil => rfl
  | cons a as ih =>
    have ha := h a List.mem_cons_self
    have has := ih fun b hb => h b (List.mem_cons_of_mem a hb)
    rw [List.map_cons, ← List.singleton_append, decodeAscii_append, ha, has]
    rfl

theorem decodeAscii_hexDigitByte (v : BitVec 4) :
    Host.decodeAscii [hexDigitByte v] = [hexChar v.toNat] := by
  revert v
  decide

theorem decodeAscii_hexText (x : BitVec 32) : Host.decodeAscii (hexText 8 x) = hexField x := by
  rw [hexText, decodeAscii_map fun i _ => decodeAscii_hexDigitByte _, hexField, Numerals.digits,
    List.map_map]
  apply List.map_congr_left
  intro i _
  rw [BitVec.extractLsb'_toNat, Nat.shiftRight_eq_div_pow, Nat.pow_mul]
  rfl

theorem decodeAscii_text {cs : List Char} (h : ∀ c ∈ cs, c.toNat < 128) :
    Host.decodeAscii (text cs) = cs := by
  have hchar : ∀ c ∈ cs, Host.decodeAscii [ascii c] = [id c] := by
    intro c hc
    have hlt := h c hc
    have hnat : (ascii c).toNat = c.toNat := by
      rw [ascii, BitVec.toNat_ofNat, Nat.mod_eq_of_lt (by omega)]
    have hascii : ascii c < 128 := by
      rw [BitVec.lt_def, hnat]
      exact hlt
    have hkept : [ascii c].filter (· < 128) = [ascii c] :=
      List.filter_cons_of_pos (decide_eq_true hascii)
    rw [Host.decodeAscii, hkept, List.map_singleton, hnat, Char.ofNat_toNat, id]
  rw [text, decodeAscii_map hchar, List.map_id]

/-- ASCII without white space or equals signs. -/
def isPlain (c : Char) : Bool := decide (c.toNat < 128) && !Host.isSpace c && c != '='

def Plain (cs : List Char) : Prop :=
  ∀ c ∈ cs, c.toNat < 128 ∧ Host.isSpace c = false ∧ c ≠ '='

theorem plain_of_all {cs : List Char} (h : cs.all isPlain = true) : Plain cs := by
  intro c hc
  simpa [isPlain, and_assoc] using List.all_eq_true.mp h c hc

theorem plain_hexKeys {key : List Char} (h : key ∈ Host.hexKeys) : Plain key := by
  have hall : Host.hexKeys.all (fun key => key.all isPlain) = true := rfl
  exact plain_of_all (List.all_eq_true.mp hall key h)

theorem plain_hexDigits : Plain Host.hexDigits := plain_of_all rfl

/-- The pairs of the line of a request. -/
def beaconPairs (r : ProtocolTxRequest) : List (List Char × List Char) :=
  ("IP".toList, "192.168.001.100".toList) :: ("MAC".toList, "020000000001".toList) ::
    r.counters.map fun p => (p.1, hexField p.2)

section Line
variable (r : ProtocolTxRequest)

theorem counters_keys : r.counters.map Prod.fst = Host.hexKeys := rfl

theorem beaconPairs_keys : "ARTY".toList :: (beaconPairs r).map Prod.fst = Host.expectedKeys := rfl

variable {r} in
theorem key_mem {p : List Char × BitVec 32} (hp : p ∈ r.counters) : p.1 ∈ Host.hexKeys := by
  rw [← counters_keys r]
  exact List.mem_map_of_mem hp

theorem beaconPairs_plain : ∀ p ∈ beaconPairs r, Plain p.1 ∧ Plain p.2 := by
  intro p hp
  rcases List.mem_cons.mp hp with rfl | hp
  · exact ⟨plain_of_all rfl, plain_of_all rfl⟩
  rcases List.mem_cons.mp hp with rfl | hp
  · exact ⟨plain_of_all rfl, plain_of_all rfl⟩
  obtain ⟨q, hq, rfl⟩ := List.mem_map.mp hp
  exact ⟨plain_hexKeys (key_mem hq), fun c hc => plain_hexDigits c (mem_hexField hc)⟩

theorem beaconText_eq :
    beaconText r = text "ARTY IP=192.168.001.100 MAC=020000000001".toList ++
      r.counters.flatMap fun p => text (' ' :: p.1 ++ ['=']) ++ hexText 8 p.2 := by
  simp only [beaconText, ProtocolTxRequest.counters, List.flatMap_cons, List.flatMap_nil,
    List.append_nil, List.append_assoc]
  rfl

theorem decodeAscii_counter {p : List Char × BitVec 32} (hp : p.1 ∈ Host.hexKeys) :
    Host.decodeAscii (text (' ' :: p.1 ++ ['=']) ++ hexText 8 p.2) =
      ' ' :: TextFields.entry '=' (p.1, hexField p.2) := by
  have hkey : ∀ c ∈ ' ' :: p.1 ++ ['='], c.toNat < 128 := by
    intro c hc
    rw [List.mem_append, List.mem_cons, List.mem_singleton] at hc
    rcases hc with (rfl | hc) | rfl
    · decide
    · exact (plain_hexKeys hp c hc).1
    · decide
  rw [decodeAscii_append, decodeAscii_text hkey, decodeAscii_hexText, TextFields.entry]
  simp

theorem decodeAscii_beaconText :
    Host.decodeAscii (beaconText r) =
      "ARTY".toList ++ ((beaconPairs r).map (TextFields.entry '=')).flatMap (' ' :: ·) := by
  have hcounters : Host.decodeAscii
      (r.counters.flatMap fun p => text (' ' :: p.1 ++ ['=']) ++ hexText 8 p.2) =
        r.counters.flatMap fun p => ' ' :: TextFields.entry '=' (p.1, hexField p.2) := by
    rw [Host.decodeAscii, List.filter_flatMap, List.map_flatMap]
    exact List.flatMap_congr fun p hp => decodeAscii_counter (key_mem hp)
  have hfront : Host.decodeAscii (text "ARTY IP=192.168.001.100 MAC=020000000001".toList) =
      "ARTY IP=192.168.001.100 MAC=020000000001".toList := rfl
  rw [beaconText_eq, decodeAscii_append, hfront, hcounters, beaconPairs, List.map_cons,
    List.map_cons, List.map_map, List.flatMap_cons, List.flatMap_cons, List.flatMap_map]
  rfl

theorem beaconFields_beaconText :
    Host.beaconFields (beaconText r) =
      "ARTY".toList :: (beaconPairs r).map (TextFields.entry '=') := by
  rw [Host.beaconFields, decodeAscii_beaconText]
  apply TextFields.words_line rfl
  · have hplain : Plain "ARTY".toList := plain_of_all rfl
    exact ⟨by simp, fun c hc => (hplain c hc).2.1⟩
  · intro w hw
    obtain ⟨p, hp, rfl⟩ := List.mem_map.mp hw
    obtain ⟨hkey, hvalue⟩ := beaconPairs_plain r p hp
    refine ⟨by simp [TextFields.entry], fun c hc => ?_⟩
    rw [TextFields.entry, List.mem_append, List.mem_cons] at hc
    rcases hc with hc | rfl | hc
    · exact (hkey c hc).2.1
    · rfl
    · exact (hvalue c hc).2.1

theorem beaconPairs_nodup : ((beaconPairs r).map Prod.fst).Nodup := by
  have hall : Host.expectedKeys.Nodup := by decide
  rw [← beaconPairs_keys r] at hall
  exact (List.nodup_cons.mp hall).2

theorem beaconValues_beaconText :
    Host.beaconValues (Host.beaconFields (beaconText r)) = some (beaconPairs r) := by
  rw [beaconFields_beaconText]
  apply TextFields.record_entries _ (beaconPairs_nodup r)
  intro p hp hmark
  exact ((beaconPairs_plain r p hp).1 '=' hmark).2.2 rfl

theorem lookup_counter {p : List Char × BitVec 32} (hp : p ∈ r.counters) :
    (beaconPairs r).lookup p.1 = some (hexField p.2) := by
  apply TextFields.lookup_of_mem (beaconPairs_nodup r)
  exact List.mem_cons_of_mem _ (List.mem_cons_of_mem _ (List.mem_map_of_mem hp))

theorem isBeaconPayload_beaconText : Host.isBeaconPayload (beaconText r) = true := by
  have hprefix : Host.artyBeaconPrefix.isPrefixOf (beaconText r) = true := by
    have hsplit : Host.artyBeaconPrefix =
        text "ARTY IP=192.168.001.100 MAC=020000000001".toList ++ [ascii ' '] := rfl
    rw [List.isPrefixOf_iff_prefix, beaconText_eq, hsplit, List.prefix_append_right_inj]
    simp [ProtocolTxRequest.counters, text]
  have hkeys : ∀ key ∈ Host.hexKeys, ((beaconPairs r).lookup key).any Host.isHexField = true := by
    intro key hkey
    rw [← counters_keys r] at hkey
    obtain ⟨p, hp, rfl⟩ := List.mem_map.mp hkey
    rw [lookup_counter r hp]
    exact isHexField_hexField p.2
  have hcount : ¬ ((Host.beaconFields (beaconText r)).length ≠ Host.expectedKeys.length ∨
      (Host.beaconFields (beaconText r)).head? ≠ some "ARTY".toList) := by
    rw [beaconFields_beaconText, ← beaconPairs_keys r]
    simp
  have haddress : ¬ ((beaconPairs r).lookup "IP".toList ≠ some "192.168.001.100".toList ∨
      (beaconPairs r).lookup "MAC".toList ≠ some "020000000001".toList) := by
    have hip : ("IP".toList, "192.168.001.100".toList) ∈ beaconPairs r := List.mem_cons_self
    have hmac : ("MAC".toList, "020000000001".toList) ∈ beaconPairs r :=
      List.mem_cons_of_mem _ List.mem_cons_self
    rintro (h | h)
    · exact h (TextFields.lookup_of_mem (beaconPairs_nodup r) hip)
    · exact h (TextFields.lookup_of_mem (beaconPairs_nodup r) hmac)
  simp only [Host.isBeaconPayload, hprefix, Bool.not_true, Bool.false_eq_true, if_false,
    if_neg hcount, beaconValues_beaconText, beaconPairs_keys, ne_eq, not_true, if_neg haddress]
  exact List.all_eq_true.mpr hkeys

theorem readHexField_beaconText {p : List Char × BitVec 32} (hp : p ∈ r.counters) :
    Host.readHexField (beaconText r) p.1 = some p.2.toNat := by
  simp only [Host.readHexField, beaconValues_beaconText, Option.bind_eq_bind, Option.bind_some,
    lookup_counter r hp, read_hexField]

theorem counters_eq_read :
    r.counters = Host.hexKeys.map fun key =>
      (key, BitVec.ofNat 32 ((Host.readHexField (beaconText r) key).getD 0)) := by
  have hread : ∀ p ∈ r.counters,
      p = (p.1, BitVec.ofNat 32 ((Host.readHexField (beaconText r) p.1).getD 0)) := by
    intro p hp
    rw [readHexField_beaconText r hp, Option.getD_some, BitVec.ofNat_toNat, BitVec.setWidth_eq]
  conv_lhs => rw [← List.map_id r.counters]
  rw [← counters_keys r, List.map_map]
  exact List.map_congr_left hread

end Line

theorem hexDigitByte_ne_zero (v : BitVec 4) : hexDigitByte v ≠ 0#8 := by
  revert v
  decide

theorem hexText_snoc {w : ℕ} (n : ℕ) (x : BitVec w) :
    ∃ front, hexText (n + 1) x = front ++ [hexDigitByte (x.extractLsb' 0 4)] := by
  rw [hexText, List.range_succ, List.map_append, List.map_singleton, Nat.add_sub_cancel,
    Nat.sub_self]
  exact ⟨_, rfl⟩

/-- A beacon ends in a digit, so the host removes nothing. -/
theorem rstripZeros_beaconText (r : ProtocolTxRequest) :
    Host.rstripZeros (beaconText r) = beaconText r := by
  obtain ⟨front, hfront⟩ := hexText_snoc 7 r.uptimeBeaconCount
  rw [beaconText, hfront]
  simp only [← List.append_assoc]
  exact Host.rstripZeros_snoc _ (hexDigitByte_ne_zero _)

end ArtyEthernet
