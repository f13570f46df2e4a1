import ArtyEthernet.Model.RxQueue
import ArtyEthernet.Proofs.FrameData
import Mathlib.Data.List.GetD
import Mathlib.Tactic.IntervalCases

/-!
# The parser after any number of bytes

`DataAt data` describes the parser once `data` has been consumed past the preamble, and
`ParserAt bs` once the bytes `bs` of a burst have been assembled. Both are preserved by one more
byte, so the frame reported at the end of a burst is the packet of the burst.
-/

namespace ArtyEthernet
open Words

theorem getD_snoc_lt {xs : List Byte} {i : ℕ} (hi : i < xs.length) (b : Byte) :
    (xs ++ [b]).getD i 0 = xs.getD i 0 :=
  List.getD_append xs [b] 0 i hi

theorem getD_snoc_length (xs : List Byte) (b : Byte) {i : ℕ} (hi : i = xs.length) :
    (xs ++ [b]).getD i 0 = b := by
  simp [List.getD, hi]

theorem headerByte_snoc (data : List Byte) (b : Byte) {k : ℕ} (hk : k < 14) :
    headerByte (data ++ [b]) k =
      if data.length % 65536 = k then b else headerByte data k := by
  unfold headerByte
  rw [List.length_append, List.length_singleton, Nat.add_sub_cancel]
  by_cases hmod : data.length % 65536 = k
  · rw [if_pos hmod, getD_snoc_length _ _ (by omega)]
  · rw [if_neg hmod]
    by_cases hlt : k < data.length
    · have hdiv : (data.length - k) / 65536 = (data.length - 1 - k) / 65536 := by omega
      rw [hdiv, getD_snoc_lt (by omega)]
    · have hdiv : (data.length - k) / 65536 = 0 := by omega
      have hdiv' : (data.length - 1 - k) / 65536 = 0 := by omega
      have hne : k ≠ data.length := by omega
      rw [hdiv, hdiv', List.getD_eq_default _ _ (by simp; omega),
        List.getD_eq_default _ _ (by simp; omega)]

theorem EthHeader.byteAt_store (header : EthHeader) {i k : ℕ} (b : Byte) (hi : i < 14)
    (hk : k < 14) : (header.store i b).byteAt k = if i = k then b else header.byteAt k := by
  by_cases h6 : k < 6
  · simp only [byteAt, if_pos h6]
    interval_cases i <;> simp only [store]
    all_goals try rw [lane_setRange_at _ _ _ (by rfl) (by omega)]
    all_goals grind
  · by_cases h12 : k < 12
    · simp only [byteAt, if_neg h6, if_pos h12]
      interval_cases i <;> simp only [store]
      all_goals try rw [lane_setRange_at _ _ _ (by rfl) (by omega)]
      all_goals grind
    · simp only [byteAt, if_neg h6, if_neg h12]
      interval_cases i <;> simp only [store]
      all_goals try rw [lane_setRange_at _ _ _ (by rfl) (by omega)]
      all_goals grind

structure DataAt (data : List Byte) (kept : Buffer maxEthPayloadBytesInt) (st : RxParser)
    (buf : Buffer maxEthPayloadBytesInt) : Prop where
  index : st.rxByteIndex = BitVec.ofNat 16 data.length
  header : ∀ k < 14, st.rxHeader.byteAt k = headerByte data k
  tailCount : st.rxFcsTailCount.toNat = min 4 (data.length - 14)
  payloadCount : st.rxPayloadCount.toNat = min 1500 (data.length - 18)
  truncated : st.rxTruncated = decide (1500 < data.length - 18)
  tail : data.length ≤ 1518 → ∀ k < min 4 (data.length - 14),
    st.rxFcsTail.get k = data.getD (14 + (data.length - 18) + k) 0
  buffer : ∀ j, buf.get j =
    if j < min 1500 (data.length - 18) then data.getD (14 + j) 0 else kept.get j

theorem toNat_ofNat_16 (n : ℕ) : (BitVec.ofNat 16 n).toNat = n % 65536 := by
  simp

variable {data : List Byte} {kept buf : Buffer maxEthPayloadBytesInt} {st : RxParser}

theorem DataAt.index_snoc (h : DataAt data kept st buf) (b : Byte) :
    st.rxByteIndex + 1 = BitVec.ofNat 16 (data ++ [b]).length := by
  rw [h.index, List.length_append, List.length_singleton, BitVec.ofNat_add]
  rfl

/-- A header byte, of the frame or of a later wrap of the byte counter. -/
theorem DataAt.store (h : DataAt data kept st buf) (b : Byte) (hidx : data.length % 65536 < 14) :
    DataAt (data ++ [b]) kept
      { st with
        rxHeader := st.rxHeader.store st.rxByteIndex.toNat b
        rxByteIndex := st.rxByteIndex + 1 } buf := by
  have hnat : st.rxByteIndex.toNat = data.length % 65536 := by rw [h.index, toNat_ofNat_16]
  have hfar : data.length < 14 ∨ 65536 ≤ data.length := by omega
  constructor
  case index =>
    exact h.index_snoc b
  case header =>
    intro k hk
    simp only [hnat]
    rw [EthHeader.byteAt_store _ _ hidx hk, headerByte_snoc _ _ hk, h.header k hk]
  case tailCount =>
    simp only [h.tailCount, List.length_append, List.length_singleton]
    omega
  case payloadCount =>
    simp only [h.payloadCount, List.length_append, List.length_singleton]
    omega
  case truncated =>
    simp only [h.truncated, List.length_append, List.length_singleton, decide_eq_decide]
    omega
  case tail =>
    intro hle k hk
    simp only [List.length_append, List.length_singleton] at hle hk
    omega
  case buffer =>
    intro j
    simp only [h.buffer j, List.length_append, List.length_singleton]
    rcases hfar with hlt | hge
    · rw [if_neg (by omega), if_neg (by omega)]
    · by_cases hj : j < 1500
      · rw [if_pos (by omega), if_pos (by omega), getD_snoc_lt (by omega)]
      · rw [if_neg (by omega), if_neg (by omega)]

theorem DataAt.fill (h : DataAt data kept st buf) (b : Byte) (h14 : 14 ≤ data.length)
    (h18 : data.length < 18) :
    DataAt (data ++ [b]) kept
      { st with
        rxFcsTail := Buffer.set st.rxFcsTail st.rxFcsTailCount.toNat b
        rxFcsTailCount := st.rxFcsTailCount + 1
        rxByteIndex := st.rxByteIndex + 1 } buf := by
  have hcount : st.rxFcsTailCount.toNat = data.length - 14 := by rw [h.tailCount]; omega
  constructor
  case index =>
    exact h.index_snoc b
  case header =>
    intro k hk
    rw [headerByte_snoc _ _ hk, if_neg (by omega)]
    exact h.header k hk
  case tailCount =>
    simp only [BitVec.toNat_add, hcount, List.length_append, List.length_singleton]
    simp
    omega
  case payloadCount =>
    simp only [h.payloadCount, List.length_append, List.length_singleton]
    omega
  case truncated =>
    simp only [h.truncated, List.length_append, List.length_singleton, decide_eq_decide]
    omega
  case tail =>
    intro _ k hk
    simp only [List.length_append, List.length_singleton] at hk
    simp only [hcount, Buffer.get_set, List.length_append, List.length_singleton]
    by_cases hlast : k = data.length - 14
    · rw [if_pos (by omega), getD_snoc_length _ _ (by omega)]
    · rw [if_neg (by omega), h.tail (by omega) k (by omega), getD_snoc_lt (by omega)]
      congr 1
      omega
  case buffer =>
    intro j
    simp only [h.buffer j, List.length_append, List.length_singleton]
    rw [if_neg (by omega), if_neg (by omega)]

theorem get_shiftFcsTail (tail : Buffer 4) (b : Byte) {k : ℕ} (hk : k < 4) :
    (shiftFcsTail tail b).get k = if k = 3 then b else tail.get (k + 1) := by
  interval_cases k <;> simp [shiftFcsTail, Buffer.get_set]

theorem DataAt.shift (h : DataAt data kept st buf) (b : Byte) (h18 : 18 ≤ data.length)
    (hmax : data.length < 1518) :
    DataAt (data ++ [b]) kept
      { st with
        rxFcsTail := shiftFcsTail st.rxFcsTail b
        rxPayloadCount := st.rxPayloadCount + 1
        rxByteIndex := st.rxByteIndex + 1 }
      (Buffer.set buf st.rxPayloadCount.toNat (st.rxFcsTail.get 0)) := by
  have hcount : st.rxPayloadCount.toNat = data.length - 18 := by rw [h.payloadCount]; omega
  constructor
  case index =>
    exact h.index_snoc b
  case header =>
    intro k hk
    rw [headerByte_snoc _ _ hk, if_neg (by omega)]
    exact h.header k hk
  case tailCount =>
    simp only [h.tailCount, List.length_append, List.length_singleton]
    omega
  case payloadCount =>
    simp only [BitVec.toNat_add, hcount, List.length_append, List.length_singleton]
    simp
    omega
  case truncated =>
    simp only [h.truncated, List.length_append, List.length_singleton, decide_eq_decide]
    omega
  case tail =>
    intro _ k hk
    have hk4 : k < 4 := by omega
    rw [get_shiftFcsTail _ _ hk4]
    simp only [List.length_append, List.length_singleton]
    by_cases hlast : k = 3
    · rw [if_pos hlast, getD_snoc_length _ _ (by omega)]
    · rw [if_neg hlast, h.tail (by omega) (k + 1) (by omega), getD_snoc_lt (by omega)]
      congr 1
      omega
  case buffer =>
    intro j
    have hroom : data.length - 18 < maxEthPayloadBytesInt := by unfold maxEthPayloadBytesInt; omega
    simp only [Buffer.get_set, hcount, hroom, and_true, h.buffer j, List.length_append,
      List.length_singleton]
    by_cases hlast : j = data.length - 18
    · have h0 := h.tail (by omega) 0 (by omega)
      rw [if_pos hlast, if_pos (by omega), h0, getD_snoc_lt (by omega)]
      congr 1
      omega
    · rw [if_neg hlast]
      by_cases hj : j < data.length - 18
      · rw [if_pos (by omega), if_pos (by omega), getD_snoc_lt (by omega)]
      · rw [if_neg (by omega), if_neg (by omega)]

/-- Once 1500 payload bytes are kept, further bytes only mark the frame as truncated. -/
theorem DataAt.overflow (h : DataAt data kept st buf) (b : Byte) (hmin : 1518 ≤ data.length)
    (hidx : 14 ≤ data.length % 65536) :
    DataAt (data ++ [b]) kept
      { st with
        rxFcsTail := shiftFcsTail st.rxFcsTail b
        rxTruncated := true
        rxByteIndex := st.rxByteIndex + 1 } buf := by
  constructor
  case index =>
    exact h.index_snoc b
  case header =>
    intro k hk
    rw [headerByte_snoc _ _ hk, if_neg (by omega)]
    exact h.header k hk
  case tailCount =>
    simp only [h.tailCount, List.length_append, List.length_singleton]
    omega
  case payloadCount =>
    simp only [h.payloadCount, List.length_append, List.length_singleton]
    omega
  case truncated =>
    simp only [List.length_append, List.length_singleton]
    rw [eq_comm, decide_eq_true_iff]
    omega
  case tail =>
    intro hle
    simp only [List.length_append, List.length_singleton] at hle
    omega
  case buffer =>
    intro j
    simp only [h.buffer j, List.length_append, List.length_singleton]
    by_cases hj : j < 1500
    · rw [if_pos (by omega), if_pos (by omega), getD_snoc_lt (by omega)]
    · rw [if_neg (by omega), if_neg (by omega)]

theorem DataAt.step (h : DataAt data kept st buf) (b : Byte) :
    DataAt (data ++ [b]) kept (rxDataByteStep st buf b).1 (rxDataByteStep st buf b).2 := by
  have hnat : st.rxByteIndex.toNat = data.length % 65536 := by rw [h.index, toNat_ofNat_16]
  by_cases hidx : data.length % 65536 < 14
  · simp only [rxDataByteStep, hnat, if_pos hidx]
    simpa only [hnat] using h.store b hidx
  · have htail : st.rxFcsTailCount < 4 ↔ data.length < 18 := by
      rw [BitVec.lt_def, h.tailCount]
      simp
      omega
    have hroom : st.rxPayloadCount < maxEthPayloadBytes ↔ data.length < 1518 := by
      rw [BitVec.lt_def, h.payloadCount]
      simp [maxEthPayloadBytes]
      omega
    simp only [rxDataByteStep, hnat, if_neg hidx, rxCapturePayloadByte]
    by_cases h18 : data.length < 18
    · rw [if_pos (htail.mpr h18)]
      exact h.fill b (by omega) h18
    · rw [if_neg (mt htail.mp h18)]
      by_cases hmax : data.length < 1518
      · rw [if_pos (hroom.mpr hmax)]
        exact h.shift b (by omega) hmax
      · rw [if_neg (mt hroom.mp hmax)]
        exact h.overflow b (by omega) (by omega)

theorem DataAt.congr {st' : RxParser} (h : DataAt data kept st buf)
    (hindex : st'.rxByteIndex = st.rxByteIndex) (hheader : st'.rxHeader = st.rxHeader)
    (htail : st'.rxFcsTail = st.rxFcsTail) (htailCount : st'.rxFcsTailCount = st.rxFcsTailCount)
    (hcount : st'.rxPayloadCount = st.rxPayloadCount)
    (htrunc : st'.rxTruncated = st.rxTruncated) : DataAt data kept st' buf where
  index := by rw [hindex, h.index]
  header := by rw [hheader]; exact h.header
  tailCount := by rw [htailCount, h.tailCount]
  payloadCount := by rw [hcount, h.payloadCount]
  truncated := by rw [htrunc, h.truncated]
  tail := by rw [htail]; exact h.tail
  buffer := h.buffer

@[simp] theorem rxDataByteStep_rxState (st : RxParser) (buf : Buffer maxEthPayloadBytesInt)
    (b : Byte) : (rxDataByteStep st buf b).1.rxState = st.rxState := by
  simp only [rxDataByteStep, rxCapturePayloadByte]
  split_ifs <;> rfl

@[simp] theorem rxDataByteStep_rxFrameError (st : RxParser) (buf : Buffer maxEthPayloadBytesInt)
    (b : Byte) : (rxDataByteStep st buf b).1.rxFrameError = st.rxFrameError := by
  simp only [rxDataByteStep, rxCapturePayloadByte]
  split_ifs <;> rfl

/-- The parser after the assembled bytes `bs` of a burst with error flag `err`. -/
structure ParserAt (bs : List Byte) (err : Bool) (kept : Buffer maxEthPayloadBytesInt)
    (st : RxParser) (buf : Buffer maxEthPayloadBytesInt) : Prop where
  synced : st.rxState = .rxData ↔ Synced bs
  preamble : Preambular bs → (st.rxPreambleCount = 0 ↔ bs = [])
  error : st.rxFrameError = err
  data : DataAt (dataBytes bs) kept st buf

theorem ParserAt.start (st : RxParser) (buf : Buffer maxEthPayloadBytesInt) :
    ParserAt [] false buf st.startFrame buf where
  synced := by simp [RxParser.startFrame, Synced, preambular_nil]
  preamble _ := by simp [RxParser.startFrame]
  error := rfl
  data :=
    { index := rfl
      header := by
        intro k _
        simp [RxParser.startFrame, EthHeader.byteAt, headerByte, dataBytes]
      tailCount := rfl
      payloadCount := rfl
      truncated := rfl
      tail := by intro _ k hk; simp [dataBytes] at hk
      buffer := by intro j; simp [dataBytes] }

variable {bs : List Byte} {err : Bool}

theorem ParserAt.orError (h : ParserAt bs err kept st buf) (rxerr : Bool) :
    ParserAt bs (err || rxerr) kept { st with rxFrameError := st.rxFrameError || rxerr } buf where
  synced := h.synced
  preamble := h.preamble
  error := by simp [h.error]
  data := h.data.congr rfl rfl rfl rfl rfl rfl

theorem preambleCount_succ_ne (c : BitVec 4) :
    (if c ≠ 15 then c + 1 else c) ≠ 0 := by
  revert c
  decide

theorem ParserAt.step_preamble (h : ParserAt bs err kept st buf) (hp : Preambular bs) :
    ParserAt (bs ++ [0x55#8]) err kept
      (if st.rxPreambleCount ≠ 15 then { st with rxPreambleCount := st.rxPreambleCount + 1 }
        else st) buf := by
  have hp' : Preambular (bs ++ [0x55#8]) := (preambular_snoc _ _).mpr ⟨hp, rfl⟩
  have hsearch : st.rxState ≠ .rxData := fun hd => h.synced.mp hd hp
  have hcount := preambleCount_succ_ne st.rxPreambleCount
  have hdata := h.data
  rw [dataBytes_preambular hp] at hdata
  constructor
  case synced =>
    refine iff_of_false ?_ (not_not_intro hp')
    split_ifs <;> exact hsearch
  case preamble =>
    intro _
    refine iff_of_false ?_ (by simp)
    split_ifs at hcount ⊢ <;> exact hcount
  case error =>
    split_ifs <;> exact h.error
  case data =>
    rw [dataBytes_preambular hp']
    split_ifs
    · exact hdata.congr rfl rfl rfl rfl rfl rfl
    · exact hdata

theorem ParserAt.step_sfd (h : ParserAt bs err kept st buf) (hp : Preambular bs) (hne : bs ≠ []) :
    ParserAt (bs ++ [0xd5#8]) err kept { st with rxState := .rxData, rxByteIndex := 0 } buf := by
  have hsync : Synced (bs ++ [0xd5#8]) := synced_snoc bs sfd_ne_preamble
  have hdata := h.data
  rw [dataBytes_preambular hp] at hdata
  constructor
  case synced => exact iff_of_true rfl hsync
  case preamble => exact fun hp' => absurd hp' hsync
  case error => exact h.error
  case data =>
    rw [dataBytes_snoc_sfd hp hne]
    exact hdata.congr hdata.index.symm rfl rfl rfl rfl rfl

theorem ParserAt.step_data (h : ParserAt bs err kept st buf) (b : Byte)
    (hsync : Synced (bs ++ [b])) (hdata : dataBytes (bs ++ [b]) = dataBytes bs ++ [b]) :
    ParserAt (bs ++ [b]) err kept
      (rxDataByteStep { st with rxState := .rxData } buf b).1
      (rxDataByteStep { st with rxState := .rxData } buf b).2 := by
  have hst : DataAt (dataBytes bs) kept { st with rxState := .rxData } buf :=
    h.data.congr rfl rfl rfl rfl rfl rfl
  constructor
  case synced => simpa using hsync
  case preamble => exact fun hp' => absurd hp' hsync
  case error => simpa using h.error
  case data =>
    rw [hdata]
    exact hst.step b

theorem ParserAt.step (h : ParserAt bs err kept st buf) (b : Byte) :
    ParserAt (bs ++ [b]) err kept (rxByteStep st buf b).1 (rxByteStep st buf b).2 := by
  by_cases hp : Preambular bs
  · have hsearch : st.rxState = .rxSearch := by
      cases hs : st.rxState with
      | rxSearch => rfl
      | rxData => exact absurd hp (h.synced.mp hs)
    have hzero : st.rxPreambleCount ≠ 0 ↔ bs ≠ [] := not_congr (h.preamble hp)
    simp only [rxByteStep, hsearch]
    by_cases h55 : b = 0x55#8
    · subst h55
      rw [if_pos rfl]
      simpa only [hsearch] using h.step_preamble hp
    · rw [if_neg h55]
      by_cases hsfd : b = 0xd5#8 ∧ bs ≠ []
      · obtain ⟨rfl, hne⟩ := hsfd
        rw [if_pos ⟨rfl, hzero.mpr hne⟩]
        exact h.step_sfd hp hne
      · have hsync : Synced (bs ++ [b]) := synced_snoc bs h55
        rw [if_neg (fun hc => hsfd ⟨hc.1, hzero.mp hc.2⟩)]
        apply h.step_data b hsync
        rw [dataBytes_preambular hp, dataBytes_snoc_first hp h55, List.nil_append]
        by_cases hne : bs = []
        · exact Or.inl hne
        · exact Or.inr fun hb => hsfd ⟨hb, hne⟩
  · have hstate : st.rxState = .rxData := h.synced.mpr hp
    have hsame : { st with rxState := .rxData } = st := by rw [← hstate]
    have hsync : Synced (bs ++ [b]) := fun h' => hp ((preambular_snoc _ _).mp h').1
    have hdata := h.step_data b hsync (dataBytes_snoc_synced hp b)
    rw [hsame] at hdata
    simpa only [rxByteStep, hstate] using hdata

theorem ParserAt.frameMeta_valid (h : ParserAt bs err kept st buf) :
    st.frameMeta.valid = decide (18 ≤ (dataBytes bs).length % 65536 ∧ err = false) := by
  have hidx : ethHeaderBytes.setWidth 16 + 4 ≤ st.rxByteIndex ↔
      18 ≤ (dataBytes bs).length % 65536 := by
    rw [BitVec.le_def, h.data.index, toNat_ofNat_16]
    exact Iff.rfl
  have htail : 18 ≤ (dataBytes bs).length → st.rxFcsTailCount = 4 := by
    intro hlen
    apply BitVec.eq_of_toNat_eq
    rw [h.data.tailCount]
    exact Nat.min_eq_left (by omega)
  simp only [RxParser.frameMeta, h.error, decide_eq_decide.mpr hidx]
  by_cases hlen : 18 ≤ (dataBytes bs).length % 65536
  · rw [htail (by omega)]
    cases err <;> simp [hlen]
  · simp [hlen]

theorem ParserAt.rxHeader_eq (h : ParserAt bs err kept st buf) :
    st.rxHeader = .ofBytes (headerBytes (dataBytes bs)) := by
  apply EthHeader.ext_byteAt
  intro k hk
  rw [h.data.header k hk, EthHeader.byteAt_ofBytes (by simp [headerBytes]) hk]
  simp [headerBytes]

/-- The slot published after `bs` stands for the packet of these data bytes. -/
theorem ParserAt.slotPacket_frameMeta (h : ParserAt bs err kept st buf)
    (hlen : 18 ≤ (dataBytes bs).length) :
    slotPacket (st.frameMeta.toRxPacketMeta, buf) = capturedPacket (dataBytes bs) := by
  have hpayload : (List.range st.rxPayloadCount.toNat).map buf.get =
      ((dataBytes bs).drop 14).take (min 1500 ((dataBytes bs).length - 18)) := by
    rw [h.data.payloadCount]
    apply List.ext_getElem
    · simp
      omega
    · intro j h1 h2
      simp only [List.length_map, List.length_range] at h1
      rw [List.getElem_map, List.getElem_range, h.data.buffer j, if_pos h1, List.getElem_take,
        List.getElem_drop, List.getD_eq_getElem]
  simp only [slotPacket, EthernetFrameMeta.toRxPacketMeta, RxParser.frameMeta, capturedPacket]
  rw [hpayload, h.data.truncated, h.rxHeader_eq]

end ArtyEthernet
