import ArtyEthernet.Model.Framer
import Mathlib.Tactic.IntervalCases

/-!
# What the framer puts on the wire

`wireBytes body` is the complete frame around a padded body, and `FramerAt body k` says that the
framer has emitted the first `k` nibbles of it (or, past its end, that many cycles of the gap).
One cycle moves to `k + 1`.
-/

namespace ArtyEthernet
open Words

def crc32 (bs : List Byte) : BitVec 32 := bs.foldl crc32NextByte 0xffffffff#32

@[simp] theorem crc32_snoc (bs : List Byte) (b : Byte) :
    crc32 (bs ++ [b]) = crc32NextByte (crc32 bs) b := by
  simp [crc32]

def fcsBytes (body : List Byte) : List Byte :=
  (List.range 4).map fun i => lane (~~~ crc32 body) i

/-- The fewest body bytes a frame is sent with. -/
def minBody : ℕ := 60

def padBody (bs : List Byte) : List Byte := bs ++ List.replicate (minBody - bs.length) 0#8

@[simp] theorem length_padBody (bs : List Byte) : (padBody bs).length = max bs.length minBody := by
  simp [padBody]
  omega

def wireBytes (body : List Byte) : List Byte :=
  List.replicate 7 0x55#8 ++ 0xd5#8 :: body ++ fcsBytes body

@[simp] theorem length_wireBytes (body : List Byte) :
    (wireBytes body).length = body.length + 12 := by
  simp [wireBytes, fcsBytes]

theorem wireBytes_preamble (body : List Byte) {j : ℕ} (hj : j < 8) :
    (wireBytes body)[j]? = some (if j = 7 then 0xd5#8 else 0x55#8) := by
  unfold wireBytes
  rw [List.getElem?_append_left (by simp; omega)]
  by_cases h7 : j = 7
  · subst h7
    simp
  · rw [List.getElem?_append_left (by simp; omega), List.getElem?_replicate, if_pos (by omega),
      if_neg h7]

theorem wireBytes_body (body : List Byte) {j : ℕ} (hj : j < body.length) :
    (wireBytes body)[8 + j]? = some body[j] := by
  unfold wireBytes
  rw [List.getElem?_append_left (by simp; omega), List.getElem?_append_right (by simp; omega)]
  have hidx : 8 + j - (List.replicate 7 0x55#8).length = j + 1 := by simp; omega
  rw [hidx, List.getElem?_cons_succ, List.getElem?_eq_getElem hj]

theorem wireBytes_fcs (body : List Byte) {j : ℕ} (hj : j < 4) :
    (wireBytes body)[8 + body.length + j]? = some (lane (~~~ crc32 body) j) := by
  unfold wireBytes
  rw [List.getElem?_append_right (by simp; omega)]
  have hidx : 8 + body.length + j - (List.replicate 7 0x55#8 ++ 0xd5#8 :: body).length = j := by
    simp
    omega
  rw [hidx]
  simp [fcsBytes, hj]

/-- The number of cycles a frame occupies the wire. -/
def wireNibbles (body : List Byte) : ℕ := 2 * (body.length + 12)

/-- The number of cycles from the first nibble to the end of the gap. -/
def frameCycles (body : List Byte) : ℕ := wireNibbles body + 24

/-- The framer is at nibble `k` of a frame with this padded body. -/
inductive FramerAt (body : List Byte) : ℕ → Framer → Prop where
  | preamble {f : Framer} (j : ℕ) (phase : Bool) (hj : j < 8) (state : f.txState = .txPreamble)
      (index : f.txByteIndex = BitVec.ofNat 11 j) (hphase : f.txNibblePhase = phase)
      (crc : f.txCrc = 0xffffffff#32)
      (len : f.txFrameBodyLen = BitVec.ofNat 11 body.length) :
      FramerAt body (2 * j + phase.toNat) f
  | data {f : Framer} (j : ℕ) (phase : Bool) (hj : j < body.length) (state : f.txState = .txData)
      (index : f.txByteIndex = BitVec.ofNat 11 j) (hphase : f.txNibblePhase = phase)
      (crc : f.txCrc = crc32 (body.take j))
      (len : f.txFrameBodyLen = BitVec.ofNat 11 body.length) :
      FramerAt body (16 + 2 * j + phase.toNat) f
  | fcs {f : Framer} (j : ℕ) (phase : Bool) (hj : j < 4) (state : f.txState = .txFcs)
      (index : f.txFcsIndex = BitVec.ofNat 2 j) (hphase : f.txNibblePhase = phase)
      (crc : f.txFcs = ~~~ crc32 body) :
      FramerAt body (16 + 2 * body.length + 2 * j + phase.toNat) f
  | gap {f : Framer} (c : ℕ) (hc : c < 24) (state : f.txState = .txIfg)
      (count : f.txIfgCount = BitVec.ofNat 6 c) :
      FramerAt body (wireNibbles body + c) f

/-- The buffer shows the framer this padded body. -/
def ShowsBody (buf : Buffer txFrameBodyBytesInt) (len : BitVec 11) (body : List Byte) : Prop :=
  ∀ j (hj : j < body.length), txFrameBodyByte buf (BitVec.ofNat 11 j) len = body[j]

def bufferBody (buf : Buffer txFrameBodyBytesInt) (len : BitVec 11) : List Byte :=
  (List.range len.toNat).map buf.get

@[simp] theorem length_bufferBody (buf : Buffer txFrameBodyBytesInt) (len : BitVec 11) :
    (bufferBody buf len).length = len.toNat := by
  simp [bufferBody]

/-- Reads past the body give the padding. -/
theorem showsBody_bufferBody (buf : Buffer txFrameBodyBytesInt) {len : BitVec 11}
    (hlen : len.toNat ≤ 1514) : ShowsBody buf len (padBody (bufferBody buf len)) := by
  intro j hj
  have hlt : j < 2048 := by
    rw [length_padBody, length_bufferBody] at hj
    simp only [minBody] at hj
    omega
  have hpast : len ≤ BitVec.ofNat 11 j ↔ len.toNat ≤ j := by
    rw [BitVec.le_def, BitVec.toNat_ofNat, Nat.mod_eq_of_lt hlt]
  have hmax : txFrameBodyBytes ≤ BitVec.ofNat 11 j ↔ 1514 ≤ j := by
    rw [BitVec.le_def, BitVec.toNat_ofNat, Nat.mod_eq_of_lt hlt]
    exact Iff.rfl
  simp only [txFrameBodyByte, hpast, hmax, BitVec.toNat_ofNat, Nat.mod_eq_of_lt hlt, padBody]
  by_cases hin : j < len.toNat
  · rw [if_neg (by omega), List.getElem_append_left (by simpa using hin)]
    simp [bufferBody]
  · rw [if_pos (by omega), List.getElem_append_right (by simpa using hin)]
    simp

/-- A cycle that puts nibble `k` of the frame on the wire. -/
structure Emits (body : List Byte) (k : ℕ) (f : Framer) (r : Framer × FramerPins) : Prop where
  nibble : (toNibbles (wireBytes body))[k]? = some r.2.ethTxd
  enabled : r.2.ethTxEn = true
  active : r.2.txActive = true
  busy : r.2.txIdle = false
  next : FramerAt body (k + 1) r.1
  len : r.1.txLen = f.txLen

theorem emit_nibble {bs : List Byte} {i : ℕ} {b : Byte} (hb : bs[i]? = some b) (phase : Bool) :
    (toNibbles bs)[2 * i + phase.toNat]? = some (miiTxEmitByteStep b phase).ethTxd := by
  rw [getElem?_toNibbles]
  cases phase with
  | false =>
    simp [hb, miiTxEmitByteStep, lowNibble]
  | true =>
    have hdiv : (2 * i + 1) / 2 = i := by omega
    have hmod : (2 * i + 1) % 2 = 1 := by omega
    simp [hdiv, hmod, hb, miiTxEmitByteStep, highNibble]

variable {body : List Byte} {f : Framer} {buf : Buffer txFrameBodyBytesInt}

section Preamble
variable {j : ℕ} {phase : Bool}

theorem framerPreambleStep_next (f : Framer) :
    (framerPreambleStep f).1 =
      if f.txNibblePhase = false then { f with txNibblePhase := true }
      else if f.txByteIndex = 7 then
        { f with txNibblePhase := false, txByteIndex := 0, txState := .txData }
      else { f with txNibblePhase := false, txByteIndex := f.txByteIndex + 1 } := by
  cases hphase : f.txNibblePhase with
  | false => simp [framerPreambleStep, miiTxEmitByteStep, hphase]
  | true => simp [framerPreambleStep, miiTxEmitByteStep, hphase]

theorem emits_preamble (hj : j < 8) (hne : 0 < body.length) (state : f.txState = .txPreamble)
    (index : f.txByteIndex = BitVec.ofNat 11 j) (hphase : f.txNibblePhase = phase)
    (crc : f.txCrc = 0xffffffff#32) (len : f.txFrameBodyLen = BitVec.ofNat 11 body.length) :
    Emits body (2 * j + phase.toNat) f (framerPreambleStep f) := by
  have hlast : f.txByteIndex = 7 ↔ j = 7 := by
    rw [index]
    exact ofNat_eq_ofNat (b := 7) (by omega) (by omega)
  constructor
  case nibble =>
    rw [emit_nibble (wireBytes_preamble body hj)]
    simp only [framerPreambleStep, hlast, hphase]
    rfl
  case enabled => rfl
  case active => rfl
  case busy => rfl
  case next =>
    rw [framerPreambleStep_next, hphase]
    cases phase with
    | false => exact .preamble j true hj state index rfl crc len
    | true =>
      by_cases h7 : j = 7
      · rw [if_neg (by simp), if_pos (hlast.mpr h7), h7]
        exact .data 0 false hne rfl rfl rfl crc len
      · rw [if_neg (by simp), if_neg (mt hlast.mp h7)]
        refine .preamble (j + 1) false (by omega) state ?_ rfl crc len
        simp only [index, BitVec.ofNat_add]
        rfl
  case len =>
    rw [framerPreambleStep_next]
    split_ifs <;> rfl

end Preamble

section Data
variable {j : ℕ} {phase : Bool}

theorem framerDataStep_next (f : Framer) (buf : Buffer txFrameBodyBytesInt) :
    (framerDataStep f buf).1 =
      let crc := crc32NextByte f.txCrc (txFrameBodyByte buf f.txByteIndex f.txLen)
      if f.txNibblePhase = false then { f with txNibblePhase := true }
      else if f.txByteIndex = f.txFrameBodyLen - 1 then
        { f with
          txNibblePhase := false
          txCrc := crc
          txFcs := ~~~crc
          txFcsIndex := 0
          txState := .txFcs }
      else { f with txNibblePhase := false, txCrc := crc, txByteIndex := f.txByteIndex + 1 } := by
  cases hphase : f.txNibblePhase with
  | false => simp [framerDataStep, miiTxEmitByteStep, hphase]
  | true => simp [framerDataStep, miiTxEmitByteStep, hphase]

theorem emits_data (hj : j < body.length) (hmax : body.length < 2048)
    (state : f.txState = .txData) (index : f.txByteIndex = BitVec.ofNat 11 j)
    (hphase : f.txNibblePhase = phase) (crc : f.txCrc = crc32 (body.take j))
    (len : f.txFrameBodyLen = BitVec.ofNat 11 body.length) (hread : ShowsBody buf f.txLen body) :
    Emits body (16 + 2 * j + phase.toNat) f (framerDataStep f buf) := by
  have hbyte : txFrameBodyByte buf f.txByteIndex f.txLen = body[j] := by
    rw [index, hread j hj]
  have hlast : f.txByteIndex = f.txFrameBodyLen - 1 ↔ j + 1 = body.length := by
    have hpred : BitVec.ofNat 11 body.length - 1 = BitVec.ofNat 11 (body.length - 1) := by
      conv_lhs => rw [show body.length = body.length - 1 + 1 by omega, BitVec.ofNat_add]
      exact BitVec.add_sub_cancel _ _
    rw [index, len, hpred, ofNat_eq_ofNat (by omega) (by omega)]
    omega
  have hcrc : crc32NextByte (crc32 (body.take j)) body[j] = crc32 (body.take (j + 1)) := by
    rw [List.take_succ_eq_append_getElem hj, crc32_snoc]
  constructor
  case nibble =>
    rw [show 16 + 2 * j + phase.toNat = 2 * (8 + j) + phase.toNat by omega,
      emit_nibble (wireBytes_body body hj)]
    simp only [framerDataStep, hbyte, hphase]
    rfl
  case enabled => rfl
  case active => rfl
  case busy => rfl
  case next =>
    rw [framerDataStep_next, hphase]
    simp only [hbyte, crc, hcrc]
    cases phase with
    | false => exact .data j true hj state index rfl rfl len
    | true =>
      by_cases hend : j + 1 = body.length
      · rw [if_neg (by simp), if_pos (hlast.mpr hend)]
        have hk : 16 + 2 * j + Bool.toNat true + 1 =
            16 + 2 * body.length + 2 * 0 + Bool.toNat false := by
          simp
          omega
        rw [hk]
        refine .fcs 0 false (by omega) rfl rfl rfl ?_
        rw [hend, List.take_length]
      · rw [if_neg (by simp), if_neg (mt hlast.mp hend)]
        refine .data (j + 1) false (by omega) state ?_ rfl rfl len
        simp only [index, BitVec.ofNat_add]
        rfl
  case len =>
    rw [framerDataStep_next]
    split_ifs <;> rfl

end Data

section Fcs
variable {j : ℕ} {phase : Bool}

theorem fcsByte_eq_lane (fcs : BitVec 32) {j : ℕ} (hj : j < 4) :
    fcsByte fcs (BitVec.ofNat 2 j) = lane fcs j := by
  interval_cases j <;> rfl

theorem framerFcsStep_next (f : Framer) :
    (framerFcsStep f).1 =
      if f.txNibblePhase = false then { f with txNibblePhase := true }
      else if f.txFcsIndex = 3 then
        { f with
          txNibblePhase := false
          txFrame := !f.txFrame
          txIfgCount := 0
          txState := .txIfg }
      else { f with txNibblePhase := false, txFcsIndex := f.txFcsIndex + 1 } := by
  cases hphase : f.txNibblePhase with
  | false => simp [framerFcsStep, miiTxEmitByteStep, hphase]
  | true => simp [framerFcsStep, miiTxEmitByteStep, hphase]

theorem emits_fcs (hj : j < 4) (state : f.txState = .txFcs)
    (index : f.txFcsIndex = BitVec.ofNat 2 j) (hphase : f.txNibblePhase = phase)
    (crc : f.txFcs = ~~~ crc32 body) :
    Emits body (16 + 2 * body.length + 2 * j + phase.toNat) f (framerFcsStep f) := by
  have hlast : f.txFcsIndex = 3 ↔ j = 3 := by
    rw [index]
    exact ofNat_eq_ofNat (b := 3) (by omega) (by omega)
  constructor
  case nibble =>
    rw [show 16 + 2 * body.length + 2 * j + phase.toNat =
        2 * (8 + body.length + j) + phase.toNat by omega,
      emit_nibble (wireBytes_fcs body hj)]
    simp only [framerFcsStep, index, crc, fcsByte_eq_lane _ hj, hphase]
    rfl
  case enabled => rfl
  case active => rfl
  case busy => rfl
  case next =>
    rw [framerFcsStep_next, hphase]
    cases phase with
    | false => exact .fcs j true hj state index rfl crc
    | true =>
      by_cases h3 : j = 3
      · rw [if_neg (by simp), if_pos (hlast.mpr h3), h3]
        have hk : 16 + 2 * body.length + 2 * 3 + Bool.toNat true + 1 = wireNibbles body + 0 := by
          simp [wireNibbles]
          omega
        rw [hk]
        exact .gap 0 (by omega) rfl rfl
      · rw [if_neg (by simp), if_neg (mt hlast.mp h3)]
        refine .fcs (j + 1) false (by omega) state ?_ rfl crc
        simp only [index, BitVec.ofNat_add]
        rfl
  case len =>
    rw [framerFcsStep_next]
    split_ifs <;> rfl

end Fcs

variable {k : ℕ} (startRequest : Bool) (startLen : BitVec 11)

theorem FramerAt.emits (h : FramerAt body k f) (hk : k < wireNibbles body)
    (hmin : 0 < body.length) (hmax : body.length < 2048) (hread : ShowsBody buf f.txLen body) :
    Emits body k f (ethernetTxFramerStep f startRequest startLen buf) := by
  cases h with
  | preamble j phase hj state index hphase crc len =>
    simp only [ethernetTxFramerStep, state]
    exact emits_preamble hj hmin state index hphase crc len
  | data j phase hj state index hphase crc len =>
    simp only [ethernetTxFramerStep, state]
    exact emits_data hj hmax state index hphase crc len hread
  | fcs j phase hj state index hphase crc =>
    simp only [ethernetTxFramerStep, state]
    exact emits_fcs hj state index hphase crc
  | gap c hc state count => omega

theorem FramerAt.gap_iff (h : FramerAt body k f) : f.txState = .txIfg ↔ wireNibbles body ≤ k := by
  cases h with
  | preamble j phase hj state =>
    have hphase := Bool.toNat_le phase
    simp only [state, wireNibbles, reduceCtorEq, false_iff]
    omega
  | data j phase hj state =>
    have hphase := Bool.toNat_le phase
    simp only [state, wireNibbles, reduceCtorEq, false_iff]
    omega
  | fcs j phase hj state =>
    have hphase := Bool.toNat_le phase
    simp only [state, wireNibbles, reduceCtorEq, false_iff]
    omega
  | gap c hc state => simp [state]

theorem FramerAt.gap_step (h : FramerAt body k f) (buf : Buffer txFrameBodyBytesInt)
    (hk : wireNibbles body ≤ k) :
    (ethernetTxFramerStep f startRequest startLen buf).2 =
        f.silent (decide (k + 1 = frameCycles body)) ∧
      (k + 1 < frameCycles body →
        FramerAt body (k + 1) (ethernetTxFramerStep f startRequest startLen buf).1) ∧
      (k + 1 = frameCycles body →
        (ethernetTxFramerStep f startRequest startLen buf).1.txState = .txIdle) ∧
      (ethernetTxFramerStep f startRequest startLen buf).1.txLen = f.txLen := by
  have hgap := h.gap_iff.mpr hk
  cases h with
  | preamble j phase hj state => simp [state] at hgap
  | data j phase hj state => simp [state] at hgap
  | fcs j phase hj state => simp [state] at hgap
  | gap c hc state count =>
    have hlast : f.txIfgCount = ifgNibbles - 1 ↔ c = 23 := by
      rw [count]
      exact ofNat_eq_ofNat (b := 23) (by omega) (by omega)
    have hend : wireNibbles body + c + 1 = frameCycles body ↔ c = 23 := by
      simp only [frameCycles]
      omega
    simp only [ethernetTxFramerStep, state, framerIfgStep, hlast]
    by_cases h23 : c = 23
    · rw [if_pos h23]
      refine ⟨by rw [decide_eq_true (hend.mpr h23)], fun hlt => ?_, fun _ => rfl, rfl⟩
      simp only [frameCycles] at hlt
      omega
    · rw [if_neg h23]
      refine ⟨by rw [decide_eq_false (mt hend.mp h23)], fun _ => ?_,
        fun he => absurd (hend.mp he) h23, rfl⟩
      refine .gap (c + 1) (by omega) rfl ?_
      simp only [count, BitVec.ofNat_add]
      rfl

theorem FramerAt.lt_frameCycles (h : FramerAt body k f) : k < frameCycles body := by
  cases h with
  | preamble j phase hj =>
    have hphase := Bool.toNat_le phase
    simp only [frameCycles, wireNibbles]
    omega
  | data j phase hj =>
    have hphase := Bool.toNat_le phase
    simp only [frameCycles, wireNibbles]
    omega
  | fcs j phase hj =>
    have hphase := Bool.toNat_le phase
    simp only [frameCycles, wireNibbles]
    omega
  | gap c hc =>
    simp only [frameCycles]
    omega

theorem FramerAt.not_idle (h : FramerAt body k f) : f.txState ≠ .txIdle := by
  cases h <;> simp [*]

theorem FramerAt.start (hidle : f.txState = .txIdle) (buf : Buffer txFrameBodyBytesInt)
    (len : BitVec 11) (hbody : body.length = max len.toNat minBody) :
    FramerAt body 0 (ethernetTxFramerStep f true len buf).1 ∧
      (ethernetTxFramerStep f true len buf).1.txLen = len ∧
      (ethernetTxFramerStep f true len buf).2 = f.silent false := by
  simp only [ethernetTxFramerStep, hidle, framerIdleStep, if_true]
  refine ⟨.preamble 0 false (by omega) rfl rfl rfl rfl ?_, trivial, rfl⟩
  have hlt : len < minEthFrameBodyBytes ↔ len.toNat < minBody := Iff.rfl
  simp only [hlt, hbody]
  split_ifs with hshort
  · rw [Nat.max_eq_right (by omega)]
    rfl
  · rw [Nat.max_eq_left (by omega), BitVec.ofNat_toNat, BitVec.setWidth_eq]

theorem framer_rest (hidle : f.txState = .txIdle) (buf : Buffer txFrameBodyBytesInt)
    (len : BitVec 11) :
    (ethernetTxFramerStep f false len buf).1.txState = .txIdle ∧
      (ethernetTxFramerStep f false len buf).2 = f.silent true := by
  simp [ethernetTxFramerStep, hidle, framerIdleStep]
  rfl

end ArtyEthernet
