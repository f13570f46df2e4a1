import ArtyEthernet.Library.Trace
import ArtyEthernet.Proofs.Framing

/-!
# The pins of a whole frame

The framer as a machine of its own, driven by arbitrary requests, lengths and buffers. From the
cycle a request starts it, the pins are those of `framePins` until the framer is idle again.
-/

namespace ArtyEthernet
open Words

structure FramerInputs where
  startRequest : Bool
  startLen : BitVec 11
  txFrameBodyBuf : Buffer txFrameBodyBytesInt

def framerStep (f : Framer) (i : FramerInputs) : Framer :=
  (ethernetTxFramerStep f i.startRequest i.startLen i.txFrameBodyBuf).1

def framerOutputs (f : Framer) (i : FramerInputs) : FramerPins :=
  (ethernetTxFramerStep f i.startRequest i.startLen i.txFrameBodyBuf).2

/-- The body sent for a request of `len` bytes. -/
def sentBody (buf : Buffer txFrameBodyBytesInt) (len : BitVec 11) : List Byte :=
  (List.range (max len.toNat 60)).map fun i =>
    if i < len.toNat ∧ i < 1514 then buf.get i else 0

/-- The bytes that are sent stay as they are in `buf`. -/
def Keeps (buf : Buffer txFrameBodyBytesInt) (len : BitVec 11) (i : FramerInputs) : Prop :=
  ∀ j < min len.toNat 1514, i.txFrameBodyBuf.get j = buf.get j

/-- The cycles of a frame: its nibbles, then the gap. -/
def framePins (toggle : Bool) (body : List Byte) : List FramerPins :=
  (toNibbles (wireBytes body)).mapIdx (fun k d =>
    ⟨true, d, if k + 1 = 2 * (8 + body.length + 4) then !toggle else toggle, true, false⟩) ++
  (List.range 24).map fun c => ⟨false, 0, !toggle, false, decide (c = 23)⟩

/-- Two high cycles with only low ones between them are at least 24 low cycles apart. -/
def FramesApart (pins : List FramerPins) : Prop :=
  ∀ before gap after a b, pins = before ++ a :: gap ++ b :: after → a.ethTxEn = true →
    b.ethTxEn = true → gap ≠ [] → (∀ g ∈ gap, g.ethTxEn = false) → 24 ≤ gap.length

section Body
variable {buf : Buffer txFrameBodyBytesInt} {len : BitVec 11} {i : FramerInputs}

@[simp] theorem length_sentBody (buf : Buffer txFrameBodyBytesInt) (len : BitVec 11) :
    (sentBody buf len).length = max len.toNat minBody := by
  simp [sentBody, minBody]

theorem Keeps.shows (h : Keeps buf len i) : ShowsBody i.txFrameBodyBuf len (sentBody buf len) := by
  intro j hj
  have hlt : j < 2048 := by
    have hmax := len.isLt
    rw [length_sentBody] at hj
    simp only [minBody] at hj
    omega
  have hpast : len ≤ BitVec.ofNat 11 j ↔ len.toNat ≤ j := by
    rw [BitVec.le_def, BitVec.toNat_ofNat, Nat.mod_eq_of_lt hlt]
  have hmax : txFrameBodyBytes ≤ BitVec.ofNat 11 j ↔ 1514 ≤ j := by
    rw [BitVec.le_def, BitVec.toNat_ofNat, Nat.mod_eq_of_lt hlt]
    exact Iff.rfl
  simp only [txFrameBodyByte, hpast, hmax, BitVec.toNat_ofNat, Nat.mod_eq_of_lt hlt, sentBody,
    List.getElem_map, List.getElem_range]
  by_cases hin : j < len.toNat ∧ j < 1514
  · rw [if_neg (by omega), if_pos hin, h j (by omega)]
  · rw [if_pos (by omega), if_neg hin]

end Body

section Pins
variable {toggle : Bool} {body : List Byte} {k : ℕ}

theorem length_framePins (toggle : Bool) (body : List Byte) :
    (framePins toggle body).length = frameCycles body := by
  simp [framePins, frameCycles, wireNibbles]

theorem framePins_nibble {d : Nibble} (hd : (toNibbles (wireBytes body))[k]? = some d) :
    (framePins toggle body)[k]? =
      some ⟨true, d, if k + 1 = wireNibbles body then !toggle else toggle, true, false⟩ := by
  have hk : k < (toNibbles (wireBytes body)).length := (List.getElem?_eq_some_iff.mp hd).1
  have hend : 2 * (8 + body.length + 4) = wireNibbles body := by
    simp only [wireNibbles]
    omega
  rw [framePins, List.getElem?_append_left (by simpa using hk), List.getElem?_mapIdx, hd, hend]
  rfl

theorem framePins_gap (hgap : wireNibbles body ≤ k) (hk : k < frameCycles body) :
    (framePins toggle body)[k]? =
      some ⟨false, 0, !toggle, false, decide (k + 1 = frameCycles body)⟩ := by
  have hlen : (toNibbles (wireBytes body)).length = wireNibbles body := by simp [wireNibbles]
  have hlast : k - wireNibbles body = 23 ↔ k + 1 = frameCycles body := by
    simp only [frameCycles] at hk ⊢
    omega
  simp only [frameCycles] at hk
  rw [framePins, List.getElem?_append_right (by simpa [hlen] using hgap), List.length_mapIdx, hlen,
    List.getElem?_map, List.getElem?_range (by omega), Option.map_some, decide_eq_decide.mpr hlast]

end Pins

theorem txFrame_step (f : Framer) (i : FramerInputs) :
    (framerStep f i).txFrame =
        (if f.txState = .txFcs ∧ f.txNibblePhase = true ∧ f.txFcsIndex = 3 then !f.txFrame
        else f.txFrame) ∧
      (framerOutputs f i).txFrameToggle = (framerStep f i).txFrame := by
  unfold framerStep framerOutputs ethernetTxFramerStep
  cases hstate : f.txState with
  | txIdle =>
    simp only [framerIdleStep]
    split_ifs <;> simp_all [Framer.silent]
  | txPreamble =>
    rw [framerPreambleStep_next]
    refine ⟨?_, by rw [← framerPreambleStep_next]; rfl⟩
    split_ifs <;> simp_all
  | txData =>
    rw [framerDataStep_next]
    refine ⟨?_, by rw [← framerDataStep_next]; rfl⟩
    dsimp only
    split_ifs <;> simp_all
  | txFcs =>
    rw [framerFcsStep_next]
    refine ⟨?_, by rw [← framerFcsStep_next]; rfl⟩
    split_ifs <;> simp_all
  | txIfg =>
    simp only [framerIfgStep]
    split_ifs <;> simp_all [Framer.silent]

theorem FramerAt.last_iff {body : List Byte} {k : ℕ} {f : Framer} (h : FramerAt body k f) :
    (f.txState = .txFcs ∧ f.txNibblePhase = true ∧ f.txFcsIndex = 3) ↔
      k + 1 = wireNibbles body := by
  cases h with
  | preamble j phase hj state =>
    have hphase := Bool.toNat_le phase
    simp only [state, wireNibbles, reduceCtorEq, false_and, false_iff]
    omega
  | data j phase hj state =>
    have hphase := Bool.toNat_le phase
    simp only [state, wireNibbles, reduceCtorEq, false_and, false_iff]
    omega
  | fcs j phase hj state index hphase =>
    have hlast : f.txFcsIndex = 3 ↔ j = 3 := by
      rw [index]
      exact ofNat_eq_ofNat (b := 3) (by omega) (by omega)
    simp only [state, hphase, hlast, wireNibbles, true_and]
    cases phase <;> simp <;> omega
  | gap c hc state =>
    simp only [state, reduceCtorEq, false_and, false_iff]
    omega

structure SendingAt (body : List Byte) (len : BitVec 11) (toggle : Bool) (k : ℕ) (f : Framer) :
    Prop where
  frame : FramerAt body k f
  len : f.txLen = len
  toggle : f.txFrame = if k < wireNibbles body then toggle else !toggle

section Frame
variable {buf : Buffer txFrameBodyBytesInt} {len : BitVec 11} {toggle : Bool} {k : ℕ} {f : Framer}
  {i : FramerInputs}

theorem framerPins_nibble {r : FramerPins} (enabled : r.ethTxEn = true)
    (active : r.txActive = true) (busy : r.txIdle = false) :
    r = ⟨true, r.ethTxd, r.txFrameToggle, true, false⟩ := by
  cases r
  simp_all

theorem SendingAt.step (h : SendingAt (sentBody buf len) len toggle k f) (hi : Keeps buf len i) :
    (framePins toggle (sentBody buf len))[k]? = some (framerOutputs f i) ∧
      (k + 1 < frameCycles (sentBody buf len) →
        SendingAt (sentBody buf len) len toggle (k + 1) (framerStep f i)) ∧
      (k + 1 = frameCycles (sentBody buf len) → (framerStep f i).txState = .txIdle) := by
  obtain ⟨hframe, hpin⟩ := txFrame_step f i
  have hlt := h.frame.lt_frameCycles
  have hmax := len.isLt
  have hlen := length_sentBody buf len
  simp only [h.frame.last_iff, h.toggle] at hframe
  by_cases hk : k < wireNibbles (sentBody buf len)
  · have hshows : ShowsBody i.txFrameBodyBuf f.txLen (sentBody buf len) := h.len ▸ hi.shows
    have hemit := h.frame.emits i.startRequest i.startLen hk (by simp only [minBody] at hlen; omega)
      (by simp only [minBody] at hlen; omega) hshows
    have hnext : k + 1 < frameCycles (sentBody buf len) := by
      simp only [frameCycles]
      omega
    rw [if_pos hk] at hframe
    refine ⟨?_, fun _ => ⟨hemit.next, hemit.len.trans h.len, ?_⟩, fun hend => by omega⟩
    · have hflip : (if k + 1 = wireNibbles (sentBody buf len) then !toggle else toggle) =
          (framerOutputs f i).txFrameToggle := by rw [hpin, hframe]
      rw [framePins_nibble hemit.nibble, hflip]
      exact congrArg some (framerPins_nibble hemit.enabled hemit.active hemit.busy).symm
    · refine Eq.trans hframe ?_
      split_ifs <;> first | rfl | omega
  · obtain ⟨hpins, hnext, hend, hkeep⟩ :=
      h.frame.gap_step i.startRequest i.startLen i.txFrameBodyBuf (by omega)
    rw [if_neg hk, if_neg (by omega)] at hframe
    refine ⟨?_, fun hmore => ⟨hnext hmore, hkeep.trans h.len, ?_⟩, hend⟩
    · rw [framePins_gap (by omega) hlt, framerOutputs, hpins, Framer.silent, h.toggle, if_neg hk]
    · rw [if_neg (by omega)]
      exact hframe

theorem SendingAt.run {later : List FramerInputs}
    (h : SendingAt (sentBody buf len) len toggle k f) (hkeeps : ∀ i ∈ later, Keeps buf len i)
    (hlen : later.length + k = frameCycles (sentBody buf len)) :
    Synchronous.trace framerStep framerOutputs f later =
        (framePins toggle (sentBody buf len)).drop k ∧
      (Synchronous.run framerStep f later).txState = .txIdle := by
  induction later generalizing k f with
  | nil =>
    have hlt := h.frame.lt_frameCycles
    simp only [List.length_nil] at hlen
    omega
  | cons i later ih =>
    obtain ⟨hpins, hnext, hend⟩ := h.step (hkeeps i (by simp))
    obtain ⟨hk, hget⟩ := List.getElem?_eq_some_iff.mp hpins
    rw [List.length_cons] at hlen
    rw [Synchronous.trace_cons, Synchronous.run_cons, List.drop_eq_getElem_cons hk, hget]
    by_cases hlast : k + 1 = frameCycles (sentBody buf len)
    · have hnil : later = [] := List.length_eq_zero_iff.mp (by omega)
      have hdrop : (framePins toggle (sentBody buf len)).drop (k + 1) = [] := by
        rw [hlast, ← length_framePins toggle, List.drop_length]
      rw [hnil, hdrop]
      exact ⟨rfl, hend hlast⟩
    · have hlt := h.frame.lt_frameCycles
      obtain ⟨htrace, hidle⟩ :=
        ih (hnext (by omega)) (fun j hj => hkeeps j (by simp [hj])) (by omega)
      rw [htrace]
      exact ⟨rfl, hidle⟩

theorem framer_run {start : FramerInputs} {later : List FramerInputs} (hidle : f.txState = .txIdle)
    (hstart : start.startRequest = true)
    (hlater : later.length = frameCycles (sentBody buf start.startLen))
    (hkeeps : ∀ i ∈ later, Keeps buf start.startLen i) :
    Synchronous.trace framerStep framerOutputs f (start :: later) =
        ⟨false, 0, f.txFrame, false, false⟩ ::
          framePins f.txFrame (sentBody buf start.startLen) ∧
      (Synchronous.run framerStep f (start :: later)).txState = .txIdle := by
  obtain ⟨hat, hlen, hpins⟩ := FramerAt.start hidle start.txFrameBodyBuf start.startLen
    (length_sentBody buf start.startLen)
  have hsending : SendingAt (sentBody buf start.startLen) start.startLen f.txFrame 0
      (framerStep f start) := by
    unfold framerStep
    rw [hstart]
    refine ⟨hat, hlen, ?_⟩
    have hzero : 0 < wireNibbles (sentBody buf start.startLen) := by simp [wireNibbles]
    rw [if_pos hzero]
    simp [ethernetTxFramerStep, hidle, framerIdleStep]
  obtain ⟨htrace, hend⟩ := hsending.run hkeeps hlater
  rw [Synchronous.trace_cons, Synchronous.run_cons, htrace, List.drop_zero]
  refine ⟨?_, hend⟩
  congr 1
  unfold framerOutputs
  rw [hstart, hpins]
  rfl

end Frame

/-- The low cycles still due before the next nibble can go out. -/
def gapDue (f : Framer) : ℕ :=
  match f.txState with
  | .txIdle => 1
  | .txIfg => max 1 (24 - f.txIfgCount.toNat)
  | _ => 0

/-- Only a framer with no low cycle due sends, and a burst of nibbles leaves 24 of them due. -/
theorem gapDue_enabled (f : Framer) (i : FramerInputs) :
    ((framerOutputs f i).ethTxEn = true ↔ gapDue f = 0) ∧
      (gapDue f = 0 → gapDue (framerStep f i) = 0 ∨ gapDue (framerStep f i) = 24) := by
  unfold framerOutputs framerStep ethernetTxFramerStep
  cases hstate : f.txState with
  | txIdle =>
    simp only [framerIdleStep, gapDue, hstate]
    split_ifs <;> simp [Framer.silent]
  | txPreamble =>
    refine ⟨by simp [gapDue, hstate, framerPreambleStep, Framer.emitting, miiTxEmitByteStep], ?_⟩
    intro _
    rw [framerPreambleStep_next]
    split_ifs <;> simp [gapDue, hstate]
  | txData =>
    refine ⟨by simp [gapDue, hstate, framerDataStep, Framer.emitting, miiTxEmitByteStep], ?_⟩
    intro _
    rw [framerDataStep_next]
    dsimp only
    split_ifs <;> simp [gapDue, hstate]
  | txFcs =>
    refine ⟨by simp [gapDue, hstate, framerFcsStep, Framer.emitting, miiTxEmitByteStep], ?_⟩
    intro _
    rw [framerFcsStep_next]
    split_ifs <;> simp [gapDue, hstate]
  | txIfg =>
    simp only [framerIfgStep, gapDue, hstate]
    split_ifs <;> simp [Framer.silent]

theorem gapDue_step (f : Framer) (i : FramerInputs) : gapDue f ≤ gapDue (framerStep f i) + 1 := by
  unfold framerStep ethernetTxFramerStep
  cases hstate : f.txState with
  | txIfg =>
    have hinc : f.txIfgCount ≠ ifgNibbles - 1 →
        24 - f.txIfgCount.toNat ≤ 24 - (f.txIfgCount + 1).toNat + 1 := by
      intro _
      have hone : (1 : BitVec 6).toNat = 1 := rfl
      have hlt := f.txIfgCount.isLt
      rw [BitVec.toNat_add, hone]
      omega
    have hlast : f.txIfgCount = ifgNibbles - 1 → 24 - f.txIfgCount.toNat = 1 := by
      intro h
      rw [h]
      rfl
    simp only [framerIfgStep, gapDue, hstate]
    split_ifs with h
    · have hone := hlast h
      omega
    · have hless := hinc h
      dsimp only
      omega
  | _ => simp [gapDue, hstate]

theorem gapDue_le {gap after : List FramerPins} {b : FramerPins} {f : Framer}
    {inputs : List FramerInputs}
    (h : Synchronous.trace framerStep framerOutputs f inputs = gap ++ b :: after)
    (hb : b.ethTxEn = true) : gapDue f ≤ gap.length := by
  induction gap generalizing f inputs with
  | nil =>
    cases inputs with
    | nil => simp at h
    | cons i inputs =>
      rw [Synchronous.trace_cons, List.nil_append] at h
      rw [← (List.cons.inj h).1] at hb
      exact Nat.le_of_eq ((gapDue_enabled f i).1.mp hb)
  | cons g gap ih =>
    cases inputs with
    | nil => simp at h
    | cons i inputs =>
      rw [Synchronous.trace_cons, List.cons_append] at h
      have hrest := ih (List.cons.inj h).2
      have hstep := gapDue_step f i
      rw [List.length_cons]
      omega

theorem framesApart_run (f : Framer) (inputs : List FramerInputs) :
    FramesApart (Synchronous.trace framerStep framerOutputs f inputs) := by
  intro before gap after a b h ha hb hne hlow
  induction before generalizing f inputs with
  | nil =>
    cases inputs with
    | nil => simp at h
    | cons i inputs =>
      rw [Synchronous.trace_cons, List.nil_append, List.cons_append] at h
      obtain ⟨hhead, htail⟩ := List.cons.inj h
      rw [← hhead] at ha
      have henabled := gapDue_enabled f i
      rcases henabled.2 (henabled.1.mp ha) with hzero | hfull
      · obtain ⟨g, gap, rfl⟩ := List.exists_cons_of_ne_nil hne
        cases inputs with
        | nil => simp at htail
        | cons j inputs =>
          rw [Synchronous.trace_cons, List.cons_append] at htail
          have hoff := hlow g (by simp)
          rw [← (List.cons.inj htail).1] at hoff
          have hon := (gapDue_enabled (framerStep f i) j).1.mpr hzero
          rw [hon] at hoff
          contradiction
      · rw [← hfull]
        exact gapDue_le htail hb
  | cons p before ih =>
    cases inputs with
    | nil => simp at h
    | cons i inputs =>
      rw [Synchronous.trace_cons, List.cons_append, List.cons_append] at h
      exact ih _ _ (List.cons.inj h).2

/-- The transmit framer: its pins during a frame, for every length and whatever is requested
meanwhile. -/
theorem framer_sends_frame (f : Framer) (hidle : f.txState = .txIdle)
    (buf : Buffer txFrameBodyBytesInt) (start : FramerInputs) (later : List FramerInputs)
    (hstart : start.startRequest = true)
    (hlater : later.length = 2 * (8 + max start.startLen.toNat 60 + 4) + 24)
    (hkeeps : ∀ i ∈ later, Keeps buf start.startLen i) :
    Synchronous.trace framerStep framerOutputs f (start :: later) =
        ⟨false, 0, f.txFrame, false, false⟩ ::
          framePins f.txFrame (sentBody buf start.startLen) ∧
      (Synchronous.run framerStep f (start :: later)).txState = .txIdle ∧
      (∀ (start' : FramerInputs) (later' : List FramerInputs), start'.startRequest = true →
        start'.startLen = start.startLen → later'.length = later.length →
        (∀ i ∈ later', Keeps buf start.startLen i) →
          Synchronous.trace framerStep framerOutputs f (start' :: later') =
            Synchronous.trace framerStep framerOutputs f (start :: later)) ∧
      ∀ more : List FramerInputs,
        FramesApart (Synchronous.trace framerStep framerOutputs f (start :: later ++ more)) := by
  have hlen : later.length = frameCycles (sentBody buf start.startLen) := by
    rw [hlater, frameCycles, wireNibbles, length_sentBody, minBody]
    omega
  obtain ⟨htrace, hend⟩ := framer_run hidle hstart hlen hkeeps
  refine ⟨htrace, hend, fun start' later' hstart' hsame hlength hkeeps' => ?_,
    fun more => framesApart_run f _⟩
  rw [← hsame] at hlen hkeeps'
  rw [htrace, (framer_run hidle hstart' (hlength.trans hlen) hkeeps').1, hsame]

/-- A frame of 62 bytes, while longer ones are requested and the buffer is written past it. -/
theorem framer_sends_frame_requested :
    Synchronous.trace framerStep framerOutputs .init
        (⟨true, 62, ⟨fun j => BitVec.ofNat 8 j⟩⟩ :: List.replicate 172
          ⟨true, 1514, ⟨fun j => if j.val < 62 then BitVec.ofNat 8 j else 0xff⟩⟩) =
      ⟨false, 0, false, false, false⟩ ::
        framePins false (sentBody ⟨fun j => BitVec.ofNat 8 j⟩ 62) :=
  (framer_sends_frame .init rfl ⟨fun j => BitVec.ofNat 8 j⟩ ⟨true, 62, _⟩
    (List.replicate 172 _) rfl (by rw [List.length_replicate]; rfl)
    (fun i hi j hj => by
      rw [List.eq_of_mem_replicate hi]
      have hlt : j < 62 := hj
      have hin : j < txFrameBodyBytesInt := hlt.trans (by decide)
      rw [Buffer.get, Buffer.get, dif_pos hin, dif_pos hin]
      exact if_pos hlt)).1

end ArtyEthernet
