import ArtyEthernet.Library.ToggleSync
import ArtyEthernet.Proofs.Delivery
import ArtyEthernet.Results.SentFrame

/-!
# The frame toggle

`tx_frame_toggle` flips in the cycle that drives the last nibble of a frame and in no other, so its
flips count the frames on the wire. Preamble, padding, check sequence, gap and the idle cycle before
the next start keep two flips apart.
-/

namespace ArtyEthernet
open Words ToggleSync

def Framer.completes (f : Framer) : Bool :=
  f.txState == .txFcs && f.txNibblePhase && f.txFcsIndex == 3

/-- The cycles there must have been since the last flip, as the counters of the framer show. -/
def Framer.sinceFlip (f : Framer) : ℕ :=
  match f.txState with
  | .txIdle => 24
  | .txPreamble => 25 + (2 * f.txByteIndex.toNat + f.txNibblePhase.toNat)
  | .txData => 41 + (2 * f.txByteIndex.toNat + f.txNibblePhase.toNat)
  | .txFcs => 161 + (2 * f.txFcsIndex.toNat + f.txNibblePhase.toNat)
  | .txIfg => f.txIfgCount.toNat

def Framer.Padded (f : Framer) : Prop :=
  f.txState = .txPreamble ∨ f.txState = .txData → 60 ≤ f.txFrameBodyLen.toNat

variable {f : Framer} {i : FramerInputs}

theorem Framer.completes_iff : f.completes = true ↔
    f.txState = .txFcs ∧ f.txNibblePhase = true ∧ f.txFcsIndex = 3 := by
  simp [Framer.completes, and_assoc]

theorem toNat_succ_le {w : ℕ} (x : BitVec w) : (x + 1).toNat ≤ x.toNat + 1 := by
  have hone : (1#w).toNat ≤ 1 := by
    rw [BitVec.toNat_ofNat]
    exact Nat.mod_le _ _
  change (x + 1#w).toNat ≤ _
  rw [BitVec.toNat_add]
  exact (Nat.mod_le _ _).trans (Nat.add_le_add_left hone _)

structure FlipStep (f f' : Framer) : Prop where
  padded : f'.Padded
  flips : f.completes = true → f.sinceFlip = 168 ∧ f'.sinceFlip = 0
  waits : f.completes = false → f'.sinceFlip ≤ f.sinceFlip + 1

theorem FlipStep.of_waits {f' : Framer} (padded : f'.Padded) (hoff : f.completes = false)
    (hle : f'.sinceFlip ≤ f.sinceFlip + 1) : FlipStep f f' where
  padded := padded
  flips hon := by rw [hoff] at hon; contradiction
  waits _ := hle

theorem framerIdleStep_flip (hstate : f.txState = .txIdle) (startRequest : Bool)
    (startLen : BitVec 11) : FlipStep f (framerIdleStep f startRequest startLen).1 := by
  have hoff : f.completes = false := by simp [Framer.completes, hstate]
  cases startRequest with
  | false =>
    refine .of_waits ?_ hoff ?_
    · simp [framerIdleStep, Framer.Padded, hstate]
    · simp [framerIdleStep, Framer.sinceFlip, hstate]
  | true =>
    refine .of_waits (fun _ => ?_) hoff ?_
    · simp only [framerIdleStep, if_true]
      split_ifs with hshort
      · decide
      · rw [BitVec.lt_def] at hshort
        exact Nat.le_of_not_lt hshort
    · simp [framerIdleStep, Framer.sinceFlip, hstate]

theorem framerPreambleStep_flip (hpad : f.Padded) (hstate : f.txState = .txPreamble) :
    FlipStep f (framerPreambleStep f).1 := by
  have hoff : f.completes = false := by simp [Framer.completes, hstate]
  have hlen := hpad (Or.inl hstate)
  rw [framerPreambleStep_next]
  split_ifs with hphase hlast
  · refine .of_waits (fun _ => hlen) hoff ?_
    simp only [Framer.sinceFlip, hstate, hphase, Bool.toNat_true, Bool.toNat_false]
    omega
  · refine .of_waits (fun _ => hlen) hoff ?_
    simp [Framer.sinceFlip, hstate, hlast, hphase]
  · refine .of_waits (fun _ => hlen) hoff ?_
    have hsucc := toNat_succ_le f.txByteIndex
    have hon : f.txNibblePhase = true := by simpa using hphase
    simp only [Framer.sinceFlip, hstate, hon, Bool.toNat_true, Bool.toNat_false]
    omega

theorem framerDataStep_flip (hpad : f.Padded) (hstate : f.txState = .txData)
    (buf : Buffer txFrameBodyBytesInt) : FlipStep f (framerDataStep f buf).1 := by
  have hoff : f.completes = false := by simp [Framer.completes, hstate]
  have hlen := hpad (Or.inr hstate)
  rw [framerDataStep_next]
  dsimp only
  split_ifs with hphase hlast
  · refine .of_waits (fun _ => hlen) hoff ?_
    simp only [Framer.sinceFlip, hstate, hphase, Bool.toNat_true, Bool.toNat_false]
    omega
  · refine .of_waits (fun h => by simp at h) hoff ?_
    -- the body is at least 60 bytes long
    have hindex : f.txByteIndex.toNat = f.txFrameBodyLen.toNat - 1 := by
      rw [hlast, BitVec.toNat_sub_of_le (by rw [BitVec.le_def]; simp; omega)]
      rfl
    have hon : f.txNibblePhase = true := by simpa using hphase
    have hzero : (0 : BitVec 2).toNat = 0 := rfl
    simp only [Framer.sinceFlip, hstate, hon, Bool.toNat_true, Bool.toNat_false, hzero, hindex]
    omega
  · refine .of_waits (fun _ => hlen) hoff ?_
    have hsucc := toNat_succ_le f.txByteIndex
    have hon : f.txNibblePhase = true := by simpa using hphase
    simp only [Framer.sinceFlip, hstate, hon, Bool.toNat_true, Bool.toNat_false]
    omega

theorem framerFcsStep_flip (hstate : f.txState = .txFcs) : FlipStep f (framerFcsStep f).1 := by
  rw [framerFcsStep_next]
  split_ifs with hphase hlast
  · refine .of_waits (by simp [Framer.Padded, hstate]) (by simp [Framer.completes, hphase]) ?_
    simp only [Framer.sinceFlip, hstate, hphase, Bool.toNat_true, Bool.toNat_false]
    omega
  · have hon : f.txNibblePhase = true := by simpa using hphase
    have hcompletes : f.completes = true := Framer.completes_iff.mpr ⟨hstate, hon, hlast⟩
    refine ⟨by simp [Framer.Padded], fun _ => ?_, fun hoff => by simp [hcompletes] at hoff⟩
    simp [Framer.sinceFlip, hstate, hon, hlast]
  · have hoff : f.completes = false := by
      rw [← Bool.not_eq_true, Framer.completes_iff]
      exact fun h => hlast h.2.2
    refine .of_waits (by simp [Framer.Padded, hstate]) hoff ?_
    have hsucc := toNat_succ_le f.txFcsIndex
    have hon : f.txNibblePhase = true := by simpa using hphase
    simp only [Framer.sinceFlip, hstate, hon, Bool.toNat_true, Bool.toNat_false]
    omega

theorem framerIfgStep_flip (hstate : f.txState = .txIfg) : FlipStep f (framerIfgStep f).1 := by
  have hoff : f.completes = false := by simp [Framer.completes, hstate]
  unfold framerIfgStep
  split_ifs with hlast
  · refine .of_waits (by simp [Framer.Padded]) hoff ?_
    have hcount : f.txIfgCount.toNat = 23 := by rw [hlast]; rfl
    simp [Framer.sinceFlip, hstate, hcount]
  · refine .of_waits (by simp [Framer.Padded, hstate]) hoff ?_
    have hsucc := toNat_succ_le f.txIfgCount
    simp only [Framer.sinceFlip, hstate]
    omega

theorem framerStep_flip (hpad : f.Padded) (i : FramerInputs) : FlipStep f (framerStep f i) := by
  unfold framerStep ethernetTxFramerStep
  cases hstate : f.txState with
  | txIdle => exact framerIdleStep_flip hstate i.startRequest i.startLen
  | txPreamble => exact framerPreambleStep_flip hpad hstate
  | txData => exact framerDataStep_flip hpad hstate i.txFrameBodyBuf
  | txFcs => exact framerFcsStep_flip hstate
  | txIfg => exact framerIfgStep_flip hstate

def Endpoint.framerInputs (s : Endpoint) (i : RxPins) : FramerInputs :=
  let txQueue := (s.protoStage i).txQueue
  let startRequest := txStartRequest s.drain txQueue
  { startRequest
    startLen := (txQueue.slotMeta txQueue.readIdx).frameBodyLen
    txFrameBodyBuf := txQueue.bytes (if startRequest then txQueue.readIdx
      else s.drain.framerSlotIdx) }

theorem ethernetTxQueueStep_framer (st : TxDrain) (txQueue : TxPacketQueue) :
    let startRequest := txStartRequest st txQueue
    let r := ethernetTxFramerStep st.framer startRequest
      (txQueue.slotMeta txQueue.readIdx).frameBodyLen
      (txQueue.bytes (if startRequest then txQueue.readIdx else st.framerSlotIdx))
    (ethernetTxQueueStep st txQueue).1.framer = r.1 ∧
      (ethernetTxQueueStep st txQueue).2.2 = r.2 := by
  dsimp only [ethernetTxQueueStep, packetQueueReadSlot]
  split_ifs <;> exact ⟨rfl, rfl⟩

theorem Endpoint.framer_step (s : Endpoint) (i : RxPins) :
    (s.step i).drain.framer = framerStep s.drain.framer (s.framerInputs i) ∧
      (s.outputs i).txFrameToggle =
        (framerOutputs s.drain.framer (s.framerInputs i)).txFrameToggle := by
  obtain ⟨hframer, hpins⟩ := ethernetTxQueueStep_framer s.drain (s.protoStage i).txQueue
  exact ⟨hframer, congrArg FramerPins.txFrameToggle hpins⟩

theorem Endpoint.toggle_step (s : Endpoint) (i : RxPins) :
    (s.outputs i).txFrameToggle = (s.step i).drain.framer.txFrame ∧
      (s.step i).drain.framer.txFrame = (s.drain.framer.txFrame ^^ s.drain.framer.completes) := by
  obtain ⟨hnext, hpin⟩ := s.framer_step i
  obtain ⟨hflip, hlevel⟩ := txFrame_step s.drain.framer (s.framerInputs i)
  rw [hpin, hlevel, hnext, hflip]
  simp only [← Framer.completes_iff, true_and]
  cases s.drain.framer.completes <;> simp

variable {sent held : List ProtocolTxRequest} {pins : List TxPins} {left : ℕ}
  {inputs : List RxPins}

/-- Between frames the framer is idle; otherwise `left` tells how far the head frame has got. -/
theorem WireAt.elapsed {drain : TxDrain} {readIdx : BitVec 2}
    (h : WireAt sent held drain readIdx pins left) :
    left = heldCycles held ∧ drain.framer.txState = .txIdle ∨
      ∃ r rest k, held = r :: rest ∧ FramerAt (padBody r.frameBody) k drain.framer ∧
        left + (k + 1) = heldCycles held := by
  cases h with
  | resting _ idle _ _ hleft => exact Or.inl ⟨hleft, idle⟩
  | sending r rest k hheld _ _ frame _ _ _ _ hleft => exact Or.inr ⟨r, rest, k, hheld, frame, hleft⟩
  | gap r rest k hheld _ _ frame _ _ _ hleft => exact Or.inr ⟨r, rest, k, hheld, frame, hleft⟩

/-- A frame counts as emitted from its last nibble on, and leaves the ring after its gap. -/
theorem WireAt.length_emittedRuns {readIdx : BitVec 2}
    (h : WireAt sent held (runFrom inputs).drain readIdx (drivenPins inputs) left) :
    (emittedRuns inputs).length = sent.length + (runFrom inputs).inGap.toNat := by
  cases h with
  | resting _ idle hruns =>
    have hin : (runFrom inputs).inGap = false := by simp [Endpoint.inGap, idle]
    simp [emittedRuns, hin, hruns]
  | sending r rest k _ _ _ frame _ hk hruns hopen =>
    by_cases hlast : k = wireNibbles (padBody r.frameBody)
    · have hin : (runFrom inputs).inGap = true := by
        simp [Endpoint.inGap, frame.gap_iff, hlast]
      have hne : wireOpen (drivenPins inputs) ≠ [] := by
        rw [hopen, List.take_of_length_le (by rw [length_nibbles, hlast])]
        exact nibbles_ne_nil r
      simp [emittedRuns, hin, hne, hruns]
    · have hlt : ¬ wireNibbles (padBody r.frameBody) ≤ k := by omega
      have hin : (runFrom inputs).inGap = false := by
        simp [Endpoint.inGap, frame.gap_iff, hlt]
      simp [emittedRuns, hin, hruns]
  | gap r rest k _ _ _ frame hk hruns hopen =>
    have hin : (runFrom inputs).inGap = true := by
      simp [Endpoint.inGap, frame.gap_iff, hk.le]
    simp [emittedRuns, hin, hruns, hopen]

section Counts
variable {body : List Byte} {k : ℕ} {s : Endpoint}

theorem inGap_of_idle (h : s.drain.framer.txState = .txIdle) :
    s.inGap = false ∧ s.drain.framer.completes = false := by
  simp [Endpoint.inGap, Framer.completes, h]

theorem FramerAt.inGap_eq (h : FramerAt body k s.drain.framer) :
    s.inGap = decide (wireNibbles body ≤ k) ∧
      s.drain.framer.completes = decide (k + 1 = wireNibbles body) := by
  constructor
  · rw [Bool.eq_iff_iff, decide_eq_true_iff, ← h.gap_iff]
    simp [Endpoint.inGap]
  · rw [Bool.eq_iff_iff, decide_eq_true_iff, ← h.last_iff, Framer.completes_iff]

end Counts

theorem inGap_keep {s s' : Endpoint} {fin : List ProtocolTxRequest} {left' : ℕ}
    {readIdx readIdx' : BitVec 2} {pins' : List TxPins}
    (h : WireAt sent held s.drain readIdx pins left)
    (h' : WireAt sent (held ++ fin) s'.drain readIdx' pins' left')
    (hleft : left' = left + heldCycles fin - 1) :
    s'.inGap.toNat = s.inGap.toNat + s.drain.framer.completes.toNat := by
  have hsum := heldCycles_append held fin
  rcases h.elapsed with ⟨hwhole, hidle⟩ | ⟨r, rest, k, hheld, frame, hk⟩
  · obtain ⟨hgap, hcompletes⟩ := inGap_of_idle hidle
    rw [hgap, hcompletes]
    rcases h'.elapsed with ⟨-, hidle'⟩ | ⟨r', rest', k', -, frame', hk'⟩
    · rw [(inGap_of_idle hidle').1]
      rfl
    · have hzero : k' = 0 := by omega
      have hlow : ¬ wireNibbles (padBody r'.frameBody) ≤ k' := by
        simp only [wireNibbles]
        omega
      rw [frame'.inGap_eq.1, decide_eq_false hlow]
      rfl
  · have hlt := frame.lt_frameCycles
    have hcycles : heldCycles held = frameCycles (padBody r.frameBody) + 1 + heldCycles rest := by
      rw [hheld, heldCycles_cons]
      rfl
    rcases h'.elapsed with ⟨hwhole', -⟩ | ⟨r', rest', k', hheld', frame', hk'⟩
    · omega
    · rw [hheld, List.cons_append] at hheld'
      obtain ⟨rfl, -⟩ := List.cons.inj hheld'
      have hnext : k' = k + 1 := by omega
      rw [frame.inGap_eq.1, frame.inGap_eq.2, frame'.inGap_eq.1, hnext]
      by_cases hlast : k + 1 = wireNibbles (padBody r.frameBody)
      · have hlow : ¬ wireNibbles (padBody r.frameBody) ≤ k := by omega
        rw [decide_eq_true hlast, decide_eq_true hlast.ge, decide_eq_false hlow]
        rfl
      · have hsame : wireNibbles (padBody r.frameBody) ≤ k + 1 ↔
            wireNibbles (padBody r.frameBody) ≤ k := by omega
        rw [decide_eq_false hlast, decide_eq_decide.mpr hsame]
        rfl

theorem inGap_consume {s s' : Endpoint} {fin rest : List ProtocolTxRequest}
    {request : ProtocolTxRequest} {left' : ℕ} {readIdx readIdx' : BitVec 2} {pins' : List TxPins}
    (h : WireAt sent held s.drain readIdx pins left) (hheld : held ++ fin = request :: rest)
    (h' : WireAt (sent ++ [request]) rest s'.drain readIdx' pins' left')
    (hleft : left' = left + heldCycles fin - 1) :
    s'.inGap = false ∧ s.inGap = true ∧ s.drain.framer.completes = false := by
  have hsum : heldCycles held + heldCycles fin =
      frameCycles (padBody request.frameBody) + 1 + heldCycles rest := by
    rw [← heldCycles_append, hheld, heldCycles_cons]
    rfl
  rcases h.elapsed with ⟨hwhole, -⟩ | ⟨r, others, k, hcons, frame, hk⟩
  · have hle := h'.left_le
    simp only [frameCycles] at hsum
    omega
  · rw [hcons, List.cons_append] at hheld
    obtain ⟨rfl, -⟩ := List.cons.inj hheld
    have hlt := frame.lt_frameCycles
    rcases h'.elapsed with ⟨hwhole', hidle'⟩ | ⟨r', others', k', -, -, hk'⟩
    · have hlast : k + 1 = frameCycles (padBody r.frameBody) := by omega
      simp only [frameCycles] at hlast
      refine ⟨(inGap_of_idle hidle').1, ?_, ?_⟩
      · rw [frame.inGap_eq.1]
        exact decide_eq_true (by omega)
      · rw [frame.inGap_eq.2]
        exact decide_eq_false (by omega)
    · omega

theorem TxAt.emitted_step (h : TxAt sent held (drivenPins inputs) left (runFrom inputs))
    (i : RxPins) :
    (emittedRuns (inputs ++ [i])).length =
      (emittedRuns inputs).length + (runFrom inputs).drain.framer.completes.toNat := by
  have hnext : (runFrom (inputs ++ [i])).drain = ((runFrom inputs).txStage i).1 := by
    rw [runFrom_snoc]
    rfl
  have hmove := h.drainMove i
  rw [← drivenPins_snoc] at hmove
  rw [h.wire.length_emittedRuns]
  cases hmove with
  | keep ring wire =>
    rw [← hnext] at wire
    rw [wire.length_emittedRuns, inGap_keep h.wire wire rfl]
    omega
  | consume request rest hheld ring wire =>
    rw [← hnext] at wire
    obtain ⟨hgap', hgap, hcompletes⟩ := inGap_consume h.wire hheld wire rfl
    rw [wire.length_emittedRuns, hgap', hgap, hcompletes, List.length_append]
    rfl

def frameToggles (inputs : List RxPins) : List Bool :=
  (drivenPins inputs).map TxPins.txFrameToggle

@[simp] theorem frameToggles_snoc (inputs : List RxPins) (i : RxPins) :
    frameToggles (inputs ++ [i]) =
      frameToggles inputs ++ [((runFrom inputs).outputs i).txFrameToggle] := by
  simp [frameToggles]

@[simp] theorem length_frameToggles (inputs : List RxPins) :
    (frameToggles inputs).length = inputs.length := by
  simp [frameToggles, drivenPins]

structure TogglesAt (inputs : List RxPins) : Prop where
  level : (frameToggles inputs).getLastD false = (runFrom inputs).drain.framer.txFrame
  count : (flipTimes (frameToggles inputs)).length = (emittedFrames inputs).length
  padded : (runFrom inputs).drain.framer.Padded
  since : ∀ t ∈ flipTimes (frameToggles inputs),
    t + 1 + (runFrom inputs).drain.framer.sinceFlip ≤ inputs.length
  spaced : Spaced 169 (frameToggles inputs)

theorem togglesAt_nil : TogglesAt [] where
  level := rfl
  count := rfl
  padded h := by simp [runFrom, Endpoint.reset, TxDrain.init, Framer.init] at h
  since t ht := by simp [frameToggles, drivenPins] at ht
  spaced := List.Pairwise.nil

theorem TogglesAt.step (h : TogglesAt inputs) (i : RxPins) : TogglesAt (inputs ++ [i]) := by
  obtain ⟨sent, held, left, htx, -⟩ := txAt_run inputs
  have hemitted := htx.emitted_step i
  obtain ⟨hpin, hlevel⟩ := (runFrom inputs).toggle_step i
  have hflip := framerStep_flip h.padded ((runFrom inputs).framerInputs i)
  rw [← ((runFrom inputs).framer_step i).1] at hflip
  have hsame : ((runFrom inputs).outputs i).txFrameToggle = (frameToggles inputs).getLastD false ↔
      (runFrom inputs).drain.framer.completes = false := by
    rw [hpin, hlevel, h.level]
    cases (runFrom inputs).drain.framer.txFrame <;>
      cases (runFrom inputs).drain.framer.completes <;> simp
  have hcount : (emittedFrames (inputs ++ [i])).length =
      (emittedFrames inputs).length + (runFrom inputs).drain.framer.completes.toNat := by
    rw [emittedFrames, emittedFrames, List.length_map, List.length_map, hemitted]
  cases hdone : (runFrom inputs).drain.framer.completes with
  | false =>
    have htimes : flipTimes (frameToggles (inputs ++ [i])) = flipTimes (frameToggles inputs) := by
      rw [frameToggles_snoc, flipTimes_snoc, if_pos (hsame.mpr hdone), List.append_nil]
    refine ⟨?_, ?_, ?_, ?_, ?_⟩
    · rw [frameToggles_snoc, runFrom_snoc, ← hpin]
      simp
    · rw [htimes, h.count, hcount, hdone]
      rfl
    · rw [runFrom_snoc]
      exact hflip.padded
    · intro t ht
      rw [htimes] at ht
      have hold := h.since t ht
      have hwait := hflip.waits hdone
      rw [runFrom_snoc, List.length_append, List.length_singleton]
      omega
    · rw [Spaced, htimes]
      exact h.spaced
  | true =>
    have hne : ((runFrom inputs).outputs i).txFrameToggle ≠
        (frameToggles inputs).getLastD false := by
      rw [Ne, hsame, hdone]
      exact Bool.true_eq_false.mp
    have htimes : flipTimes (frameToggles (inputs ++ [i])) =
        flipTimes (frameToggles inputs) ++ [inputs.length] := by
      rw [frameToggles_snoc, flipTimes_snoc, if_neg hne, length_frameToggles]
    obtain ⟨hlate, hzero⟩ := hflip.flips hdone
    refine ⟨?_, ?_, ?_, ?_, ?_⟩
    · rw [frameToggles_snoc, runFrom_snoc, ← hpin]
      simp
    · rw [htimes, hcount, hdone, List.length_append, h.count]
      rfl
    · rw [runFrom_snoc]
      exact hflip.padded
    · intro t ht
      rw [htimes, List.mem_append, List.mem_singleton] at ht
      rw [runFrom_snoc, hzero, List.length_append, List.length_singleton]
      rcases ht with ht | rfl
      · have hold := h.since t ht
        omega
      · omega
    · rw [Spaced, htimes, List.pairwise_append]
      refine ⟨h.spaced, List.pairwise_singleton _ _, fun a ha b hb => ?_⟩
      have hold := h.since a ha
      rw [List.mem_singleton.mp hb]
      omega

theorem togglesAt_run (inputs : List RxPins) : TogglesAt inputs := by
  induction inputs using List.reverseRecOn with
  | nil => exact togglesAt_nil
  | append_singleton inputs i ih => exact ih.step i

/-- The flips of `tx_frame_toggle` are the frames on the wire, and at least 169 cycles apart. -/
theorem frame_toggle_counts_frames (inputs : List RxPins) :
    (flipTimes (frameToggles inputs)).length = (emittedFrames inputs).length ∧
      Spaced 169 (frameToggles inputs) :=
  ⟨(togglesAt_run inputs).count, (togglesAt_run inputs).spaced⟩

end ArtyEthernet
