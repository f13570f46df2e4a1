import ArtyEthernet.Proofs.RxParser

/-!
# The nibble assembler and the parser together

A `FrameReceiver` is the assembler, the parser and the buffer it writes. `ReceiverAt cur` describes
it when `cur` is the burst being received (empty between bursts): what it holds depends on this
burst and on the buffer at its start, and on nothing earlier.
-/

namespace ArtyEthernet
open Words

structure FrameReceiver where
  mii : MiiRx
  parser : RxParser
  payloadBuf : Buffer maxEthPayloadBytesInt

def frameReceiverStep (r : FrameReceiver) (pins : RxPins) : FrameReceiver × EthernetFrameMeta :=
  let assembled := miiRxByteAssemblerStep r.mii pins.ethRxDv pins.ethRxd
  let event := assembled.2
  let parsed := ethernetRxParserStep r.parser event.frameStart event.byteValid event.dataByte
    event.frameEnd pins.ethRxerr r.payloadBuf
  (⟨assembled.1, parsed.1, parsed.2.1⟩, parsed.2.2)

structure ReceiverAt (cur : List RxPins) (kept : Buffer maxEthPayloadBytesInt)
    (r : FrameReceiver) : Prop where
  inFrame : r.mii.rxInFrame = !cur.isEmpty
  haveLow : cur ≠ [] → r.mii.rxHaveLow = decide (cur.length % 2 = 1)
  lowNibble : ∀ before p, cur = before ++ [p] → cur.length % 2 = 1 →
    r.mii.rxLowNibble = p.ethRxd
  start : cur = [] → r.payloadBuf = kept
  parser : cur ≠ [] →
    ParserAt (pinBytes cur) (cur.any RxPins.ethRxerr) kept r.parser r.payloadBuf

theorem receiverAt_idle {r : FrameReceiver} (hidle : r.mii.rxInFrame = false) :
    ReceiverAt [] r.payloadBuf r where
  inFrame := hidle
  haveLow h := absurd rfl h
  lowNibble before p h := by simp at h
  start _ := rfl
  parser h := absurd rfl h

section Assembler
variable {mii : MiiRx} (rxd : Nibble)

theorem assembler_first (hin : mii.rxInFrame = false) :
    miiRxByteAssemblerStep mii true rxd = (⟨true, true, rxd⟩, ⟨true, false, 0, false⟩) := by
  simp [miiRxByteAssemblerStep, hin]

theorem assembler_low (hin : mii.rxInFrame = true) (hlow : mii.rxHaveLow = false) :
    miiRxByteAssemblerStep mii true rxd = (⟨true, true, rxd⟩, ⟨false, false, 0, false⟩) := by
  simp [miiRxByteAssemblerStep, hin, hlow]

theorem assembler_high (hin : mii.rxInFrame = true) (hlow : mii.rxHaveLow = true) :
    miiRxByteAssemblerStep mii true rxd =
      (⟨true, false, mii.rxLowNibble⟩,
        ⟨false, true, joinNibbles rxd mii.rxLowNibble, false⟩) := by
  simp [miiRxByteAssemblerStep, hin, hlow]

theorem assembler_gap :
    miiRxByteAssemblerStep mii false rxd =
      (⟨false, false, mii.rxLowNibble⟩, ⟨false, false, 0, mii.rxInFrame⟩) := by
  simp [miiRxByteAssemblerStep]

theorem assembler_on (mii : MiiRx) (rxd : Nibble) :
    (miiRxByteAssemblerStep mii true rxd).1.rxInFrame = true ∧
      (miiRxByteAssemblerStep mii true rxd).1.rxHaveLow = !(mii.rxInFrame && mii.rxHaveLow) ∧
      (miiRxByteAssemblerStep mii true rxd).2.frameEnd = false := by
  cases hin : mii.rxInFrame with
  | false => simp [assembler_first rxd hin]
  | true =>
    cases hlow : mii.rxHaveLow with
    | false => simp [assembler_low rxd hin hlow]
    | true => simp [assembler_high rxd hin hlow]

end Assembler

theorem pinBytes_snoc_even (cur : List RxPins) (pins : RxPins) (heven : cur.length % 2 = 0) :
    pinBytes (cur ++ [pins]) = pinBytes cur := by
  simp only [pinBytes, List.map_append, List.map_cons, List.map_nil]
  exact pairNibbles_snoc_even _ _ (by simpa using heven)

theorem pinBytes_snoc_odd (before : List RxPins) (p pins : RxPins)
    (heven : before.length % 2 = 0) :
    pinBytes (before ++ [p] ++ [pins]) =
      pinBytes (before ++ [p]) ++ [joinNibbles pins.ethRxd p.ethRxd] := by
  rw [pinBytes_snoc_even _ _ heven]
  simp only [pinBytes, List.append_assoc, List.map_append, List.map_cons, List.map_nil,
    List.cons_append, List.nil_append]
  exact pairNibbles_snoc_pair _ _ _ (by simpa using heven)

section Receiver
variable {cur : List RxPins} {kept : Buffer maxEthPayloadBytesInt} {r : FrameReceiver}
  {pins : RxPins}

theorem ReceiverAt.parse_first (h : ReceiverAt [] kept r) (hdv : pins.ethRxDv = true) :
    ParserAt (pinBytes [pins]) pins.ethRxerr kept (frameReceiverStep r pins).1.parser
      (frameReceiverStep r pins).1.payloadBuf := by
  have hin : r.mii.rxInFrame = false := h.inFrame
  have hstart := (ParserAt.start r.parser r.payloadBuf).orError pins.ethRxerr
  rw [← h.start rfl]
  simpa [frameReceiverStep, hdv, assembler_first _ hin, ethernetRxParserStep, pinBytes,
    pairNibbles] using hstart

/-- A later nibble of a burst; every second one completes a byte. -/
theorem ReceiverAt.parse_next (h : ReceiverAt cur kept r) (hne : cur ≠ [])
    (hdv : pins.ethRxDv = true) :
    ParserAt (pinBytes (cur ++ [pins])) ((cur ++ [pins]).any RxPins.ethRxerr) kept
      (frameReceiverStep r pins).1.parser (frameReceiverStep r pins).1.payloadBuf := by
  have hin : r.mii.rxInFrame = true := by simp [h.inFrame, hne]
  have herr := (h.parser hne).orError pins.ethRxerr
  have hany : (cur ++ [pins]).any RxPins.ethRxerr =
      (cur.any RxPins.ethRxerr || pins.ethRxerr) := by simp
  rw [hany]
  by_cases hodd : cur.length % 2 = 1
  · have hcur : cur = cur.dropLast ++ [cur.getLast hne] :=
      (List.dropLast_concat_getLast hne).symm
    have hlow := h.lowNibble _ _ hcur hodd
    have hhave : r.mii.rxHaveLow = true := by simp [h.haveLow hne, hodd]
    have heven : cur.dropLast.length % 2 = 0 := by
      rw [List.length_dropLast]
      omega
    have hbytes := pinBytes_snoc_odd cur.dropLast (cur.getLast hne) pins heven
    rw [← hcur] at hbytes
    rw [hbytes]
    simpa [frameReceiverStep, hdv, assembler_high _ hin hhave, ethernetRxParserStep, hlow]
      using herr.step (joinNibbles pins.ethRxd (cur.getLast hne).ethRxd)
  · have hhave : r.mii.rxHaveLow = false := by simp [h.haveLow hne, hodd]
    rw [pinBytes_snoc_even _ _ (by omega)]
    simpa [frameReceiverStep, hdv, assembler_low _ hin hhave, ethernetRxParserStep] using herr

theorem ReceiverAt.step_on (h : ReceiverAt cur kept r) (hdv : pins.ethRxDv = true) :
    ReceiverAt (cur ++ [pins]) kept (frameReceiverStep r pins).1 ∧
      (frameReceiverStep r pins).2 = .blank := by
  obtain ⟨honIn, honLow, honEnd⟩ := assembler_on r.mii pins.ethRxd
  constructor
  · constructor
    case inFrame => simp [frameReceiverStep, hdv, honIn]
    case haveLow =>
      intro _
      simp only [frameReceiverStep, hdv, honLow, h.inFrame, List.length_append,
        List.length_singleton]
      cases cur with
      | nil => rfl
      | cons a rest =>
        rw [h.haveLow (List.cons_ne_nil a rest)]
        generalize (a :: rest).length = n
        rw [Bool.eq_iff_iff]
        simp
        omega
    case lowNibble =>
      intro before p hcur hodd
      obtain ⟨hbefore, hp⟩ := List.append_inj' hcur rfl
      rw [List.length_append, List.length_singleton] at hodd
      rw [← List.singleton_inj.mp hp]
      cases hin : r.mii.rxInFrame with
      | false => simp [frameReceiverStep, hdv, assembler_first _ hin]
      | true =>
        have hne : cur ≠ [] := by
          have hflag := h.inFrame
          rintro rfl
          simp [hin] at hflag
        have hhave : r.mii.rxHaveLow = false := by
          rw [h.haveLow hne, decide_eq_false_iff_not]
          omega
        simp [frameReceiverStep, hdv, assembler_low _ hin hhave]
    case start => exact fun hnil => absurd hnil (by simp)
    case parser =>
      intro _
      cases cur with
      | nil => simpa using h.parse_first hdv
      | cons a rest => exact h.parse_next (List.cons_ne_nil a rest) hdv
  · simp [frameReceiverStep, hdv, honEnd, ethernetRxParserStep]

/-- The first idle cycle after a burst reports its frame. -/
theorem ReceiverAt.step_end (h : ReceiverAt cur kept r) (hne : cur ≠ [])
    (hdv : pins.ethRxDv = false) :
    (frameReceiverStep r pins).2 =
        { r.parser with rxFrameError := r.parser.rxFrameError || pins.ethRxerr }.frameMeta ∧
      (frameReceiverStep r pins).1.payloadBuf = r.payloadBuf ∧
      (frameReceiverStep r pins).1.mii.rxInFrame = false := by
  have hin : r.mii.rxInFrame = true := by simp [h.inFrame, hne]
  simp [frameReceiverStep, hdv, assembler_gap, ethernetRxParserStep, hin]

theorem ReceiverAt.step_idle (h : ReceiverAt [] kept r) (hdv : pins.ethRxDv = false) :
    (frameReceiverStep r pins).2 = .blank ∧ (frameReceiverStep r pins).1.payloadBuf = kept := by
  have hin : r.mii.rxInFrame = false := h.inFrame
  simp [frameReceiverStep, hdv, assembler_gap, ethernetRxParserStep, hin, h.start rfl]

end Receiver

end ArtyEthernet
