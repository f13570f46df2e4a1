import ArtyEthernet.Proofs.TxWork
import ArtyEthernet.Results.WireFrames

/-!
# From acceptance to the wire

The requests a run has accepted stand ahead of everything accepted later, so the cycles until they
are on the wire only depend on what is held when the run ends. `Due` bounds these cycles, request
being prepared included, and every cycle takes one off.
-/

namespace ArtyEthernet
open Words

variable {sent held mine rest : List ProtocolTxRequest} {pins : List TxPins} {left n : ℕ}
  {s : Endpoint} {inputs : List RxPins}

theorem ProtocolTxRequest.WellFormed.cycles_bounds {r : ProtocolTxRequest} (h : r.WellFormed) :
    169 ≤ r.cycles ∧ r.cycles ≤ 335 := by
  have hwork := h.work_eq
  rw [ProtocolTxRequest.work] at hwork
  rcases h.len_cases with ⟨hkind, hlen⟩ | ⟨hkind, hlen⟩
  · have hbeacon : r.isBeacon = true := by simp [ProtocolTxRequest.isBeacon, hkind]
    rw [hbeacon, hlen, if_pos rfl] at hwork
    omega
  · have hother : r.isBeacon = false := by
      rcases hkind with hk | hk <;> simp [ProtocolTxRequest.isBeacon, hk]
    rw [hother, hlen, if_neg Bool.false_ne_true] at hwork
    omega

theorem heldCycles_le (h : ∀ r ∈ held, r.WellFormed) : heldCycles held ≤ 335 * held.length := by
  induction held with
  | nil => simp
  | cons r held ih =>
    have hr := (h r (by simp)).cycles_bounds.2
    have hheld := ih fun x hx => h x (by simp [hx])
    rw [heldCycles_cons, List.length_cons]
    omega

theorem TxRingAt.wellFormed {st : Protocol} {txQueue : TxPacketQueue}
    (h : TxRingAt st txQueue held) : ∀ r ∈ held, r.WellFormed := by
  obtain ⟨slots, -, hslots⟩ := h.slots
  clear h
  induction hslots with
  | nil => simp
  | cons hslot _ ih =>
    intro r hr
    rcases List.mem_cons.mp hr with rfl | hr
    · exact hslot.wellFormed
    · exact ih r hr

theorem TxRingAt.length_held_building {st : Protocol} {txQueue : TxPacketQueue}
    (h : TxRingAt st txQueue held) (hprep : st.preparingPayload = true) : held.length ≤ 3 := by
  have hfree := (h.building hprep).free
  have hslot : packetQueueWriteSlotAvailable txQueue = true := by
    simp [packetQueueWriteSlotAvailable, hfree]
  have hlt := h.length_held.1.mp hslot
  omega

theorem WireAt.left_le {drain : TxDrain} {readIdx : BitVec 2}
    (h : WireAt sent held drain readIdx pins left) : left ≤ heldCycles held := by
  cases h with
  | resting _ _ _ _ hleft => omega
  | sending _ _ _ _ _ _ _ _ _ _ _ hleft => omega
  | gap _ _ _ _ _ _ _ _ _ _ hleft => omega

/-- The cycles until the frames held and the one being prepared have had their gaps. -/
def Protocol.txDue (st : Protocol) (left : ℕ) : ℕ :=
  max left st.buildCost + heldCycles st.building

theorem TxAt.txDue_le (h : TxAt sent held pins left s) : s.proto.txDue left ≤ 1340 := by
  have hleft := h.wire.left_le
  have hheld := heldCycles_le h.ring.wellFormed
  unfold Protocol.txDue
  cases hprep : s.proto.preparingPayload with
  | false =>
    have hlen := h.ring.length_held.2
    rw [buildCost_off hprep]
    simp only [Protocol.building, hprep]
    change _ + heldCycles [] ≤ _
    rw [heldCycles_nil]
    omega
  | true =>
    have hlen := h.ring.length_held_building hprep
    have hr := (h.ring.building hprep).request
    have hcycles := hr.cycles_bounds.2
    have hbody := hr.len_cases
    have hcost : s.proto.buildCost ≤ 143 := by
      rw [Protocol.buildCost, if_pos hprep]
      omega
    simp only [Protocol.building, hprep, if_true, heldCycles_cons, heldCycles_nil]
    omega

theorem accepted_none_of_preparing (i : RxPins) (hprep : s.proto.preparingPayload = true) :
    s.accepted i = none := by
  have hhanded : s.handed i = none :=
    ((protocolSelectStep_selectCost s.proto (s.rxStage i).2 s.txQueue).busy hprep).1
  rw [Endpoint.accepted, hhanded, ite_self]

theorem TxAt.txDue_step (h : TxAt sent held pins left s) (i : RxPins)
    (hprep : s.proto.preparingPayload = true) :
    (s.step i).proto.txDue (left + heldCycles (s.finished i) - 1) + 1 ≤ s.proto.txDue left := by
  have hselect := h.ring.select (s.rxStage i).2
  have hspec := protocolSelectStep_selectCost s.proto (s.rxStage i).2 s.txQueue
  have hcost : ((s.step i).proto.buildCost) + 1 = (protocolSelectStep s.proto (s.rxStage i).2
      s.txQueue).st.selectCost := buildCost_prepare _ fun hp => (hselect.1.building hp).index
  have hbuild := congrArg heldCycles (h.ring_proto i).2
  rw [heldCycles_append, accepted_none_of_preparing i hprep, Option.toList_none,
    List.append_nil] at hbuild
  change heldCycles (s.finished i) + heldCycles (s.step i).proto.building = _ at hbuild
  have hsame := (hspec.busy hprep).2
  unfold Protocol.txDue
  omega

/-- How far the requests `old` are from being sent after `n` more cycles: all sent, or the last of
them held before `rest`, or the last of them being prepared. -/
inductive Due (old sent held : List ProtocolTxRequest) (left n : ℕ) (st : Protocol) : Prop where
  | sent (hsent : old <+: sent)
  | held (mine rest : List ProtocolTxRequest) (hheld : held = mine ++ rest)
      (hold : old = sent ++ mine) (hcost : left + n ≤ 1340 + heldCycles rest)
  | preparing (hprep : st.preparingPayload = true) (hold : old = sent ++ held ++ st.building)
      (hcost : st.txDue left + n ≤ 1340)

theorem Due.of_whole {old : List ProtocolTxRequest} {st : Protocol}
    (hold : old = sent ++ held ++ st.building) (hcost : st.txDue left + n ≤ 1340) :
    Due old sent held left n st := by
  cases hprep : st.preparingPayload with
  | true => exact .preparing hprep hold hcost
  | false =>
    have hnone : st.building = [] := by simp [Protocol.building, hprep]
    rw [hnone, List.append_nil] at hold
    rw [Protocol.txDue, hnone, heldCycles_nil] at hcost
    exact .held held [] (by simp) hold (by rw [heldCycles_nil]; omega)

theorem split_cases {α : Type*} {xs ys xs' ys' : List α} (h : xs ++ ys = xs' ++ ys') :
    xs <+: xs' ∨ ∃ mid, xs = xs' ++ mid ∧ ys' = mid ++ ys := by
  rcases List.append_eq_append_iff.mp h with ⟨mid, rfl, rfl⟩ | ⟨mid, rfl, rfl⟩
  · exact Or.inl (List.prefix_append xs mid)
  · exact Or.inr ⟨mid, rfl, rfl⟩

theorem Due.step {old : List ProtocolTxRequest} (h : TxAt sent held pins left s)
    (hdue : Due old sent held left n s.proto) (i : RxPins) :
    ∃ sent' held', TxAt sent' held' (pins ++ [s.outputs i])
        (left + heldCycles (s.finished i) - 1) (s.step i) ∧
      sent' ++ held' = sent ++ held ++ s.finished i ∧
      s.finished i ++ (s.step i).proto.building = s.proto.building ++ (s.accepted i).toList ∧
      Due old sent' held' (left + heldCycles (s.finished i) - 1) (n + 1) (s.step i).proto := by
  obtain ⟨sent', held', h', hsplit, hmono, hbuild⟩ := h.step i
  refine ⟨sent', held', h', hsplit, hbuild, ?_⟩
  cases hdue with
  | sent hsent => exact .sent (hsent.trans hmono)
  | held mine rest hheld hold hcost =>
    -- the old requests stand before `rest`, and before what is published in this cycle
    have hfront : old ++ (rest ++ s.finished i) = sent' ++ held' := by
      rw [hsplit, hheld, hold]
      simp
    rcases split_cases hfront with hsent | ⟨mid, hold', hheld'⟩
    · exact .sent hsent
    · by_cases hmine : mine = []
      · rw [hmine, List.append_nil] at hold
        exact .sent (hold ▸ hmono)
      · have hpos : left ≠ 0 := by
          rintro rfl
          have hnil := h.held_nil
          rw [hheld] at hnil
          exact hmine (List.append_eq_nil_iff.mp hnil).1
        refine .held mid (rest ++ s.finished i) hheld' hold' ?_
        rw [heldCycles_append]
        omega
  | preparing hprep hold hcost =>
    have hstep := h.txDue_step i hprep
    rw [accepted_none_of_preparing i hprep, Option.toList_none, List.append_nil] at hbuild
    refine .of_whole ?_ (by omega)
    rw [hsplit, List.append_assoc, hbuild, hold]

theorem due_run (inputs later : List RxPins) :
    ∃ sent held left, TxAt sent held (drivenPins (inputs ++ later)) left
        (runFrom (inputs ++ later)) ∧
      acceptedRequests (inputs ++ later) =
        sent ++ held ++ (runFrom (inputs ++ later)).proto.building ∧
      Due (acceptedRequests inputs) sent held left later.length
        (runFrom (inputs ++ later)).proto := by
  induction later using List.reverseRecOn with
  | nil =>
    obtain ⟨sent, held, left, h, hacc⟩ := txAt_run inputs
    rw [List.append_nil]
    exact ⟨sent, held, left, h, hacc, .of_whole hacc h.txDue_le⟩
  | append_singleton later i ih =>
    obtain ⟨sent, held, left, h, hacc, hdue⟩ := ih
    obtain ⟨sent', held', h', hsplit, hbuild, hdue'⟩ := hdue.step h i
    rw [← List.append_assoc, drivenPins_snoc, runFrom_snoc, List.length_append]
    refine ⟨sent', held', _, h', ?_, hdue'⟩
    rw [acceptedRequests_snoc, hacc, List.append_assoc, ← hbuild, ← List.append_assoc, hsplit]

theorem TxAt.sent_emitted (h : TxAt sent held (drivenPins inputs) left (runFrom inputs)) :
    sent.map ProtocolTxRequest.nibbles <+: emittedRuns inputs := by
  cases h.wire with
  | resting _ _ hruns => exact hruns ▸ List.prefix_append _ _
  | sending _ _ _ _ _ _ _ _ _ hruns => exact hruns ▸ List.prefix_append _ _
  | gap _ _ _ _ _ _ _ _ hruns =>
    rw [emittedRuns, hruns, List.map_append, List.append_assoc]
    exact List.prefix_append _ _

/-- A request counts as emitted when its last nibble is out, before its gap. -/
theorem TxAt.emitted_of_gap (h : TxAt sent (mine ++ rest) (drivenPins inputs) left
    (runFrom inputs)) (hleft : left ≤ 24 + heldCycles rest) :
    (sent ++ mine).map ProtocolTxRequest.nibbles <+: emittedRuns inputs := by
  have hmin : ∀ r ∈ mine, 169 ≤ r.cycles := fun r hr =>
    (h.ring.wellFormed r (List.mem_append_left rest hr)).cycles_bounds.1
  cases mine with
  | nil =>
    rw [List.append_nil]
    exact h.sent_emitted
  | cons head mine =>
    have hhead := hmin head (by simp)
    have hsum : heldCycles (head :: mine ++ rest) =
        head.cycles + heldCycles mine + heldCycles rest := by
      rw [heldCycles_append, heldCycles_cons]
    -- one frame at most can be left, and only its gap
    have hnil (hlast : heldCycles mine < 169) : mine = [] := by
      cases mine with
      | nil => rfl
      | cons r mine =>
        have hr := hmin r (by simp)
        rw [heldCycles_cons] at hlast
        omega
    cases h.wire with
    | resting _ _ _ _ hcost => omega
    | sending r others k hheld _ _ frame _ hk hruns hopen hcost =>
      obtain ⟨rfl, -⟩ := List.cons.inj hheld
      rw [hsum, ProtocolTxRequest.cycles, frameCycles] at hcost
      have hlast : k = wireNibbles (padBody head.frameBody) := by omega
      have hin : (runFrom inputs).inGap = true := by
        simp [Endpoint.inGap, frame.gap_iff, hlast]
      have hwhole : wireOpen (drivenPins inputs) = head.nibbles := by
        rw [hopen, List.take_of_length_le]
        rw [length_nibbles, hlast]
      rw [hnil (by omega), emittedRuns, hwhole, if_pos ⟨hin, nibbles_ne_nil head⟩, hruns,
        List.map_append]
      exact List.prefix_refl _
    | gap r others k hheld _ _ frame _ hruns _ hcost =>
      obtain ⟨rfl, -⟩ := List.cons.inj hheld
      have hlt := frame.lt_frameCycles
      rw [hsum, ProtocolTxRequest.cycles, frameCycles] at hcost
      rw [frameCycles] at hlt
      rw [hnil (by omega), emittedRuns, hruns]
      exact List.prefix_append _ _

theorem emittedFrames_prefix {old : List ProtocolTxRequest}
    (h : old.map ProtocolTxRequest.nibbles <+: emittedRuns inputs) :
    old.map ProtocolTxRequest.wireFrame <+: emittedFrames inputs := by
  have hframes : old.map ProtocolTxRequest.wireFrame =
      (old.map ProtocolTxRequest.nibbles).map pairNibbles := by
    rw [List.map_map]
    exact List.map_congr_left fun r _ => (pairNibbles_toNibbles r.wireFrame).symm
  rw [hframes]
  exact h.map pairNibbles

/-- Everything accepted is on the wire 1316 cycles later, whatever is received meanwhile. -/
theorem emitted_within (inputs later : List RxPins) (hlater : 1316 ≤ later.length) :
    (acceptedRequests inputs).map ProtocolTxRequest.wireFrame <+:
      emittedFrames (inputs ++ later) := by
  obtain ⟨sent, held, left, h, -, hdue⟩ := due_run inputs later
  apply emittedFrames_prefix
  cases hdue with
  | sent hsent => exact (hsent.map _).trans h.sent_emitted
  | held mine rest hheld hold hcost =>
    subst hheld
    rw [hold]
    exact h.emitted_of_gap (by omega)
  | preparing hprep _ hcost =>
    have hmin := (h.ring.building hprep).request.cycles_bounds.1
    simp only [Protocol.txDue, Protocol.building, hprep, if_true, heldCycles_cons,
      heldCycles_nil] at hcost
    omega

end ArtyEthernet
