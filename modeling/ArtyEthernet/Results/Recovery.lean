import ArtyEthernet.Proofs.IdleLine
import ArtyEthernet.Results.Delivery
import ArtyEthernet.Results.QuiescentReply

/-!
# After a pause

Whatever the endpoint has received, a pause of the line brings it to rest, but for the frame a tick
has started, and the next ARP request is answered.
-/

namespace ArtyEthernet
open Words Synchronous

section Rest
variable {consumed : List RxSlot} {sent held : List ProtocolTxRequest} {left : ℕ}
  {inputs : List RxPins}

theorem quiescent_iff (hdone : RxDone consumed inputs)
    (h : TxAt sent held (drivenPins inputs) left (runFrom inputs)) :
    (runFrom inputs).Quiescent ↔ (runFrom inputs).proto.restDue left = 0 := by
  constructor
  · intro hquiescent
    obtain rfl := h.held_of_empty hquiescent.txEmpty
    obtain ⟨-, -, -, hleft⟩ := h.wire.rest
    rw [Protocol.restDue, buildCost_off hquiescent.notPreparing,
      Protocol.building_nil.mpr hquiescent.notPreparing, heldCycles_nil, hleft]
    rfl
  · intro hrest
    obtain ⟨-, rfl, hprep⟩ := restDue_eq_zero h hrest
    exact quiescent_of_rest hdone.decided.rx h hdone.closed hprep

end Rest

theorem work_tickRequest (inputs : List RxPins) (i : RxPins) :
    (tickRequest inputs i).work = if (inputs.length + 1) % 125000000 = 0 then 211 else 478 := by
  unfold tickRequest
  split_ifs
  · exact wellFormed_gratuitousArp.work_eq
  · exact (wellFormed_beaconSnapshot _ _ _).work_eq

/-- The cycles the endpoint is busy with the latest tick: every fifth is a gratuitous ARP. -/
def tickBusy (n : ℕ) : ℕ := if n / 25000000 % 5 = 0 then 209 else 476

theorem restDue_tick (prior lead : List RxPins) (i : RxPins) (tail : List RxPins)
    (hidle : IdleLine (lead ++ i :: tail)) (hlead : 1541 ≤ lead.length)
    (htick : (prior.length + lead.length + 1) % 25000000 = 0) (hshort : tail.length < 25000000) :
    ∃ sent held left, TxAt sent held (drivenPins (prior ++ (lead ++ i :: tail))) left
        (runFrom (prior ++ (lead ++ i :: tail))) ∧
      (runFrom (prior ++ (lead ++ i :: tail))).proto.restDue left =
        tickBusy (prior.length + lead.length + 1) - tail.length := by
  rw [List.append_cons] at hidle ⊢
  obtain ⟨sent, left, h, hrest⟩ := rest_within prior lead hidle.left.left hlead
    fun n hn => by omega
  have haccepted := tick_accepted prior lead i hidle.left hlead htick
  have hwork := work_tickRequest (prior ++ lead) i
  rw [List.length_append] at hwork
  have hlen : 2 ≤ (tickRequest (prior ++ lead) i).len.toNat := by
    unfold tickRequest
    split_ifs
    · exact Nat.le_of_ble_eq_true rfl
    · exact Nat.le_of_ble_eq_true rfl
  have hdue := h.restDue_some hrest haccepted hlen
  obtain ⟨sent', held', h', -⟩ := h.step i
  rw [← drivenPins_snoc, ← runFrom_snoc, List.append_assoc] at h'
  rw [← runFrom_snoc, List.append_assoc] at hdue
  have hone : (lead ++ [i]).length = lead.length + 1 := by simp
  obtain ⟨sent'', held'', left'', h'', hnext⟩ := restDue_idle h' (by omega) tail hidle
    fun n hn => by omega
  rw [List.append_assoc] at h'' hnext
  refine ⟨sent'', held'', left'', h'', hnext.trans ?_⟩
  unfold tickBusy
  split_ifs at hwork ⊢ <;> omega

/-- Whatever has been received before, on an idle line the endpoint is at rest, except for 209
cycles from every gratuitous ARP tick on and 476 from every other beacon tick. -/
theorem idle_line_rests (prior idle : List RxPins) (hidle : IdleLine idle)
    (hlong : 2881 ≤ idle.length) :
    (runFrom (prior ++ idle)).Quiescent ↔ (prior ++ idle).length < 25000000 ∨
      tickBusy (prior ++ idle).length ≤ (prior ++ idle).length % 25000000 := by
  obtain ⟨consumed, hdone⟩ := rxDone_within prior hidle (by omega)
  rw [List.length_append]
  by_cases hnear : 25000000 ≤ prior.length + idle.length ∧
      (prior.length + idle.length) % 25000000 < 1340
  · obtain ⟨lead, i, tail, rfl, htail⟩ : ∃ lead i tail, idle = lead ++ i :: tail ∧
        tail.length = (prior.length + idle.length) % 25000000 := by
      have hlast : idle.length - (prior.length + idle.length) % 25000000 - 1 < idle.length := by
        omega
      refine ⟨_, _, _, (List.take_append_drop _ idle).symm.trans
        (congrArg _ (List.drop_eq_getElem_cons hlast)), ?_⟩
      rw [List.length_drop]
      omega
    have hlen : (lead ++ i :: tail).length = lead.length + tail.length + 1 := by
      simp
      omega
    obtain ⟨sent, held, left, h, hdue⟩ := restDue_tick prior lead i tail hidle (by omega)
      (by omega) (by omega)
    have hsame : tickBusy (prior.length + (lead ++ i :: tail).length) =
        tickBusy (prior.length + lead.length + 1) := by
      unfold tickBusy
      congr 2
      omega
    rw [quiescent_iff hdone h, hdue, hsame]
    omega
  · obtain ⟨sent, left, h, hrest⟩ := rest_within prior idle hidle (by omega) fun n hn => by omega
    have hbusy : tickBusy (prior.length + idle.length) ≤ 476 := by
      unfold tickBusy
      split_ifs <;> omega
    rw [quiescent_iff hdone h]
    exact iff_of_true hrest (by omega)

/-- 100 cycles after the first beacon tick the endpoint is busy, 376 cycles later it is at rest. -/
theorem idle_line_rests_beacon :
    ¬ (runFrom ([] ++ List.replicate 25000100 ⟨false, 0, false⟩)).Quiescent ∧
      (runFrom ([] ++ List.replicate 25000476 ⟨false, 0, false⟩)).Quiescent := by
  have hidle (n : ℕ) : IdleLine (List.replicate n ⟨false, 0, false⟩) :=
    fun p hp => by rw [List.eq_of_mem_replicate hp]
  have hbusy := idle_line_rests [] (List.replicate 25000100 ⟨false, 0, false⟩) (hidle _)
    (by rw [List.length_replicate]; omega)
  have hrest := idle_line_rests [] (List.replicate 25000476 ⟨false, 0, false⟩) (hidle _)
    (by rw [List.length_replicate]; omega)
  rw [List.nil_append, List.length_replicate] at hbusy hrest
  exact ⟨fun h => absurd (hbusy.mp h) (by decide), hrest.mpr (by decide)⟩

def handedAfter (prior window : List RxPins) : List ProtocolTxRequest :=
  events Endpoint.step Endpoint.handed (runFrom prior) window

theorem handedRequests_append (prior window : List RxPins) :
    handedRequests (prior ++ window) = handedRequests prior ++ handedAfter prior window :=
  events_append Endpoint.handed .reset prior window

theorem handedAfter_append (prior first second : List RxPins) :
    handedAfter prior (first ++ second) =
      handedAfter prior first ++ handedAfter (prior ++ first) second := by
  rw [handedAfter, handedAfter, handedAfter, runFrom_append]
  exact events_append Endpoint.handed (runFrom prior) first second

theorem handed_tick {inputs : List RxPins} {i : RxPins} {r : ProtocolTxRequest}
    (hr : (runFrom inputs).handed i = some r) (hkind : r.isArpReply = false) :
    (inputs.length + 1) % 25000000 = 0 := by
  by_contra htick
  have hticks : (runFrom inputs).proto.ticks = ⟨false, false⟩ := by
    rw [ticks_run, ticksAfter, decide_eq_false htick, decide_eq_false (by omega)]
  obtain ⟨rfl, -⟩ := protocolSelectStep_noTick hticks hr
  exact Bool.noConfusion (hkind.symm.trans (show _ = true from rfl))

theorem length_handedAfter_le (prior window : List RxPins)
    (hnone : (handedAfter prior window).filter ProtocolTxRequest.isArpReply = []) :
    (handedAfter prior window).length + prior.length / 25000000 ≤
      (prior.length + window.length) / 25000000 := by
  induction window using List.reverseRecOn with
  | nil => simp [handedAfter]
  | append_singleton window i ih =>
    have hsnoc : handedAfter prior (window ++ [i]) =
        handedAfter prior window ++ ((runFrom (prior ++ window)).handed i).toList := by
      rw [handedAfter, events_snoc, runFrom, runFrom, run, run, run, List.foldl_append]
      rfl
    rw [hsnoc, List.filter_append, List.append_eq_nil_iff] at hnone
    have hold := ih hnone.1
    rw [hsnoc, List.length_append, List.length_append, List.length_singleton]
    cases hr : (runFrom (prior ++ window)).handed i with
    | none =>
      rw [Option.toList_none, List.length_nil]
      omega
    | some r =>
      have hkind : r.isArpReply = false := by
        have hfilter := hnone.2
        rw [hr, Option.toList_some] at hfilter
        simpa using List.filter_eq_nil_iff.mp hfilter r (by simp)
      have htick := handed_tick hr hkind
      rw [List.length_append] at htick
      rw [Option.toList_some, List.length_singleton]
      omega

/-- What was accepted before `cut` has left the endpoint. -/
def SentSince (cut later : List RxPins) : Prop :=
  ∃ sent held left, TxAt sent held (drivenPins (cut ++ later)) left (runFrom (cut ++ later)) ∧
    acceptedRequests (cut ++ later) = sent ++ held ++ (runFrom (cut ++ later)).proto.building ∧
    acceptedRequests cut <+: sent

/-- What stands in the way of a reply is at most the frame of one tick. -/
theorem SentSince.accepts {cut later : List RxPins} {i : RxPins} {r : ProtocolTxRequest}
    (h : SentSince cut later) (hshort : later.length < 25000000)
    (hnone : (handedAfter cut later).filter ProtocolTxRequest.isArpReply = [])
    (hr : (runFrom (cut ++ later)).handed i = some r) :
    (runFrom (cut ++ later)).accepted i = some r := by
  obtain ⟨sent, held, left, htx, hacc, hsent⟩ := h
  have hhanded := length_handedAfter_le cut later hnone
  have hcount := length_handedRequests (cut ++ later)
  have hbefore := length_handedRequests cut
  have hrefused := (refusedRequests_mono cut later).length_le
  rw [handedRequests_append, List.length_append, hacc, List.length_append,
    List.length_append] at hcount
  have hle := hsent.length_le
  have hslot : packetQueueWriteSlotAvailable (runFrom (cut ++ later)).txQueue = true := by
    rw [htx.ring.length_held.1]
    omega
  rw [Endpoint.accepted, hslot, hr]
  rfl

theorem WireAt.lt_left {sent held rest : List ProtocolTxRequest} {r : ProtocolTxRequest}
    {drain : TxDrain} {readIdx : BitVec 2} {pins : List TxPins} {left : ℕ}
    (h : WireAt sent held drain readIdx pins left) (hheld : held = r :: rest) :
    heldCycles rest < left := by
  have hmin : 0 < r.cycles := Nat.succ_pos _
  cases h with
  | resting _ _ _ _ hleft =>
    rw [hheld, heldCycles_cons] at hleft
    omega
  | sending r' rest' k hheld' _ _ frame _ _ _ _ hleft =>
    obtain ⟨rfl, rfl⟩ := List.cons.inj (hheld.symm.trans hheld')
    have hlt := frame.lt_frameCycles
    rw [hheld, heldCycles_cons, ProtocolTxRequest.cycles] at hleft
    omega
  | gap r' rest' k hheld' _ _ frame _ _ _ hleft =>
    obtain ⟨rfl, rfl⟩ := List.cons.inj (hheld.symm.trans hheld')
    have hlt := frame.lt_frameCycles
    rw [hheld, heldCycles_cons, ProtocolTxRequest.cycles] at hleft
    omega

theorem sentSince_within (cut later : List RxPins) (hlater : 1340 ≤ later.length) :
    SentSince cut later := by
  obtain ⟨sent, held, left, h, hacc, hdue⟩ := due_run cut later
  refine ⟨sent, held, left, h, hacc, ?_⟩
  cases hdue with
  | sent hsent => exact hsent
  | held mine rest hheld hold hcost =>
    cases mine with
    | nil =>
      rw [hold, List.append_nil]
    | cons r mine =>
      have hlt := h.wire.lt_left hheld
      rw [List.append_eq, heldCycles_append] at hlt
      omega
  | preparing hprep _ hcost =>
    have hmin : 0 < (runFrom (cut ++ later)).proto.prepareRequest.cycles := Nat.succ_pos _
    simp only [Protocol.txDue, Protocol.building, hprep, if_true, heldCycles_cons] at hcost
    omega

theorem sentSince_quiescent {cut : List RxPins} (hquiescent : (runFrom cut).Quiescent)
    (later : List RxPins) : SentSince cut later := by
  induction later using List.reverseRecOn with
  | nil =>
    obtain ⟨sent, held, left, h, hacc⟩ := txAt_run cut
    obtain ⟨slots, hring, hslots⟩ := h.ring.slots
    rw [hring.nil_iff.mpr hquiescent.txEmpty, List.forall₂_nil_left_iff] at hslots
    rw [SentSince, List.append_nil]
    refine ⟨sent, held, left, h, hacc, ?_⟩
    rw [hacc, hslots, Protocol.building_nil.mpr hquiescent.notPreparing, List.append_nil,
      List.append_nil]
  | append_singleton later i ih =>
    obtain ⟨sent, held, left, h, hacc, hsent⟩ := ih
    obtain ⟨sent', held', h', hsplit, hmono, hbuild⟩ := h.step i
    rw [SentSince, ← List.append_assoc, drivenPins_snoc, runFrom_snoc]
    refine ⟨sent', held', _, h', ?_, hsent.trans hmono⟩
    rw [acceptedRequests_snoc, hacc, List.append_assoc, ← hbuild, ← List.append_assoc, hsplit]

/-- At rest, or behind a pause of the line. -/
inductive Rested (prior : List RxPins) : Prop where
  | quiescent (h : (runFrom prior).Quiescent)
  | paused (earlier idle : List RxPins) (hprior : prior = earlier ++ idle)
      (hidle : IdleLine idle) (hlong : 1541 ≤ idle.length)

theorem Rested.rxDone {prior : List RxPins} (h : Rested prior) :
    ∃ consumed, RxDone consumed prior := by
  cases h with
  | quiescent h =>
    obtain ⟨consumed, waiting, hd⟩ := decided_run prior
    have hwaiting : waiting = [] := hd.rx.stage.ring.nil_iff.mpr h.rxEmpty
    exact ⟨consumed, hwaiting ▸ hd, (rxPending_nil_iff hd.rx).mpr h.noBurst⟩
  | paused earlier idle hprior hidle hlong =>
    rw [hprior]
    exact rxDone_within earlier hidle (by omega)

theorem RxDone.replies {consumed : List RxSlot} {inputs : List RxPins}
    (h : RxDone consumed inputs) : handedReplies inputs = arpReplies (requesters inputs) := by
  rw [requesters_eq, h.decided.published, List.append_nil]
  exact h.decided.replies

theorem handedReplies_append (prior window : List RxPins) :
    handedReplies (prior ++ window) = handedReplies prior ++
      (handedAfter prior window).filter ProtocolTxRequest.isArpReply := by
  rw [handedReplies, handedReplies, handedRequests_append, List.filter_append]

theorem noReply_idle (prior : List RxPins) {lead : List RxPins} (hlead : 201 ≤ lead.length)
    (idle : List RxPins) (hidle : IdleLine (lead ++ idle)) :
    (handedAfter (prior ++ lead) idle).filter ProtocolTxRequest.isArpReply = [] := by
  obtain ⟨consumed, hdone⟩ := rxDone_within prior hidle.left hlead
  obtain ⟨consumed', hdone'⟩ := rxDone_within prior hidle (by simp; omega)
  rw [← List.append_assoc] at hdone'
  have hsame : requesters (prior ++ lead ++ idle) = requesters (prior ++ lead) := by
    rw [requesters, (rxBursts_idle hdone.closed hidle.right).1]
    rfl
  have hreplies := hdone'.replies
  rwa [hsame, handedReplies_append, hdone.replies, List.append_right_eq_self] at hreplies

theorem accepts_late {cut later : List RxPins} {i : RxPins} {r : ProtocolTxRequest}
    (hlong : 1340 ≤ later.length)
    (hnone : (handedAfter cut later).filter ProtocolTxRequest.isArpReply = [])
    (hr : (runFrom (cut ++ later)).handed i = some r) :
    (runFrom (cut ++ later)).accepted i = some r := by
  obtain ⟨early, late, rfl, hlate⟩ : ∃ early late, later = early ++ late ∧ late.length = 1340 :=
    ⟨later.take (later.length - 1340), later.drop (later.length - 1340),
      (List.take_append_drop _ _).symm, by rw [List.length_drop]; omega⟩
  rw [handedAfter_append, List.filter_append, List.append_eq_nil_iff] at hnone
  rw [← List.append_assoc] at hr ⊢
  exact (sentSince_within (cut ++ early) late hlate.ge).accepts (by omega) hnone.2 hr

/-- The first reply after a rest finds a transmit slot. -/
theorem Rested.accepts {prior window : List RxPins} {i : RxPins} {r : ProtocolTxRequest}
    (h : Rested prior)
    (hnone : (handedAfter prior window).filter ProtocolTxRequest.isArpReply = [])
    (hr : (runFrom (prior ++ window)).handed i = some r) :
    (runFrom (prior ++ window)).accepted i = some r := by
  cases h with
  | quiescent h =>
    by_cases hlong : 1340 ≤ window.length
    · exact accepts_late hlong hnone hr
    · exact (sentSince_quiescent h window).accepts (by omega) hnone hr
  | paused earlier idle hprior hidle hlong =>
    obtain ⟨lead, rest, rfl, hrest⟩ : ∃ lead rest, idle = lead ++ rest ∧ rest.length = 1340 :=
      ⟨idle.take (idle.length - 1340), idle.drop (idle.length - 1340),
        (List.take_append_drop _ _).symm, by rw [List.length_drop]; omega⟩
    rw [List.length_append] at hlong
    rw [← List.append_assoc] at hprior
    subst hprior
    have hquiet := noReply_idle earlier (by omega) rest hidle
    rw [List.append_assoc] at hr ⊢
    apply accepts_late (by rw [List.length_append]; omega) _ hr
    rw [handedAfter_append, List.filter_append, hquiet, hnone]
    rfl

section Answer
variable {prior on later : List RxPins} {stop : RxPins} {mac : BitVec 48} {ip : BitVec 32}

theorem reply_handed {consumed : List RxSlot} (hdone : RxDone consumed prior) (hne : on ≠ [])
    (hon : ∀ p ∈ on, p.ethRxDv = true) (hstop : stop.ethRxDv = false)
    (hasks : acceptedRequester ⟨on, stop⟩ = some (mac, ip)) (hlater : 200 ≤ later.length) :
    ∃ before i after, on ++ stop :: later = before ++ i :: after ∧
      later.length ≤ after.length + 200 ∧
      (handedAfter prior before).filter ProtocolTxRequest.isArpReply = [] ∧
      (runFrom (prior ++ before)).handed i = some (arpReplyRequest mac ip) := by
  have hrequesters : requesters (prior ++ (on ++ [stop])) = requesters prior ++ [(mac, ip)] := by
    have hnil : ∀ p ∈ ([] : List RxPins), p.ethRxDv = false := by simp
    have hbursts := (rxBursts_window hdone.closed hne hon hstop hnil).1
    rw [requesters, requesters, ← List.append_assoc, hbursts, List.filterMap_append]
    exact congrArg _ (List.filterMap_cons_some hasks)
  obtain ⟨consumed', waiting, hd, hinit⟩ := decided_within (prior ++ (on ++ [stop]))
    (later.take 200) (by rw [List.length_take]; omega)
  have hreplies : handedReplies (prior ++ (on ++ [stop]) ++ later.take 200) =
      arpReplies (consumed'.filterMap slotRequester) := hd.replies
  have hprefix : arpReplies (requesters (prior ++ (on ++ [stop]))) <+:
      handedReplies (prior ++ (on ++ [stop]) ++ later.take 200) := by
    rw [hreplies, requesters_eq]
    exact arpReplies_prefix (hinit.filterMap _)
  rw [hrequesters, arpReplies, List.map_append, ← arpReplies, ← hdone.replies,
    List.append_assoc prior, handedReplies_append, List.prefix_append_right_inj] at hprefix
  obtain ⟨others, hothers⟩ := hprefix
  obtain ⟨before, i, after, hsplit, hnone, hsome⟩ :=
    events_first ((events_filter Endpoint.handed ProtocolTxRequest.isArpReply (runFrom prior)
      (on ++ [stop] ++ later.take 200)).trans hothers.symm)
  refine ⟨before, i, after ++ later.drop 200, ?_, ?_, ?_, ?_⟩
  · calc on ++ stop :: later = on ++ [stop] ++ (later.take 200 ++ later.drop 200) := by
          rw [List.take_append_drop, List.append_assoc, List.singleton_append]
      _ = before ++ i :: (after ++ later.drop 200) := by
          rw [← List.append_assoc, hsplit, List.append_assoc, List.cons_append]
  · rw [List.length_append, List.length_drop]
    omega
  · exact (events_filter Endpoint.handed ProtocolTxRequest.isArpReply _ before).symm.trans hnone
  · rw [runFrom_append]
    exact (Option.filter_eq_some_iff.mp hsome).1

theorem requestVerdicts_append (prior window : List RxPins) :
    ∃ more, requestVerdicts (prior ++ window) = requestVerdicts prior ++ more ∧
      more.map Prod.fst = handedAfter prior window := by
  refine ⟨_, events_append Endpoint.verdict .reset prior window, ?_⟩
  have hall := (verdicts_run (prior ++ window)).handed
  rw [handedRequests_append, ← (verdicts_run prior).handed, requestVerdicts, events_append,
    List.map_append] at hall
  exact List.append_cancel_left hall

/-- The last cycle of `early` hands over the reply to `mac` and `ip`, and it is accepted. -/
structure Answers (prior early : List RxPins) (mac : BitVec 48) (ip : BitVec 32) : Prop where
  /-- It is the reply to the request behind those of `prior`, which all have had theirs. -/
  replies : handedReplies prior = arpReplies (requesters prior) ∧
    handedReplies (prior ++ early) = arpReplies (requesters prior ++ [(mac, ip)])
  /-- No other reply has been handed over since, and this one is not refused. -/
  verdict : (requestVerdicts (prior ++ early)).filter (fun v => v.1.isArpReply) =
    (requestVerdicts prior).filter (fun v => v.1.isArpReply) ++ [(arpReplyRequest mac ip, true)]
  accepted : ∃ between, acceptedRequests (prior ++ early) =
    acceptedRequests prior ++ between ++ [arpReplyRequest mac ip]

theorem Rested.answers {before : List RxPins} {i : RxPins} (h : Rested prior)
    (hnone : (handedAfter prior before).filter ProtocolTxRequest.isArpReply = [])
    (hhanded : (runFrom (prior ++ before)).handed i = some (arpReplyRequest mac ip)) :
    Answers prior (before ++ [i]) mac ip := by
  obtain ⟨consumed, hdone⟩ := h.rxDone
  have haccepts := h.accepts hnone hhanded
  constructor
  case replies =>
    have hreply : (arpReplyRequest mac ip).isArpReply = true := rfl
    refine ⟨hdone.replies, ?_⟩
    rw [handedReplies_append, handedAfter, events_snoc, ← runFrom_append, hhanded,
      List.filter_append, ← handedAfter, hnone, hdone.replies, arpReplies, arpReplies,
      List.map_append]
    rfl
  case verdict =>
    have hroom : packetQueueWriteSlotAvailable (runFrom (prior ++ before)).txQueue = true := by
      by_contra hfull
      rw [Endpoint.accepted, if_neg hfull] at haccepts
      cases haccepts
    obtain ⟨more, hmore, hfst⟩ := requestVerdicts_append prior before
    have hquiet : more.filter (fun v => v.1.isArpReply) = [] := by
      rw [← hfst, List.filter_map, List.map_eq_nil_iff] at hnone
      exact hnone
    rw [← List.append_assoc, requestVerdicts_snoc, hmore, Endpoint.verdict, hhanded, hroom,
      List.filter_append, List.filter_append, hquiet, List.append_nil]
    rfl
  case accepted =>
    obtain ⟨between, hbetween⟩ := acceptedRequests_mono prior before
    refine ⟨between, ?_⟩
    rw [← List.append_assoc, acceptedRequests_snoc, haccepts, hbetween]
    rfl

theorem reply_accepted (hrested : Rested prior) (hne : on ≠ [])
    (hon : ∀ p ∈ on, p.ethRxDv = true) (hstop : stop.ethRxDv = false)
    (hasks : acceptedRequester ⟨on, stop⟩ = some (mac, ip)) (hlater : 200 ≤ later.length) :
    ∃ early late, on ++ stop :: later = early ++ late ∧ later.length ≤ late.length + 200 ∧
      Answers prior early mac ip := by
  obtain ⟨consumed, hdone⟩ := hrested.rxDone
  obtain ⟨before, i, after, hsplit, hlong, hnone, hhanded⟩ :=
    reply_handed hdone hne hon hstop hasks hlater
  refine ⟨before ++ [i], after, ?_, hlong, hrested.answers hnone hhanded⟩
  rw [hsplit, List.append_cons]

/-- Whatever the endpoint has received before, at rest or behind a pause of 1541 idle cycles it
answers the next ARP request, whatever follows: within 200 cycles of its end the reply is handed
over and accepted, and within 1516 everything accepted up to then is on the wire, the reply last. -/
theorem arp_answered (hrested : Rested prior) (hne : on ≠ [])
    (hon : ∀ p ∈ on, p.ethRxDv = true) (hstop : stop.ethRxDv = false)
    (hasks : acceptedRequester ⟨on, stop⟩ = some (mac, ip)) (hlater : 1516 ≤ later.length) :
    ∃ early late after, on ++ stop :: later = early ++ late ∧
      later.length ≤ late.length + 200 ∧ Answers prior early mac ip ∧
      emittedFrames (prior ++ (on ++ stop :: later)) =
        (acceptedRequests (prior ++ early)).map ProtocolTxRequest.wireFrame ++ after := by
  have hstart : 200 ≤ later.length := by omega
  obtain ⟨early, late, hsplit, hlong, hanswers⟩ :=
    reply_accepted hrested hne hon hstop hasks hstart
  obtain ⟨emitted, -, hframes, ⟨rest, hrest⟩⟩ :=
    emitted_requests (prior ++ early) late (by omega)
  refine ⟨early, late, rest.map ProtocolTxRequest.wireFrame, hsplit, hlong, hanswers, ?_⟩
  rw [hsplit, ← List.append_assoc, hframes, ← hrest, List.map_append]

end Answer

/-- A broken burst, a pause, and then the request. -/
theorem arp_answered_probe :
    ∃ early late after,
      ArpRequestFrame.probe.pins 7 ++ ⟨false, 0, false⟩ :: List.replicate 1516 ⟨false, 0, false⟩ =
        early ++ late ∧
      (List.replicate 1516 (⟨false, 0, false⟩ : RxPins)).length ≤ late.length + 200 ∧
      Answers ([⟨true, 5, true⟩] ++ List.replicate 1541 ⟨false, 0, false⟩) early
        0x020000000002 0xC0A80101 ∧
      emittedFrames ([⟨true, 5, true⟩] ++ List.replicate 1541 ⟨false, 0, false⟩ ++
        (ArpRequestFrame.probe.pins 7 ++ ⟨false, 0, false⟩ ::
          List.replicate 1516 ⟨false, 0, false⟩)) =
        (acceptedRequests ([⟨true, 5, true⟩] ++ List.replicate 1541 ⟨false, 0, false⟩ ++
          early)).map ProtocolTxRequest.wireFrame ++ after := by
  have hpause : IdleLine (List.replicate 1541 ⟨false, 0, false⟩) :=
    fun p hp => by rw [List.eq_of_mem_replicate hp]
  have hrested : Rested ([⟨true, 5, true⟩] ++ List.replicate 1541 ⟨false, 0, false⟩) :=
    .paused _ _ rfl hpause List.length_replicate.ge
  apply arp_answered hrested
  · exact List.ne_nil_of_length_pos (by rw [ArpRequestFrame.length_pins]; omega)
  · exact ArpRequestFrame.probe.ethRxDv_pins 7
  · rfl
  · exact ArpRequestFrame.probe.acceptedRequester_pins 6 rfl
  · exact List.length_replicate.ge

end ArtyEthernet
