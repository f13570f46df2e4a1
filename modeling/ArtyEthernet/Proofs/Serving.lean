import ArtyEthernet.Proofs.Backlog
import ArtyEthernet.Proofs.Ticks
import ArtyEthernet.Proofs.TxWork

/-!
# Serving one packet

While no timer ticks, an idle endpoint that receives a packet has dropped or answered it, sent the
answer and gone through its gap within 238 further cycles.
-/

namespace ArtyEthernet
open Words

/-- A run in which, since `base` was decided and `earlier` accepted, at most one packet has been
served. At most `budget` cycles of work are left. -/
structure Serving (base : List RxSlot) (earlier : List ProtocolTxRequest) (budget : ℕ)
    (inputs : List RxPins) (new waiting : List RxSlot) (sent held : List ProtocolTxRequest)
    (left : ℕ) : Prop where
  rx : Decided (base ++ new) waiting inputs
  tx : TxAt sent held (drivenPins inputs) left (runFrom inputs)
  carried : acceptedRequests inputs = sent ++ held ++ (runFrom inputs).proto.building
  accepted : acceptedRequests inputs = earlier ++ arpReplies (new.filterMap slotRequester)
  single : waiting.length + (runFrom inputs).proto.building.length + held.length ≤ 1
  work : slotsCost waiting + 169 * waiting.length + (runFrom inputs).proto.txWork left ≤
    budget + (runFrom inputs).proto.parseCredit

variable {base new waiting : List RxSlot} {earlier sent held : List ProtocolTxRequest}
  {budget left : ℕ} {inputs : List RxPins} {i : RxPins}

theorem heldCycles_eq_zero {requests : List ProtocolTxRequest} (h : heldCycles requests = 0) :
    requests = [] := by
  cases requests with
  | nil => rfl
  | cons r rest =>
    have hpos : 0 < r.cycles := Nat.succ_pos _
    rw [heldCycles_cons] at h
    omega

theorem Protocol.building_nil {st : Protocol} : st.building = [] ↔ st.preparingPayload = false := by
  unfold Protocol.building
  cases st.preparingPayload <;> simp

structure AtRest (s : Endpoint) (waiting : List RxSlot) (held : List ProtocolTxRequest)
    (left : ℕ) : Prop where
  waiting : waiting = []
  held : held = []
  idle : s.proto.protocolState = .protoIdle
  notPreparing : s.proto.preparingPayload = false
  work : s.proto.txWork left = 0

theorem Serving.rest (h : Serving base earlier 0 inputs new waiting sent held left) :
    AtRest (runFrom inputs) waiting held left := by
  have hwork := h.work
  have hcredit := h.rx.rx.parseCredit_le.1
  have hwaiting : waiting = [] := by
    cases waiting with
    | nil => rfl
    | cons slot rest =>
      rw [List.length_cons] at hwork
      omega
  subst hwaiting
  have hidle := h.rx.rx.idle_of_nil
  rw [parseCredit_idle hidle] at hwork
  have hparts : (runFrom inputs).proto.txWork left = 0 := by omega
  unfold Protocol.txWork at hparts
  have hleft : left = 0 := by omega
  have hbuilding :=
    heldCycles_eq_zero (show heldCycles (runFrom inputs).proto.building = 0 by omega)
  subst hleft
  exact ⟨rfl, h.tx.held_nil, hidle, Protocol.building_nil.mp hbuilding, by omega⟩

/-- Without a tick the requests handed over are the answers to the packets decided. -/
theorem handed_noTick {consumed eaten rest : List RxSlot}
    (h : Decided consumed waiting inputs) (h' : Decided (consumed ++ eaten) rest (inputs ++ [i]))
    (hticks : (runFrom inputs).proto.ticks = ⟨false, false⟩) :
    ((runFrom inputs).handed i).toList = arpReplies (eaten.filterMap slotRequester) := by
  have hreplies := h'.replies
  rw [handedRequests_snoc, List.filter_append, h.replies, List.filterMap_append, arpReplies,
    arpReplies, List.map_append, List.append_cancel_left_eq] at hreplies
  rw [arpReplies, ← hreplies]
  cases hr : (runFrom inputs).handed i with
  | none => rfl
  | some r =>
    obtain ⟨rfl, -⟩ := protocolSelectStep_noTick hticks hr
    rfl

theorem slotCost_answered {slot : RxSlot} (h : slotRequester slot ≠ none) : slotCost slot = 93 := by
  unfold slotCost
  rw [if_pos]
  by_contra hwants
  apply h
  unfold slotRequester Packet.arpRequester
  rw [if_neg]
  rintro ⟨hw, -⟩
  exact hwants hw

structure TxServed (earlier : List ProtocolTxRequest) (inputs : List RxPins) (i : RxPins)
    (new eaten : List RxSlot) (before left : ℕ) (sent' held' : List ProtocolTxRequest)
    (left' : ℕ) : Prop where
  tx : TxAt sent' held' (drivenPins (inputs ++ [i])) left' (runFrom (inputs ++ [i]))
  carried : acceptedRequests (inputs ++ [i]) =
    sent' ++ held' ++ (runFrom (inputs ++ [i])).proto.building
  accepted : acceptedRequests (inputs ++ [i]) =
    earlier ++ arpReplies ((new ++ eaten).filterMap slotRequester)
  few : (runFrom (inputs ++ [i])).proto.building.length + held'.length ≤
    before + (eaten.filterMap slotRequester).length
  quiet : eaten.filterMap slotRequester = [] →
    (runFrom (inputs ++ [i])).proto.txWork left' ≤ (runFrom inputs).proto.txWork left - 1
  answer : eaten.filterMap slotRequester ≠ [] →
    (runFrom (inputs ++ [i])).proto.txWork left' + 1 ≤ (runFrom inputs).proto.txWork left + 211

theorem Serving.tx_step (h : Serving base earlier budget inputs new waiting sent held left)
    {eaten : List RxSlot}
    (hhanded : ((runFrom inputs).handed i).toList = arpReplies (eaten.filterMap slotRequester)) :
    ∃ sent' held' left', TxServed earlier inputs i new eaten
      ((runFrom inputs).proto.building.length + held.length) left sent' held' left' := by
  have hsingle := h.single
  have hfree : packetQueueWriteSlotAvailable (runFrom inputs).txQueue = true :=
    h.tx.ring.length_held.1.mpr (by omega)
  have haccepted : (runFrom inputs).accepted i = (runFrom inputs).handed i := by
    rw [Endpoint.accepted, if_pos hfree]
  obtain ⟨sent', held', htx, hsplit, ⟨more, hmore⟩, hbuild⟩ := h.tx.step i
  have hwork := h.tx.work_step i
  rw [← drivenPins_snoc, ← runFrom_snoc] at htx
  rw [haccepted, hhanded] at hbuild
  refine ⟨sent', held', _, htx, ?_, ?_, ?_, ?_, ?_⟩
  · rw [acceptedRequests_snoc, haccepted, hhanded, h.carried, hsplit, runFrom_snoc,
      List.append_assoc, ← hbuild]
    simp
  · rw [acceptedRequests_snoc, haccepted, hhanded, h.accepted, List.filterMap_append, arpReplies,
      arpReplies, arpReplies, List.map_append, List.append_assoc]
  · have hlenBuild := congrArg List.length hbuild
    have hlenSplit := congrArg List.length hsplit
    rw [← hmore] at hlenSplit
    simp only [List.length_append, arpReplies, List.length_map] at hlenBuild hlenSplit
    rw [runFrom_snoc]
    omega
  · intro hnone
    rw [hnone] at hhanded
    rw [runFrom_snoc]
    exact hwork.none (haccepted.trans (Option.toList_eq_nil_iff.mp hhanded))
  · intro hsome
    obtain ⟨requester, more, hcons⟩ := List.exists_cons_of_ne_nil hsome
    rw [hcons] at hhanded
    cases hr : (runFrom inputs).handed i with
    | none => simp [hr, arpReplies] at hhanded
    | some r =>
      rw [hr] at hhanded
      have heq : r = arpReplyRequest requester.1 requester.2 := (List.cons.inj hhanded).1
      have hcost : r.work = 211 := by
        rw [heq, (wellFormed_arpReply _ _).work_eq]
        rfl
      have hnext := hwork.some r (haccepted.trans hr)
      rw [runFrom_snoc]
      omega

theorem Serving.work_quiet (h : Serving base earlier budget inputs new waiting sent held left)
    {eaten rest : List RxSlot} {before left' : ℕ} {sent' held' : List ProtocolTxRequest}
    (hsplit : waiting = eaten ++ rest)
    (hstep : StepWork (runFrom inputs).proto (runFrom (inputs ++ [i])).proto waiting eaten)
    (hserved : TxServed earlier inputs i new eaten before left sent' held' left') :
    slotsCost rest + 169 * rest.length + (runFrom (inputs ++ [i])).proto.txWork left' ≤
      budget - 1 + (runFrom (inputs ++ [i])).proto.parseCredit := by
  have hsingle := h.single
  have hwork := h.work
  have hcredit := h.rx.rx.parseCredit_le
  cases waiting with
  | nil =>
    obtain ⟨rfl, rfl⟩ := List.append_eq_nil_iff.mp hsplit.symm
    have hquiet := hserved.quiet rfl
    rw [parseCredit_idle h.rx.rx.idle_of_nil] at hwork
    rw [slotsCost_nil, List.length_nil] at hwork ⊢
    omega
  | cons slot more =>
    rw [List.length_cons] at hsingle
    have hmore : more = [] := List.length_eq_zero_iff.mp (by omega)
    have hbuilding : (runFrom inputs).proto.building = [] := List.length_eq_zero_iff.mp (by omega)
    have hprep := Protocol.building_nil.mp hbuilding
    subst hmore
    rw [slotsCost_cons, slotsCost_nil, List.length_singleton] at hwork
    have hmin := (slotCost_bounds slot).1
    cases eaten with
    | nil =>
      rw [List.nil_append] at hsplit
      have hquiet := hserved.quiet rfl
      have hbusy := hstep.busy (Or.inl (List.cons_ne_nil slot []))
      rw [buildCost_off hprep, slotsCost_nil] at hbusy
      rw [← hsplit, slotsCost_cons, slotsCost_nil, List.length_singleton]
      omega
    | cons first eaten =>
      obtain ⟨rfl, hnil⟩ := List.cons.inj hsplit
      obtain ⟨rfl, rfl⟩ := List.append_eq_nil_iff.mp hnil.symm
      rw [slotsCost_nil, List.length_nil]
      cases hverdict : slotRequester slot with
      | none =>
        have hquiet := hserved.quiet (by simp [hverdict])
        omega
      | some requester =>
        have hanswer := hserved.answer (by simp [hverdict])
        have hcost := slotCost_answered (by rw [hverdict]; exact Option.some_ne_none _)
        omega

/-- The work left by the cycle in which a packet arrives at an endpoint at rest. -/
theorem Serving.work_arrival (h : Serving base earlier 0 inputs new waiting sent held left)
    {eaten rest : List RxSlot} {slot : RxSlot} {before left' : ℕ}
    {sent' held' : List ProtocolTxRequest} (hsplit : [slot] = eaten ++ rest)
    (hstep : StepWork (runFrom inputs).proto (runFrom (inputs ++ [i])).proto [slot] eaten)
    (hserved : TxServed earlier inputs i new eaten before left sent' held' left') :
    slotsCost rest + 169 * rest.length + (runFrom (inputs ++ [i])).proto.txWork left' ≤
      238 + (runFrom (inputs ++ [i])).proto.parseCredit := by
  have hrest := h.rest
  have hzero := hrest.work
  have hmax := (slotCost_bounds slot).2
  cases eaten with
  | nil =>
    rw [List.nil_append] at hsplit
    have hquiet := hserved.quiet rfl
    have hlooks := hstep.looks (List.cons_ne_nil slot []) hrest.notPreparing rfl
    rw [← hsplit, slotsCost_cons, slotsCost_nil, List.length_singleton]
    omega
  | cons first eaten =>
    obtain ⟨rfl, hnil⟩ := List.cons.inj hsplit
    obtain ⟨rfl, rfl⟩ := List.append_eq_nil_iff.mp hnil.symm
    rw [slotsCost_nil, List.length_nil]
    cases hverdict : slotRequester slot with
    | none =>
      have hquiet := hserved.quiet (by simp [hverdict])
      omega
    | some requester =>
      have hanswer := hserved.answer (by simp [hverdict])
      omega

theorem Serving.step_quiet (h : Serving base earlier budget inputs new waiting sent held left)
    (hticks : (runFrom inputs).proto.ticks = ⟨false, false⟩)
    (hnone : (runFrom inputs).rxPublished i = none) :
    ∃ new' waiting' sent' held' left',
      Serving base earlier (budget - 1) (inputs ++ [i]) new' waiting' sent' held' left' := by
  have hsingle := h.single
  obtain ⟨eaten, rest, hrx, hsplit, -, hstep⟩ := h.rx.step i
  rw [hnone, Option.toList_none, List.append_nil] at hsplit hstep
  obtain ⟨sent', held', left', hserved⟩ := h.tx_step (handed_noTick h.rx hrx hticks)
  have hfew := hserved.few
  have hanswers := List.length_filterMap_le slotRequester eaten
  have hlen := congrArg List.length hsplit
  rw [List.length_append] at hlen
  rw [List.append_assoc] at hrx
  exact ⟨new ++ eaten, rest, sent', held', left', hrx, hserved.tx, hserved.carried,
    hserved.accepted, by omega, h.work_quiet hsplit hstep hserved⟩

theorem Serving.step_arrival (h : Serving base earlier 0 inputs new waiting sent held left)
    (hticks : (runFrom inputs).proto.ticks = ⟨false, false⟩) {slot : RxSlot}
    (hslot : (runFrom inputs).rxPublished i = some slot) :
    ∃ new' waiting' sent' held' left',
      Serving base earlier 238 (inputs ++ [i]) new' waiting' sent' held' left' := by
  have hrest := h.rest
  obtain ⟨eaten, rest, hrx, hsplit, -, hstep⟩ := h.rx.step i
  rw [hslot, Option.toList_some, hrest.waiting, List.nil_append] at hsplit hstep
  obtain ⟨sent', held', left', hserved⟩ := h.tx_step (handed_noTick h.rx hrx hticks)
  have hfew := hserved.few
  rw [hrest.held, Protocol.building_nil.mpr hrest.notPreparing] at hfew
  simp only [List.length_nil] at hfew
  have hanswers := List.length_filterMap_le slotRequester eaten
  have hlen := congrArg List.length hsplit
  rw [List.length_append, List.length_singleton] at hlen
  rw [List.append_assoc] at hrx
  exact ⟨new ++ eaten, rest, sent', held', left', hrx, hserved.tx, hserved.carried,
    hserved.accepted, by omega, h.work_arrival hsplit hstep hserved⟩

/-- While nothing arrives and no timer ticks the work runs out. -/
theorem Serving.run_quiet (h : Serving base earlier budget inputs new waiting sent held left)
    (more : List RxPins) (hquiet : ∀ history j, history ++ [j] <+: more →
      (runFrom (inputs ++ history)).proto.ticks = ⟨false, false⟩ ∧
        (runFrom (inputs ++ history)).rxPublished j = none) :
    ∃ new' waiting' sent' held' left',
      Serving base earlier (budget - more.length) (inputs ++ more) new' waiting' sent' held'
        left' := by
  induction more using List.reverseRecOn with
  | nil => exact ⟨new, waiting, sent, held, left, by simpa using h⟩
  | append_singleton more i ih =>
    obtain ⟨new', waiting', sent', held', left', hbefore⟩ := ih fun history j hj =>
      hquiet history j (hj.trans (List.prefix_append more [i]))
    obtain ⟨hticks, hnone⟩ := hquiet more i (List.prefix_refl _)
    rw [← List.append_assoc, List.length_append, List.length_singleton, ← Nat.sub_sub]
    exact hbefore.step_quiet hticks hnone

end ArtyEthernet
