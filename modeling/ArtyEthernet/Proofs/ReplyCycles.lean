import ArtyEthernet.Proofs.ReplyLine

/-!
# One cycle of the reply line

The handler looks for a packet, reads it, decides it or builds the reply. Each of these keeps
`LineAt`, unless a reply is refused, and `LineAt` tells when that happens.
-/

namespace ArtyEthernet
open Words

variable {e : ℕ} {done undone : List ℕ} {consumed waiting : List RxSlot} {slot : RxSlot}
  {sent held : List ProtocolTxRequest} {inputs : List RxPins} {i : RxPins}

theorem not_recent {rest : List RxSlot} {st : Protocol} (hrest : rest = [])
    (hoff : st.preparingPayload = false) : ¬ (rest ≠ [] ∨ st.preparingPayload = true) := by
  rintro (hne | hon)
  · exact hne hrest
  · rw [hoff] at hon
    contradiction

/-- A free handler looks at the packet that arrives: it is dropped at once or its parse begins. -/
theorem LineAt.step_arrival (h : LineAt e done [] consumed [] sent held inputs)
    (hstate : (runFrom inputs).proto.protocolState = .protoIdle)
    (hprep : (runFrom inputs).proto.preparingPayload = false)
    (hticks : (runFrom inputs).proto.ticks = ⟨false, false⟩)
    (hnew : (runFrom inputs).rxPublished i = some slot) :
    ∃ e' undone' consumed' waiting' sent' held',
      LineAt e' done undone' consumed' waiting' sent' held' (inputs ++ [i]) := by
  obtain ⟨eaten, rest, hd, hsplit, -, hwork⟩ := h.decided.step i
  have hhanded := handed_none_of_idle (i := i) hticks hstate
  obtain ⟨hfinished, hoff⟩ := h.rests hprep (accepted_none (by rw [hhanded]; rfl))
  have hreplies := handed_noTick h.decided hd hticks
  rw [hhanded, Option.toList_none, eq_comm, arpReplies, List.map_eq_nil_iff] at hreplies
  have hpub : ((runFrom inputs).rxPublished i).map slotPacket =
      completedPacket (rxPending inputs) i := published_of_completed rfl
  rw [hnew] at hsplit hpub hwork
  have hdv : i.ethRxDv = false := by
    by_contra hon
    rw [completedPacket_none (Or.inl (by simpa using hon))] at hpub
    simp at hpub
  have hends : requestEnds (inputs ++ [i]) =
      done ++ if (slotRequester slot).isSome then [inputs.length] else [] := by
    rw [requestEnds_snoc, h.ends, List.append_nil, endsRequest, ← hpub]
    rfl
  cases eaten with
  | cons first more =>
    obtain ⟨rfl, hmore⟩ := List.cons.inj hsplit
    obtain ⟨rfl, rfl⟩ := List.append_eq_nil_iff.mp hmore.symm
    have hverdict : slotRequester slot = none := by
      cases hv : slotRequester slot with
      | none => rfl
      | some requester => simp [hv] at hreplies
    rw [hverdict] at hends
    have hphase : Phase e (inputs.length + 1) (runFrom (inputs ++ [i])).proto [] [] :=
      .idle hd.rx.idle_of_nil hoff
    obtain ⟨sent', held', hat⟩ :=
      h.keep hd hfinished hends hphase fun hbusy => absurd hbusy (not_recent rfl hoff)
    exact ⟨_, _, _, _, _, _, hat⟩
  | nil =>
    change [slot] = rest at hsplit
    subst hsplit
    have hparse := parse_of_looks hwork (List.cons_ne_nil slot []) hprep
    obtain ⟨hsame, hindex⟩ := step_proto (runFrom inputs) i
    rw [runFrom_snoc, hsame] at hparse
    have hzero := (protocolSelectStep_parseIndex hprep hparse).1 hstate
    have hphase : Phase inputs.length (inputs.length + 1) (runFrom (inputs ++ [i])).proto [slot]
        (if (slotRequester slot).isSome then [inputs.length] else []) := by
      rw [runFrom_snoc]
      refine .parsing slot (hsame.trans hparse) ?_
      rw [hindex, hzero]
      rfl
    have hpending : rxPending (inputs ++ [i]) = [] := by
      rw [rxPending_snoc, nextPending, hdv]
      rfl
    obtain ⟨sent', held', hat⟩ := h.keep hd hfinished hends hphase (by rw [hpending]; simp)
    exact ⟨_, _, _, _, _, _, hat⟩

theorem LineAt.step_quiet (h : LineAt e done [] consumed [] sent held inputs)
    (hstate : (runFrom inputs).proto.protocolState = .protoIdle)
    (hprep : (runFrom inputs).proto.preparingPayload = false)
    (hticks : (runFrom inputs).proto.ticks = ⟨false, false⟩)
    (hnone : (runFrom inputs).rxPublished i = none) :
    ∃ consumed' sent' held', LineAt e done [] consumed' [] sent' held' (inputs ++ [i]) := by
  obtain ⟨eaten, rest, hd, hsplit, -, -⟩ := h.decided.step i
  have hhanded := handed_none_of_idle (i := i) hticks hstate
  obtain ⟨hfinished, hoff⟩ := h.rests hprep (accepted_none (by rw [hhanded]; rfl))
  have hpub : ((runFrom inputs).rxPublished i).map slotPacket =
      completedPacket (rxPending inputs) i := published_of_completed rfl
  rw [hnone] at hsplit hpub
  obtain ⟨-, rfl⟩ := List.append_eq_nil_iff.mp hsplit.symm
  have hends : requestEnds (inputs ++ [i]) = done ++ [] := by
    rw [requestEnds_quiet hpub.symm, h.ends]
  have hphase : Phase e (inputs.length + 1) (runFrom (inputs ++ [i])).proto [] [] :=
    .idle hd.rx.idle_of_nil hoff
  obtain ⟨sent', held', hat⟩ :=
    h.keep hd hfinished hends hphase fun hbusy => absurd hbusy (not_recent rfl hoff)
  exact ⟨_, sent', held', hat⟩

theorem LineAt.publish {r : ProtocolTxRequest} {consumed' : List RxSlot}
    (h : LineAt e done [e] consumed waiting sent held inputs)
    (hdecided : Decided consumed' [] (inputs ++ [i]))
    (hends : requestEnds (inputs ++ [i]) = requestEnds inputs)
    (hfinished : (runFrom inputs).finished i = [r]) (hcycles : r.cycles = 169)
    (hoff : (runFrom (inputs ++ [i])).proto.preparingPayload = false)
    (htime : inputs.length = e + 69) :
    ∃ sent' held', LineAt e (done ++ [e]) [] consumed' [] sent' held' (inputs ++ [i]) := by
  obtain ⟨sent', held', htx, hheld⟩ := h.tx_step hfinished (by simpa using hcycles)
  have hlen : (inputs ++ [i]).length = inputs.length + 1 := by simp
  have hleft : wireFree done - inputs.length + 169 * [r].length - 1 =
      wireFree (done ++ [e]) - (inputs ++ [i]).length := by
    rw [wireFree_snoc, hlen, List.length_singleton]
    omega
  rw [hleft] at htx
  refine ⟨sent', held', hdecided, htx, hheld, ?_, ?_, .idle hdecided.rx.idle_of_nil hoff,
    fun hbusy => absurd hbusy (not_recent rfl hoff)⟩
  · rw [hends, h.ends, List.append_nil]
  · intro k hk
    rcases List.mem_append.mp hk with hold | hnew
    · have hbefore := h.old k hold
      omega
    · rw [List.mem_singleton.mp hnew]
      omega

theorem TxAt.starts {pins : List TxPins} {left : ℕ} {s : Endpoint} {r : ProtocolTxRequest}
    (h : TxAt sent held pins left s) (hprep : s.proto.preparingPayload = false)
    (hr : s.accepted i = some r) (hlen : 2 ≤ r.len.toNat) :
    s.finished i = [] ∧ (s.step i).proto.building = [r] ∧
      (s.step i).proto.buildCost + 1 = r.len.toNat := by
  have htaken : s.accepted i = takenRequest s.txQueue
      (protocolSelectStep s.proto (s.rxStage i).2 s.txQueue).handed := rfl
  obtain ⟨hring, hbuilding⟩ := h.ring.select (s.rxStage i).2
  rw [Protocol.building_nil.mpr hprep, ← htaken, hr] at hbuilding
  have hcost : (s.step i).proto.buildCost + 1 =
      (protocolSelectStep s.proto (s.rxStage i).2 s.txQueue).st.selectCost :=
    buildCost_prepare _ fun hp => (hring.building hp).index
  obtain ⟨hon, hreq⟩ := Protocol.building_singleton hbuilding
  have hzero := protocolSelectStep_prepareIndex hprep hon
  have hfinished : s.finished i = [] := by
    rw [Endpoint.finished, Protocol.finishing, if_neg]
    rintro ⟨-, hlast⟩
    rw [hzero, hreq] at hlast
    simp at hlast
    omega
  have hbuild := (h.ring_proto i).2
  rw [hfinished, Protocol.building_nil.mpr hprep, hr] at hbuild
  refine ⟨hfinished, hbuild, hcost.trans ?_⟩
  rw [Protocol.selectCost, Protocol.buildCost, hon, hzero, hreq]
  rfl

theorem LineAt.step_build (h : LineAt e done undone consumed [] sent held inputs)
    (hprep : (runFrom inputs).proto.preparingPayload = true)
    (hnone : completedPacket (rxPending inputs) i = none) :
    ∃ e' done' undone' consumed' waiting' sent' held',
      LineAt e' done' undone' consumed' waiting' sent' held' (inputs ++ [i]) := by
  obtain ⟨eaten, rest, hd, hsplit, -, -⟩ := h.decided.step i
  rw [Option.map_eq_none_iff.mp (published_of_completed hnone)] at hsplit
  obtain ⟨rfl, rfl⟩ := List.append_eq_nil_iff.mp hsplit.symm
  have hstate := hd.rx.idle_of_nil
  have hrequests := requestEnds_quiet hnone
  obtain ⟨hpasses, -, hcost⟩ := @queueStep_wait _ ((runFrom inputs).rxStage i).2
    (runFrom inputs).txQueue hprep (h.tx.ring.building hprep).index
  have hproto : (protocolQueueStep (runFrom inputs).proto ((runFrom inputs).rxStage i).2
      (runFrom inputs).txQueue).st = (runFrom (inputs ++ [i])).proto := by
    rw [runFrom_snoc]
    rfl
  rw [hproto] at hcost
  have hhanded : (runFrom inputs).handed i = none := hpasses.handed
  have hbuild := h.builds i
  rw [accepted_none (by rw [hhanded]; rfl), Option.toList_none, List.append_nil] at hbuild
  have hphase := h.phase
  have hrecent := h.recent (Or.inr hprep)
  have hends := h.ends
  generalize hw : ([] : List RxSlot) = waiting at hphase
  cases hphase with
  | idle _ hoff => simp [hprep] at hoff
  | parsing slot => simp at hw
  | building _ _ clock late hcycles =>
    have hsingle : (runFrom inputs).proto.building = [(runFrom inputs).proto.prepareRequest] := by
      rw [Protocol.building, if_pos hprep]
    have hbuilding := hbuild
    rw [hsingle] at hbuilding
    rcases List.append_eq_singleton_iff.mp hbuilding with ⟨hfinished, hmore⟩ | ⟨hfinished, hmore⟩
    · have hon := (Protocol.building_singleton hmore).1
      have hnext : Phase e (inputs.length + 1) (runFrom (inputs ++ [i])).proto [] [e] := by
        refine .building hstate hon (by omega) (by omega) ?_
        rw [hmore, ← hsingle]
        exact hcycles
      have hlen := length_rxPending_snoc inputs i
      obtain ⟨sent', held', hat⟩ :=
        h.keep hd hfinished (hrequests.trans hends) hnext fun _ => by omega
      exact ⟨_, _, _, _, _, _, _, hat⟩
    · have hoff := Protocol.building_nil.mp hmore
      rw [buildCost_off hoff] at hcost
      obtain ⟨sent', held', hat⟩ := h.publish hd hrequests hfinished
        (hcycles _ (by rw [hsingle]; simp)) hoff (by omega)
      exact ⟨_, _, _, _, _, _, _, hat⟩

/-- A cycle in `protoParseArp`: a byte is read, or the last one is and the packet is decided. -/
inductive ParseCycle (consumed : List RxSlot) (slot : RxSlot) (inputs : List RxPins)
    (i : RxPins) : Prop where
  | read (decided : Decided consumed [slot] (inputs ++ [i]))
      (state : (runFrom (inputs ++ [i])).proto.protocolState = .protoParseArp)
      (early : (runFrom inputs).proto.parseIndex.toNat < 27)
      (index : (runFrom (inputs ++ [i])).proto.parseIndex.toNat =
        (runFrom inputs).proto.parseIndex.toNat + 1)
      (handed : (runFrom inputs).handed i = none)
  | decide (decided : Decided (consumed ++ [slot]) [] (inputs ++ [i]))
      (last : (runFrom inputs).proto.parseIndex.toNat = 27)
      (handed : ((runFrom inputs).handed i).toList = arpReplies (slotRequester slot).toList)

theorem Decided.parse_cycle (h : Decided consumed [slot] inputs)
    (hstate : (runFrom inputs).proto.protocolState = .protoParseArp)
    (hticks : (runFrom inputs).proto.ticks = ⟨false, false⟩)
    (hnone : completedPacket (rxPending inputs) i = none) : ParseCycle consumed slot inputs i := by
  obtain ⟨_, _, _, hat⟩ := h.rx.handler.parsing hstate
  obtain ⟨hsame, hnext⟩ := step_proto (runFrom inputs) i
  obtain ⟨eaten, rest, hd, hsplit, -, hwork⟩ := h.step i
  have hreplies := handed_noTick h hd hticks
  rw [Option.map_eq_none_iff.mp (published_of_completed hnone)] at hsplit
  cases eaten with
  | nil =>
    change [slot] = rest at hsplit
    subst hsplit
    have hparse := parse_of_looks hwork (by simp) hat.notPreparing
    rw [runFrom_snoc, hsame] at hparse
    obtain ⟨hmore, hindex⟩ :=
      (protocolSelectStep_parseIndex hat.notPreparing hparse).2 hstate
    have hlt := hat.index
    have hne : (runFrom inputs).proto.parseIndex.toNat ≠ 27 := fun h27 =>
      hmore (BitVec.eq_of_toNat_eq h27)
    rw [List.append_nil] at hd
    refine .read hd ?_ (by omega) ?_ (Option.toList_eq_nil_iff.mp hreplies)
    · rw [runFrom_snoc, hsame, hparse]
    · rw [runFrom_snoc, hnext, hindex, BitVec.toNat_add]
      simp
      omega
  | cons first more =>
    obtain ⟨rfl, hmore⟩ := List.cons.inj hsplit
    obtain ⟨rfl, rfl⟩ := List.append_eq_nil_iff.mp hmore.symm
    have hidle := hd.rx.idle_of_nil
    rw [runFrom_snoc, hsame] at hidle
    have hlast := protocolSelectStep_decides hat.notPreparing hstate hidle
    refine .decide hd hlast (hreplies.trans ?_)
    cases hv : slotRequester slot <;> simp [hv]

theorem LineAt.step_parse (h : LineAt e done undone consumed [slot] sent held inputs)
    (hstate : (runFrom inputs).proto.protocolState = .protoParseArp)
    (hticks : (runFrom inputs).proto.ticks = ⟨false, false⟩)
    (hnone : completedPacket (rxPending inputs) i = none)
    (hrefused : (runFrom inputs).refused i = none) :
    ∃ e' done' undone' consumed' waiting' sent' held',
      LineAt e' done' undone' consumed' waiting' sent' held' (inputs ++ [i]) := by
  obtain ⟨_, _, _, hat⟩ := h.decided.rx.handler.parsing hstate
  have hrecent := h.recent (Or.inl (List.cons_ne_nil slot []))
  have hends := (requestEnds_quiet hnone).trans h.ends
  have hlen := length_rxPending_snoc inputs i
  have hphase := h.phase
  generalize hw : [slot] = waiting at hphase
  cases hphase with
  | idle => simp at hw
  | building => simp at hw
  | parsing first _ clock =>
    obtain rfl := List.singleton_inj.mp hw
    have hsplit := (runFrom inputs).handed_split i
    rw [hrefused, Option.toList_none, List.append_nil] at hsplit
    cases h.decided.parse_cycle hstate hticks hnone with
    | read hd hparse hearly hindex hhanded =>
      have haccepted := accepted_none (by rw [hhanded]; rfl)
      obtain ⟨hfinished, -⟩ := h.rests hat.notPreparing haccepted
      have hnext := Phase.parsing slot hparse (show inputs.length + 1 = e + 1 + _ by omega)
      obtain ⟨sent', held', hline⟩ := h.keep hd hfinished hends hnext fun _ => by omega
      exact ⟨_, _, _, _, _, _, _, hline⟩
    | decide hd hlast hhanded =>
      have hidle := hd.rx.idle_of_nil
      rw [hhanded] at hsplit
      cases hv : slotRequester slot with
      | none =>
        rw [hv] at hsplit hends
        obtain ⟨hfinished, hoff⟩ :=
          h.rests hat.notPreparing (Option.toList_eq_nil_iff.mp hsplit.symm)
        have hnext : Phase e (inputs.length + 1) (runFrom (inputs ++ [i])).proto [] [] :=
          .idle hidle hoff
        obtain ⟨sent', held', hline⟩ := h.keep hd hfinished hends hnext fun _ => by omega
        exact ⟨_, _, _, _, _, _, _, hline⟩
      | some requester =>
        rw [hv] at hsplit hends
        have haccepted : (runFrom inputs).accepted i =
            some (arpReplyRequest requester.1 requester.2) :=
          Option.toList_eq_singleton_iff.mp hsplit.symm
        obtain ⟨hfinished, hbuilding, hcost⟩ :=
          h.tx.starts hat.notPreparing haccepted (show 2 ≤ 42 by omega)
        rw [← runFrom_snoc] at hbuilding hcost
        have hcost42 : (runFrom (inputs ++ [i])).proto.buildCost + 1 = 42 := hcost
        have hon := (Protocol.building_singleton hbuilding).1
        have hnext : Phase e (inputs.length + 1) (runFrom (inputs ++ [i])).proto [] [e] := by
          refine .building hidle hon (by omega) (by omega) fun r hr => ?_
          rw [hbuilding, List.mem_singleton] at hr
          rw [hr, arpReplyRequest_cycles]
        obtain ⟨sent', held', hline⟩ := h.keep hd hfinished hends hnext fun _ => by omega
        exact ⟨_, _, _, _, _, _, _, hline⟩

/-- Until a reply is refused, one cycle keeps the account. -/
theorem LineAt.step (h : LineAt e done undone consumed waiting sent held inputs)
    (hlong : ∀ r ∈ rxBursts (inputs ++ [i]), 144 ≤ r.body.length)
    (hticks : (runFrom inputs).proto.ticks = ⟨false, false⟩)
    (hrefused : (runFrom inputs).refused i = none) :
    ∃ e' done' undone' consumed' waiting' sent' held',
      LineAt e' done' undone' consumed' waiting' sent' held' (inputs ++ [i]) := by
  have harrival (hbusy : waiting ≠ [] ∨ (runFrom inputs).proto.preparingPayload = true) :
      completedPacket (rxPending inputs) i = none := by
    by_contra hsome
    obtain ⟨hnil, hoff⟩ := h.arrival hlong hsome
    rcases hbusy with hne | hon
    · exact hne hnil
    · rw [hoff] at hon
      contradiction
  have hphase := h.phase
  cases hphase with
  | idle hstate hprep =>
    cases hnew : (runFrom inputs).rxPublished i with
    | none =>
      obtain ⟨_, _, _, hline⟩ := h.step_quiet hstate hprep hticks hnew
      exact ⟨_, _, _, _, _, _, _, hline⟩
    | some slot =>
      obtain ⟨_, _, _, _, _, _, hline⟩ := h.step_arrival hstate hprep hticks hnew
      exact ⟨_, _, _, _, _, _, _, hline⟩
  | parsing slot hstate =>
    exact h.step_parse hstate hticks (harrival (Or.inl (List.cons_ne_nil slot []))) hrefused
  | building _ hprep => exact h.step_build hprep (harrival (Or.inr hprep))

/-- A reply is refused when the framer is still busy with four others: it is due in cycle `e + 28`
and would have to wait until after cycle `e + 535`. -/
theorem LineAt.refused_iff (h : LineAt e done undone consumed waiting sent held inputs)
    (hlong : ∀ r ∈ rxBursts (inputs ++ [i]), 144 ≤ r.body.length)
    (hticks : (runFrom inputs).proto.ticks = ⟨false, false⟩) :
    (runFrom inputs).refused i ≠ none ↔
      undone = [e] ∧ inputs.length = e + 28 ∧ e + 535 < wireFree done := by
  have hfree := h.tx.free_iff h.cycles
  have hnever (hnone : (runFrom inputs).handed i = none) : (runFrom inputs).refused i = none := by
    rw [Endpoint.refused, hnone, ite_self]
  have harrival (hne : waiting ≠ []) : completedPacket (rxPending inputs) i = none := by
    by_contra hsome
    exact hne (h.arrival hlong hsome).1
  cases h.phase with
  | idle hstate =>
    simp [hnever (handed_none_of_idle hticks hstate)]
  | building hstate _ _ hlate =>
    rw [hnever (handed_none_of_idle hticks hstate)]
    simp
    omega
  | parsing slot hstate clock =>
    cases h.decided.parse_cycle hstate hticks (harrival (List.cons_ne_nil slot [])) with
    | read _ _ hearly _ hhanded =>
      rw [hnever hhanded]
      simp
      omega
    | decide _ hlast hhanded =>
      cases hv : slotRequester slot with
      | none =>
        rw [hv] at hhanded
        simp [hnever (Option.toList_eq_nil_iff.mp hhanded)]
      | some requester =>
        rw [hv] at hhanded
        have hsome : (runFrom inputs).handed i =
            some (arpReplyRequest requester.1 requester.2) :=
          Option.toList_eq_singleton_iff.mp hhanded
        have htime : inputs.length = e + 28 := by omega
        rw [Endpoint.refused, hsome]
        by_cases hslot : packetQueueWriteSlotAvailable (runFrom inputs).txQueue = true
        · have hleft := hfree.mp hslot
          simp [hslot]
          omega
        · have hleft := mt hfree.mpr hslot
          simp [hslot]
          omega

end ArtyEthernet
