import ArtyEthernet.Proofs.ReplyCycles
import ArtyEthernet.Results.RequestSpacing

/-!
# Requests at line rate

A reply occupies the framer for 169 cycles: its 144 nibbles, the gap of 24, and the cycle in which
the framer is idle between them. A shortest request with the shortest gap takes 168, so requests
that follow each other as fast as Ethernet allows gain a cycle on the replies with each frame.
-/

namespace ArtyEthernet
open Words

/-- From one answered request to any later one that is due, the replies take at most 466 cycles
more than the requests did. -/
def KeepsPace (inputs : List RxPins) : Prop :=
  ∀ before a between k, before ++ a :: (between ++ [k]) <+: requestEnds inputs →
    k + 28 < inputs.length → a + 169 * (between.length + 1) ≤ k + 466

variable {inputs : List RxPins} {i : RxPins}

/-- Every reply that was due finds a free transmit slot. -/
def InTime (inputs : List RxPins) : Prop :=
  ∀ before k, before ++ [k] <+: requestEnds inputs → k + 28 < inputs.length →
    wireFree before ≤ k + 535

theorem inTime_iff_keepsPace (inputs : List RxPins) : InTime inputs ↔ KeepsPace inputs := by
  constructor
  · intro h before a between k hinit hk
    have hfree := h (before ++ a :: between) k (by simpa using hinit) hk
    have hle := (FirstCome.finishTime_le_iff 69 169).mp hfree before a between rfl
    omega
  · intro h earlier k hinit hk
    refine (FirstCome.finishTime_le_iff 69 169).mpr fun before a between hsplit => ?_
    rw [hsplit, List.append_assoc] at hinit
    have hle := h before a between k hinit hk
    omega

theorem requestEnds_mono (inputs : List RxPins) (i : RxPins) :
    requestEnds inputs <+: requestEnds (inputs ++ [i]) := by
  rw [requestEnds_snoc]
  exact List.prefix_append _ _

theorem InTime.of_snoc (h : InTime (inputs ++ [i])) : InTime inputs := by
  intro before k hinit hk
  apply h before k (hinit.trans (requestEnds_mono inputs i))
  rw [List.length_append, List.length_singleton]
  omega

theorem lineAt_run (hlong : ∀ r ∈ rxBursts inputs, 144 ≤ r.body.length)
    (hticks : NoTicks [] inputs) (hnone : refusedRequests inputs = []) :
    ∃ e done undone consumed waiting sent held,
      LineAt e done undone consumed waiting sent held inputs := by
  induction inputs using List.reverseRecOn with
  | nil => exact ⟨_, _, _, _, _, _, _, lineAt_reset⟩
  | append_singleton inputs i ih =>
    rw [refusedRequests_snoc, List.append_eq_nil_iff, Option.toList_eq_nil_iff] at hnone
    obtain ⟨_, _, _, _, _, _, _, h⟩ := ih
      (fun r hr => hlong r (by rw [rxBursts_snoc]; exact List.mem_append_left _ hr))
      (fun history j hj => hticks history j (hj.trans (List.prefix_append inputs [i]))) hnone.1
    exact h.step hlong (hticks inputs i (List.prefix_refl _)) hnone.2

section Due
variable {e : ℕ} {done undone : List ℕ} {consumed waiting : List RxSlot}
  {sent held : List ProtocolTxRequest}

theorem LineAt.due (h : LineAt e done undone consumed waiting sent held inputs) {before : List ℕ}
    {k : ℕ} (hinit : before ++ [k] <+: requestEnds inputs) (hk : k + 28 = inputs.length) :
    before = done ∧ undone = [e] ∧ k = e := by
  have hnotDone : ¬ before ++ [k] <+: done := by
    intro hdone
    have hlate := h.old k (hdone.subset (by simp))
    omega
  have hfew : undone = [] ∨ undone = [e] := by
    cases h.phase with
    | idle => exact Or.inl rfl
    | building => exact Or.inr rfl
    | parsing slot =>
      split_ifs
      · exact Or.inr rfl
      · exact Or.inl rfl
  rw [h.ends] at hinit
  rcases hfew with rfl | rfl
  · rw [List.append_nil] at hinit
    exact absurd hinit hnotDone
  · rcases List.prefix_concat_iff.mp hinit with hwhole | hdone
    · obtain ⟨hbefore, hlast⟩ := List.append_inj' hwhole rfl
      exact ⟨hbefore, rfl, List.singleton_inj.mp hlast⟩
    · exact absurd hdone hnotDone

theorem LineAt.inTime_snoc (h : LineAt e done undone consumed waiting sent held inputs)
    (hlong : ∀ r ∈ rxBursts (inputs ++ [i]), 144 ≤ r.body.length)
    (hticks : (runFrom inputs).proto.ticks = ⟨false, false⟩) :
    InTime (inputs ++ [i]) ↔ InTime inputs ∧ (runFrom inputs).refused i = none := by
  have hlen : (inputs ++ [i]).length = inputs.length + 1 := by simp
  constructor
  · intro hin
    refine ⟨hin.of_snoc, ?_⟩
    by_contra hrefused
    obtain ⟨hundone, htime, hfull⟩ := (h.refused_iff hlong hticks).mp hrefused
    have hmono := requestEnds_mono inputs i
    rw [h.ends, hundone] at hmono
    have hle := hin done e hmono (by omega)
    omega
  · rintro ⟨hin, hnone⟩ before k hinit hk
    have hold : before ++ [k] <+: requestEnds inputs := by
      rw [requestEnds_snoc] at hinit
      split_ifs at hinit
      · rcases List.prefix_concat_iff.mp hinit with hwhole | hearlier
        · have hnew := (List.append_inj' hwhole rfl).2
          rw [List.singleton_inj.mp hnew] at hk
          omega
        · exact hearlier
      · rwa [List.append_nil] at hinit
    by_cases hdue : k + 28 < inputs.length
    · exact hin before k hold hdue
    · obtain ⟨rfl, hundone, rfl⟩ := h.due hold (by omega)
      by_contra hfull
      apply (h.refused_iff hlong hticks).mpr _ hnone
      exact ⟨hundone, by omega, by omega⟩

end Due

theorem refusedRequests_nil_iff (hlong : ∀ r ∈ rxBursts inputs, 144 ≤ r.body.length)
    (hticks : NoTicks [] inputs) : refusedRequests inputs = [] ↔ InTime inputs := by
  induction inputs using List.reverseRecOn with
  | nil =>
    refine iff_of_true rfl fun before k hinit hk => ?_
    simp at hk
  | append_singleton inputs i ih =>
    have hbefore : ∀ r ∈ rxBursts inputs, 144 ≤ r.body.length := fun r hr =>
      hlong r (by rw [rxBursts_snoc]; exact List.mem_append_left _ hr)
    have hquiet : NoTicks [] inputs := fun history j hj =>
      hticks history j (hj.trans (List.prefix_append inputs [i]))
    have hih := ih hbefore hquiet
    rw [refusedRequests_snoc, List.append_eq_nil_iff, Option.toList_eq_nil_iff]
    by_cases hnone : refusedRequests inputs = []
    · obtain ⟨_, _, _, _, _, _, _, h⟩ := lineAt_run hbefore hquiet hnone
      rw [h.inTime_snoc hlong (hticks inputs i (List.prefix_refl _)), ← hih]
    · exact iff_of_false (fun h => hnone h.1) fun hin => hnone (hih.mpr hin.of_snoc)

theorem txDropCount_zero_iff (inputs : List RxPins) :
    (∀ history, history <+: inputs → (runFrom history).txQueue.dropCount = 0) ↔
      refusedRequests inputs = [] := by
  induction inputs using List.reverseRecOn with
  | nil =>
    refine iff_of_true (fun history hinit => ?_) rfl
    rw [List.prefix_nil.mp hinit]
    rfl
  | append_singleton inputs i ih =>
    have hfew : ((runFrom inputs).refused i).toList.length ≤ 1 := Option.length_toList_le
    rw [refusedRequests_snoc, List.append_eq_nil_iff, ← ih]
    constructor
    · intro h
      have hbefore : ∀ history, history <+: inputs → (runFrom history).txQueue.dropCount = 0 :=
        fun history hinit => h history (hinit.trans (List.prefix_append inputs [i]))
      have hlast := h (inputs ++ [i]) (List.prefix_refl _)
      rw [txDropCount_run, refusedRequests_snoc, ih.mp hbefore, List.nil_append] at hlast
      refine ⟨hbefore, List.length_eq_zero_iff.mp ?_⟩
      have hnat := congrArg BitVec.toNat hlast
      simp at hnat
      omega
    · rintro ⟨hbefore, hnone⟩ history hinit
      rcases List.prefix_concat_iff.mp hinit with rfl | hearlier
      · rw [txDropCount_run, refusedRequests_snoc, ih.mp hbefore, hnone]
        rfl
      · exact hbefore history hearlier

theorem txDropCount_zero_iff_keepsPace (hlong : ∀ r ∈ rxBursts inputs, 144 ≤ r.body.length)
    (hticks : NoTicks [] inputs) :
    (∀ history, history <+: inputs → (runFrom history).txQueue.dropCount = 0) ↔
      KeepsPace inputs := by
  rw [txDropCount_zero_iff, refusedRequests_nil_iff hlong hticks, inTime_iff_keepsPace]

/-- A gain of one cycle on each reply is within bounds for 467 requests. -/
theorem Spaced.keepsPace_of_few (h : Spaced 24 inputs) (hfew : (requestEnds inputs).length ≤ 467) :
    KeepsPace inputs := by
  intro before a between k hinit _
  have hspan := h.span hinit
  have hlen := hinit.length_le
  simp only [List.length_append, List.length_cons, List.length_nil] at hlen
  omega

/-- With one more cycle between them requests never gain on the replies. -/
theorem Spaced.keepsPace_of_gap (h : Spaced 25 inputs) : KeepsPace inputs := by
  intro before a between k hinit _
  have hspan := h.span hinit
  omega

/-- At Ethernet spacing every reply finds a free transmit slot exactly while the requests keep
pace, as they do with at most 467 requests or with gaps of 25 cycles. -/
theorem line_rate_iff (inputs : List RxPins) (hspaced : Spaced 24 inputs)
    (hticks : NoTicks [] inputs) :
    ((∀ history, history <+: inputs → (runFrom history).txQueue.dropCount = 0) ↔
        KeepsPace inputs) ∧
      ((requestEnds inputs).length ≤ 467 → KeepsPace inputs) ∧
      (Spaced 25 inputs → KeepsPace inputs) :=
  ⟨txDropCount_zero_iff_keepsPace hspaced.bursts hticks, hspaced.keepsPace_of_few,
    Spaced.keepsPace_of_gap⟩

theorem line_rate_iff_train : ((∀ history, history <+: requestTrain 467 →
      (runFrom history).txQueue.dropCount = 0) ↔ KeepsPace (requestTrain 467)) ∧
    ((requestEnds (requestTrain 467)).length ≤ 467 → KeepsPace (requestTrain 467)) ∧
    (Spaced 25 (requestTrain 467) → KeepsPace (requestTrain 467)) :=
  line_rate_iff (requestTrain 467) (spaced_requestTrain 467) (noTicks_requestTrain (by omega))

/-- The 468th request of a train finds no free transmit slot. -/
theorem line_rate_lost : Spaced 24 (requestTrain 468) ∧ NoTicks [] (requestTrain 468) ∧
    ¬ ∀ history, history <+: requestTrain 468 → (runFrom history).txQueue.dropCount = 0 := by
  have hspaced := spaced_requestTrain 468
  have hticks : NoTicks [] (requestTrain 468) := noTicks_requestTrain (by omega)
  refine ⟨hspaced, hticks, fun hkept => ?_⟩
  have hpace := (txDropCount_zero_iff_keepsPace hspaced.bursts hticks).mp hkept
  have hends : requestEnds (requestTrain 468) = _ := requestEnds_train_ends 466
  have hlate := hpace [] 144 ((List.range 466).map fun k => 168 * (k + 1) + 144) (168 * 467 + 144)
    (by rw [hends]; exact List.prefix_refl _) (by rw [length_requestTrain]; omega)
  rw [List.length_map, List.length_range] at hlate
  omega

end ArtyEthernet
