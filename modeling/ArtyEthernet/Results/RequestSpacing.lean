import ArtyEthernet.Proofs.ReplyLine
import ArtyEthernet.Results.QuiescentReply

/-!
# Requests at Ethernet spacing

Bursts of at least 144 cycles with gaps of at least `gap` between them end `144 + gap` cycles
apart. `requestTrain` is the densest sequence of requests there is.
-/

namespace ArtyEthernet
open Words

/-- Every burst lasts at least as long as a shortest frame with its preamble, and at least `gap`
cycles of silence separate it from the next. -/
structure Spaced (gap : ℕ) (inputs : List RxPins) : Prop where
  bursts : ∀ r ∈ rxBursts inputs, 144 ≤ r.body.length
  gaps : ∀ before p low q after, inputs = before ++ p :: (low ++ q :: after) →
    p.ethRxDv = true → low ≠ [] → (∀ x ∈ low, x.ethRxDv = false) → q.ethRxDv = true →
    gap ≤ low.length

variable {inputs : List RxPins} {i : RxPins}

theorem requestEnds_lt {k : ℕ} (hk : k ∈ requestEnds inputs) : k < inputs.length :=
  List.mem_range.mp (List.mem_filter.mp hk).1

/-- The silence since the last burst that ended, with the burst in progress behind it. -/
structure LastGap (inputs before : List RxPins) (p : RxPins) (low : List RxPins) : Prop where
  split : inputs = before ++ p :: (low ++ rxPending inputs)
  high : p.ethRxDv = true
  silent : low ≠ []
  low : ∀ x ∈ low, x.ethRxDv = false
  ends : ∀ k ∈ requestEnds inputs, k ≤ before.length + 1

theorem ethRxDv_rxPending (inputs : List RxPins) :
    ∀ p ∈ rxPending inputs, p.ethRxDv = true :=
  MaximalRuns.pending_on inputs

section LastGap
variable {before low : List RxPins} {p : RxPins}

theorem LastGap.step_on (h : LastGap inputs before p low) (hdv : i.ethRxDv = true) :
    LastGap (inputs ++ [i]) before p low where
  split := by
    have hpending : rxPending (inputs ++ [i]) = rxPending inputs ++ [i] :=
      MaximalRuns.pending_snoc_on inputs hdv
    rw [hpending, ← List.append_assoc low, ← List.cons_append, ← List.append_assoc, ← h.split]
  high := h.high
  silent := h.silent
  low := h.low
  ends := by
    rw [requestEnds_quiet (completedPacket_none (Or.inl hdv))]
    exact h.ends

theorem LastGap.step_off (h : LastGap inputs before p low) (hdv : i.ethRxDv = false)
    (hidle : rxPending inputs = []) : LastGap (inputs ++ [i]) before p (low ++ [i]) where
  split := by
    have hpending : rxPending (inputs ++ [i]) = [] := MaximalRuns.pending_snoc_off inputs hdv
    have hsplit := h.split
    rw [hidle, List.append_nil] at hsplit
    rw [hpending, List.append_nil, ← List.cons_append, ← List.append_assoc, ← hsplit]
  high := h.high
  silent := by simp
  low x hx := by
    rcases List.mem_append.mp hx with hold | hnew
    · exact h.low x hold
    · rw [List.mem_singleton.mp hnew, hdv]
  ends := by
    rw [requestEnds_quiet (completedPacket_none (Or.inr hidle))]
    exact h.ends

theorem lastGap_stop (hdv : i.ethRxDv = false) (hne : rxPending inputs ≠ []) :
    ∃ before p, LastGap (inputs ++ [i]) before p [i] := by
  have hpending : rxPending (inputs ++ [i]) = [] := MaximalRuns.pending_snoc_off inputs hdv
  obtain ⟨earlier, hearlier⟩ : rxPending inputs <:+ inputs := MaximalRuns.pending_suffix inputs
  obtain ⟨init, p, hlast⟩ := (List.eq_nil_or_concat' (rxPending inputs)).resolve_left hne
  have hhigh : p.ethRxDv = true := ethRxDv_rxPending inputs p (by rw [hlast]; simp)
  rw [hlast, ← List.append_assoc] at hearlier
  refine ⟨earlier ++ init, p, ?_, hhigh, by simp, by simp [hdv], fun k hk => ?_⟩
  · rw [hpending, ← hearlier]
    simp
  · have hlt := requestEnds_lt hk
    rw [← hearlier] at hlt
    simp only [List.length_append, List.length_singleton] at hlt ⊢
    omega

end LastGap

theorem lastGap_run (inputs : List RxPins) :
    requestEnds inputs = [] ∨ ∃ before p low, LastGap inputs before p low := by
  induction inputs using List.reverseRecOn with
  | nil => exact Or.inl rfl
  | append_singleton inputs i ih =>
    by_cases hquiet : i.ethRxDv = true ∨ rxPending inputs = []
    · rw [requestEnds_quiet (completedPacket_none hquiet)]
      refine ih.imp id ?_
      rintro ⟨before, p, low, h⟩
      cases hdv : i.ethRxDv with
      | true => exact ⟨before, p, low, h.step_on hdv⟩
      | false =>
        have hidle := hquiet.resolve_left (by simp [hdv])
        exact ⟨before, p, low ++ [i], h.step_off hdv hidle⟩
    · rw [not_or, Bool.not_eq_true] at hquiet
      obtain ⟨before, p, h⟩ := lastGap_stop hquiet.1 hquiet.2
      exact Or.inr ⟨before, p, [i], h⟩

theorem Spaced.of_snoc {gap : ℕ} (h : Spaced gap (inputs ++ [i])) : Spaced gap inputs where
  bursts r hr := h.bursts r (by rw [rxBursts_snoc]; exact List.mem_append_left _ hr)
  gaps before p low q after hsplit :=
    h.gaps before p low q (after ++ [i]) (by rw [hsplit]; simp)

theorem Spaced.requestEnds_apart {gap : ℕ} (h : Spaced gap inputs) :
    (requestEnds inputs).Pairwise fun a b => a + (144 + gap) ≤ b := by
  induction inputs using List.reverseRecOn with
  | nil => exact List.Pairwise.nil
  | append_singleton inputs i ih =>
    rw [requestEnds_snoc]
    refine List.pairwise_append.mpr ⟨ih h.of_snoc, ?_, fun a ha b hb => ?_⟩
    · split_ifs <;> simp
    · split_ifs at hb with hnew
      · rw [List.mem_singleton.mp hb]
        have hquiet : ¬ (i.ethRxDv = true ∨ rxPending inputs = []) := by
          intro hquiet
          rw [endsRequest, completedPacket_none hquiet] at hnew
          exact Bool.false_ne_true hnew
        have hlong := h.bursts ⟨rxPending inputs, i⟩ (by rw [rxBursts_snoc, if_neg hquiet]; simp)
        rcases lastGap_run inputs with hnil | ⟨before, p, low, hgap⟩
        · rw [hnil] at ha
          exact absurd ha (List.not_mem_nil)
        · obtain ⟨q, rest, hpending⟩ :=
            List.exists_cons_of_ne_nil (fun hnil => hquiet (Or.inr hnil))
          have hq : q.ethRxDv = true := ethRxDv_rxPending inputs q (by rw [hpending]; simp)
          have hsplit := hgap.split
          have hwide := h.gaps before p low q (rest ++ [i])
            (by rw [hsplit, hpending]; simp) hgap.high hgap.silent hgap.low hq
          have hend := hgap.ends a ha
          have hlen := congrArg List.length hsplit
          simp only [List.length_append, List.length_cons] at hlen
          change 144 ≤ (rxPending inputs).length at hlong
          omega
      · exact absurd hb (List.not_mem_nil)

/-- With a gap of at least `gap` cycles a request is `144 + gap` cycles behind the one before. -/
theorem Spaced.span {gap : ℕ} (h : Spaced gap inputs) {before between : List ℕ} {a k : ℕ}
    (hinit : before ++ a :: (between ++ [k]) <+: requestEnds inputs) :
    a + (144 + gap) * (between.length + 1) ≤ k := by
  have hapart := h.requestEnds_apart.sublist hinit.sublist
  exact FirstCome.span_of_apart (List.pairwise_append.mp hapart).2.1

theorem requestEnds_append {xs ys : List RxPins} (hxs : rxPending xs = []) :
    requestEnds (xs ++ ys) = requestEnds xs ++ (requestEnds ys).map (xs.length + ·) := by
  induction ys using List.reverseRecOn with
  | nil => simp [requestEnds]
  | append_singleton ys y ih =>
    have hpending : rxPending (xs ++ ys) = rxPending ys := (MaximalRuns.scan_append xs ys hxs).2
    have hends : endsRequest (xs ++ ys) y = endsRequest ys y := by
      rw [endsRequest, endsRequest, hpending]
    rw [← List.append_assoc, requestEnds_snoc, ih, requestEnds_snoc, hends, List.map_append,
      List.append_assoc, List.length_append]
    split_ifs <;> rfl

theorem requestEnds_on {on : List RxPins} (hon : ∀ p ∈ on, p.ethRxDv = true) :
    requestEnds on = [] := by
  induction on using List.reverseRecOn with
  | nil => rfl
  | append_singleton on p ih =>
    rw [requestEnds_quiet (completedPacket_none (Or.inl (hon p (by simp))))]
    exact ih fun q hq => hon q (by simp [hq])

theorem requestEnds_off {low : List RxPins} (hlow : ∀ p ∈ low, p.ethRxDv = false) :
    requestEnds low = [] := by
  induction low using List.reverseRecOn with
  | nil => rfl
  | append_singleton low p ih =>
    have hbefore : ∀ q ∈ low, q.ethRxDv = false := fun q hq => hlow q (by simp [hq])
    have hpending : rxPending low = [] := (MaximalRuns.scan_all_off low hbefore).2
    rw [requestEnds_quiet (completedPacket_none (Or.inr hpending))]
    exact ih hbefore

/-- One request behind a full preamble, then the shortest gap. -/
def requestPeriod : List RxPins :=
  ArpRequestFrame.probe.pins 7 ++ List.replicate 24 ⟨false, 0, false⟩

/-- `n` requests at line rate and the silence in which the last is decided. -/
def requestTrain : ℕ → List RxPins
  | 0 => List.replicate 5 ⟨false, 0, false⟩
  | n + 1 => requestPeriod ++ requestTrain n

theorem ethRxDv_silence (n : ℕ) :
    ∀ p ∈ List.replicate n (⟨false, 0, false⟩ : RxPins), p.ethRxDv = false := by
  intro p hp
  rw [List.eq_of_mem_replicate hp]

theorem length_probe_pins : (ArpRequestFrame.probe.pins 7).length = 144 := by
  rw [ArpRequestFrame.length_pins]
  rfl

theorem length_requestPeriod : requestPeriod.length = 168 := by
  rw [requestPeriod, List.length_append, length_probe_pins, List.length_replicate]

theorem probe_pins_ne_nil : ArpRequestFrame.probe.pins 7 ≠ [] := by
  apply List.ne_nil_of_length_pos
  rw [length_probe_pins]
  omega

theorem requestPeriod_eq : requestPeriod = ArpRequestFrame.probe.pins 7 ++
    ⟨false, 0, false⟩ :: List.replicate 23 ⟨false, 0, false⟩ := by
  rw [requestPeriod, List.replicate_succ]

theorem scan_requestPeriod :
    rxBursts requestPeriod = [⟨ArpRequestFrame.probe.pins 7, ⟨false, 0, false⟩⟩] ∧
      rxPending requestPeriod = [] := by
  rw [requestPeriod_eq]
  exact MaximalRuns.scan_run_then_off _ _ _ probe_pins_ne_nil (ArpRequestFrame.ethRxDv_pins _ 7) rfl
    (ethRxDv_silence 23)

theorem requestEnds_requestPeriod : requestEnds requestPeriod = [144] := by
  have hon := ArpRequestFrame.probe.ethRxDv_pins 7
  have hpending : rxPending (ArpRequestFrame.probe.pins 7) = ArpRequestFrame.probe.pins 7 :=
    (MaximalRuns.scan_all_on _ hon).2
  have hclean : (⟨false, 0, false⟩ : RxPins).ethRxerr = false := rfl
  have hanswer := ArpRequestFrame.probe.acceptedRequester_pins 6 hclean
  rw [← arpRequester_burstPacket] at hanswer
  obtain ⟨packet, hpacket, hrequester⟩ := Option.bind_eq_some_iff.mp hanswer
  have hends : endsRequest (ArpRequestFrame.probe.pins 7) ⟨false, 0, false⟩ = true := by
    rw [endsRequest, hpending, completedPacket, if_neg (by simp [probe_pins_ne_nil]), hpacket,
      Option.any_some, hrequester]
    rfl
  rw [requestPeriod_eq, List.append_cons, requestEnds_append (MaximalRuns.pending_snoc_off _ rfl),
    requestEnds_snoc, requestEnds_on hon, hends, if_pos rfl, requestEnds_off (ethRxDv_silence 23),
    length_probe_pins]
  rfl

theorem length_requestTrain (n : ℕ) : (requestTrain n).length = 168 * n + 5 := by
  induction n with
  | zero => rfl
  | succ n ih =>
    rw [requestTrain, List.length_append, length_requestPeriod, ih]
    omega

theorem requestEnds_requestTrain (n : ℕ) :
    requestEnds (requestTrain n) = (List.range n).map fun k => 168 * k + 144 := by
  induction n with
  | zero => exact requestEnds_off (ethRxDv_silence 5)
  | succ n ih =>
    rw [requestTrain, requestEnds_append scan_requestPeriod.2, requestEnds_requestPeriod, ih,
      length_requestPeriod, List.range_succ_eq_map, List.map_cons, List.map_map, List.map_map,
      List.singleton_append]
    congr 1
    apply List.map_congr_left
    intro k _
    simp only [Function.comp_apply, Nat.succ_eq_add_one]
    omega

theorem behind_silence {silence rest before tail : List RxPins} {p : RxPins}
    (hsilence : ∀ x ∈ silence, x.ethRxDv = false) (hp : p.ethRxDv = true)
    (hsplit : silence ++ rest = before ++ p :: tail) : ∃ more, rest = more ++ p :: tail := by
  rcases List.append_eq_append_iff.mp hsplit with ⟨more, -, hlater⟩ | ⟨more, hquiet, hlater⟩
  · exact ⟨more, hlater⟩
  · cases more with
    | nil => exact ⟨[], hlater.symm⟩
    | cons first more =>
      have hoff := hsilence first (by rw [hquiet]; simp)
      rw [← (List.cons.inj hlater).1, hp] at hoff
      contradiction

theorem gaps_burst {gap : ℕ} {on silence rest : List RxPins}
    (hon : ∀ p ∈ on, p.ethRxDv = true) (hsilence : ∀ p ∈ silence, p.ethRxDv = false)
    (hgap : gap ≤ silence.length)
    (hrest : ∀ before p low q after, rest = before ++ p :: (low ++ q :: after) →
      p.ethRxDv = true → low ≠ [] → (∀ x ∈ low, x.ethRxDv = false) → q.ethRxDv = true →
      gap ≤ low.length)
    (before : List RxPins) (p : RxPins) (low : List RxPins) (q : RxPins) (after : List RxPins)
    (hsplit : on ++ (silence ++ rest) = before ++ p :: (low ++ q :: after))
    (hp : p.ethRxDv = true) (hne : low ≠ []) (hlow : ∀ x ∈ low, x.ethRxDv = false)
    (hq : q.ethRxDv = true) : gap ≤ low.length := by
  have hlater {earlier : List RxPins}
      (h : silence ++ rest = earlier ++ p :: (low ++ q :: after)) : gap ≤ low.length := by
    obtain ⟨more, hmore⟩ := behind_silence hsilence hp h
    exact hrest more p low q after hmore hp hne hlow hq
  rcases List.append_eq_append_iff.mp hsplit with ⟨more, -, hmore⟩ | ⟨more, hbefore, hmore⟩
  · exact hlater hmore
  · cases more with
    | nil => exact @hlater [] hmore.symm
    | cons last more =>
      -- `p` is the last sample of the burst, and `low` begins with its silence
      have htail : low ++ q :: after = more ++ (silence ++ rest) := (List.cons.inj hmore).2
      cases more with
      | cons next more =>
        obtain ⟨first, low, rfl⟩ := List.exists_cons_of_ne_nil hne
        have hhigh := hon next (by rw [hbefore]; simp)
        rw [← (List.cons.inj htail).1, hlow first (by simp)] at hhigh
        contradiction
      | nil =>
        change low ++ q :: after = silence ++ rest at htail
        obtain ⟨more, hmore⟩ := behind_silence hsilence hq htail.symm
        have hlen := congrArg List.length htail
        rw [hmore] at hlen
        simp only [List.length_append, List.length_cons] at hlen
        omega

theorem spaced_requestTrain (n : ℕ) : Spaced 24 (requestTrain n) := by
  induction n with
  | zero =>
    refine ⟨fun r hr => ?_, fun before p low q after hsplit hp => ?_⟩
    · rw [requestTrain, rxBursts, (MaximalRuns.scan_all_off _ (ethRxDv_silence 5)).1] at hr
      exact absurd hr (List.not_mem_nil)
    · have hoff := ethRxDv_silence 5 p (by rw [requestTrain] at hsplit; rw [hsplit]; simp)
      rw [hp] at hoff
      contradiction
  | succ n ih =>
    constructor
    · intro r hr
      rw [requestTrain, rxBursts, (MaximalRuns.scan_append _ _ scan_requestPeriod.2).1,
        List.mem_append] at hr
      rcases hr with hfirst | hrest
      · have hbursts : MaximalRuns.bursts RxPins.ethRxDv requestPeriod = _ := scan_requestPeriod.1
        rw [hbursts, List.mem_singleton] at hfirst
        rw [hfirst, length_probe_pins]
      · exact ih.bursts r hrest
    · intro before p low q after hsplit
      rw [requestTrain, requestPeriod, List.append_assoc] at hsplit
      exact gaps_burst (ArpRequestFrame.ethRxDv_pins _ 7) (ethRxDv_silence 24) (by simp) ih.gaps
        before p low q after hsplit

theorem requestEnds_train_ends (n : ℕ) : requestEnds (requestTrain (n + 2)) =
    144 :: ((List.range n).map (fun k => 168 * (k + 1) + 144) ++ [168 * (n + 1) + 144]) := by
  rw [requestEnds_requestTrain, List.range_succ, List.map_append, List.range_succ_eq_map,
    List.map_cons, List.map_map]
  rfl

theorem noTicks_requestTrain {n : ℕ} (hn : n < 148000) : NoTicks [] (requestTrain n) := by
  apply noTicks_early
  rw [length_requestTrain]
  omega

end ArtyEthernet
