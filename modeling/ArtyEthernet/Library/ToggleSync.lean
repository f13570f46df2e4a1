import ArtyEthernet.Library.Trace
import Mathlib.Tactic.Common

/-!
# Toggles across clock domains

A source flips a level once for every event. A chain of flops in another clock domain samples the
level, and the last two flops differing tells the receiver of one event. The edges of the two
clocks come in any order. A flip is in flight from the edge that makes it until its event is seen;
none is lost as long as the chain samples between any two of them.
-/

namespace ToggleSync

/-- One clock edge: the source drives a level, or the chain samples it. -/
inductive Edge where
  | source (level : Bool)
  | sample
deriving DecidableEq, Repr

structure State where
  level : Bool
  chain : List Bool
deriving DecidableEq, Repr

def step (s : State) : Edge → State
  | .source level => { s with level := level }
  | .sample => { s with chain := s.level :: s.chain.dropLast }

def init (n : ℕ) : State := ⟨false, List.replicate n false⟩

def run (n : ℕ) (edges : List Edge) : State := Synchronous.run step (init n) edges

/-- How often neighbours differ. -/
def changes : List Bool → ℕ
  | a :: b :: rest => (a ^^ b).toNat + changes (b :: rest)
  | _ => 0

def State.inFlight (s : State) : ℕ := changes (s.level :: s.chain)

def lastDiffers : List Bool → Bool
  | [a, b] => a ^^ b
  | _ :: b :: c :: rest => lastDiffers (b :: c :: rest)
  | _ => false

def sees (s : State) : Edge → Option Unit
  | .source _ => none
  | .sample => if lastDiffers s.chain then some () else none

def eventCount (n : ℕ) (edges : List Edge) : ℕ :=
  (Synchronous.events step sees (init n) edges).length

def levels (edges : List Edge) : List Bool := edges.filterMap fun
  | .source level => some level
  | .sample => none

def sinceSample (edges : List Edge) : ℕ :=
  edges.foldl (fun n e => match e with
    | .source _ => n + 1
    | .sample => 0) 0

def sampleCount (edges : List Edge) : ℕ := edges.countP fun e => e == .sample

/-- When a level that starts low changes. -/
def flipTimes (xs : List Bool) : List ℕ :=
  (List.range xs.length).filter fun k => xs.getD k false != (xs.take k).getLastD false

theorem flipTimes_snoc (xs : List Bool) (x : Bool) :
    flipTimes (xs ++ [x]) =
      flipTimes xs ++ if x = xs.getLastD false then [] else [xs.length] := by
  have hold : ∀ k ∈ List.range xs.length,
      ((xs ++ [x]).getD k false != ((xs ++ [x]).take k).getLastD false) =
        (xs.getD k false != (xs.take k).getLastD false) := by
    intro k hk
    have hlt := List.mem_range.mp hk
    rw [List.take_append_of_le_length (Nat.le_of_lt hlt), List.getD_eq_getElem?_getD,
      List.getElem?_append_left hlt, ← List.getD_eq_getElem?_getD]
  have hnew : ((xs ++ [x]).getD xs.length false != ((xs ++ [x]).take xs.length).getLastD false) =
      (x != xs.getLastD false) := by
    simp
  rw [flipTimes, List.length_append, List.length_singleton, List.range_succ, List.filter_append,
    List.filter_congr hold, flipTimes, List.filter_cons, hnew, List.filter_nil]
  by_cases hx : x = xs.getLastD false <;> simp [hx]

@[simp] theorem flipTimes_nil : flipTimes [] = [] := rfl

section Snoc
variable (n : ℕ) (edges : List Edge) (level : Bool)

theorem run_snoc (e : Edge) : run n (edges ++ [e]) = step (run n edges) e :=
  Synchronous.run_snoc step (init n) edges e

theorem eventCount_source :
    eventCount n (edges ++ [.source level]) = eventCount n edges := by
  simp [eventCount, Synchronous.events_snoc, sees]

theorem eventCount_sample :
    eventCount n (edges ++ [.sample]) =
      eventCount n edges + (lastDiffers (run n edges).chain).toNat := by
  rw [eventCount, Synchronous.events_snoc, List.length_append]
  change _ + (sees (run n edges) .sample).toList.length = _
  cases h : lastDiffers (run n edges).chain <;> simp [sees, h, eventCount]

@[simp] theorem levels_source : levels (edges ++ [.source level]) = levels edges ++ [level] := by
  simp [levels]

@[simp] theorem levels_sample : levels (edges ++ [.sample]) = levels edges := by
  simp [levels]

@[simp] theorem sinceSample_source :
    sinceSample (edges ++ [.source level]) = sinceSample edges + 1 := by
  simp [sinceSample]

@[simp] theorem sinceSample_sample : sinceSample (edges ++ [.sample]) = 0 := by
  simp [sinceSample]

end Snoc

@[simp] theorem changes_self_cons (a : Bool) (rest : List Bool) :
    changes (a :: a :: rest) = changes (a :: rest) := by
  simp [changes]

theorem changes_replicate (n : ℕ) : changes (List.replicate n false) = 0 := by
  induction n with
  | zero => rfl
  | succ n ih =>
    cases n with
    | zero => rfl
    | succ n => simpa [List.replicate_succ] using ih

/-- The last flop holds the change that leaves the chain. -/
theorem changes_dropLast {chain : List Bool} (hlen : 2 ≤ chain.length) :
    changes chain = changes chain.dropLast + (lastDiffers chain).toNat := by
  fun_induction lastDiffers chain with
  | case1 a b => simp [changes]
  | case2 a b c rest ih =>
    have hrest := ih (by simp)
    rw [List.dropLast_cons_cons] at hrest
    rw [changes, hrest, List.dropLast_cons_cons, List.dropLast_cons_cons, changes]
    omega
  | case3 chain hpair hmore =>
    match chain, hlen with
    | [a, b], _ => exact absurd rfl (hpair a b)
    | a :: b :: c :: rest, _ => exact absurd rfl (hmore a b c rest)

theorem changes_shift (a : Bool) {chain : List Bool} (hlen : 2 ≤ chain.length) :
    changes (a :: chain) = changes (a :: a :: chain.dropLast) + (lastDiffers chain).toNat := by
  match chain, hlen with
  | b :: c :: rest, _ =>
    have hmove : changes (a :: b :: c :: rest) =
        changes (a :: b :: c :: rest).dropLast + (lastDiffers (a :: b :: c :: rest)).toNat :=
      changes_dropLast (by simp)
    rw [hmove, changes_self_cons]
    rfl

theorem changes_not_cons_le (a : Bool) (rest : List Bool) :
    changes ((!a) :: rest) ≤ changes (a :: rest) + 1 := by
  cases rest with
  | nil => simp [changes]
  | cons b rest => cases a <;> cases b <;> simp [changes] <;> omega

theorem changes_flip (a : Bool) (rest : List Bool) :
    changes ((!a) :: a :: rest) = changes (a :: a :: rest) + 1 := by
  cases a <;> simp [changes] <;> omega

/-- Flips are at least `g` edges of the source apart. -/
def Spaced (g : ℕ) (xs : List Bool) : Prop := (flipTimes xs).Pairwise fun a b => a + g ≤ b

/-- The chain samples before the source has had more than `g` edges. -/
def Sampled (g : ℕ) (edges : List Edge) : Prop :=
  ∀ before, before <+: edges → sinceSample before ≤ g

variable {g n : ℕ} {edges : List Edge}

theorem flipTimes_mono (xs : List Bool) (x : Bool) : flipTimes xs <+: flipTimes (xs ++ [x]) := by
  rw [flipTimes_snoc]
  exact List.prefix_append _ _

theorem Spaced.of_snoc {xs : List Bool} {x : Bool} (h : Spaced g (xs ++ [x])) : Spaced g xs :=
  List.Pairwise.sublist (flipTimes_mono xs x).sublist h

theorem Spaced.last {xs : List Bool} {x : Bool} (h : Spaced g (xs ++ [x]))
    (hflip : x ≠ xs.getLastD false) : ∀ t ∈ flipTimes xs, t + g ≤ xs.length := by
  intro t ht
  rw [Spaced, flipTimes_snoc, if_neg hflip, List.pairwise_append] at h
  exact h.2.2 t ht _ (List.mem_singleton.mpr rfl)

theorem Sampled.of_snoc {e : Edge} (h : Sampled g (edges ++ [e])) : Sampled g edges :=
  fun before hbefore => h before (hbefore.trans (List.prefix_append edges [e]))

/-- The state of a chain that has lost nothing. -/
structure Sound (n : ℕ) (edges : List Edge) : Prop where
  length : (run n edges).chain.length = n
  level : (run n edges).level = (levels edges).getLastD false
  conserved : eventCount n edges + (run n edges).inFlight = (flipTimes (levels edges)).length
  /-- The level has been sampled, or it has changed since the last sample. -/
  unsampled : (run n edges).chain.head? = some (run n edges).level ∨
    ∃ t ∈ flipTimes (levels edges), (levels edges).length ≤ t + sinceSample edges

theorem sound_nil (hn : 2 ≤ n) : Sound n [] where
  length := List.length_replicate
  level := rfl
  conserved := by
    have hzero := changes_replicate (n + 1)
    simpa [eventCount, State.inFlight, run, init, levels, List.replicate_succ] using hzero
  unsampled := by
    left
    obtain ⟨m, rfl⟩ := Nat.exists_eq_add_of_le hn
    simp [run, init, Nat.add_comm 2 m, List.replicate_succ]

theorem Sound.steady (h : Sound n edges) {level : Bool}
    (hsame : level = (levels edges).getLastD false) : Sound n (edges ++ [.source level]) := by
  have hlevel : level = (run n edges).level := hsame.trans h.level.symm
  have hrun : run n (edges ++ [.source level]) = run n edges := by
    rw [run_snoc, hlevel]
    rfl
  refine ⟨by rw [hrun, h.length], ?_, ?_, ?_⟩
  · rw [hrun, levels_source, ← hlevel]
    simp
  · rw [hrun, eventCount_source, levels_source, flipTimes_snoc, if_pos hsame, List.append_nil,
      h.conserved]
  · rw [hrun, levels_source, flipTimes_snoc, if_pos hsame, List.append_nil, sinceSample_source,
      List.length_append, List.length_singleton]
    refine h.unsampled.imp_right ?_
    rintro ⟨t, ht, hlen⟩
    exact ⟨t, ht, by omega⟩

theorem Sound.flip (h : Sound n edges) {level : Bool}
    (hflip : level ≠ (levels edges).getLastD false)
    (hspaced : Spaced g (levels edges ++ [level])) (hsampled : sinceSample edges + 1 ≤ g) :
    Sound n (edges ++ [.source level]) := by
  have hlevel : level = !(run n edges).level := by
    rw [h.level]
    exact Bool.eq_not_of_ne hflip
  have hrun : run n (edges ++ [.source level]) = ⟨level, (run n edges).chain⟩ := run_snoc n edges _
  -- two flips without a sample between them would be too close
  have hhead : (run n edges).chain.head? = some (run n edges).level := by
    rcases h.unsampled with hhead | ⟨t, ht, hlen⟩
    · exact hhead
    · have hgap := hspaced.last hflip t ht
      omega
  obtain ⟨rest, hchain⟩ : ∃ rest, (run n edges).chain = (run n edges).level :: rest :=
    ⟨_, (List.head?_eq_some_iff.mp hhead).choose_spec⟩
  refine ⟨by rw [hrun, h.length], ?_, ?_, ?_⟩
  · rw [hrun, levels_source]
    simp
  · have hold := h.conserved
    rw [hrun, eventCount_source, levels_source, flipTimes_snoc, if_neg hflip, List.length_append,
      List.length_singleton, ← hold, State.inFlight, State.inFlight, hchain, hlevel, changes_flip]
    omega
  · rw [levels_source, flipTimes_snoc, if_neg hflip, sinceSample_source]
    exact Or.inr ⟨_, List.mem_append_right _ (List.mem_singleton.mpr rfl), by simp⟩

theorem Sound.sample (hn : 2 ≤ n) (h : Sound n edges) : Sound n (edges ++ [.sample]) := by
  have hrun : run n (edges ++ [.sample]) =
      ⟨(run n edges).level, (run n edges).level :: (run n edges).chain.dropLast⟩ :=
    run_snoc n edges _
  have hlen := h.length
  have hchain : (run n edges).chain ≠ [] := List.ne_nil_of_length_pos (by omega)
  refine ⟨?_, ?_, ?_, ?_⟩
  · rw [hrun, List.length_cons, List.length_dropLast]
    omega
  · rw [hrun, levels_sample, h.level]
  · have hmove := changes_shift (run n edges).level (show 2 ≤ (run n edges).chain.length by omega)
    have hold := h.conserved
    rw [State.inFlight] at hold
    rw [hrun, eventCount_sample, levels_sample]
    change _ + changes ((run n edges).level :: (run n edges).level ::
      (run n edges).chain.dropLast) = _
    omega
  · rw [hrun]
    exact Or.inl rfl

/-- Events seen and flips in flight add up to the flips of the source. -/
theorem sound_run (hn : 2 ≤ n) (edges : List Edge) (hspaced : Spaced g (levels edges))
    (hsampled : Sampled g edges) : Sound n edges := by
  induction edges using List.reverseRecOn with
  | nil => exact sound_nil hn
  | append_singleton edges e ih =>
    cases e with
    | sample => exact (ih (by simpa using hspaced) hsampled.of_snoc).sample hn
    | source level =>
      rw [levels_source] at hspaced
      have h := ih hspaced.of_snoc hsampled.of_snoc
      by_cases hsame : level = (levels edges).getLastD false
      · exact h.steady hsame
      · have hrate := hsampled _ (List.prefix_refl _)
        rw [sinceSample_source] at hrate
        exact h.flip hsame hspaced hrate

theorem changes_append_le (xs ys : List Bool) : changes xs ≤ changes (xs ++ ys) := by
  fun_induction changes xs with
  | case1 a b rest ih =>
    simp only [List.cons_append] at ih ⊢
    rw [changes]
    omega
  | case2 => exact Nat.zero_le _

theorem run_level (n : ℕ) (edges : List Edge) :
    (run n edges).level = (levels edges).getLastD false := by
  induction edges using List.reverseRecOn with
  | nil => rfl
  | append_singleton edges e ih =>
    rw [run_snoc]
    cases e with
    | source level => simp [step]
    | sample => rw [levels_sample, ← ih]; rfl

theorem length_chain (hn : 0 < n) (edges : List Edge) : (run n edges).chain.length = n := by
  induction edges using List.reverseRecOn with
  | nil => exact List.length_replicate
  | append_singleton edges e ih =>
    rw [run_snoc]
    cases e with
    | source level => exact ih
    | sample =>
      simp only [step, List.length_cons, List.length_dropLast]
      omega

/-- The flops after `more` edges: the samples taken meanwhile, newest first, before the old ones.
Every change among them is a flip made meanwhile. -/
theorem young_run (hn : 0 < n) (edges more : List Edge) :
    ∃ young, young.length = sampleCount more ∧
      (run n (edges ++ more)).chain = (young ++ (run n edges).chain).take n ∧
      changes ((run n (edges ++ more)).level :: (young ++ [(run n edges).level])) +
          (flipTimes (levels edges)).length ≤ (flipTimes (levels (edges ++ more))).length := by
  induction more using List.reverseRecOn with
  | nil =>
    have hlen := length_chain hn edges
    refine ⟨[], rfl, ?_, ?_⟩
    · rw [List.append_nil, List.nil_append, List.take_of_length_le (by omega)]
    · rw [List.append_nil, List.nil_append]
      simp [changes]
  | append_singleton more e ih =>
    obtain ⟨young, hyoung, hchain, hchanges⟩ := ih
    rw [← List.append_assoc]
    cases e with
    | source level =>
      refine ⟨young, by simp [hyoung, sampleCount], by rw [run_snoc]; exact hchain, ?_⟩
      rw [levels_source, flipTimes_snoc]
      have hlevel := run_level n (edges ++ more)
      by_cases hsame : level = (levels (edges ++ more)).getLastD false
      · rw [if_pos hsame, List.append_nil, run_snoc]
        rw [hlevel, ← hsame] at hchanges
        exact hchanges
      · have hnot : level = !(run n (edges ++ more)).level := by
          rw [hlevel]
          exact Bool.eq_not_of_ne hsame
        have hle := changes_not_cons_le (run n (edges ++ more)).level
          (young ++ [(run n edges).level])
        rw [← hnot] at hle
        rw [if_neg hsame, List.length_append, List.length_singleton, run_snoc]
        change changes (level :: _) + _ ≤ _
        omega
    | sample =>
      refine ⟨(run n (edges ++ more)).level :: young, by simp [hyoung, sampleCount], ?_, ?_⟩
      · have hlen := length_chain hn edges
        obtain ⟨m, rfl⟩ := Nat.exists_eq_add_of_le' hn
        rw [run_snoc]
        change _ :: (run _ (edges ++ more)).chain.dropLast = _
        rw [hchain, List.cons_append, List.take_succ_cons, List.dropLast_eq_take, List.take_take,
          List.length_take, List.length_append]
        congr 2
        omega
      · rw [levels_sample, run_snoc, List.cons_append]
        change changes ((run n (edges ++ more)).level :: (run n (edges ++ more)).level :: _) + _ ≤ _
        rw [changes_self_cons]
        exact hchanges

/-- After as many samples as the chain has flops, every earlier flip has been seen. -/
theorem flips_seen_within (hn : 2 ≤ n) (edges more : List Edge)
    (hspaced : Spaced g (levels (edges ++ more))) (hsampled : Sampled g (edges ++ more))
    (hmore : n ≤ sampleCount more) :
    (flipTimes (levels edges)).length ≤ eventCount n (edges ++ more) := by
  have hsound := (sound_run hn (edges ++ more) hspaced hsampled).conserved
  obtain ⟨young, hyoung, hchain, hchanges⟩ := young_run (Nat.lt_of_lt_of_le Nat.two_pos hn) edges
    more
  rw [List.take_append_of_le_length (by omega)] at hchain
  have hle := changes_append_le ((run n (edges ++ more)).level :: young.take n)
    (young.drop n ++ [(run n edges).level])
  rw [List.cons_append, ← List.append_assoc, List.take_append_drop, ← hchain] at hle
  rw [State.inFlight] at hsound
  omega

end ToggleSync
