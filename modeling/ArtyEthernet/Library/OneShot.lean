import ArtyEthernet.Library.Trace
import Mathlib.Tactic.Common

/-!
# Retriggerable one-shots

A down counter that every trigger reloads with `hold` and every other step takes one off. It is
above zero exactly while one of the last `hold` steps was a trigger.
-/

namespace OneShot

def step (hold : ℕ) (count : ℕ) (trigger : Bool) : ℕ := if trigger then hold else count - 1

def run (hold : ℕ) (triggers : List Bool) : ℕ := Synchronous.run (step hold) 0 triggers

/-- Whether one of the last `n` steps was a trigger. -/
def recent (n : ℕ) (triggers : List Bool) : Bool := (triggers.reverse.take n).contains true

theorem run_snoc (hold : ℕ) (triggers : List Bool) (t : Bool) :
    run hold (triggers ++ [t]) = step hold (run hold triggers) t :=
  Synchronous.run_snoc (step hold) 0 triggers t

theorem recent_snoc_succ (n : ℕ) (triggers : List Bool) (t : Bool) :
    recent (n + 1) (triggers ++ [t]) = (t || recent n triggers) := by
  cases t <;> simp [recent]

theorem run_le (hold : ℕ) (triggers : List Bool) : run hold triggers ≤ hold := by
  induction triggers using List.reverseRecOn with
  | nil => exact Nat.zero_le _
  | append_singleton triggers t ih =>
    rw [run_snoc, step]
    split_ifs
    · exact Nat.le_refl _
    · omega

theorem lt_run_iff (hold : ℕ) (triggers : List Bool) (m : ℕ) :
    m < run hold triggers ↔ recent (hold - m) triggers = true := by
  induction triggers using List.reverseRecOn generalizing m with
  | nil => simp [run, recent]
  | append_singleton triggers t ih =>
    rw [run_snoc, step]
    by_cases hm : m < hold
    · obtain ⟨k, hk⟩ : ∃ k, hold - m = k + 1 := ⟨hold - m - 1, by omega⟩
      rw [hk, recent_snoc_succ]
      cases t with
      | true => simpa using hm
      | false =>
        have hnext := ih (m + 1)
        have hless : hold - (m + 1) = k := by omega
        rw [hless] at hnext
        rw [Bool.false_or, ← hnext]
        simp
        omega
    · have hzero : hold - m = 0 := by omega
      have hle := run_le hold triggers
      rw [hzero]
      cases t <;> simp [recent] <;> omega

/-- The counter runs exactly while one of the last `hold` steps was a trigger. -/
theorem run_ne_zero_iff (hold : ℕ) (triggers : List Bool) :
    run hold triggers ≠ 0 ↔ recent hold triggers = true := by
  rw [Nat.ne_zero_iff_zero_lt, lt_run_iff, Nat.sub_zero]

end OneShot
