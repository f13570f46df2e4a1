import Mathlib.Data.List.Induction
import Mathlib.Tactic.Common

/-!
# First come, first served

A server with a fixed service time takes jobs in the order of their arrival, each at the earliest
`delay` after it arrived. `finishTime` is the time the last of them is done, and it is bounded
exactly when every job leaves time for itself and all jobs behind it.
-/

namespace FirstCome

variable (delay service : ℕ)

def finishTime (arrivals : List ℕ) : ℕ :=
  arrivals.foldl (fun free a => max free (a + delay) + service) 0

@[simp] theorem finishTime_nil : finishTime delay service [] = 0 := rfl

theorem finishTime_snoc (arrivals : List ℕ) (a : ℕ) :
    finishTime delay service (arrivals ++ [a]) =
      max (finishTime delay service arrivals) (a + delay) + service := by
  simp [finishTime]

theorem finishTime_le_iff {arrivals : List ℕ} {t : ℕ} :
    finishTime delay service arrivals ≤ t ↔ ∀ before a after, arrivals = before ++ a :: after →
      a + delay + service * (after.length + 1) ≤ t := by
  induction arrivals using List.reverseRecOn generalizing t with
  | nil => simp
  | append_singleton arrivals a ih =>
    rw [finishTime_snoc]
    constructor
    · intro h before b after hsplit
      rcases List.eq_nil_or_concat after with rfl | ⟨init, c, rfl⟩
      · obtain ⟨-, hab⟩ := List.append_inj' hsplit rfl
        rw [List.singleton_inj.mp hab] at h
        simp only [List.length_nil]
        omega
      · rw [List.concat_eq_append, ← List.cons_append, ← List.append_assoc] at hsplit
        obtain ⟨hinit, -⟩ := List.append_inj' hsplit rfl
        have hle : finishTime delay service arrivals ≤ t - service := by omega
        have hb := ih.mp hle before b init hinit
        rw [List.concat_eq_append, List.length_append, List.length_singleton, Nat.mul_succ]
        omega
    · intro h
      have hlast := h arrivals a [] rfl
      have hold : finishTime delay service arrivals ≤ t - service := by
        apply ih.mpr
        intro before b after hsplit
        have hb := h before b (after ++ [a]) (by rw [hsplit, List.append_assoc]; rfl)
        rw [List.length_append, List.length_singleton, Nat.mul_succ] at hb
        omega
      simp only [List.length_nil] at hlast
      omega

/-- Arrivals at least `d` apart take their time. -/
theorem span_of_apart {d a b : ℕ} {between : List ℕ}
    (h : (a :: (between ++ [b])).Pairwise fun x y => x + d ≤ y) :
    a + d * (between.length + 1) ≤ b := by
  induction between generalizing a with
  | nil => simpa using h
  | cons c between ih =>
    obtain ⟨hfirst, hrest⟩ := List.pairwise_cons.mp h
    have hac := hfirst c (by simp)
    have hcb := ih hrest
    rw [List.length_cons, Nat.mul_succ]
    omega

end FirstCome
