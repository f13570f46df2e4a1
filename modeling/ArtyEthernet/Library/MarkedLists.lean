import Mathlib.Data.List.Basic
import Mathlib.Tactic.Common

/-!
# Marked lists

A list whose entries carry a flag is split by the flag into two lists in the same order. A prefix
of the entries determines a prefix of the flags, and with it prefixes of both parts.
-/

namespace MarkedLists

variable {α β : Type*}

/-- The first components of the pairs whose flag is `flag`. -/
def picked (flag : Bool) (pairs : List (α × Bool)) : List α :=
  (pairs.filter fun p => p.2 == flag).map Prod.fst

theorem picked_append (flag : Bool) (xs ys : List (α × Bool)) :
    picked flag (xs ++ ys) = picked flag xs ++ picked flag ys := by
  simp [picked]

theorem picked_prefix (flag : Bool) {xs ys : List (α × Bool)} (h : xs <+: ys) :
    picked flag xs <+: picked flag ys := (h.filter _).map _

theorem length_picked (flag : Bool) (pairs : List (α × Bool)) :
    (picked flag pairs).length = (pairs.map Prod.snd).count flag := by
  rw [picked, List.length_map, List.count_eq_countP, List.countP_map, List.countP_eq_length_filter]
  rfl

theorem picked_map (flag : Bool) (f : α → β) (pairs : List (α × Bool)) :
    picked flag (pairs.map fun p => (f p.1, p.2)) = (picked flag pairs).map f := by
  simp only [picked, List.filter_map, List.map_map]
  rfl

theorem picked_filter (flag : Bool) (p : α → Bool) (pairs : List (α × Bool)) :
    picked flag (pairs.filter fun x => p x.1) = (picked flag pairs).filter p := by
  simp only [picked, List.filter_map, List.filter_filter]
  congr 2
  funext x
  exact Bool.and_comm _ _

/-- Pairs whose first components start with `xs` start with pairs for `xs`. -/
theorem exists_pairs_of_prefix {f : α → β} {xs : List α} {pairs : List (β × Bool)}
    (h : xs.map f <+: pairs.map Prod.fst) :
    ∃ outcome : List (α × Bool), outcome.map Prod.fst = xs ∧
      (outcome.map fun p => (f p.1, p.2)) <+: pairs := by
  induction xs generalizing pairs with
  | nil => exact ⟨[], rfl, List.nil_prefix⟩
  | cons x xs ih =>
    cases pairs with
    | nil => simp at h
    | cons p pairs =>
      rw [List.map_cons, List.map_cons, List.cons_prefix_cons] at h
      obtain ⟨outcome, hfst, hpre⟩ := ih h.2
      refine ⟨(x, p.2) :: outcome, by rw [List.map_cons, hfst], ?_⟩
      rw [List.map_cons, List.cons_prefix_cons]
      exact ⟨Prod.ext h.1 rfl, hpre⟩

end MarkedLists
