import Mathlib.Data.Nat.Digits.Defs
import Mathlib.Tactic.Common

/-!
# Numerals of a fixed length

A number written in base `b` with exactly `n` digits, most significant first, and read back from
symbols of any alphabet. The digits above the `n`-th are lost.
-/

namespace Numerals

variable {α : Type*} {b : ℕ}

/-- The low `n` digits of `x`. -/
def digits (b n x : ℕ) : List ℕ := (List.range n).map fun i => x / b ^ (n - 1 - i) % b

@[simp] theorem length_digits (b n x : ℕ) : (digits b n x).length = n := by
  simp [digits]

theorem digits_succ (b n x : ℕ) : digits b (n + 1) x = digits b n (x / b) ++ [x % b] := by
  rw [digits, List.range_succ, List.map_append]
  congr 1
  · apply List.map_congr_left
    intro i hi
    have hlt := List.mem_range.mp hi
    have hexp : n + 1 - 1 - i = n - 1 - i + 1 := by omega
    rw [hexp, Nat.pow_succ', Nat.div_div_eq_div_mul]
  · simp

theorem lt_of_mem_digits (hb : 0 < b) {n x d : ℕ} (hd : d ∈ digits b n x) : d < b := by
  obtain ⟨i, -, rfl⟩ := List.mem_map.mp hd
  exact Nat.mod_lt _ hb

theorem ofDigits_digits (b n x : ℕ) : Nat.ofDigits b (digits b n x).reverse = x % b ^ n := by
  induction n generalizing x with
  | zero => simp [digits, Nat.mod_one]
  | succ n ih =>
    rw [digits_succ, List.reverse_append, List.reverse_singleton, List.singleton_append,
      Nat.ofDigits_cons, ih, Nat.pow_succ', Nat.mod_mul]

/-- Read a numeral; `value` gives the digit a symbol stands for. -/
def read (value : α → Option ℕ) (b : ℕ) (cs : List α) : Option ℕ :=
  (cs.mapM value).map fun ds => Nat.ofDigits b ds.reverse

theorem mapM_symbols {value : α → Option ℕ} {symbol : ℕ → α} {ds : List ℕ}
    (h : ∀ d ∈ ds, value (symbol d) = some d) : (ds.map symbol).mapM value = some ds := by
  induction ds with
  | nil => rfl
  | cons d ds ih =>
    have hd := h d List.mem_cons_self
    have hds := ih fun e he => h e (List.mem_cons_of_mem d he)
    rw [List.map_cons, List.mapM_cons, hd, hds]
    rfl

/-- What is written is read back, as far as the digits reach. -/
theorem read_digits {value : α → Option ℕ} {symbol : ℕ → α} (hb : 0 < b)
    (h : ∀ d < b, value (symbol d) = some d) (n x : ℕ) :
    read value b ((digits b n x).map symbol) = some (x % b ^ n) := by
  have hall : ∀ d ∈ digits b n x, value (symbol d) = some d :=
    fun d hd => h d (lt_of_mem_digits hb hd)
  rw [read, mapM_symbols hall, Option.map_some, ofDigits_digits]

theorem read_snoc {value : α → Option ℕ} {cs : List α} {c : α} {n d : ℕ}
    (hcs : read value b cs = some n) (hc : value c = some d) :
    read value b (cs ++ [c]) = some (d + b * n) := by
  obtain ⟨ds, hds, rfl⟩ := Option.map_eq_some_iff.mp hcs
  have hlast : [c].mapM value = some [d] := by
    rw [List.mapM_cons, hc]
    rfl
  rw [read, List.mapM_append, hds, hlast]
  simp [Nat.ofDigits_cons]

section ToDigits
variable {n : ℕ}

theorem mem_toDigits (hb : 1 < b) {c : Char} (hc : c ∈ Nat.toDigits b n) :
    ∃ d < b, c = d.digitChar := by
  induction n using Nat.strong_induction_on with
  | _ n ih =>
    rw [Nat.toDigits_eq_if hb] at hc
    split_ifs at hc with hlt
    · exact ⟨n, hlt, List.mem_singleton.mp hc⟩
    · rcases List.mem_append.mp hc with hfront | hlast
      · exact ih (n / b) (Nat.div_lt_self (by omega) hb) hfront
      · exact ⟨n % b, Nat.mod_lt n (by omega), List.mem_singleton.mp hlast⟩

theorem toDigits_pos (hb : 1 < b) (hn : 0 < n) :
    ∃ d cs, 0 < d ∧ d < b ∧ Nat.toDigits b n = d.digitChar :: cs := by
  induction n using Nat.strong_induction_on with
  | _ n ih =>
    rw [Nat.toDigits_eq_if hb]
    split_ifs with hlt
    · exact ⟨n, [], hn, hlt, rfl⟩
    · have hquot : 0 < n / b := Nat.div_pos (by omega) (by omega)
      obtain ⟨d, cs, hpos, hd, hfront⟩ := ih (n / b) (Nat.div_lt_self hn hb) hquot
      exact ⟨d, cs ++ [(n % b).digitChar], hpos, hd, by rw [hfront, List.cons_append]⟩

theorem read_toDigits {value : Char → Option ℕ} (hb : 1 < b)
    (h : ∀ d < b, value d.digitChar = some d) (n : ℕ) :
    read value b (Nat.toDigits b n) = some n := by
  induction n using Nat.strong_induction_on with
  | _ n ih =>
    rw [Nat.toDigits_eq_if hb]
    split_ifs with hlt
    · have hnil : read value b [] = some 0 := rfl
      simpa using read_snoc hnil (h n hlt)
    · have hfront := ih (n / b) (Nat.div_lt_self (by omega) hb)
      rw [read_snoc hfront (h _ (Nat.mod_lt n (by omega))), Nat.mod_add_div]

end ToDigits

end Numerals
