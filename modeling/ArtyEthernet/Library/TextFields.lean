import Mathlib.Data.List.Nodup
import Mathlib.Tactic.Common

/-!
# The fields of a line

A line is a list over any alphabet. `words` takes it apart at its separators, `cut` takes a word
apart at its first mark, and `record` collects such pairs under their keys, in the order in which
the keys first appear; a later value of a key replaces the earlier one.
-/

namespace TextFields

variable {α κ ν : Type*}

/-- The pieces between separators, empty ones left out. -/
def words (sep : α → Bool) (cs : List α) : List (List α) :=
  (cs.splitOnP sep).filter fun w => !w.isEmpty

/-- A piece that `words` leaves whole. -/
def IsWord (sep : α → Bool) (w : List α) : Prop := w ≠ [] ∧ ∀ a ∈ w, sep a = false

section Words
variable {sep : α → Bool} {w : List α}

theorem words_eq_singleton (hw : IsWord sep w) : words sep w = [w] := by
  rw [words, List.splitOnP_eq_singleton hw.2, List.filter_cons_of_pos (by simp [hw.1])]
  rfl

theorem words_append_cons (hw : IsWord sep w) {c : α} (hc : sep c = true) (cs : List α) :
    words sep (w ++ c :: cs) = w :: words sep cs := by
  rw [words, List.splitOnP_append_cons_of_forall_mem hw.2 c hc,
    List.filter_cons_of_pos (by simp [hw.1])]
  rfl

/-- Words with one separator before each but the first. -/
theorem words_line {c : α} (hc : sep c = true) (ws : List (List α)) (hw : IsWord sep w)
    (hws : ∀ v ∈ ws, IsWord sep v) : words sep (w ++ ws.flatMap (c :: ·)) = w :: ws := by
  induction ws generalizing w with
  | nil => simpa using words_eq_singleton hw
  | cons v ws ih =>
    have hv := hws v List.mem_cons_self
    have hrest := ih hv fun u hu => hws u (List.mem_cons_of_mem v hu)
    rw [List.flatMap_cons, List.cons_append, words_append_cons hw hc, hrest]

end Words

/-- What stands before and after the first mark. -/
def cut [DecidableEq α] (mark : α) (w : List α) : Option (List α × List α) :=
  if mark ∈ w then some (w.takeWhile (· ≠ mark), (w.dropWhile (· ≠ mark)).tail) else none

theorem cut_append_cons [DecidableEq α] {mark : α} {key : List α} (hkey : mark ∉ key)
    (value : List α) : cut mark (key ++ mark :: value) = some (key, value) := by
  have hall : ∀ a ∈ key, decide (a ≠ mark) = true := by
    intro a ha
    exact decide_eq_true fun h => hkey (h ▸ ha)
  have hmem : mark ∈ key ++ mark :: value := List.mem_append_right key List.mem_cons_self
  rw [cut, if_pos hmem, List.takeWhile_append_of_pos hall, List.dropWhile_append_of_pos hall]
  simp

section Records
variable {entries : List (κ × ν)} {key : κ}

theorem lookup_of_mem [BEq κ] [LawfulBEq κ] (hkeys : (entries.map Prod.fst).Nodup) {value : ν}
    (h : (key, value) ∈ entries) : entries.lookup key = some value := by
  induction entries with
  | nil => exact absurd h List.not_mem_nil
  | cons e rest ih =>
    rw [List.map_cons, List.nodup_cons] at hkeys
    rcases List.mem_cons.mp h with rfl | hrest
    · exact List.lookup_cons_self
    · have hne : (key == e.1) = false := by
        rw [beq_eq_false_iff_ne]
        rintro rfl
        exact hkeys.1 (List.mem_map.mpr ⟨_, hrest, rfl⟩)
      rw [List.lookup_cons, hne]
      exact ih hkeys.2 hrest

variable [DecidableEq κ]

/-- Set a key, in its old place if it has one and else behind all others. -/
def assign (key : κ) (value : ν) : List (κ × ν) → List (κ × ν)
  | [] => [(key, value)]
  | e :: rest => if e.1 = key then (key, value) :: rest else e :: assign key value rest

theorem assign_new (h : key ∉ entries.map Prod.fst) (value : ν) :
    assign key value entries = entries ++ [(key, value)] := by
  induction entries with
  | nil => rfl
  | cons e rest ih =>
    rw [List.map_cons, List.mem_cons, not_or] at h
    rw [assign, if_neg (Ne.symm h.1), ih h.2, List.cons_append]

/-- The pairs of all words, or nothing if a word has no mark. -/
def record [DecidableEq α] (mark : α) (ws : List (List α)) : Option (List (List α × List α)) :=
  ws.foldlM (fun entries w => (cut mark w).map fun p => assign p.1 p.2 entries) []

def entry (mark : α) (p : List α × List α) : List α := p.1 ++ mark :: p.2

theorem foldlM_entries [DecidableEq α] {mark : α} (pairs : List (List α × List α))
    (hmark : ∀ p ∈ pairs, mark ∉ p.1) (before : List (List α × List α))
    (hkeys : ((before ++ pairs).map Prod.fst).Nodup) :
    (pairs.map (entry mark)).foldlM
        (fun entries w => (cut mark w).map fun p => assign p.1 p.2 entries) before =
      some (before ++ pairs) := by
  induction pairs generalizing before with
  | nil => simp
  | cons p pairs ih =>
    have hcut := cut_append_cons (hmark p List.mem_cons_self) p.2
    have hnew : p.1 ∉ before.map Prod.fst := by
      rw [List.map_append, List.map_cons] at hkeys
      exact fun h => (List.nodup_append.mp hkeys).2.2 _ h _ List.mem_cons_self rfl
    have hrest := ih (fun q hq => hmark q (List.mem_cons_of_mem p hq)) (before ++ [p])
      (by simpa using hkeys)
    rw [List.map_cons, List.foldlM_cons, entry, hcut, Option.map_some, assign_new hnew]
    simpa using hrest

/-- Words written from pairs with distinct keys give back the pairs. -/
theorem record_entries [DecidableEq α] {mark : α} {pairs : List (List α × List α)}
    (hmark : ∀ p ∈ pairs, mark ∉ p.1) (hkeys : (pairs.map Prod.fst).Nodup) :
    record mark (pairs.map (entry mark)) = some pairs :=
  foldlM_entries pairs hmark [] hkeys

end Records

end TextFields
