import ArtyEthernet.Library.Trace

/-!
# Delay lines

A line of `d + 1` cells hands every value on after `d + 1` cycles. What it has handed on and what
it still holds are together its first contents followed by everything put in.
-/

namespace Synchronous

/-- At least one cell; `front` leaves next. -/
structure DelayLine (α : Type*) where
  front : α
  rest : List α

namespace DelayLine

variable {α : Type*}

def cells (line : DelayLine α) : List α := line.front :: line.rest

def filled (a : α) (d : ℕ) : DelayLine α := ⟨a, List.replicate d a⟩

/-- One cycle: `front` leaves and `a` enters behind the others. -/
def shift (line : DelayLine α) (a : α) : DelayLine α :=
  match line.rest with
  | [] => ⟨a, []⟩
  | b :: rest => ⟨b, rest ++ [a]⟩

def leaving (line : DelayLine α) (_ : α) : α := line.front

@[simp] theorem cells_filled (a : α) (d : ℕ) : (filled a d).cells = List.replicate (d + 1) a := rfl

theorem cells_shift (line : DelayLine α) (a : α) : (line.shift a).cells = line.rest ++ [a] := by
  unfold shift cells
  cases line.rest <;> rfl

theorem trace_leaving (line : DelayLine α) (as : List α) :
    trace shift leaving line as = (line.cells ++ as).take as.length := by
  induction as generalizing line with
  | nil => simp
  | cons a as ih =>
    rw [trace_cons, ih, cells_shift, leaving, cells]
    simp

end DelayLine
end Synchronous
