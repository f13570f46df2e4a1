import Mathlib.Data.List.Induction
import Mathlib.Data.List.ReduceOption
import Mathlib.Tactic.Common

/-!
# Runs of synchronous machines

A machine is a step function on a state and one input per clock cycle. `run` is the state after
an input sequence and `trace` lists what an observer sees at every cycle. The `snoc` lemmas extend
a run by one cycle at its end, for inductions on the input history.
-/

namespace Synchronous

variable {σ ι β γ : Type*} (step : σ → ι → σ) (observe : σ → ι → β)

def run (s : σ) (inputs : List ι) : σ := inputs.foldl step s

def trace : σ → List ι → List β
  | _, [] => []
  | s, i :: inputs => observe s i :: trace (step s i) inputs

@[simp] theorem run_nil (s : σ) : run step s [] = s := rfl

@[simp] theorem run_cons (s : σ) (i : ι) (inputs : List ι) :
    run step s (i :: inputs) = run step (step s i) inputs := rfl

@[simp] theorem run_snoc (s : σ) (xs : List ι) (i : ι) :
    run step s (xs ++ [i]) = step (run step s xs) i := by
  simp [run]

@[simp] theorem trace_nil (s : σ) : trace step observe s [] = [] := rfl

@[simp] theorem trace_cons (s : σ) (i : ι) (inputs : List ι) :
    trace step observe s (i :: inputs) = observe s i :: trace step observe (step s i) inputs := rfl

theorem trace_append (s : σ) (xs ys : List ι) :
    trace step observe s (xs ++ ys) =
      trace step observe s xs ++ trace step observe (run step s xs) ys := by
  induction xs generalizing s with
  | nil => rfl
  | cons x xs ih => simp [ih]

@[simp] theorem trace_snoc (s : σ) (xs : List ι) (i : ι) :
    trace step observe s (xs ++ [i]) = trace step observe s xs ++ [observe (run step s xs) i] := by
  simp [trace_append]

@[simp] theorem length_trace (s : σ) (xs : List ι) :
    (trace step observe s xs).length = xs.length := by
  induction xs generalizing s with
  | nil => rfl
  | cons x xs ih => simp [ih]

theorem take_trace (s : σ) (xs : List ι) (n : ℕ) :
    (trace step observe s xs).take n = trace step observe s (xs.take n) := by
  induction xs generalizing s n with
  | nil => simp
  | cons x xs ih =>
    cases n with
    | zero => simp
    | succ n => simp [ih]

theorem split_trace {s : σ} {inputs : List ι} {first second : List β}
    (h : trace step observe s inputs = first ++ second) :
    ∃ xs ys, inputs = xs ++ ys ∧ trace step observe s xs = first ∧
      trace step observe (run step s xs) ys = second := by
  have hfirst : trace step observe s (inputs.take first.length) = first := by
    rw [← take_trace, h, List.take_left]
  refine ⟨_, _, (List.take_append_drop first.length inputs).symm, hfirst, ?_⟩
  rw [← List.take_append_drop first.length inputs, trace_append, hfirst] at h
  exact List.append_cancel_left h

/-- The events of a run: the cycles at which the observer reports something, in order. -/
def events (report : σ → ι → Option γ) (s : σ) (inputs : List ι) : List γ :=
  (trace step report s inputs).reduceOption

variable {step}

@[simp] theorem events_nil (report : σ → ι → Option γ) (s : σ) :
    events step report s [] = [] := rfl

theorem events_append (report : σ → ι → Option γ) (s : σ) (xs ys : List ι) :
    events step report s (xs ++ ys) =
      events step report s xs ++ events step report (run step s xs) ys := by
  simp [events, trace_append, List.reduceOption_append]

theorem events_snoc (report : σ → ι → Option γ) (s : σ) (xs : List ι) (i : ι) :
    events step report s (xs ++ [i]) =
      events step report s xs ++ (report (run step s xs) i).toList := by
  rw [events_append]
  cases h : report (run step s xs) i <;> simp [events, h, List.reduceOption_cons_of_some,
    List.reduceOption_cons_of_none]

theorem events_first {report : σ → ι → Option γ} {s : σ} {inputs : List ι} {e : γ} {rest : List γ}
    (h : events step report s inputs = e :: rest) :
    ∃ before i after, inputs = before ++ i :: after ∧ events step report s before = [] ∧
      report (run step s before) i = some e := by
  induction inputs generalizing s with
  | nil => cases h
  | cons i inputs ih =>
    cases hreport : report s i with
    | none =>
      have htail : events step report (step s i) inputs = e :: rest := by
        rw [← h, events, events, trace_cons, hreport, List.reduceOption_cons_of_none]
      obtain ⟨before, j, after, rfl, hnone, hsome⟩ := ih htail
      refine ⟨i :: before, j, after, rfl, ?_, hsome⟩
      rw [events, trace_cons, hreport, List.reduceOption_cons_of_none]
      exact hnone
    | some e' =>
      rw [events, trace_cons, hreport, List.reduceOption_cons_of_some] at h
      exact ⟨[], i, inputs, rfl, rfl, hreport.trans (congrArg some (List.cons.inj h).1)⟩

theorem events_filter (report : σ → ι → Option γ) (p : γ → Bool) (s : σ) (inputs : List ι) :
    events step (fun s i => (report s i).filter p) s inputs =
      (events step report s inputs).filter p := by
  induction inputs using List.reverseRecOn with
  | nil => rfl
  | append_singleton inputs i ih =>
    rw [events_snoc, events_snoc, List.filter_append, ih]
    congr 1
    cases report (run step s inputs) i with
    | none => rfl
    | some e => cases hp : p e <;> simp [hp]

end Synchronous
