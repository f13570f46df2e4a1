import ArtyEthernet.Model.Testbench
import ArtyEthernet.Proofs.Framing

/-!
# What the test bench collects

The receiving loop returns the first frame a machine shows and leaves it in the cycle behind that
frame. The framer on its own therefore hands every test frame to it.
-/

namespace ArtyEthernet.Testbench
open Words Synchronous

def next {σ ι : Type*} (step : σ → ι → σ × Bool × Nibble) (s : σ) (i : ι) : σ := (step s i).1

def shown {σ ι : Type*} (step : σ → ι → σ × Bool × Nibble) (s : σ) (i : ι) : Bool × Nibble :=
  (step s i).2

section Loop
variable {σ ι : Type*} (step : σ → ι → σ × Bool × Nibble) (s : σ) (c : Collector)
  (inputs later : List ι)

/-- Before the frame the loop only runs the machine. -/
theorem collectLoop_off (hout : c.inFrame = false)
    (hoff : ∀ p ∈ trace (next step) (shown step) s inputs, p.1 = false) :
    collectLoop step (inputs ++ later) s c =
      collectLoop step later (run (next step) s inputs) c := by
  induction inputs generalizing s with
  | nil => rfl
  | cons i inputs ih =>
    have hfirst : (step s i).2.1 = false := hoff _ List.mem_cons_self
    have hrest := ih (next step s i) fun p hp => hoff p (List.mem_cons_of_mem _ hp)
    rw [List.cons_append, collectLoop, run_cons, ← hrest]
    simp only [hfirst, hout, Bool.false_eq_true, if_false]
    rfl

theorem collectLoop_on (hon : ∀ p ∈ trace (next step) (shown step) s inputs, p.1 = true) :
    collectLoop step (inputs ++ later) s c = collectLoop step later (run (next step) s inputs)
      (((trace (next step) (shown step) s inputs).map Prod.snd).foldl Collector.take c) := by
  induction inputs generalizing s c with
  | nil => rfl
  | cons i inputs ih =>
    have hfirst : (step s i).2.1 = true := hon _ List.mem_cons_self
    have hrest := ih (next step s i) (c.take (step s i).2.2)
      fun p hp => hon p (List.mem_cons_of_mem _ hp)
    rw [List.cons_append, collectLoop]
    simp only [hfirst, if_true]
    exact hrest

theorem take_frame (bytes frame : List Byte) (inFrame : Bool) (byte : Byte) :
    ∃ last, (toNibbles frame).foldl Collector.take ⟨bytes, inFrame, false, byte⟩ =
      ⟨bytes ++ frame, inFrame || !frame.isEmpty, false, last⟩ := by
  induction frame generalizing bytes inFrame byte with
  | nil => exact ⟨byte, by simp⟩
  | cons b frame ih =>
    have hjoin : (lowNibble b).setWidth 8 ||| (highNibble b).setWidth 8 <<< 4 = b :=
      (BitVec.or_comm ..).trans (joinNibbles_split b)
    have htwo : (Collector.take ⟨bytes, inFrame, false, byte⟩ (lowNibble b)).take (highNibble b) =
        ⟨bytes ++ [b], true, false, (lowNibble b).setWidth 8⟩ := by
      simp [Collector.take, hjoin]
    obtain ⟨last, hlast⟩ := ih (bytes ++ [b]) true ((lowNibble b).setWidth 8)
    refine ⟨last, ?_⟩
    rw [toNibbles_cons, List.foldl_cons, List.foldl_cons, htwo, hlast]
    simp

variable (body : List ι) (i : ι) (frame : List Byte)

/-- A loop that comes to the end of a frame returns it. -/
theorem collectLoop_frame (hne : frame ≠ [])
    (hoff : ∀ p ∈ trace (next step) (shown step) s inputs, p.1 = false)
    (hbody : trace (next step) (shown step) (run (next step) s inputs) body =
      (toNibbles frame).map fun d => (true, d))
    (hstop : (shown step (run (next step) s (inputs ++ body)) i).1 = false) :
    collectLoop step (inputs ++ body ++ i :: later) s .init =
      ⟨frame, run (next step) s (inputs ++ body ++ [i]), some i⟩ := by
  have hon : ∀ p ∈ trace (next step) (shown step) (run (next step) s inputs) body, p.1 = true := by
    rw [hbody]
    intro p hp
    obtain ⟨d, -, rfl⟩ := List.mem_map.mp hp
    rfl
  have hnibbles : (trace (next step) (shown step) (run (next step) s inputs) body).map Prod.snd =
      toNibbles frame := by
    rw [hbody, List.map_map]
    exact List.map_id _
  obtain ⟨last, htake⟩ := take_frame [] frame false 0
  have hin : (!frame.isEmpty) = true := by simpa using hne
  have hrun : run (next step) (run (next step) s inputs) body =
      run (next step) s (inputs ++ body) := List.foldl_append.symm
  rw [List.append_assoc, collectLoop_off step s .init inputs _ rfl hoff,
    collectLoop_on step _ _ body _ hon, hnibbles, Collector.init, htake, hrun, collectLoop,
    run_snoc]
  change (shown step _ i).1 = false at hstop
  rw [shown] at hstop
  simp only [hstop, Bool.false_eq_true, if_false, Bool.false_or, hin, if_true, List.nil_append]
  rfl

theorem collectLoop_none
    (hoff : ∀ p ∈ trace (next step) (shown step) s inputs, p.1 = false) :
    collectLoop step inputs s .init = ⟨[], run (next step) s inputs, none⟩ := by
  have hwhole := collectLoop_off step s .init inputs [] rfl hoff
  rw [List.append_nil] at hwhole
  exact hwhole

end Loop
end ArtyEthernet.Testbench
