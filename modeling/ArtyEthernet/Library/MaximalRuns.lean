import Mathlib.Data.List.Induction
import Mathlib.Tactic.Common

/-!
# Maximal runs of a sampled signal

A sample sequence is cut into its maximal runs of samples satisfying `on`. A burst is such a run
together with the first sample after it; a run that reaches the end of the sequence is still
pending.
-/

namespace MaximalRuns

structure Burst (α : Type*) where
  body : List α
  stop : α
deriving DecidableEq, Repr

variable {α β : Type*} (on : α → Bool)

def scanStep (acc : List (Burst α) × List α) (a : α) : List (Burst α) × List α :=
  if on a then (acc.1, acc.2 ++ [a])
  else if acc.2.isEmpty then acc
  else (acc.1 ++ [⟨acc.2, a⟩], [])

def scan (xs : List α) : List (Burst α) × List α := xs.foldl (scanStep on) ([], [])

/-- The maximal runs that have ended, in order. -/
def bursts (xs : List α) : List (Burst α) := (scan on xs).1

/-- The run that has not ended yet. -/
def pending (xs : List α) : List α := (scan on xs).2

@[simp] theorem bursts_nil : bursts on [] = [] := rfl

@[simp] theorem pending_nil : pending on [] = [] := rfl

theorem scan_snoc (xs : List α) (a : α) : scan on (xs ++ [a]) = scanStep on (scan on xs) a := by
  simp [scan]

variable {on}

theorem bursts_snoc_on (xs : List α) {a : α} (ha : on a = true) :
    bursts on (xs ++ [a]) = bursts on xs := by
  simp [bursts, scan_snoc, scanStep, ha]

theorem pending_snoc_on (xs : List α) {a : α} (ha : on a = true) :
    pending on (xs ++ [a]) = pending on xs ++ [a] := by
  simp [pending, scan_snoc, scanStep, ha]

theorem pending_snoc_off (xs : List α) {a : α} (ha : on a = false) :
    pending on (xs ++ [a]) = [] := by
  cases h : (scan on xs).2 <;> simp [pending, scan_snoc, scanStep, ha, h]

theorem bursts_snoc_off (xs : List α) {a : α} (ha : on a = false) :
    bursts on (xs ++ [a]) =
      bursts on xs ++ if pending on xs = [] then [] else [⟨pending on xs, a⟩] := by
  cases h : (scan on xs).2 <;> simp [bursts, pending, scan_snoc, scanStep, ha, h]

theorem pending_on (xs : List α) : ∀ a ∈ pending on xs, on a = true := by
  induction xs using List.reverseRecOn with
  | nil => simp
  | append_singleton xs x ih =>
    cases hx : on x with
    | true =>
      rw [pending_snoc_on xs hx]
      intro a ha
      rcases List.mem_append.mp ha with hold | hnew
      · exact ih a hold
      · rw [List.mem_singleton.mp hnew, hx]
    | false => simp [pending_snoc_off xs hx]

theorem pending_suffix (xs : List α) : pending on xs <:+ xs := by
  induction xs using List.reverseRecOn with
  | nil => exact List.suffix_refl []
  | append_singleton xs x ih =>
    cases hx : on x with
    | true =>
      obtain ⟨earlier, hsplit⟩ := ih
      rw [pending_snoc_on xs hx]
      exact ⟨earlier, by rw [← List.append_assoc, hsplit]⟩
    | false =>
      rw [pending_snoc_off xs hx]
      exact List.nil_suffix

/-- After a moment without a pending run the scan starts afresh. -/
theorem scan_append (xs ys : List α) (hp : pending on xs = []) :
    bursts on (xs ++ ys) = bursts on xs ++ bursts on ys ∧
      pending on (xs ++ ys) = pending on ys := by
  induction ys using List.reverseRecOn with
  | nil => simp [hp]
  | append_singleton ys y ih =>
    rw [← List.append_assoc]
    cases hy : on y with
    | true =>
      rw [bursts_snoc_on _ hy, bursts_snoc_on _ hy, pending_snoc_on _ hy, pending_snoc_on _ hy,
        ih.1, ih.2]
      exact ⟨rfl, rfl⟩
    | false =>
      rw [bursts_snoc_off _ hy, bursts_snoc_off _ hy, pending_snoc_off _ hy,
        pending_snoc_off _ hy, ih.1, ih.2, List.append_assoc]
      exact ⟨rfl, rfl⟩

theorem scan_all_on (xs : List α) (hx : ∀ a ∈ xs, on a = true) :
    bursts on xs = [] ∧ pending on xs = xs := by
  induction xs using List.reverseRecOn with
  | nil => simp
  | append_singleton xs x ih =>
    have hlast : on x = true := hx x (by simp)
    have hinit := ih (fun a ha => hx a (by simp [ha]))
    rw [bursts_snoc_on xs hlast, pending_snoc_on xs hlast, hinit.1, hinit.2]
    exact ⟨rfl, rfl⟩

theorem scan_all_off (xs : List α) (hx : ∀ a ∈ xs, on a = false) :
    bursts on xs = [] ∧ pending on xs = [] := by
  induction xs using List.reverseRecOn with
  | nil => simp
  | append_singleton xs x ih =>
    have hlast : on x = false := hx x (by simp)
    have hinit := ih (fun a ha => hx a (by simp [ha]))
    rw [bursts_snoc_off xs hlast, pending_snoc_off xs hlast, hinit.1, hinit.2]
    simp

/-- One complete run followed by silence. -/
theorem scan_run_then_off (xs : List α) (y : α) (ys : List α) (hne : xs ≠ [])
    (hx : ∀ a ∈ xs, on a = true) (hy : on y = false) (hys : ∀ a ∈ ys, on a = false) :
    bursts on (xs ++ y :: ys) = [⟨xs, y⟩] ∧ pending on (xs ++ y :: ys) = [] := by
  have hon := scan_all_on xs hx
  have hclosed : pending on (xs ++ [y]) = [] := pending_snoc_off xs hy
  have hoff := scan_all_off ys hys
  have happ := scan_append (xs ++ [y]) ys hclosed
  have hsplit : xs ++ y :: ys = xs ++ [y] ++ ys := by simp
  rw [hsplit, happ.1, happ.2, bursts_snoc_off xs hy, hon.1, hon.2, hoff.1, hoff.2]
  simp [hne]

/-- The first run of a sequence, when it ends. -/
inductive FirstRun (on : α → Bool) (xs : List α) : Prop where
  | unended (before body : List α) (hsplit : xs = before ++ body)
      (hbefore : ∀ a ∈ before, on a = false) (hbody : ∀ a ∈ body, on a = true)
  | ended (before body : List α) (stop : α) (after : List α)
      (hsplit : xs = before ++ body ++ stop :: after) (hbefore : ∀ a ∈ before, on a = false)
      (hbody : ∀ a ∈ body, on a = true) (hne : body ≠ []) (hstop : on stop = false)

theorem firstRun (on : α → Bool) (xs : List α) : FirstRun on xs := by
  induction xs with
  | nil => exact .unended [] [] rfl (by simp) (by simp)
  | cons x xs ih =>
    cases hx : on x with
    | false =>
      have hlead {before : List α} (h : ∀ a ∈ before, on a = false) :
          ∀ a ∈ x :: before, on a = false := List.forall_mem_cons.mpr ⟨hx, h⟩
      cases ih with
      | unended before body hsplit hbefore hbody =>
        exact .unended (x :: before) body (by rw [hsplit]; rfl) (hlead hbefore) hbody
      | ended before body stop after hsplit hbefore hbody hne hstop =>
        exact .ended (x :: before) body stop after (by rw [hsplit]; rfl) (hlead hbefore) hbody hne
          hstop
    | true =>
      have halone : ∀ a ∈ [x], on a = true := List.forall_mem_singleton.mpr hx
      have hlead {body : List α} (h : ∀ a ∈ body, on a = true) : ∀ a ∈ x :: body, on a = true :=
        List.forall_mem_cons.mpr ⟨hx, h⟩
      cases ih with
      | unended before body hsplit hbefore hbody =>
        cases before with
        | nil => exact .unended [] (x :: body) (by rw [hsplit]; rfl) hbefore (hlead hbody)
        | cons stop before =>
          exact .ended [] [x] stop (before ++ body) (by rw [hsplit]; rfl) (by simp) halone (by simp)
            (hbefore stop List.mem_cons_self)
      | ended before body stop after hsplit hbefore hbody hne hstop =>
        cases before with
        | nil =>
          exact .ended [] (x :: body) stop after (by rw [hsplit]; rfl) hbefore (hlead hbody)
            (List.cons_ne_nil x body) hstop
        | cons first before =>
          exact .ended [] [x] first (before ++ body ++ stop :: after)
            (by rw [hsplit]; simp) (by simp) halone (by simp) (hbefore first List.mem_cons_self)

theorem bursts_ended (before body : List α) (stop : α) (after : List α)
    (hbefore : ∀ a ∈ before, on a = false) (hbody : ∀ a ∈ body, on a = true) (hne : body ≠ [])
    (hstop : on stop = false) :
    bursts on (before ++ body ++ stop :: after) = ⟨body, stop⟩ :: bursts on after ∧
      pending on (before ++ body ++ stop :: after) = pending on after := by
  have hsplit : before ++ body ++ stop :: after = before ++ (body ++ [stop]) ++ after := by simp
  obtain ⟨hnone, hclosed⟩ := scan_all_off before hbefore
  obtain ⟨hone, hend⟩ := scan_run_then_off body stop [] hne hbody hstop (by simp)
  obtain ⟨hfront, hfrontEnd⟩ := scan_append before (body ++ [stop]) hclosed
  obtain ⟨hwhole, hwholeEnd⟩ := scan_append (before ++ (body ++ [stop])) after
    (hfrontEnd.trans hend)
  rw [hsplit, hwhole, hwholeEnd, hfront, hnone, hone]
  exact ⟨rfl, rfl⟩

theorem bursts_unended (before body : List α) (hbefore : ∀ a ∈ before, on a = false)
    (hbody : ∀ a ∈ body, on a = true) :
    bursts on (before ++ body) = [] ∧ pending on (before ++ body) = body := by
  obtain ⟨hnone, hclosed⟩ := scan_all_off before hbefore
  obtain ⟨hbursts, hpending⟩ := scan_append before body hclosed
  obtain ⟨hempty, hwhole⟩ := scan_all_on body hbody
  rw [hbursts, hpending, hnone, hempty, hwhole]
  exact ⟨rfl, rfl⟩

theorem all_off {xs : List α} (hnone : bursts on xs = []) (hclosed : pending on xs = []) :
    ∀ a ∈ xs, on a = false := by
  cases firstRun on xs with
  | unended before body hsplit hbefore hbody =>
    subst hsplit
    rw [(bursts_unended before body hbefore hbody).2] at hclosed
    rwa [hclosed, List.append_nil]
  | ended before body stop after hsplit hbefore hbody hne hstop =>
    rw [hsplit, (bursts_ended before body stop after hbefore hbody hne hstop).1] at hnone
    cases hnone

theorem first_burst {xs : List α} {r : Burst α} {rest : List (Burst α)}
    (h : bursts on xs = r :: rest) :
    ∃ before after, xs = before ++ r.body ++ r.stop :: after ∧ (∀ a ∈ before, on a = false) ∧
      (∀ a ∈ r.body, on a = true) ∧ on r.stop = false := by
  cases firstRun on xs with
  | unended before body hsplit hbefore hbody =>
    rw [hsplit, (bursts_unended before body hbefore hbody).1] at h
    cases h
  | ended before body stop after hsplit hbefore hbody hne hstop =>
    rw [hsplit, (bursts_ended before body stop after hbefore hbody hne hstop).1] at h
    obtain ⟨rfl, -⟩ := List.cons.inj h
    exact ⟨before, after, hsplit, hbefore, hbody, hstop⟩

def Burst.map (f : α → β) (r : Burst α) : Burst β := ⟨r.body.map f, f r.stop⟩

theorem scan_map (f : α → β) (onβ : β → Bool) (xs : List α) :
    bursts onβ (xs.map f) = (bursts (fun a => onβ (f a)) xs).map (Burst.map f) ∧
      pending onβ (xs.map f) = (pending (fun a => onβ (f a)) xs).map f := by
  induction xs using List.reverseRecOn with
  | nil => simp
  | append_singleton xs x ih =>
    have hmap : (xs ++ [x]).map f = xs.map f ++ [f x] := by simp
    rw [hmap]
    cases hx : onβ (f x) with
    | true =>
      have hon : (fun a => onβ (f a)) x = true := hx
      rw [bursts_snoc_on _ hx, pending_snoc_on _ hx, bursts_snoc_on xs hon,
        pending_snoc_on xs hon, ih.1, ih.2]
      simp
    | false =>
      have hoff : (fun a => onβ (f a)) x = false := hx
      rw [bursts_snoc_off _ hx, pending_snoc_off _ hx, bursts_snoc_off xs hoff,
        pending_snoc_off xs hoff, ih.1, ih.2]
      by_cases hp : pending (fun a => onβ (f a)) xs = [] <;> simp [hp, Burst.map]

end MaximalRuns
