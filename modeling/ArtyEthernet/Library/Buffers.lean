import ArtyEthernet.Library.Words

/-!
# Fixed-size byte buffers

A buffer of `n` bytes is addressed by machine indices of unrelated width. Reads outside the
buffer give zero and writes outside it are lost; callers that stay inside never see either.
-/

namespace Words

structure Buffer (n : ℕ) where
  byte : Fin n → Byte

namespace Buffer

variable {n : ℕ}

def get (buf : Buffer n) (i : ℕ) : Byte := if h : i < n then buf.byte ⟨i, h⟩ else 0

def set (buf : Buffer n) (i : ℕ) (b : Byte) : Buffer n :=
  ⟨fun j => if j.val = i then b else buf.byte j⟩

def zero : Buffer n := ⟨fun _ => 0⟩

@[simp] theorem get_zero (i : ℕ) : (zero : Buffer n).get i = 0 := by
  simp [get, zero]

theorem get_set (buf : Buffer n) (i j : ℕ) (b : Byte) :
    (buf.set i b).get j = if j = i ∧ i < n then b else buf.get j := by
  by_cases hj : j < n
  · by_cases hij : j = i
    · subst hij
      simp [get, set, hj]
    · simp [get, set, hj, hij]
  · have hne : ¬ (j = i ∧ i < n) := by omega
    simp [get, hj, hne]

@[simp] theorem get_set_self (buf : Buffer n) {i : ℕ} (b : Byte) (hi : i < n) :
    (buf.set i b).get i = b := by
  simp [get_set, hi]

theorem get_set_ne (buf : Buffer n) {i j : ℕ} (b : Byte) (hij : j ≠ i) :
    (buf.set i b).get j = buf.get j := by
  simp [get_set, hij]

end Buffer
end Words
