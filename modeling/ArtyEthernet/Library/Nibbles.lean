import ArtyEthernet.Library.Words

/-!
# Nibble streams

A byte stream is carried as nibbles, low nibble first. `pairNibbles` reads such a stream back; a
last unpaired nibble is discarded.
-/

namespace Words

abbrev Nibble := BitVec 4

def lowNibble (b : Byte) : Nibble := b.extractLsb 3 0

def highNibble (b : Byte) : Nibble := b.extractLsb 7 4

def joinNibbles (high low : Nibble) : Byte := (high.setWidth 8 <<< 4) ||| low.setWidth 8

theorem joinNibbles_split (b : Byte) : joinNibbles (highNibble b) (lowNibble b) = b := by
  revert b
  decide

@[simp] theorem lowNibble_joinNibbles (high low : Nibble) :
    lowNibble (joinNibbles high low) = low := by
  revert high low
  decide

@[simp] theorem highNibble_joinNibbles (high low : Nibble) :
    highNibble (joinNibbles high low) = high := by
  revert high low
  decide

def pairNibbles : List Nibble → List Byte
  | low :: high :: rest => joinNibbles high low :: pairNibbles rest
  | _ => []

def toNibbles (bs : List Byte) : List Nibble :=
  bs.flatMap fun b => [lowNibble b, highNibble b]

@[simp] theorem pairNibbles_nil : pairNibbles [] = [] := rfl

@[simp] theorem toNibbles_nil : toNibbles [] = [] := rfl

@[simp] theorem toNibbles_cons (b : Byte) (bs : List Byte) :
    toNibbles (b :: bs) = lowNibble b :: highNibble b :: toNibbles bs := rfl

@[simp] theorem length_toNibbles (bs : List Byte) : (toNibbles bs).length = 2 * bs.length := by
  induction bs with
  | nil => rfl
  | cons b bs ih => simp only [toNibbles_cons, List.length_cons, ih]; omega

theorem getElem?_toNibbles (bs : List Byte) (k : ℕ) :
    (toNibbles bs)[k]? =
      bs[k / 2]?.map fun b => if k % 2 = 0 then lowNibble b else highNibble b := by
  induction bs generalizing k with
  | nil => simp
  | cons b bs ih =>
    match k with
    | 0 => simp
    | 1 => simp
    | k + 2 =>
      have hdiv : (k + 2) / 2 = k / 2 + 1 := by omega
      have hmod : (k + 2) % 2 = k % 2 := by omega
      simp [hdiv, hmod, ih]

/-- Reading back a complete byte stream recovers the bytes. -/
@[simp] theorem pairNibbles_toNibbles (bs : List Byte) : pairNibbles (toNibbles bs) = bs := by
  induction bs with
  | nil => rfl
  | cons b bs ih => simp only [toNibbles_cons, pairNibbles, joinNibbles_split, ih]

theorem pairNibbles_append_even (xs ys : List Nibble) (hx : xs.length % 2 = 0) :
    pairNibbles (xs ++ ys) = pairNibbles xs ++ pairNibbles ys := by
  induction xs using pairNibbles.induct with
  | case1 low high rest ih =>
    have hrest : rest.length % 2 = 0 := by simp at hx; omega
    simp only [List.cons_append, pairNibbles, ih hrest]
  | case2 xs hne =>
    match xs with
    | [] => rfl
    | [x] => simp at hx
    | x :: y :: rest => exact absurd rfl (hne x y rest)

/-- A low nibble alone completes no byte. -/
theorem pairNibbles_snoc_even (xs : List Nibble) (x : Nibble) (hx : xs.length % 2 = 0) :
    pairNibbles (xs ++ [x]) = pairNibbles xs := by
  rw [pairNibbles_append_even xs [x] hx]
  simp [pairNibbles]

theorem pairNibbles_snoc_pair (xs : List Nibble) (low high : Nibble) (hx : xs.length % 2 = 0) :
    pairNibbles (xs ++ [low, high]) = pairNibbles xs ++ [joinNibbles high low] := by
  rw [pairNibbles_append_even xs _ hx]
  simp [pairNibbles]

theorem length_pairNibbles (xs : List Nibble) : (pairNibbles xs).length = xs.length / 2 := by
  induction xs using pairNibbles.induct with
  | case1 low high rest ih =>
    simp only [pairNibbles, List.length_cons, ih]
    omega
  | case2 xs hne =>
    match xs with
    | [] => rfl
    | [x] => simp [pairNibbles]
    | x :: y :: rest => exact absurd rfl (hne x y rest)

end Words
