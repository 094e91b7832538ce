/-!
# Shares and their order

A run may divide its work among several workers. The work is cut into contiguous
shares, and every item carries its position in the input, so that the results
can be put back into input order whatever the order in which they arrive. The
positions need not be consecutive: paths that are not evaluated leave gaps.
-/

namespace WriteGate

/-- A value with its position in the input. -/
structure Indexed (α : Type) where
  /-- The position. -/
  index : Nat
  /-- The value. -/
  value : α
deriving DecidableEq, Repr, Inhabited

namespace Indexed

/-- The result of a function, at the position of its argument. -/
def map {α β : Type} (f : α → β) (item : Indexed α) : Indexed β where
  index := item.index
  value := f item.value

/-- **Values in input order**: sorted by position, values of one position in the order in
which they come. -/
def restore {α : Type} (items : List (Indexed α)) : List α :=
  (items.mergeSort fun a b => a.index ≤ b.index).map value

end Indexed

/-! ## Shares -/

/-- A quotient rounded up. -/
def divUp (n d : Nat) : Nat := (n + d - 1) / d

/-- The first pieces of a list, `count` of them, each of `size` items as long as there are
enough. -/
def cut {α : Type} (size : Nat) : (count : Nat) → List α → List (List α)
  | 0, _ => []
  | count + 1, items => items.take size :: cut size count (items.drop size)

/-- The number of items in a share: as many as it takes to get by with the given number of
workers, which is at least one and at most the number of items. -/
def shareSize (count jobs : Nat) : Nat := divUp count (max 1 (min jobs count))

/-- **The shares of a list** for a number of workers: contiguous, all of one size but
perhaps the last. No items make no shares. -/
def shares {α : Type} (items : List α) (jobs : Nat) : List (List α) :=
  let size := shareSize items.length jobs
  cut size (divUp items.length size) items

/-- The pieces of a list make up as much of it as they can hold. -/
theorem flatten_cut {α : Type} (size count : Nat) (items : List α) :
    (cut size count items).flatten = items.take (size * count) := by
  induction count generalizing items with
  | zero => simp [cut]
  | succ count ih =>
    rw [cut, List.flatten_cons, ih, ← List.take_add]
    congr 1
    rw [Nat.mul_succ, Nat.add_comm]

/-- Rounding up, the pieces suffice. -/
theorem le_mul_divUp (n : Nat) {d : Nat} (h : 0 < d) : n ≤ d * divUp n d := by
  have hsplit := Nat.div_add_mod (n + d - 1) d
  have hrest := Nat.mod_lt (n + d - 1) h
  unfold divUp
  omega

theorem shareSize_pos {count : Nat} (jobs : Nat) (h : 0 < count) : 0 < shareSize count jobs := by
  have hworkers : 0 < max 1 (min jobs count) := by omega
  refine Nat.pos_of_ne_zero fun hzero => ?_
  have := le_mul_divUp count hworkers
  unfold shareSize at hzero
  rw [hzero] at this
  omega

/-- The shares of a list make up the list. -/
theorem flatten_shares {α : Type} (items : List α) (jobs : Nat) :
    (shares items jobs).flatten = items := by
  unfold shares
  rw [flatten_cut]
  rcases Nat.eq_zero_or_pos items.length with h | h
  · simp [List.eq_nil_of_length_eq_zero h]
  · exact List.take_of_length_le (le_mul_divUp _ (shareSize_pos jobs h))

theorem length_cut {α : Type} (size count : Nat) (items : List α) :
    (cut size count items).length = count := by
  induction count generalizing items with
  | zero => rfl
  | succ count ih => simp [cut, ih]

end WriteGate
