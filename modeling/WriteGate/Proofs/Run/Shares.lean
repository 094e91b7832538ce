import Mathlib.Algebra.Order.Floor.Div
import WriteGate.Proofs.Run.Schedule

/-!
# Even shares

The work of a run is cut by two quotients, both rounded up: the size of a share is
what it takes for the workers to get by with, and the number of shares is what it
takes for shares of that size to hold all the items. The second quotient is at most the
number of workers because the first is rounded up (`divUp_divUp_le`); it may be less, for
five items make three shares for four workers, of two, two and one.

That the shares are those of the list follows from their sizes, since a piece is
full as long as there are enough items: every share but the last is full, and the last
one is not empty.

A quotient, a range and a cut each make no sense for some numbers: there is no
quotient by zero, nothing lies in an empty range, and no list is made up of
pieces of size zero. `shares?` refuses these, and never has to.
-/

namespace WriteGate

/-! ## Rounding up -/

theorem divUp_eq_ceilDiv (n d : Nat) : divUp n d = n ⌈/⌉ d :=
  (Nat.ceilDiv_eq_add_pred_div n d).symm

/-- **Rounding up, there are as few pieces as suffice.** -/
theorem divUp_le_iff {n d k : Nat} (h : 0 < d) : divUp n d ≤ k ↔ n ≤ d * k := by
  rw [divUp_eq_ceilDiv]
  exact ceilDiv_le_iff_le_mul h

/-- **Pieces that are large enough for a number of workers are not more than these.** -/
theorem divUp_divUp_le (n : Nat) {workers : Nat} (h : 0 < workers) :
    divUp n (divUp n workers) ≤ workers := by
  have hsuffices := le_mul_divUp n h
  rcases Nat.eq_zero_or_pos (divUp n workers) with hzero | hpos
  · rw [hzero]
    simp [divUp]
  · rwa [divUp_le_iff hpos, Nat.mul_comm]

/-! ## Full pieces and the last one -/

variable {α : Type} {items : List α} {size count jobs : Nat}

/-- **A list that begins one more piece than it fills** is cut into full pieces and one behind
them that is not empty. -/
theorem exists_cut_eq_append (hfilled : size * count < items.length)
    (hheld : items.length ≤ size * (count + 1)) :
    ∃ full last, cut size (count + 1) items = full ++ [last]
      ∧ (∀ piece ∈ full, piece.length = size) ∧ last ≠ [] ∧ last.length ≤ size := by
  -- on the number of full pieces, since behind the first there is one less to fill
  induction count generalizing items with
  | zero =>
    refine ⟨[], items.take size, rfl, by simp, ?_, List.length_take_le ..⟩
    rw [← List.length_pos_iff, List.length_take]
    omega
  | succ count ih =>
    rw [Nat.mul_succ] at hfilled hheld
    obtain ⟨full, last, hcut, hfull, hlast⟩ := @ih (items.drop size)
      (by rw [List.length_drop]; omega) (by rw [List.length_drop]; omega)
    have hfirst : (items.take size).length = size := by
      rw [List.length_take]
      omega
    refine ⟨items.take size :: full, last, ?_, List.forall_mem_cons.2 ⟨hfirst, hfull⟩, hlast⟩
    rw [cut, hcut, List.cons_append]

/-! ## The shares of a list -/

theorem length_shares (items : List α) (jobs : Nat) :
    (shares items jobs).length = divUp items.length (shareSize items.length jobs) :=
  length_cut ..

/-- **There are no more shares than workers**, and no more than items. -/
theorem length_shares_le (items : List α) (jobs : Nat) :
    (shares items jobs).length ≤ max 1 (min jobs items.length) := by
  rw [length_shares]
  exact divUp_divUp_le _ (by omega)

@[simp] theorem shares_nil (jobs : Nat) : shares ([] : List α) jobs = [] := by
  rw [← List.length_eq_zero_iff, length_shares]
  simp [shareSize, divUp]

/-- **A list that is not empty is cut into full shares and one behind them.** -/
theorem exists_shares_eq_append (hne : items ≠ []) (jobs : Nat) :
    ∃ full last, shares items jobs = full ++ [last]
      ∧ (∀ share ∈ full, share.length = shareSize items.length jobs)
      ∧ last ≠ [] ∧ last.length ≤ shareSize items.length jobs := by
  have hitems := List.length_pos_iff.2 hne
  have hsize := shareSize_pos jobs hitems
  have hheld := le_mul_divUp items.length hsize
  obtain ⟨count, hcount⟩ :
      ∃ count, divUp items.length (shareSize items.length jobs) = count + 1 := by
    refine Nat.exists_eq_add_one.2 (Nat.pos_of_ne_zero fun hzero => ?_)
    rw [hzero] at hheld
    omega
  -- fewer pieces would not hold the list
  have hfilled : shareSize items.length jobs * count < items.length := by
    rw [← Nat.not_le, ← divUp_le_iff hsize]
    omega
  unfold shares
  dsimp only
  rw [hcount] at hheld ⊢
  exact exists_cut_eq_append hfilled hheld

theorem shares_eq_nil_iff : shares items jobs = [] ↔ items = [] := by
  constructor
  · intro hnil
    by_contra hne
    obtain ⟨full, last, hshares, -⟩ := exists_shares_eq_append hne jobs
    rw [hnil] at hshares
    exact absurd hshares (by simp)
  · rintro rfl
    exact shares_nil jobs

theorem ne_nil_of_mem_shares {share : List α} (h : share ∈ shares items jobs) : share ≠ [] := by
  have hne : items ≠ [] := by
    rintro rfl
    simp at h
  obtain ⟨full, last, hshares, hfull, hlast, -⟩ := exists_shares_eq_append hne jobs
  rw [hshares, List.mem_append, List.mem_singleton] at h
  rcases h with h | rfl
  · rw [← List.length_pos_iff, hfull share h]
    exact shareSize_pos jobs (List.length_pos_iff.2 hne)
  · exact hlast

/-! ## What is refused -/

/-- A quotient rounded up, refused for a divisor that is zero. -/
def divUp? (n d : Nat) : Option Nat := if d = 0 then none else some (divUp n d)

/-- A number brought into a range, refused for a range that is empty. -/
def clamp? (low high n : Nat) : Option Nat :=
  if low ≤ high then some (max low (min n high)) else none

/-- A list in pieces of one size, refused for the size zero. -/
def pieces? (size : Nat) (items : List α) : Option (List (List α)) :=
  if size = 0 then none else some (cut size (divUp items.length size) items)

/-- **The shares of a list, step by step**, with all that may be refused on the way. -/
def shares? (items : List α) (jobs : Nat) : Option (List (List α)) :=
  if items.isEmpty then some []
  else do
    let workers ← clamp? 1 items.length jobs
    let size ← divUp? items.length workers
    pieces? size items

/-- **Nothing is refused.** -/
theorem shares?_eq_some (items : List α) (jobs : Nat) :
    shares? items jobs = some (shares items jobs) := by
  unfold shares?
  by_cases hne : items = []
  · simp [hne]
  · have hitems := List.length_pos_iff.2 hne
    have hclamp : clamp? 1 items.length jobs = some (max 1 (min jobs items.length)) :=
      if_pos hitems
    have hquotient : divUp? items.length (max 1 (min jobs items.length))
        = some (shareSize items.length jobs) := if_neg (by omega)
    have hpieces : pieces? (shareSize items.length jobs) items = some (shares items jobs) :=
      if_neg (shareSize_pos jobs hitems).ne'
    simp only [if_neg, List.isEmpty_iff, hne, hclamp, hquotient, hpieces, Option.bind_eq_bind,
      Option.bind_some, not_false_eq_true]

/-- **A pool has no more workers than were asked for**, and no more than there are targets. -/
theorem Run.length_workers_poolOf_le (world : Snapshot) (targets : List (Indexed String))
    {jobs : Nat} (h : 0 < jobs) (schedule : Schedule) :
    (Run.poolOf world targets jobs schedule).workers.length ≤ min jobs targets.length := by
  rw [Run.poolOf, Pool.workers_finish, Pool.start, List.length_map, List.length_map]
  by_cases hne : targets = []
  · simp [hne]
  · have := length_shares_le targets jobs
    have := List.length_pos_iff.2 hne
    omega

/-- **The shares are an even cover.** Whatever the number of workers, nothing is refused on
the way to the shares of a list. An empty list has none, and any other has at least one
and no more than the workers and the items allow. No share is empty, and one behind the
other they are the list. All but the last are of one size, the number of items by the number of
workers rounded up, and the last is not larger. So a pool never has more workers than were
asked for or than there are targets. -/
theorem shares_cover_evenly (items : List α) (jobs : Nat) :
    shares? items jobs = some (shares items jobs)
      ∧ (shares items jobs = [] ↔ items = [])
      ∧ (shares items jobs).length ≤ max 1 (min jobs items.length)
      ∧ (∀ share ∈ shares items jobs, share ≠ [])
      ∧ (shares items jobs).flatten = items
      ∧ (items ≠ [] → ∃ full last, shares items jobs = full ++ [last]
        ∧ (∀ share ∈ full, share.length = items.length ⌈/⌉ max 1 (min jobs items.length))
        ∧ last.length ≤ items.length ⌈/⌉ max 1 (min jobs items.length))
      ∧ (0 < jobs → ∀ (world : Snapshot) (targets : List (Indexed String)) (schedule : Schedule),
        (Run.poolOf world targets jobs schedule).workers.length ≤ min jobs targets.length) := by
  refine ⟨shares?_eq_some items jobs, shares_eq_nil_iff, length_shares_le items jobs,
    fun share => ne_nil_of_mem_shares, flatten_shares items jobs, fun hne => ?_,
    fun hjobs world targets => Run.length_workers_poolOf_le world targets hjobs⟩
  obtain ⟨full, last, hshares, hfull, -, hlast⟩ := exists_shares_eq_append hne jobs
  rw [← divUp_eq_ceilDiv]
  exact ⟨full, last, hshares, hfull, hlast⟩

/-- Four workers, and work for three. -/
example : shares [1, 2, 3, 4, 5] 4 = [[1, 2], [3, 4], [5]] := by decide

end WriteGate
