import Mathlib.Data.List.Nodup
import WriteGate.Proofs.Run.Schedule

/-!
# Back into input order

Results arrive in an order that nobody controls, and are put back by their positions.
What comes of this is said here without a procedure: the same items, with positions
that do not decrease, and with items of one position in the order in which they
came (`InInputOrder`). There is exactly one such list, so nothing else is left open.

The order of arrival can be seen in it only where positions are equal. The positions of
a run are not: they increase along the paths, with a gap wherever one is skipped. So
the shares of a run may be handed in in any order, and what is restored is what was cut.
-/

namespace WriteGate

namespace Indexed

variable {α : Type} {items items' sorted sorted' : List (Indexed α)}

/-- **Items in input order.** -/
structure InInputOrder (items sorted : List (Indexed α)) : Prop where
  /-- No item is lost, and none is added. -/
  perm : sorted.Perm items
  /-- The positions do not decrease. -/
  ascending : sorted.Pairwise fun a b => a.index ≤ b.index
  /-- Items of one position are in the order in which they came. -/
  steady : ∀ position, sorted.filter (·.index = position) = items.filter (·.index = position)

/-! ## Sorting puts items into input order -/

/-- How positions are compared. -/
def comesBefore (a b : Indexed α) : Bool := a.index ≤ b.index

theorem comesBefore_trans (a b c : Indexed α) (hab : comesBefore a b) (hbc : comesBefore b c) :
    comesBefore a c := by
  simp only [comesBefore, decide_eq_true_eq] at *
  exact Nat.le_trans hab hbc

theorem comesBefore_total (a b : Indexed α) : comesBefore a b || comesBefore b a := by
  simp only [comesBefore, Bool.or_eq_true, decide_eq_true_eq]
  exact Nat.le_total a.index b.index

theorem restore_eq (items : List (Indexed α)) :
    restore items = (items.mergeSort comesBefore).map value := rfl

theorem ascending_mergeSort (items : List (Indexed α)) :
    (items.mergeSort comesBefore).Pairwise fun a b => a.index ≤ b.index :=
  (List.pairwise_mergeSort comesBefore_trans comesBefore_total items).imp of_decide_eq_true

/-- **Sorting is stable**: the items of one position are a sublist that is sorted already, and
so they are one of the sorted list, and all of them there. -/
theorem filter_mergeSort (items : List (Indexed α)) (position : Nat) :
    (items.mergeSort comesBefore).filter (·.index = position)
      = items.filter (·.index = position) := by
  have hposition : ∀ a ∈ items.filter (·.index = position), a.index = position := fun a ha => by
    simpa using (List.mem_filter.1 ha).2
  have hsorted : (items.filter (·.index = position)).Pairwise fun a b => comesBefore a b :=
    List.pairwise_of_forall_mem_list fun a ha b hb => by
      simp [comesBefore, hposition a ha, hposition b hb]
  have hsublist := List.sublist_mergeSort comesBefore_trans comesBefore_total hsorted
    List.filter_sublist
  have hkept := hsublist.filter (·.index = position)
  simp only [List.filter_filter, Bool.and_self] at hkept
  exact (hkept.eq_of_length ((List.mergeSort_perm items comesBefore).filter _).length_eq.symm).symm

theorem inInputOrder_mergeSort (items : List (Indexed α)) :
    InInputOrder items (items.mergeSort comesBefore) where
  perm := List.mergeSort_perm items comesBefore
  ascending := ascending_mergeSort items
  steady := filter_mergeSort items

/-! ## There is one input order -/

/-- The first position of a list is the least. -/
theorem index_le_of_mem {a b : Indexed α}
    (h : (a :: sorted).Pairwise fun a b => a.index ≤ b.index) (hb : b ∈ a :: sorted) :
    a.index ≤ b.index := by
  rcases List.mem_cons.1 hb with rfl | hb
  · exact Nat.le_refl _
  · exact List.rel_of_pairwise_cons h hb

theorem mem_iff_of_filter_eq
    (hparts : ∀ position,
      sorted.filter (·.index = position) = sorted'.filter (·.index = position))
    (a : Indexed α) : a ∈ sorted ↔ a ∈ sorted' := by
  simpa using congrArg (a ∈ ·) (hparts a.index)

/-- **Lists with positions that do not decrease are equal if their parts of one position
are.** -/
theorem eq_of_filter_eq (h : sorted.Pairwise fun a b => a.index ≤ b.index)
    (h' : sorted'.Pairwise fun a b => a.index ≤ b.index)
    (hparts : ∀ position,
      sorted.filter (·.index = position) = sorted'.filter (·.index = position)) :
    sorted = sorted' := by
  have hmem := mem_iff_of_filter_eq hparts
  -- on both lists at once: they begin with the same item, for it has the least position
  induction sorted generalizing sorted' with
  | nil => exact (List.eq_nil_iff_forall_not_mem.2 fun a ha => by simpa using (hmem a).2 ha).symm
  | cons a rest ih =>
    cases sorted' with
    | nil => exact absurd ((hmem a).1 (List.mem_cons_self ..)) List.not_mem_nil
    | cons b rest' =>
      have hindex : a.index = b.index :=
        Nat.le_antisymm (index_le_of_mem h ((hmem b).2 (List.mem_cons_self ..)))
          (index_le_of_mem h' ((hmem a).1 (List.mem_cons_self ..)))
      obtain ⟨rfl, -⟩ : a = b ∧ _ := by
        simpa only [List.filter_cons, hindex, decide_true, if_true, List.cons.injEq]
          using hparts a.index
      have hrest : ∀ position,
          rest.filter (·.index = position) = rest'.filter (·.index = position) := by
        intro position
        have := hparts position
        rw [List.filter_cons, List.filter_cons] at this
        split at this
        · exact (List.cons.inj this).2
        · exact this
      rw [ih (List.Pairwise.of_cons h) (List.Pairwise.of_cons h') hrest
        (mem_iff_of_filter_eq hrest)]

/-- **There is only one input order.** -/
theorem InInputOrder.unique (h : InInputOrder items sorted) (h' : InInputOrder items sorted') :
    sorted = sorted' :=
  eq_of_filter_eq h.ascending h'.ascending fun position =>
    (h.steady position).trans (h'.steady position).symm

/-! ## The order of arrival -/

/-- **Items of different positions may arrive in any order.** -/
theorem restore_eq_of_perm (hdistinct : (items.map index).Nodup) (h : items'.Perm items) :
    restore items' = restore items := by
  rw [restore_eq, restore_eq]
  congr 1
  have hsorted := List.mergeSort_perm items comesBefore
  have hsorted' := (List.mergeSort_perm items' comesBefore).trans h
  refine List.Perm.eq_of_pairwise (fun a b ha hb hab hba => ?_) (ascending_mergeSort items')
    (ascending_mergeSort items) (hsorted'.trans hsorted.symm)
  exact List.inj_on_of_nodup_map hdistinct (hsorted'.mem_iff.1 ha) (hsorted.mem_iff.1 hb)
    (Nat.le_antisymm hab hba)

/-- **Shares may be handed in in any order.** -/
theorem restore_flatten_of_perm_shares (hitems : items.Pairwise fun a b => a.index < b.index)
    {jobs : Nat} {handedIn : List (List (Indexed α))} (h : handedIn.Perm (shares items jobs)) :
    restore handedIn.flatten = items.map value := by
  have hdistinct : (items.map index).Nodup :=
    List.pairwise_map.2 (hitems.imp fun hab => Nat.ne_of_lt hab)
  have hperm : handedIn.flatten.Perm items := by
    have := h.flatten
    rwa [flatten_shares] at this
  rw [restore_eq_of_perm hdistinct hperm]
  exact restore_of_pairwise (hitems.imp fun hab => Nat.le_of_lt hab)

end Indexed

/-- **Input order does not depend on arrival.** What is restored from some items are the
values of these items in input order, of which there is one: sorted by position, and
items of one position in the order in which they came. Items of different positions,
however far apart, are restored alike from any order. So what is cut into shares, for any number
of workers, comes back as it was in whatever order the shares are handed in. -/
theorem restore_independent_of_arrival {α : Type} :
    (∀ items : List (Indexed α), ∃ sorted, Indexed.InInputOrder items sorted
        ∧ Indexed.restore items = sorted.map Indexed.value
        ∧ ∀ sorted', Indexed.InInputOrder items sorted' → sorted' = sorted)
      ∧ (∀ items items' : List (Indexed α), (items.map Indexed.index).Nodup → items'.Perm items →
        Indexed.restore items' = Indexed.restore items)
      ∧ ∀ items : List (Indexed α), (items.Pairwise fun a b => a.index < b.index) →
        ∀ (jobs : Nat) (handedIn : List (List (Indexed α))), handedIn.Perm (shares items jobs) →
          Indexed.restore handedIn.flatten = items.map Indexed.value := by
  refine ⟨fun items => ?_, fun items items' => Indexed.restore_eq_of_perm,
    fun items hitems jobs handedIn => Indexed.restore_flatten_of_perm_shares hitems⟩
  have hsort := Indexed.inInputOrder_mergeSort items
  exact ⟨_, hsort, Indexed.restore_eq items, fun sorted' h => h.unique hsort⟩

end WriteGate
