import Mathlib.Data.List.Dedup
import Mathlib.Data.List.Sort
import Mathlib.Data.List.Perm.Basic
import Sana.Lib.Table

/-!
# Results that do not depend on an order

A table without an order can be read in any. What is counted, searched for by a key or sorted by one is
the same in each of them, as long as the key tells the rows apart.
-/

namespace Sana.Lib

variable {α κ : Type*} {l l' : List α}

theorem any_perm (h : l'.Perm l) (p : α → Bool) : l'.any p = l.any p := by
  rw [Bool.eq_iff_iff, List.any_eq_true, List.any_eq_true]
  exact exists_congr fun x => and_congr_left fun _ => h.mem_iff

theorem isEmpty_perm (h : l'.Perm l) : l'.isEmpty = l.isEmpty := by
  rw [Bool.eq_iff_iff, List.isEmpty_iff_length_eq_zero, List.isEmpty_iff_length_eq_zero,
    h.length_eq]

/-- A key that tells the rows apart finds the same row in any order. -/
theorem lookup_perm [DecidableEq κ] {key : α → κ} (h : l'.Perm l) (hnodup : (l.map key).Nodup)
    (k : κ) : lookup key k l' = lookup key k l := by
  cases hfound : lookup key k l with
  | none =>
    rw [lookup_eq_none] at hfound ⊢
    exact fun r hr => hfound r (h.mem_iff.mp hr)
  | some r =>
    obtain ⟨hr, rfl⟩ := lookup_eq_some hfound
    exact lookup_of_mem ((h.map key).nodup_iff.mpr hnodup) (h.mem_iff.mpr hr)

/-- Sorting forgets the order, where no two rows are alike to the order sorted by. -/
theorem mergeSort_perm {le : α → α → Bool}
    (htrans : ∀ a b c, le a b = true → le b c = true → le a c = true) (htotal : ∀ a b, (le a b || le b a) = true)
    (hanti : ∀ a ∈ l, ∀ b ∈ l, le a b = true → le b a = true → a = b) (h : l'.Perm l) :
    l'.mergeSort le = l.mergeSort le := by
  have hperm : (l'.mergeSort le).Perm (l.mergeSort le) :=
    ((List.mergeSort_perm l' le).trans h).trans (List.mergeSort_perm l le).symm
  refine hperm.eq_of_pairwise (fun a b ha hb => ?_) (List.pairwise_mergeSort htrans htotal l')
    (List.pairwise_mergeSort htrans htotal l)
  exact hanti a (h.mem_iff.mp (List.mem_mergeSort.mp ha)) b (List.mem_mergeSort.mp hb)

end Sana.Lib
