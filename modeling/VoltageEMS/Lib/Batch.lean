import Mathlib.Data.List.Sort
import Mathlib.Data.List.Destutter
import Mathlib.Data.List.Range

/-!
# Batches of indices with a bounded backlog

A worker collects indices, sorts them, removes repetitions, works on the first few and keeps the
last few of the rest for its next round.
-/

namespace VoltageEMS.Lib

open List

/-- `sort_unstable` and `dedup`. -/
def sortDedup (l : List Nat) : List Nat := (l.insertionSort (· ≤ ·)).destutter (· ≠ ·)

theorem sortDedup_eq (l : List Nat) : sortDedup l = (l.insertionSort (· ≤ ·)).dedup :=
  (pairwise_insertionSort (· ≤ ·) l).destutter_eq_dedup

variable {l : List Nat}

@[simp] theorem mem_sortDedup {i : Nat} : i ∈ sortDedup l ↔ i ∈ l := by
  rw [sortDedup_eq, mem_dedup, mem_insertionSort]

theorem sortDedup_pairwise (l : List Nat) : (sortDedup l).Pairwise (· < ·) := by
  have hsorted : (sortDedup l).SortedLE := List.sortedLE_iff_pairwise.mpr
    ((pairwise_insertionSort (· ≤ ·) l).sublist (destutter_sublist _ _))
  have hnodup : (sortDedup l).Nodup := sortDedup_eq l ▸ nodup_dedup _
  exact List.sortedLT_iff_pairwise.mp (hsorted.sortedLT_of_nodup hnodup)

theorem sortDedup_eq_of_mem_iff {r : List Nat} (hr : r.Pairwise (· < ·)) (h : ∀ i, i ∈ l ↔ i ∈ r) :
    sortDedup l = r :=
  (sortDedup_pairwise l).eq_of_mem_iff hr fun i => by rw [mem_sortDedup, h]

/-- The last `k` elements. -/
def keepLast {α : Type} (k : Nat) (l : List α) : List α := l.drop (l.length - k)

variable {α : Type}

theorem mem_of_mem_keepLast {k : Nat} {l : List α} {x : α} (h : x ∈ keepLast k l) :
    x ∈ l := mem_of_mem_drop h

end VoltageEMS.Lib
