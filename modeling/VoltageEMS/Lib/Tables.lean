import Mathlib.Data.List.Nodup
import Mathlib.Data.List.Perm.Basic

/-!
# Tables with unique columns

A table is a list of rows. A row that is put in displaces the rows it clashes with, as
`INSERT OR REPLACE` does in a table with one or more unique columns.

* `replaceRow` — put one row in (`mem_replaceRow`); unique columns stay unique
  (`nodup_replaceRow`).
* `replaceAll` — put rows in one after the other (`mem_replaceAll`).
-/

namespace VoltageEMS.Lib

open List

variable {α κ : Type} {clash : α → α → Bool} {key : α → κ} {x r : α} {rows xs : List α}

/-- The keys of the rows that `x` clashes with. -/
def displaced (clash : α → α → Bool) (key : α → κ) (x : α) (rows : List α) : List κ :=
  (rows.filter (clash x)).map key

/-- `INSERT OR REPLACE`. -/
def replaceRow (clash : α → α → Bool) (x : α) (rows : List α) : List α :=
  rows.filter (fun r => !clash x r) ++ [x]

theorem mem_displaced {k : κ} :
    k ∈ displaced clash key x rows ↔ ∃ r ∈ rows, clash x r = true ∧ key r = k := by
  simp [displaced, and_assoc]

theorem mem_replaceRow :
    r ∈ replaceRow clash x rows ↔ (r ∈ rows ∧ clash x r = false) ∨ r = x := by
  simp [replaceRow]

theorem nodup_replaceRow (hkey : ∀ r, key r = key x → clash x r = true)
    (h : (rows.map key).Nodup) : ((replaceRow clash x rows).map key).Nodup := by
  rw [replaceRow, map_append, map_singleton]
  refine List.Nodup.append ((filter_sublist.map key).nodup h) (nodup_singleton _) ?_
  intro k hk hkx
  obtain ⟨r, hr, rfl⟩ := mem_map.mp hk
  have hkept := (mem_filter.mp hr).2
  rw [hkey r (mem_singleton.mp hkx)] at hkept
  cases hkept

theorem mem_keys_replaceRow {k : κ} (hk : k ∈ rows.map key)
    (hkept : k = key x ∨ k ∉ displaced clash key x rows) :
    k ∈ (replaceRow clash x rows).map key := by
  obtain ⟨r, hr, rfl⟩ := mem_map.mp hk
  rcases hkept with hx | hnot
  · exact mem_map.mpr ⟨x, mem_replaceRow.mpr (.inr rfl), hx.symm⟩
  cases hc : clash x r with
  | false => exact mem_map.mpr ⟨r, mem_replaceRow.mpr (.inl ⟨hr, hc⟩), rfl⟩
  | true => exact absurd (mem_displaced.mpr ⟨r, hr, hc, rfl⟩) hnot

theorem map_replaceRow {β : Type} {clash' : β → β → Bool} (f : α → β)
    (hclash : ∀ r, clash' (f x) (f r) = clash x r) :
    (replaceRow clash x rows).map f = replaceRow clash' (f x) (rows.map f) := by
  simp only [replaceRow, map_append, map_singleton, filter_map]
  congr 3
  funext r
  exact congrArg (! ·) (hclash r).symm

/-- The rows one after the other. -/
def replaceAll (clash : α → α → Bool) (xs rows : List α) : List α :=
  xs.foldl (fun rows x => replaceRow clash x rows) rows

theorem replaceAll_cons :
    replaceAll clash (x :: xs) rows = replaceAll clash xs (replaceRow clash x rows) := rfl

theorem mem_replaceAll :
    r ∈ replaceAll clash xs rows ↔
      r ∈ replaceAll clash xs [] ∨ (r ∈ rows ∧ ∀ x ∈ xs, clash x r = false) := by
  induction xs generalizing rows with
  | nil => simp [replaceAll]
  | cons x xs ih =>
    rw [replaceAll_cons, replaceAll_cons, ih, @ih (replaceRow clash x []), mem_replaceRow,
      mem_replaceRow, forall_mem_cons]
    constructor
    · rintro (h | ⟨⟨h, hx⟩ | rfl, hall⟩)
      · exact .inl (.inl h)
      · exact .inr ⟨h, hx, hall⟩
      · exact .inl (.inr ⟨.inr rfl, hall⟩)
    rintro ((h | ⟨⟨h, -⟩ | rfl, hall⟩) | ⟨h, hx, hall⟩)
    · exact .inl h
    · cases h
    · exact .inr ⟨.inr rfl, hall⟩
    · exact .inr ⟨.inl ⟨h, hx⟩, hall⟩

theorem mem_replaceAll_of_pairwise (hsep : xs.Pairwise fun x y => clash y x = false) (h : r ∈ xs) :
    r ∈ replaceAll clash xs rows := by
  induction xs generalizing rows with
  | nil => cases h
  | cons x xs ih =>
    obtain ⟨hx, hsep⟩ := pairwise_cons.mp hsep
    rw [replaceAll_cons]
    rcases mem_cons.mp h with rfl | h
    · exact mem_replaceAll.mpr (.inr ⟨mem_replaceRow.mpr (.inr rfl), hx⟩)
    · exact ih hsep h

theorem mem_of_mem_replaceAll_nil (h : r ∈ replaceAll clash xs []) : r ∈ xs := by
  induction xs with
  | nil => cases h
  | cons x xs ih =>
    rw [replaceAll_cons, mem_replaceAll] at h
    rcases h with h | ⟨h, -⟩
    · exact .tail _ (ih h)
    rcases mem_replaceRow.mp h with ⟨h, -⟩ | rfl
    · cases h
    · exact .head _

end VoltageEMS.Lib
