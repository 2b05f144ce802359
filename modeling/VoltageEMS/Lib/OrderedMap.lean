import Mathlib

/-!
# Maps in key order

An association list in the order of its keys, as iterating over a `BTreeMap` gives it.

* `of_mem_upsert`, `mem_keys_upsert` — what it does to the map; `ascending_upsert` — it keeps the
  order.
-/

namespace VoltageEMS.Lib

open List

section OrderedMap

variable {κ β : Type} [LinearOrder κ]

/-- Update the value of `k`, from `init` if it has none. -/
def upsert (k : κ) (init : β) (f : β → β) : List (κ × β) → List (κ × β)
  | [] => [(k, f init)]
  | e :: m =>
    if k < e.1 then (k, f init) :: e :: m
    else if k = e.1 then (k, f e.2) :: m
    else e :: upsert k init f m

/-- The keys ascend. -/
def Ascending (m : List (κ × β)) : Prop := (m.map Prod.fst).Pairwise (· < ·)

variable {m : List (κ × β)} {f : β → β}

theorem mem_keys_upsert {k k' : κ} {init : β} :
    k' ∈ (upsert k init f m).map Prod.fst ↔ k' = k ∨ k' ∈ m.map Prod.fst := by
  induction m with
  | nil => simp [upsert]
  | cons e m ih =>
    rw [upsert]
    split_ifs with hlt heq
    · simp
    · simp [heq]
    · rw [map_cons, mem_cons, ih, map_cons, mem_cons, or_left_comm]

theorem ascending_upsert {k : κ} {init : β} (h : Ascending m) : Ascending (upsert k init f m) := by
  unfold Ascending at h ⊢
  induction m with
  | nil => simp [upsert]
  | cons e m ih =>
    obtain ⟨hhead, hrest⟩ := pairwise_cons.mp h
    rw [upsert]
    split_ifs with hlt heq
    · refine pairwise_cons.mpr ⟨fun k' hk' => ?_, h⟩
      rcases mem_cons.mp hk' with rfl | hk'
      · exact hlt
      · exact hlt.trans (hhead k' hk')
    · exact pairwise_cons.mpr ⟨heq ▸ hhead, hrest⟩
    refine pairwise_cons.mpr ⟨fun k' hk' => ?_, ih hrest⟩
    rcases mem_keys_upsert.mp hk' with rfl | hk'
    · exact lt_of_le_of_ne (not_lt.mp hlt) (Ne.symm heq)
    · exact hhead k' hk'

theorem of_mem_upsert {k x : κ} {init v : β} (h : Ascending m) (hmem : (x, v) ∈ upsert k init f m) :
    (x ≠ k ∧ (x, v) ∈ m) ∨ (x = k ∧ ∃ v₀, (k, v₀) ∈ m ∧ v = f v₀) ∨
      (x = k ∧ k ∉ m.map Prod.fst ∧ v = f init) := by
  unfold Ascending at h
  induction m with
  | nil =>
    rw [upsert, mem_singleton, Prod.mk.injEq] at hmem
    exact .inr (.inr ⟨hmem.1, by simp, hmem.2⟩)
  | cons e m ih =>
    obtain ⟨hhead, hrest⟩ := pairwise_cons.mp h
    have hlater : ∀ {y w}, (y, w) ∈ m → e.1 < y := fun hy =>
      hhead _ (mem_map_of_mem hy)
    rw [upsert] at hmem
    split_ifs at hmem with hlt heq
    · rcases mem_cons.mp hmem with hnew | hold
      · obtain ⟨rfl, rfl⟩ := Prod.mk.inj hnew
        refine .inr (.inr ⟨rfl, fun hin => ?_, rfl⟩)
        rcases mem_cons.mp hin with hin | hin
        · exact absurd hin hlt.ne
        · exact absurd (hhead _ hin) hlt.not_gt
      refine .inl ⟨?_, hold⟩
      rcases mem_cons.mp hold with rfl | hold
      · exact hlt.ne'
      · exact (hlt.trans (hlater hold)).ne'
    · rcases mem_cons.mp hmem with hnew | hold
      · obtain ⟨rfl, rfl⟩ := Prod.mk.inj hnew
        exact .inr (.inl ⟨rfl, e.2, by rw [heq]; exact mem_cons_self .., rfl⟩)
      · exact .inl ⟨heq ▸ (hlater hold).ne', mem_cons_of_mem _ hold⟩
    rcases mem_cons.mp hmem with rfl | hmem
    · exact .inl ⟨Ne.symm heq, mem_cons_self ..⟩
    rcases ih hrest hmem with ⟨hne, hold⟩ | ⟨hx, v₀, hold, hv⟩ | ⟨hx, hnew, hv⟩
    · exact .inl ⟨hne, mem_cons_of_mem _ hold⟩
    · exact .inr (.inl ⟨hx, v₀, mem_cons_of_mem _ hold, hv⟩)
    refine .inr (.inr ⟨hx, ?_, hv⟩)
    rw [map_cons, mem_cons, not_or]
    exact ⟨heq, hnew⟩

end OrderedMap

end VoltageEMS.Lib
