import Mathlib.Data.List.Induction
import Mathlib.Data.List.Perm.Basic

/-!
# Grouping by key

`entry(key).or_default().push(x)` over a list: the groups in the order their keys came up, the
members of each in the order of the list.

* `mem_groupByKey` — a group holds exactly the elements with its key, in their order.
* `groupByKey_perm` — the groups together hold the list.
-/

namespace VoltageEMS.Lib

open List

variable {κ β : Type} [DecidableEq κ]

/-- Append to the group of `k`, which is made when there is none. -/
def pushKeyed (k : κ) (x : β) : List (κ × List β) → List (κ × List β)
  | [] => [(k, [x])]
  | g :: gs => if g.1 = k then (k, g.2 ++ [x]) :: gs else g :: pushKeyed k x gs

/-- The elements by key. -/
def groupByKey (key : β → κ) (xs : List β) : List (κ × List β) :=
  xs.foldl (fun gs x => pushKeyed (key x) x gs) []

variable {k' : κ} (key : β → κ) (xs : List β) {ys : List β}

theorem groupByKey_concat (x : β) :
    groupByKey key (xs ++ [x]) = pushKeyed (key x) x (groupByKey key xs) := by
  rw [groupByKey, foldl_append]
  rfl

variable {gs : List (κ × List β)} {k : κ} {x : β}

theorem mem_keys_pushKeyed :
    k' ∈ (pushKeyed k x gs).map Prod.fst ↔ k' = k ∨ k' ∈ gs.map Prod.fst := by
  induction gs with
  | nil => simp [pushKeyed]
  | cons g gs ih =>
    rw [pushKeyed]
    split
    · rename_i hk
      simp [hk]
    rw [map_cons, mem_cons, ih, map_cons, mem_cons]
    tauto

theorem nodup_keys_pushKeyed (h : (gs.map Prod.fst).Nodup) :
    ((pushKeyed k x gs).map Prod.fst).Nodup := by
  induction gs with
  | nil => simp [pushKeyed]
  | cons g gs ih =>
    obtain ⟨hg, hgs⟩ := nodup_cons.mp h
    rw [pushKeyed]
    split
    · rename_i hk
      exact nodup_cons.mpr ⟨hk ▸ hg, hgs⟩
    rename_i hk
    refine nodup_cons.mpr ⟨fun hmem => ?_, ih hgs⟩
    exact (mem_keys_pushKeyed.mp hmem).elim hk hg

theorem mem_group_pushKeyed {y : β} {q : κ × List β} :
    ∀ {gs : List (κ × List β)}, q ∈ pushKeyed k x gs → y ∈ q.2 →
      (∃ g ∈ gs, g.1 = q.1 ∧ y ∈ g.2) ∨ (q.1 = k ∧ y = x)
  | [], hq, hy => by
    cases mem_singleton.mp hq
    exact .inr ⟨rfl, mem_singleton.mp hy⟩
  | g :: gs, hq, hy => by
    rw [pushKeyed] at hq
    split at hq
    · rename_i hk
      rcases mem_cons.mp hq with rfl | hq
      · rcases mem_append.mp hy with hy | hy
        · exact .inl ⟨g, .head _, hk, hy⟩
        · exact .inr ⟨rfl, mem_singleton.mp hy⟩
      · exact .inl ⟨q, .tail _ hq, rfl, hy⟩
    rcases mem_cons.mp hq with rfl | hq
    · exact .inl ⟨q, .head _, rfl, hy⟩
    · exact (mem_group_pushKeyed hq hy).imp_left fun ⟨g', hg', h⟩ => ⟨g', .tail _ hg', h⟩

theorem mem_pushKeyed (hnodup : (gs.map Prod.fst).Nodup) (h : (k', ys) ∈ pushKeyed k x gs) :
    (k' ≠ k ∧ (k', ys) ∈ gs) ∨
      (k' = k ∧ ((∃ zs, (k, zs) ∈ gs ∧ ys = zs ++ [x]) ∨ k ∉ gs.map Prod.fst ∧ ys = [x])) := by
  induction gs with
  | nil =>
    simp only [pushKeyed, mem_singleton, Prod.mk.injEq] at h
    exact .inr ⟨h.1, .inr ⟨not_mem_nil, h.2⟩⟩
  | cons g gs ih =>
    obtain ⟨hg, hgs⟩ := nodup_cons.mp hnodup
    rw [pushKeyed] at h
    split at h
    · rename_i hk
      rcases mem_cons.mp h with heq | htail
      · cases heq
        exact .inr ⟨rfl, .inl ⟨g.2, by simp [← hk], rfl⟩⟩
      refine .inl ⟨fun hkk => hg ?_, .tail _ htail⟩
      rw [hk, ← hkk]
      exact mem_map_of_mem htail
    rename_i hk
    rcases mem_cons.mp h with rfl | h
    · exact .inl ⟨hk, .head _⟩
    rcases ih hgs h with ⟨hne, hmem⟩ | ⟨rfl, ⟨zs, hmem, hys⟩ | ⟨hnot, hys⟩⟩
    · exact .inl ⟨hne, .tail _ hmem⟩
    · exact .inr ⟨rfl, .inl ⟨zs, .tail _ hmem, hys⟩⟩
    refine .inr ⟨rfl, .inr ⟨?_, hys⟩⟩
    rw [map_cons, mem_cons, not_or]
    exact ⟨fun h => hk h.symm, hnot⟩

theorem groupByKey_spec : ((groupByKey key xs).map Prod.fst).Nodup ∧
      (∀ x ∈ xs, key x ∈ (groupByKey key xs).map Prod.fst) ∧
      ∀ k ys, (k, ys) ∈ groupByKey key xs → ys = xs.filter (key · = k) := by
  induction xs using reverseRecOn with
  | nil => exact ⟨.nil, by simp, by simp [groupByKey]⟩
  | append_singleton xs x ih =>
    obtain ⟨hnodup, hkeys, hmem⟩ := ih
    rw [groupByKey_concat]
    refine ⟨nodup_keys_pushKeyed hnodup, ?_, ?_⟩
    · intro y hy
      rw [mem_keys_pushKeyed]
      rcases mem_append.mp hy with hy | hy
      · exact .inr (hkeys y hy)
      · exact .inl (by rw [mem_singleton.mp hy])
    intro k ys hys
    rw [filter_append]
    rcases mem_pushKeyed hnodup hys with ⟨hne, hold⟩ | ⟨rfl, ⟨zs, hold, rfl⟩ | ⟨hnew, rfl⟩⟩
    · simp [hmem k ys hold, Ne.symm hne]
    · simp [hmem _ zs hold]
    have hnone : xs.filter (key · = key x) = [] := by
      rw [filter_eq_nil_iff]
      intro y hy hk
      exact hnew (of_decide_eq_true hk ▸ hkeys y hy)
    simp [hnone]

theorem mem_groupByKey {key : β → κ} {xs ys : List β} (h : (k, ys) ∈ groupByKey key xs) :
    ys = xs.filter (key · = k) := (groupByKey_spec key xs).2.2 k ys h

theorem pushKeyed_flatMap_perm (k : κ) (x : β) (gs : List (κ × List β)) :
    ((pushKeyed k x gs).flatMap Prod.snd).Perm (gs.flatMap Prod.snd ++ [x]) := by
  induction gs with
  | nil => simp [pushKeyed]
  | cons g gs ih =>
    rw [pushKeyed]
    split
    · simp only [flatMap_cons, append_assoc]
      exact List.perm_append_comm.append_left g.2
    simp only [flatMap_cons, append_assoc]
    exact ih.append_left g.2

theorem groupByKey_perm : ((groupByKey key xs).flatMap Prod.snd).Perm xs := by
  induction xs using reverseRecOn with
  | nil => exact .refl _
  | append_singleton xs x ih =>
    rw [groupByKey_concat]
    exact (pushKeyed_flatMap_perm _ _ _).trans (ih.append_right [x])

end VoltageEMS.Lib
