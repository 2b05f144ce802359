import Mathlib.Data.List.Nodup
import Mathlib.Data.List.Count
import Mathlib.Data.List.Range
import Mathlib.Data.List.Perm.Basic

/-!
# The table that reverses an association list

A list of pairs of keys and positions is written into a table of a given size, position by position;
later pairs overwrite earlier ones and pairs beyond the table are ignored.

* `reverseTable_get_iff` — with distinct positions, the table holds exactly the pairs in range.
* `mem_of_reverseTable` — with any positions, it holds no others.
* `countP_reverseTable` — and as many keys as there are such pairs.
-/

namespace VoltageEMS.Lib

open List Option

variable {κ : Type}

/-- Write one pair into the table. -/
def placeKey (size : Nat) (table : List (Option κ)) (e : κ × Nat) : List (Option κ) :=
  if e.2 < size then table.set e.2 (some e.1) else table

/-- Write all pairs into an empty table. -/
def reverseTable (entries : List (κ × Nat)) (size : Nat) : List (Option κ) :=
  entries.foldl (placeKey size) (replicate size none)

@[simp] theorem length_placeKey (size : Nat) (table : List (Option κ)) (e : κ × Nat) :
    (placeKey size table e).length = table.length := by
  unfold placeKey
  split
  · exact length_set
  · rfl

theorem length_foldl_placeKey (size : Nat) : ∀ (entries : List (κ × Nat)) (table : List (Option κ)),
    (entries.foldl (placeKey size) table).length = table.length
  | [], _ => rfl
  | e :: es, table => by rw [foldl_cons, length_foldl_placeKey size es, length_placeKey]

theorem length_reverseTable (entries : List (κ × Nat)) (size : Nat) :
    (reverseTable entries size).length = size := by
  rw [reverseTable, length_foldl_placeKey, length_replicate]

variable {table : List (Option κ)} {size : Nat} {i : Nat}

theorem getElem?_placeKey_of_ne {e : κ × Nat} (h : e.2 ≠ i) :
    (placeKey size table e)[i]? = table[i]? := by
  unfold placeKey
  split
  · exact List.getElem?_set_ne h
  · rfl

theorem placeKey_self (hlen : table.length = size) (e : κ × Nat) :
    (placeKey size table e)[e.2]?.join = if e.2 < size then some e.1 else none := by
  unfold placeKey
  by_cases he : e.2 < size
  · rw [if_pos he, if_pos he, List.getElem?_set_self (hlen ▸ he), join_some]
  · rw [if_neg he, if_neg he, List.getElem?_eq_none (by omega), join_none]

theorem getElem?_foldl_placeKey : ∀ {entries : List (κ × Nat)}
    {table : List (Option κ)}, i ∉ entries.map Prod.snd →
    (entries.foldl (placeKey size) table)[i]? = table[i]?
  | [], _, _ => rfl
  | e :: es, table, h => by
    rw [map_cons, mem_cons, not_or] at h
    rw [foldl_cons, getElem?_foldl_placeKey h.2, getElem?_placeKey_of_ne (Ne.symm h.1)]

variable {entries : List (κ × Nat)}

/-- **The table holds exactly the pairs in range.** -/
theorem reverseTable_get_iff (h : (entries.map Prod.snd).Nodup) {k : κ} :
    (reverseTable entries size)[i]?.join = some k ↔ (k, i) ∈ entries ∧ i < size := by
  by_cases hmem : i ∈ entries.map Prod.snd
  · obtain ⟨⟨k', i⟩, he, rfl⟩ := List.mem_map.mp hmem
    obtain ⟨before, after, rfl⟩ := append_of_mem he
    have hafter : i ∉ after.map Prod.snd := by
      rw [map_append, map_cons] at h
      exact (nodup_cons.mp h.of_append_right).1
    have hkey : (k, i) ∈ before ++ (k', i) :: after ↔ k' = k := by
      constructor
      · intro hk
        exact (Prod.mk.inj (inj_on_of_nodup_map h he hk rfl)).1
      rintro rfl
      exact he
    have hself := placeKey_self (length_reverseTable before size) (k', i)
    dsimp only [reverseTable] at hself
    rw [reverseTable, foldl_append, foldl_cons, getElem?_foldl_placeKey hafter, hkey, hself]
    simp [and_comm]
  rw [reverseTable, getElem?_foldl_placeKey hmem, List.getElem?_replicate]
  have hnot : (k, i) ∉ entries := fun he => hmem (List.mem_map.mpr ⟨_, he, rfl⟩)
  by_cases hi : i < size <;> simp [hi, hnot]

theorem reverseTable_concat (entries : List (κ × Nat)) (e : κ × Nat) (size : Nat) :
    reverseTable (entries ++ [e]) size = placeKey size (reverseTable entries size) e := by
  rw [reverseTable, foldl_append]
  rfl

theorem mem_of_reverseTable {k : κ} (h : (reverseTable entries size)[i]?.join = some k) :
    (k, i) ∈ entries := by
  induction entries using reverseRecOn with
  | nil =>
    rw [reverseTable, foldl_nil, List.getElem?_replicate] at h
    split at h <;> cases h
  | append_singleton es e ih =>
    rw [reverseTable_concat] at h
    by_cases he : e.2 = i
    · subst he
      rw [placeKey_self (length_reverseTable es size)] at h
      obtain ⟨-, hkey⟩ := ite_none_right_eq_some.mp h
      cases hkey
      exact mem_append_right _ (mem_singleton_self e)
    rw [getElem?_placeKey_of_ne he] at h
    exact mem_append_left _ (ih h)

/-- **It has as many keys** as there are pairs in range. -/
theorem countP_reverseTable (size : Nat) (entries : List (κ × Nat))
    (h : (entries.map Prod.snd).Nodup) :
    (reverseTable entries size).countP isSome = entries.countP fun e => e.2 < size := by
  induction entries using reverseRecOn with
  | nil => simp [reverseTable]
  | append_singleton es e ih =>
    rw [map_append, map_singleton, nodup_append'] at h
    obtain ⟨hes, -, hnew⟩ := h
    have hfree : e.2 ∉ es.map Prod.snd := fun he => hnew he (mem_singleton.mpr rfl)
    rw [reverseTable_concat, countP_append, countP_singleton, ← ih hes, placeKey]
    by_cases he : e.2 < size
    · have hlt : e.2 < (reverseTable es size).length := by rwa [length_reverseTable]
      -- the position was free before
      have hnone : (reverseTable es size)[e.2] = none := by
        have hget : (reverseTable es size)[e.2]? = _ := getElem?_foldl_placeKey hfree
        rw [List.getElem?_eq_getElem hlt, List.getElem?_replicate_of_lt he] at hget
        exact some.inj hget
      rw [if_pos he, countP_set hlt, hnone]
      simp [he]
    · simp [he]

end VoltageEMS.Lib
