import Mathlib
import VoltageEMS.Lib.Bitmap

/-!
# Ranges of bits in a table of words

A table of 64-bit words is read as a set of bit numbers.

* `markRange`, `clearRange` — the loops that set and clear a range of bits; `card_setBits_markRange`
  and `card_setBits_clearRange` say how the number of set bits changes.
* `firstFit` — the loop that looks for `count` unset bits in a row: it finds a run whenever there is
  one (`isSome_firstFit`, `firstFit_some`).
-/

namespace VoltageEMS.Lib

open List Option

/-! ## Bits -/

/-- Bit `s` of the table. -/
def bitAt (words : List Nat) (s : Nat) : Bool := (words.getD (s / 64) 0).testBit (s % 64)

/-- Set bit `i`. -/
def markBit (words : List Nat) (i : Nat) : List Nat :=
  words.modify (i / 64) fun w => w ||| 2 ^ (i % 64)

/-- Clear bit `i`. -/
def clearBit (words : List Nat) (i : Nat) : List Nat :=
  words.modify (i / 64) fun w => w &&& (2 ^ 64 - 1 - 2 ^ (i % 64))

theorem bitAt_replicate (n s : Nat) : bitAt (replicate n 0) s = false := by
  rw [bitAt, getD_eq_getElem?_getD, List.getElem?_replicate]
  split <;> exact Nat.zero_testBit _

variable {words : List Nat}

theorem bitAt_markBit {i : Nat} (hi : i < 64 * words.length) (s : Nat) :
    bitAt (markBit words i) s = (bitAt words s || decide (s = i)) :=
  testBit_mark (by omega) s

theorem testBit_mask {b j : Nat} (hb : b < 64) (hj : j < 64) :
    (2 ^ 64 - 1 - 2 ^ b).testBit j = !decide (b = j) := by
  have hone : (2 ^ b : Nat) < 2 ^ 64 := Nat.pow_lt_pow_right (by decide) hb
  rw [show 2 ^ 64 - 1 - 2 ^ b = 2 ^ 64 - (2 ^ b + 1) by omega, Nat.testBit_two_pow_sub_succ hone,
    Nat.testBit_two_pow]
  simp [hj]

theorem bitAt_clearBit (words : List Nat) (i s : Nat) :
    bitAt (clearBit words i) s = (bitAt words s && !decide (s = i)) := by
  unfold bitAt clearBit
  by_cases hword : i / 64 = s / 64
  · have hsame : (s = i) = (i % 64 = s % 64) := propext (by omega)
    have hmask := testBit_mask (Nat.mod_lt i (by decide : 0 < 64)) (Nat.mod_lt s (by decide : 0 < 64))
    cases hget : words[s / 64]? with
    | none => simp [getD_eq_getElem?_getD, hword, hget]
    | some w =>
      simp only [getD_eq_getElem?_getD, List.getElem?_modify, hword, hget, if_true,
        Option.map_eq_map, map_some, getD_some, Nat.testBit_and, hmask, hsame]
  have hne : s ≠ i := fun h => hword (by rw [h])
  simp [getD_eq_getElem?_getD, hword, hne]

/-! ## Ranges -/

/-- Set `count` bits from `base` on. -/
def markRange (words : List Nat) (base count : Nat) : List Nat :=
  (range' base count).foldl markBit words

/-- Clear `count` bits from `base` on. -/
def clearRange (words : List Nat) (base count : Nat) : List Nat :=
  (range' base count).foldl clearBit words

theorem length_markRange (words : List Nat) (base count : Nat) :
    (markRange words base count).length = words.length := by
  unfold markRange
  induction count generalizing words base with
  | zero => rfl
  | succ count ih =>
    rw [range'_succ, foldl_cons, ih]
    simp [markBit]

theorem length_clearRange (words : List Nat) (base count : Nat) :
    (clearRange words base count).length = words.length := by
  unfold clearRange
  induction count generalizing words base with
  | zero => rfl
  | succ count ih =>
    rw [range'_succ, foldl_cons, ih]
    simp [clearBit]

theorem bitAt_markRange {base count : Nat} (h : base + count ≤ 64 * words.length) (s : Nat) :
    bitAt (markRange words base count) s =
      (bitAt words s || decide (base ≤ s ∧ s < base + count)) := by
  unfold markRange
  induction count generalizing words base with
  | zero => simp
  | succ count ih =>
    have hlen : (markBit words base).length = words.length := by simp [markBit]
    rw [range'_succ, foldl_cons, ih (by omega), bitAt_markBit (by omega), Bool.or_assoc,
      ← Bool.decide_or]
    congr 2
    exact propext (by omega)

theorem bitAt_clearRange (words : List Nat) (base count s : Nat) :
    bitAt (clearRange words base count) s =
      (bitAt words s && !decide (base ≤ s ∧ s < base + count)) := by
  unfold clearRange
  induction count generalizing words base with
  | zero =>
    have hempty : ¬ (base ≤ s ∧ s < base + 0) := by omega
    simp only [hempty, decide_false, Bool.not_false, Bool.and_true]
    rfl
  | succ count ih =>
    rw [range'_succ, foldl_cons, ih, bitAt_clearBit, Bool.and_assoc, ← Bool.not_or,
      ← Bool.decide_or]
    congr 3
    exact propext (by omega)

/-! ## Counting -/

/-- The set bits below `total`. -/
def setBits (words : List Nat) (total : Nat) : Finset Nat :=
  (Finset.range total).filter fun s => bitAt words s = true

variable {total : Nat}

theorem mem_setBits {s : Nat} : s ∈ setBits words total ↔ s < total ∧ bitAt words s = true := by
  simp [setBits]

theorem card_setBits_markRange (words : List Nat) (base count : Nat)
    (hwords : total ≤ 64 * words.length) (hrange : base + count ≤ total)
    (hfree : ∀ s, base ≤ s → s < base + count → bitAt words s = false) :
    (setBits (markRange words base count) total).card = (setBits words total).card + count := by
  have hunion : setBits (markRange words base count) total =
      setBits words total ∪ Finset.Ico base (base + count) := by
    ext s
    rw [Finset.mem_union, mem_setBits, mem_setBits, Finset.mem_Ico, bitAt_markRange (by omega),
      Bool.or_eq_true, decide_eq_true_eq]
    constructor
    · rintro ⟨hs, hbit | hin⟩
      · exact .inl ⟨hs, hbit⟩
      · exact .inr hin
    rintro (⟨hs, hbit⟩ | hin)
    · exact ⟨hs, .inl hbit⟩
    · exact ⟨by omega, .inr hin⟩
  rw [hunion, Finset.card_union_of_disjoint, Nat.card_Ico, Nat.add_sub_cancel_left]
  rw [Finset.disjoint_left]
  intro s hs hin
  obtain ⟨hlow, hhigh⟩ := Finset.mem_Ico.mp hin
  rw [mem_setBits, hfree s hlow hhigh] at hs
  cases hs.2

theorem card_setBits_clearRange (words : List Nat) (base count : Nat)
    (hrange : base + count ≤ total) (hset : ∀ s, base ≤ s → s < base + count → bitAt words s = true) :
    (setBits (clearRange words base count) total).card + count = (setBits words total).card := by
  have hdiff : setBits (clearRange words base count) total =
      setBits words total \ Finset.Ico base (base + count) := by
    ext s
    rw [Finset.mem_sdiff, mem_setBits, mem_setBits, Finset.mem_Ico, bitAt_clearRange,
      Bool.and_eq_true, Bool.not_eq_true', decide_eq_false_iff_not, and_assoc]
  have hsub : Finset.Ico base (base + count) ⊆ setBits words total := by
    intro s hs
    obtain ⟨hlow, hhigh⟩ := Finset.mem_Ico.mp hs
    exact mem_setBits.mpr ⟨by omega, hset s hlow hhigh⟩
  have hcard := Finset.card_sdiff_add_card_eq_card hsub
  rwa [Nat.card_Ico, Nat.add_sub_cancel_left, ← hdiff] at hcard

/-! ## First fit -/

section FirstFit

variable {used : Nat → Bool} {count : Nat}

/-- `count` unused positions from `base` on. -/
def FreeRun (used : Nat → Bool) (base count : Nat) : Prop :=
  ∀ s, base ≤ s → s < base + count → used s = false

/-- The loop over `n` positions from `slot` on; the last `consecutive` ones, from `blockStart` on,
were unset. -/
def scan (used : Nat → Bool) (count : Nat) :
    (n slot consecutive blockStart : Nat) → Option Nat
  | 0, _, _, _ => none
  | n + 1, slot, consecutive, blockStart =>
    if used slot then scan used count n (slot + 1) 0 (slot + 1)
    else if count ≤ consecutive + 1 then some blockStart
    else scan used count n (slot + 1) (consecutive + 1) blockStart

/-- The first `count` unset bits in a row within `[start, total)`. -/
def firstFit (used : Nat → Bool) (count start total : Nat) : Option Nat :=
  scan used count (total - start) start 0 start

variable {n start slot consecutive blockStart base : Nat}

theorem scan_some (hslot : blockStart + consecutive = slot)
    (hfree : FreeRun used blockStart consecutive) (hshort : consecutive < count)
    (h : scan used count n slot consecutive blockStart = some base) :
    blockStart ≤ base ∧ base + count ≤ slot + n ∧ FreeRun used base count := by
  induction n generalizing slot consecutive blockStart with
  | zero => cases h
  | succ n ih =>
    rw [scan] at h
    split at h
    · obtain ⟨hle, hend, hrun⟩ := ih (Nat.add_zero _) (fun s _ _ => by omega) (by omega) h
      exact ⟨by omega, by omega, hrun⟩
    rename_i hunused
    have hlonger : FreeRun used blockStart (consecutive + 1) := by
      intro s hlow hhigh
      rcases Nat.lt_or_ge s slot with hs | hs
      · exact hfree s hlow (by omega)
      rw [show s = slot by omega]
      exact eq_false_of_ne_true hunused
    split at h
    · cases h
      exact ⟨le_rfl, by omega, fun s hlow hhigh => hlonger s hlow (by omega)⟩
    obtain ⟨hle, hend, hrun⟩ := ih (by omega) hlonger (by omega) h
    exact ⟨hle, by omega, hrun⟩

theorem scan_none (hslot : blockStart + consecutive = slot) (hshort : consecutive < count)
    (h : scan used count n slot consecutive blockStart = none) {base : Nat}
    (hbase : blockStart ≤ base) (hend : base + count ≤ slot + n) : ¬ FreeRun used base count := by
  induction n generalizing slot consecutive blockStart with
  | zero => omega
  | succ n ih =>
    rw [scan] at h
    split at h
    · rename_i hused
      -- a run from before the used position would have to end before it, but nothing that short fits
      rcases Nat.lt_or_ge slot base with hlater | hearlier
      · exact ih (Nat.add_zero _) (by omega) h (by omega) (by omega)
      intro hrun
      rw [hrun slot hearlier (by omega)] at hused
      cases hused
    split at h
    · cases h
    · exact ih (by omega) (by omega) h hbase (by omega)

theorem firstFit_some (hcount : 0 < count) (h : firstFit used count start total = some base) :
    start ≤ base ∧ base + count ≤ total ∧ FreeRun used base count := by
  obtain ⟨hle, hend, hrun⟩ := scan_some (Nat.add_zero _) (fun s _ _ => by omega) hcount h
  exact ⟨hle, by omega, hrun⟩

theorem isSome_firstFit (hcount : 0 < count) : (firstFit used count start total).isSome = true ↔
      ∃ base, start ≤ base ∧ base + count ≤ total ∧ FreeRun used base count := by
  cases h : firstFit used count start total with
  | some base => exact ⟨fun _ => ⟨base, firstFit_some hcount h⟩, fun _ => rfl⟩
  | none =>
    constructor
    · intro hsome
      cases hsome
    rintro ⟨base, hle, hend, hrun⟩
    exact absurd hrun (scan_none (Nat.add_zero _) hcount h hle (by omega))

theorem scan_of_free (hslot : blockStart + consecutive = slot) (hshort : consecutive < count)
    (hend : blockStart + count ≤ slot + n) (hrun : FreeRun used blockStart count) :
    scan used count n slot consecutive blockStart = some blockStart := by
  induction n generalizing slot consecutive with
  | zero => omega
  | succ n ih =>
    rw [scan, hrun slot (by omega) (by omega), if_neg (by decide)]
    split
    · rfl
    · exact ih (by omega) (by omega) (by omega)

theorem firstFit_of_free (hcount : 0 < count) (hend : start + count ≤ total)
    (hrun : FreeRun used start count) : firstFit used count start total = some start :=
  scan_of_free (Nat.add_zero _) hcount (by omega) hrun

end FirstFit

end VoltageEMS.Lib
