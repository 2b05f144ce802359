import Mathlib.Data.Nat.Bitwise

/-!
# Draining a 64-bit word

* `drainBits` — the loop that lists the set bits of a word by taking the trailing zeros and
  clearing the lowest set bit with `bits & (bits - 1)`.
* `mem_drainBits` — **main lemma**: it lists exactly the set bits, from the lowest up
  (`drainBits_pairwise`).
-/

namespace VoltageEMS.Lib

open List

/-- `u64::trailing_zeros`: the lowest set bit, 64 for zero. -/
def trailingZeros (bits : Nat) : Nat := ((List.range 64).find? fun i => bits.testBit i).getD 64

/-- List and clear the lowest set bit while there is one. -/
def drainBits : (fuel bits : Nat) → List Nat
  | 0, _ => []
  | fuel + 1, bits =>
    if bits = 0 then [] else trailingZeros bits :: drainBits fuel (bits &&& (bits - 1))

theorem testBit_and_pred {k : Nat} : ∀ {x : Nat}, (∀ j < k, x.testBit j = false) →
    x.testBit k = true → ∀ i, (x &&& (x - 1)).testBit i = (x.testBit i && i != k) := by
  induction k with
  | zero =>
    intro x _ hk i
    have hodd : x % 2 = 1 := by simpa [Nat.testBit_zero] using hk
    rw [Nat.testBit_and]
    cases i with
    | zero =>
      have : (x - 1) % 2 = 0 := by omega
      simp [Nat.testBit_zero, this]
    | succ i =>
      have hdiv : (x - 1) / 2 = x / 2 := by omega
      simp [Nat.testBit_succ, hdiv]
  | succ k ih =>
    intro x hlow hk i
    have heven : x % 2 = 0 := by simpa [Nat.testBit_zero] using hlow 0 (Nat.succ_pos k)
    have hdiv : (x - 1) / 2 = x / 2 - 1 := by omega
    have hhalf := ih (x := x / 2)
      (fun j hj => by simpa [Nat.testBit_succ] using hlow (j + 1) (Nat.succ_lt_succ hj))
      (by simpa [Nat.testBit_succ] using hk)
    rw [Nat.testBit_and]
    cases i with
    | zero => simp [Nat.testBit_zero, heven]
    | succ i =>
      have := hhalf i
      rw [Nat.testBit_and] at this
      simp only [Nat.testBit_succ, hdiv, this]
      simp

variable {fuel bits i : Nat}

theorem trailingZeros_spec (hpos : bits ≠ 0) (hlt : bits < 2 ^ 64) :
    trailingZeros bits < 64 ∧ bits.testBit (trailingZeros bits) = true ∧
      ∀ j < trailingZeros bits, bits.testBit j = false := by
  obtain ⟨i, hi⟩ := Nat.exists_testBit_of_ne_zero hpos
  have hi64 : i < 64 := by
    by_contra h
    rw [Nat.testBit_lt_two_pow (hlt.trans_le (Nat.pow_le_pow_right (by decide) (by omega)))] at hi
    cases hi
  unfold trailingZeros
  cases hf : (List.range 64).find? fun i => bits.testBit i with
  | none =>
    rw [find?_eq_none] at hf
    exact absurd hi (hf i (mem_range.mpr hi64))
  | some k =>
    obtain ⟨hk, -⟩ := find?_eq_some_iff_getElem.mp hf
    refine ⟨mem_range.mp (List.mem_of_find?_eq_some hf), hk, fun j hj => ?_⟩
    obtain ⟨-, m, hm, hmk, hbefore⟩ := find?_eq_some_iff_getElem.mp hf
    simp only [getElem_range] at hmk hbefore
    have hjm : j < m := by
      rw [Option.getD_some] at hj
      omega
    simpa using hbefore j hjm

theorem mem_drainBits (hlt : bits < 2 ^ 64) (hlow : ∀ j, j + fuel < 64 → bits.testBit j = false) :
    i ∈ drainBits fuel bits ↔ bits.testBit i = true := by
  induction fuel generalizing bits with
  | zero =>
    have hzero : bits = 0 := by
      by_contra hne
      obtain ⟨h1, h2, -⟩ := trailingZeros_spec hne hlt
      rw [hlow _ (by omega)] at h2
      cases h2
    simp [drainBits, hzero]
  | succ fuel ih =>
    unfold drainBits
    split
    · rename_i hzero
      simp [hzero]
    rename_i hne
    obtain ⟨h64, hbit, hfirst⟩ := trailingZeros_spec hne hlt
    have hclear := testBit_and_pred hfirst hbit
    have hle : bits &&& (bits - 1) < 2 ^ 64 := Nat.and_le_left.trans_lt hlt
    rw [mem_cons, ih hle ?_, hclear]
    · by_cases hi : i = trailingZeros bits
      · simp [hi, hbit]
      · simp [hi]
    intro j hj
    rw [hclear]
    by_cases hjt : j = trailingZeros bits
    · simp [hjt]
    -- the cleared bit was at or above the old limit, so every bit below the new one is unset
    have hlimit : 64 ≤ trailingZeros bits + (fuel + 1) := by
      by_contra h
      rw [hlow _ (by omega)] at hbit
      cases hbit
    simp [hfirst j (by omega)]

theorem testBit_of_mem_drainBits (hlt : bits < 2 ^ 64) (h : i ∈ drainBits fuel bits) :
    bits.testBit i = true := by
  induction fuel generalizing bits with
  | zero => cases h
  | succ fuel ih =>
    rw [drainBits] at h
    split at h
    · cases h
    rename_i hne
    obtain ⟨-, hbit, hfirst⟩ := trailingZeros_spec hne hlt
    rcases mem_cons.mp h with rfl | h
    · exact hbit
    have hrest := ih (Nat.and_le_left.trans_lt hlt) h
    rw [testBit_and_pred hfirst hbit, Bool.and_eq_true] at hrest
    exact hrest.1

theorem drainBits_pairwise (hlt : bits < 2 ^ 64) : (drainBits fuel bits).Pairwise (· < ·) := by
  induction fuel generalizing bits with
  | zero => exact .nil
  | succ fuel ih =>
    rw [drainBits]
    split
    · exact .nil
    rename_i hne
    obtain ⟨-, hbit, hfirst⟩ := trailingZeros_spec hne hlt
    have hle : bits &&& (bits - 1) < 2 ^ 64 := Nat.and_le_left.trans_lt hlt
    refine pairwise_cons.mpr ⟨fun i hi => ?_, ih hle⟩
    have hset := testBit_of_mem_drainBits hle hi
    rw [testBit_and_pred hfirst hbit, Bool.and_eq_true, bne_iff_ne] at hset
    rcases Nat.lt_or_ge i (trailingZeros bits) with hlow | hge
    · rw [hfirst i hlow] at hset
      cases hset.1
    · omega

theorem testBit_mark {words : List Nat} {i : Nat} (hi : i / 64 < words.length) (s : Nat) :
    ((words.modify (i / 64) fun w => w ||| 2 ^ (i % 64)).getD (s / 64) 0).testBit (s % 64) =
      ((words.getD (s / 64) 0).testBit (s % 64) || decide (s = i)) := by
  by_cases hword : s / 64 = i / 64
  · have hsame : (s = i) = (i % 64 = s % 64) := propext (by omega)
    simp [getD_eq_getElem?_getD, hword, List.getElem?_eq_getElem hi, Nat.testBit_or,
      Nat.testBit_two_pow, hsame]
  have hne : s ≠ i := fun h => hword (by rw [h])
  simp [getD_eq_getElem?_getD, Ne.symm hword, hne]

end VoltageEMS.Lib
