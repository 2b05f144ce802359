import VoltageEMS.Lib.BitTable
import VoltageEMS.Lib.Run

/-!
# The slot allocator

`core/bitmap.rs` (crate `voltage-rtdb-shm`): contiguous slots are handed out by first fit from a hint
and given back.
-/

namespace VoltageEMS.Shm

open Lib List

/-- `SlotAllocation`. -/
structure SlotAllocation where
  baseSlot : Nat
  count : Nat
deriving DecidableEq, Repr

namespace SlotAllocation

/-- The slot is in the range. -/
def Holds (a : SlotAllocation) (s : Nat) : Prop := a.baseSlot ≤ s ∧ s < a.baseSlot + a.count

instance (a : SlotAllocation) (s : Nat) : Decidable (a.Holds s) :=
  inferInstanceAs (Decidable (_ ∧ _))

/-- No slot is in both. -/
def Disjoint (a b : SlotAllocation) : Prop := ∀ s, a.Holds s → ¬ b.Holds s

theorem Disjoint.symm {a b : SlotAllocation} (h : a.Disjoint b) : b.Disjoint a :=
  fun s hb ha => h s ha hb

end SlotAllocation

/-! ## The allocator -/

/-- The bitmap and its header.  The counters and the number of slots are `w` bits wide; the words
are as many as the slots need. -/
structure SlotPool (w : Nat) where
  totalSlots : Nat
  allocatedCount : Nat
  firstFreeHint : Nat
  bitmap : List Nat
  total_lt : totalSlots < 2 ^ w
  allocated_lt : allocatedCount < 2 ^ w
  words : bitmap.length = (totalSlots + 63) / 64
deriving DecidableEq

/-- `SlotBitmap`. -/
abbrev SlotBitmap := SlotPool 64

variable (bm : SlotPool w)

namespace SlotPool

variable {w : Nat}

/-- `SlotBitmap::new`, and the header and words after `init` and `init_all_free`. -/
def new (total : Fin (2 ^ w)) : SlotPool w where
  totalSlots := total
  allocatedCount := 0
  firstFreeHint := 0
  bitmap := replicate ((total + 63) / 64) 0
  total_lt := total.isLt
  allocated_lt := Nat.two_pow_pos w
  words := length_replicate

/-- `total_slots - allocated_count`, in `usize`. -/
def freeCount : Nat :=
  if bm.allocatedCount ≤ bm.totalSlots then bm.totalSlots - bm.allocatedCount
  else 2 ^ 64 + bm.totalSlots - bm.allocatedCount

/-- `is_allocated`. -/
def isAllocated (slot : Nat) : Bool :=
  if bm.totalSlots ≤ slot then false else bitAt bm.bitmap slot

/-- `find_contiguous_free`. -/
def findContiguousFree (startPos count : Nat) : Option Nat :=
  firstFit bm.isAllocated count startPos bm.totalSlots

/-- `mark_allocated`. -/
def markAllocated (bm : SlotPool w) (baseSlot count : Nat) : SlotPool w :=
  { bm with
    bitmap := markRange bm.bitmap baseSlot count
    allocatedCount := (bm.allocatedCount + count) % 2 ^ w
    firstFreeHint :=
      if baseSlot + count < bm.totalSlots then baseSlot + count else bm.firstFreeHint
    allocated_lt := Nat.mod_lt _ (Nat.two_pow_pos w)
    words := (length_markRange _ _ _).trans bm.words }

/-- `alloc_contiguous`. -/
def allocContiguous (bm : SlotPool w) (count : Nat) : SlotPool w × Option SlotAllocation :=
  if count = 0 then (bm, none)
  else if bm.freeCount < count then (bm, none)
  else
    let startPos := min bm.firstFreeHint (bm.totalSlots - count)
    match bm.findContiguousFree startPos count with
    | some base => (bm.markAllocated base count, some ⟨base, count⟩)
    | none =>
      -- wrap around
      if 0 < startPos then
        match bm.findContiguousFree 0 count with
        | some base => (bm.markAllocated base count, some ⟨base, count⟩)
        | none => (bm, none)
      else (bm, none)

/-- The slots are given back. -/
def clearAllocated (bm : SlotPool w) (baseSlot count : Nat) : SlotPool w :=
  { bm with
    bitmap := clearRange bm.bitmap baseSlot count
    allocatedCount := (bm.allocatedCount + 2 ^ w - count % 2 ^ w) % 2 ^ w
    firstFreeHint := if baseSlot < bm.firstFreeHint then baseSlot else bm.firstFreeHint
    allocated_lt := Nat.mod_lt _ (Nat.two_pow_pos w)
    words := (length_clearRange _ _ _).trans bm.words }

@[simp] theorem totalSlots_clearAllocated (bm : SlotPool w) (baseSlot count : Nat) :
    (bm.clearAllocated baseSlot count).totalSlots = bm.totalSlots := rfl

@[simp] theorem allocatedCount_clearAllocated (bm : SlotPool w) (baseSlot count : Nat) :
    (bm.clearAllocated baseSlot count).allocatedCount =
      (bm.allocatedCount + 2 ^ w - count % 2 ^ w) % 2 ^ w := rfl

@[simp] theorem bitmap_clearAllocated (bm : SlotPool w) (baseSlot count : Nat) :
    (bm.clearAllocated baseSlot count).bitmap = clearRange bm.bitmap baseSlot count := rfl

/-- The words hold the range. -/
def Covers (a : SlotAllocation) : Prop :=
  a.count = 0 ∨ a.baseSlot + a.count ≤ 64 * bm.bitmap.length

instance (bm : SlotPool w) (a : SlotAllocation) : Decidable (bm.Covers a) :=
  inferInstanceAs (Decidable (_ ∨ _))

/-- The loop of `free` indexes the words of its slots; an index outside of them panics (`none`). -/
def free (bm : SlotPool w) (baseSlot count : Nat) : Option (SlotPool w) :=
  if bm.Covers ⟨baseSlot, count⟩ then some (bm.clearAllocated baseSlot count) else none

theorem allocContiguous_cases (bm : SlotPool w) (count : Nat) :
    (∃ base, 0 < count ∧ count ≤ bm.freeCount ∧ base + count ≤ bm.totalSlots ∧
      FreeRun bm.isAllocated base count ∧
      bm.allocContiguous count = (bm.markAllocated base count, some ⟨base, count⟩)) ∨
    ((count = 0 ∨ bm.freeCount < count ∨
        ∀ base, base + count ≤ bm.totalSlots → ¬ FreeRun bm.isAllocated base count) ∧
      bm.allocContiguous count = (bm, none)) := by
  unfold allocContiguous
  by_cases hzero : count = 0
  · exact .inr ⟨.inl hzero, if_pos hzero⟩
  by_cases hroom : bm.freeCount < count
  · exact .inr ⟨.inr (.inl hroom), by rw [if_neg hzero, if_pos hroom]⟩
  have hpos : 0 < count := Nat.pos_of_ne_zero hzero
  -- both passes end in the same two ways
  have hfound : ∀ start base, bm.findContiguousFree start count = some base →
      base + count ≤ bm.totalSlots ∧ FreeRun bm.isAllocated base count := fun start base h =>
    (firstFit_some hpos h).2
  have hnone : bm.findContiguousFree 0 count = none →
      ∀ base, base + count ≤ bm.totalSlots → ¬ FreeRun bm.isAllocated base count := by
    intro h base hend hrun
    have hsome : (bm.findContiguousFree 0 count).isSome = true :=
      (isSome_firstFit hpos).mpr ⟨base, Nat.zero_le _, hend, hrun⟩
    rw [h] at hsome
    cases hsome
  rw [if_neg hzero, if_neg hroom]
  simp only
  generalize min bm.firstFreeHint (bm.totalSlots - count) = start
  cases h₁ : bm.findContiguousFree start count with
  | some base =>
    obtain ⟨hend, hrun⟩ := hfound start base h₁
    exact .inl ⟨base, hpos, Nat.not_lt.mp hroom, hend, hrun, rfl⟩
  | none =>
    by_cases hstart : 0 < start
    · cases h₂ : bm.findContiguousFree 0 count with
      | some base =>
        obtain ⟨hend, hrun⟩ := hfound 0 base h₂
        exact .inl ⟨base, hpos, Nat.not_lt.mp hroom, hend, hrun, if_pos hstart⟩
      | none => exact .inr ⟨.inr (.inr (hnone h₂)), if_pos hstart⟩
    rw [Nat.eq_zero_of_not_pos hstart] at h₁
    exact .inr ⟨.inr (.inr (hnone h₁)), if_neg hstart⟩

theorem allocContiguous_at_hint {bm : SlotPool w} {count : Nat} (hpos : 0 < count)
    (hroom : count ≤ bm.freeCount) (hend : bm.firstFreeHint + count ≤ bm.totalSlots)
    (hrun : FreeRun bm.isAllocated bm.firstFreeHint count) :
    bm.allocContiguous count =
      (bm.markAllocated bm.firstFreeHint count, some ⟨bm.firstFreeHint, count⟩) := by
  have hstart : min bm.firstFreeHint (bm.totalSlots - count) = bm.firstFreeHint := by omega
  have hfind : bm.findContiguousFree bm.firstFreeHint count = some bm.firstFreeHint :=
    firstFit_of_free hpos hend hrun
  rw [allocContiguous, if_neg hpos.ne', if_neg (Nat.not_lt.mpr hroom), hstart]
  simp only [hfind]

/-- The slots with a set bit. -/
def setSlots : Finset Nat := setBits bm.bitmap (64 * bm.bitmap.length)

theorem total_le : bm.totalSlots ≤ 64 * bm.bitmap.length := by
  rw [bm.words]
  omega

end SlotPool

/-! ## Live allocations -/

/-- The live allocations are disjoint ranges below the number of slots, they are what the words say
and the counter is their number. -/
structure Allocated {w : Nat} (bm : SlotPool w) (live : List SlotAllocation) : Prop where
  inside : ∀ a ∈ live, 0 < a.count ∧ a.baseSlot + a.count ≤ bm.totalSlots
  disjoint : live.Pairwise SlotAllocation.Disjoint
  bits : ∀ s, bitAt bm.bitmap s = true ↔ ∃ a ∈ live, a.Holds s
  counted : bm.allocatedCount = bm.setSlots.card

namespace Allocated

variable {w : Nat} {bm : SlotPool w} {live : List SlotAllocation}

theorem new (total : Fin (2 ^ w)) : Allocated (SlotPool.new total) [] where
  inside := by simp
  disjoint := .nil
  bits s := by simp [SlotPool.new, bitAt_replicate]
  counted := by
    have hnone : (SlotPool.new total).setSlots = ∅ := by
      ext s
      simp [SlotPool.setSlots, mem_setBits, SlotPool.new, bitAt_replicate]
    rw [hnone]
    rfl

variable (h : Allocated bm live)
include h

theorem lt_total {s : Nat} (hs : bitAt bm.bitmap s = true) : s < bm.totalSlots := by
  obtain ⟨a, ha, hold⟩ := (h.bits s).mp hs
  exact lt_of_lt_of_le hold.2 (h.inside a ha).2

theorem isAllocated_eq (s : Nat) : bm.isAllocated s = bitAt bm.bitmap s := by
  unfold SlotPool.isAllocated
  split
  · rename_i hs
    cases hbit : bitAt bm.bitmap s with
    | false => rfl
    | true => exact absurd (h.lt_total hbit) (Nat.not_lt.mpr hs)
  · rfl

variable {a : SlotAllocation} {base count : Nat}

theorem card_marked (hend : base + count ≤ bm.totalSlots)
    (hrun : FreeRun bm.isAllocated base count) :
    (setBits (markRange bm.bitmap base count) (64 * bm.bitmap.length)).card =
      bm.setSlots.card + count := by
  apply card_setBits_markRange _ _ _ le_rfl (hend.trans bm.total_le)
  intro s hlow hhigh
  rw [← h.isAllocated_eq]
  exact hrun s hlow hhigh

theorem perm {live' : List SlotAllocation} (hperm : live.Perm live') : Allocated bm live' where
  inside a ha := h.inside a (hperm.mem_iff.mpr ha)
  disjoint := hperm.pairwise h.disjoint SlotAllocation.Disjoint.symm
  bits s := by simp only [h.bits s, hperm.mem_iff]
  counted := h.counted

theorem card_add_le (hend : base + count ≤ bm.totalSlots)
    (hrun : FreeRun bm.isAllocated base count) : bm.setSlots.card + count ≤ bm.totalSlots := by
  have hsub : setBits (markRange bm.bitmap base count) (64 * bm.bitmap.length) ⊆
      Finset.range bm.totalSlots := by
    intro s hs
    rw [mem_setBits, bitAt_markRange (hend.trans bm.total_le), Bool.or_eq_true,
      decide_eq_true_eq] at hs
    rcases hs.2 with hbit | hin
    · exact Finset.mem_range.mpr (h.lt_total hbit)
    · exact Finset.mem_range.mpr (by omega)
  calc bm.setSlots.card + count
      = (setBits (markRange bm.bitmap base count) (64 * bm.bitmap.length)).card :=
        (h.card_marked hend hrun).symm
    _ ≤ (Finset.range bm.totalSlots).card := Finset.card_le_card hsub
    _ = bm.totalSlots := Finset.card_range _

theorem allocatedCount_le : bm.allocatedCount ≤ bm.totalSlots := by
  have hempty : FreeRun bm.isAllocated 0 0 := fun s _ hs => absurd hs (Nat.not_lt_zero s)
  rw [h.counted]
  exact h.card_add_le (Nat.zero_le _) hempty

theorem freeCount_eq : bm.freeCount = bm.totalSlots - bm.allocatedCount :=
  if_pos h.allocatedCount_le

theorem mark (hcount : 0 < count) (hend : base + count ≤ bm.totalSlots)
    (hrun : FreeRun bm.isAllocated base count) :
    Allocated (bm.markAllocated base count) (⟨base, count⟩ :: live) where
  inside := by
    intro a ha
    rcases mem_cons.mp ha with rfl | ha
    · exact ⟨hcount, hend⟩
    · exact h.inside a ha
  disjoint := by
    refine pairwise_cons.mpr ⟨fun a ha s hnew hold => ?_, h.disjoint⟩
    have hfree := hrun s hnew.1 hnew.2
    rw [h.isAllocated_eq, (h.bits s).mpr ⟨a, ha, hold⟩] at hfree
    cases hfree
  bits s := by
    change bitAt (markRange bm.bitmap base count) s = true ↔ _
    rw [bitAt_markRange (hend.trans bm.total_le), Bool.or_eq_true, h.bits, decide_eq_true_eq,
      exists_mem_cons_iff, or_comm]
    rfl
  counted := by
    have hroom := h.card_add_le hend hrun
    have hlen : (bm.markAllocated base count).bitmap.length = bm.bitmap.length :=
      length_markRange _ _ _
    rw [SlotPool.setSlots, hlen]
    calc (bm.allocatedCount + count) % 2 ^ w
        = bm.allocatedCount + count :=
          Nat.mod_eq_of_lt (lt_of_le_of_lt (h.counted ▸ hroom) bm.total_lt)
      _ = bm.setSlots.card + count := by rw [h.counted]
      _ = _ := (h.card_marked hend hrun).symm

theorem covers (ha : a ∈ live) : bm.Covers a :=
  .inr ((h.inside a ha).2.trans bm.total_le)

theorem free_eq (ha : a ∈ live) :
    bm.free a.baseSlot a.count = some (bm.clearAllocated a.baseSlot a.count) :=
  if_pos (h.covers ha)

theorem clear (ha : a ∈ live) :
    Allocated (bm.clearAllocated a.baseSlot a.count) (live.erase a) where
  inside b hb := h.inside b (mem_of_mem_erase hb)
  disjoint := h.disjoint.sublist erase_sublist
  bits s := by
    change bitAt (clearRange bm.bitmap a.baseSlot a.count) s = true ↔ _
    rw [bitAt_clearRange, Bool.and_eq_true, h.bits, Bool.not_eq_true', decide_eq_false_iff_not]
    constructor
    · rintro ⟨⟨b, hb, hold⟩, hout⟩
      have hne : b ≠ a := fun heq => hout (heq ▸ hold)
      exact ⟨b, (mem_erase_of_ne hne).mpr hb, hold⟩
    rintro ⟨b, hb, hold⟩
    refine ⟨⟨b, mem_of_mem_erase hb, hold⟩, fun hin => ?_⟩
    -- `a` is no longer live, or it would share a slot with itself
    have hdisjoint : (a :: live.erase a).Pairwise SlotAllocation.Disjoint :=
      (perm_cons_erase ha).pairwise h.disjoint SlotAllocation.Disjoint.symm
    exact (pairwise_cons.mp hdisjoint).1 b hb s hin hold
  counted := by
    have hlen : (bm.clearAllocated a.baseSlot a.count).bitmap.length = bm.bitmap.length :=
      length_clearRange _ _ _
    have hend := (h.inside a ha).2
    have hclear := card_setBits_clearRange bm.bitmap _ _ (hend.trans bm.total_le)
      fun s hlow hhigh => (h.bits s).mpr ⟨a, ha, hlow, hhigh⟩
    have hcount := h.counted
    rw [SlotPool.setSlots] at hcount ⊢
    rw [hlen]
    change (bm.allocatedCount + 2 ^ w - a.count % 2 ^ w) % 2 ^ w = _
    have htotal := bm.total_lt
    have hle := h.allocatedCount_le
    rw [Nat.mod_eq_of_lt (show a.count < 2 ^ w by omega),
      show bm.allocatedCount + 2 ^ w - a.count = bm.allocatedCount - a.count + 2 ^ w by omega,
      Nat.add_mod_right, Nat.mod_eq_of_lt (by omega)]
    exact (Nat.sub_eq_of_eq_add (hcount.trans hclear.symm))

end Allocated

/-! ## Runs -/

/-- The allocator and the allocations it returned that are not yet freed. -/
structure SlotSession (w : Nat) where
  pool : SlotPool w
  live : List SlotAllocation

/-- The calls. -/
inductive SlotCall where
  | alloc (count : Nat)
  | free (a : SlotAllocation)
deriving DecidableEq, Repr

namespace SlotSession

variable {w : Nat}

/-- Nothing is allocated. -/
def new (total : Fin (2 ^ w)) : SlotSession w := ⟨.new total, []⟩

/-- One call. -/
def perform (s : SlotSession w) : SlotCall → SlotSession w
  | .alloc count =>
    match s.pool.allocContiguous count with
    | (pool, some a) => ⟨pool, a :: s.live⟩
    | (pool, none) => ⟨pool, s.live⟩
  | .free a =>
    match s.pool.free a.baseSlot a.count with
    | some pool => ⟨pool, s.live.erase a⟩
    | none => s

/-- Sequences of calls. -/
def machine (w : Nat) : Machine (SlotSession w) SlotCall Empty where
  step s c := (s.perform c, [])

/-- Only what is live is freed. -/
def Frees (s : SlotSession w) : SlotCall → Prop
  | .alloc _ => True
  | .free a => a ∈ s.live

instance (s : SlotSession w) : (c : SlotCall) → Decidable (s.Frees c)
  | .alloc _ => inferInstanceAs (Decidable True)
  | .free a => inferInstanceAs (Decidable (a ∈ s.live))

/-- The calls free only allocations that were returned earlier and not yet freed. -/
def Proper (total : Fin (2 ^ w)) (calls : List SlotCall) : Prop :=
  (machine w).Along Frees (new total) calls

instance (total : Fin (2 ^ w)) (calls : List SlotCall) : Decidable (Proper total calls) :=
  inferInstanceAs (Decidable ((machine w).Along Frees (new total) calls))

theorem allocated_perform {s : SlotSession w} {c : SlotCall} (h : Allocated s.pool s.live)
    (hc : s.Frees c) : Allocated (s.perform c).pool (s.perform c).live := by
  cases c with
  | alloc count =>
    rcases s.pool.allocContiguous_cases count with
      ⟨base, hpos, -, hend, hrun, heq⟩ | ⟨-, heq⟩
    · simp only [perform, heq]
      exact h.mark hpos hend hrun
    simp only [perform, heq]
    exact h
  | free a =>
    simp only [perform, h.free_eq hc]
    exact h.clear hc

theorem allocated_run {total : Fin (2 ^ w)} {calls : List SlotCall} (h : Proper total calls) :
    Allocated ((machine w).run (new total) calls).pool ((machine w).run (new total) calls).live :=
  (machine w).invariant (fun s (_ : List Empty) => Allocated s.pool s.live) (l := [])
    (fun _ _ _ hs hc => allocated_perform hs hc) (Allocated.new total) h

theorem totalSlots_run (total : Fin (2 ^ w)) (calls : List SlotCall) :
    ((machine w).run (new total) calls).pool.totalSlots = total := by
  have hstep : ∀ (s : SlotSession w) c, (s.perform c).pool.totalSlots = s.pool.totalSlots := by
    intro s c
    cases c with
    | alloc count =>
      rcases s.pool.allocContiguous_cases count with ⟨base, -, -, -, -, heq⟩ | ⟨-, heq⟩
      · simp only [perform, heq, SlotPool.markAllocated]
      · simp only [perform, heq]
    | free a =>
      simp only [perform, SlotPool.free]
      split_ifs <;> rfl
  exact (machine w).invariant (fun s (_ : List Empty) => s.pool.totalSlots = total) (l := [])
    (fun s _ c hs _ => (hstep s c).trans hs) rfl
    ((machine w).along_true _ calls)

/-- **What is allocated.**  After every run of allocations and of frees of what was allocated, the
live allocations are disjoint ranges of slots, the set bits are their union and the counter is the
number of set bits. -/
theorem live_allocations (total : Fin (2 ^ w)) (calls : List SlotCall) (h : Proper total calls) :
    let s := (machine w).run (new total) calls
    s.live.Pairwise SlotAllocation.Disjoint ∧
      (∀ a ∈ s.live, 0 < a.count ∧ a.baseSlot + a.count ≤ total) ∧
      (∀ i, bitAt s.pool.bitmap i = true ↔ ∃ a ∈ s.live, a.Holds i) ∧
      s.pool.allocatedCount = s.pool.setSlots.card := by
  have hall := allocated_run h
  have hinside := hall.inside
  rw [totalSlots_run] at hinside
  exact ⟨hall.disjoint, hinside, hall.bits, hall.counted⟩

/-- Two allocations that cross words, the first freed again. -/
theorem live_allocations_across_words :
    let calls := [.alloc 60, .alloc 10, .free ⟨0, 60⟩, .alloc 70]
    Proper (w := 32) 200 calls ∧
      ((machine 32).run (new 200) calls).live = [⟨70, 70⟩, ⟨60, 10⟩] ∧
      ((machine 32).run (new 200) calls).pool.allocatedCount =
        ((machine 32).run (new 200) calls).pool.setSlots.card := by
  have hproper : Proper (w := 32) 200 [.alloc 60, .alloc 10, .free ⟨0, 60⟩, .alloc 70] := by
    decide +kernel
  exact ⟨hproper, by decide +kernel, (live_allocations 200 _ hproper).2.2.2⟩

end SlotSession

/-! ## First fit is complete -/

namespace SlotPool

variable {w : Nat}

theorem isSome_allocContiguous (count : Nat) :
    (bm.allocContiguous count).2.isSome = true ↔ 0 < count ∧ count ≤ bm.freeCount ∧
      ∃ base, base + count ≤ bm.totalSlots ∧ FreeRun bm.isAllocated base count := by
  rcases bm.allocContiguous_cases count with ⟨base, hpos, hroom, hend, hrun, heq⟩ | ⟨hwhy, heq⟩
  · rw [heq]
    exact iff_of_true rfl ⟨hpos, hroom, base, hend, hrun⟩
  rw [heq]
  refine iff_of_false (by simp) ?_
  rintro ⟨hpos, hroom, base, hend, hrun⟩
  rcases hwhy with hzero | hfull | hnone
  · omega
  · omega
  · exact hnone base hend hrun

end SlotPool

/-- **First fit finds every run.**  In every state the allocator reaches, an allocation of `count`
slots succeeds exactly when `count` free slots stand in a row, wherever the hint stands. -/
theorem SlotSession.isSome_alloc_iff_run {w : Nat} (total : Fin (2 ^ w)) (calls : List SlotCall)
    (h : SlotSession.Proper total calls) (count : Nat) (hcount : 0 < count) (hint : Nat) :
    let bm := ((SlotSession.machine w).run (.new total) calls).pool
    ({ bm with firstFreeHint := hint }.allocContiguous count).2.isSome = true ↔
      ∃ base, base + count ≤ total ∧
        ∀ s, base ≤ s → s < base + count → bm.isAllocated s = false := by
  have hall := SlotSession.allocated_run h
  have htotal := SlotSession.totalSlots_run total calls
  intro bm
  -- the hint is read by neither the counter check nor the bits
  have hiff := SlotPool.isSome_allocContiguous { bm with firstFreeHint := hint } count
  rw [hiff]
  constructor
  · rintro ⟨-, -, base, hend, hrun⟩
    exact ⟨base, htotal ▸ hend, hrun⟩
  rintro ⟨base, hend, hrun⟩
  have hend' : base + count ≤ bm.totalSlots := htotal.symm ▸ hend
  have hroom : count ≤ bm.freeCount := by
    have hcard := hall.card_add_le hend' hrun
    rw [hall.freeCount_eq, hall.counted]
    omega
  exact ⟨hcount, hroom, base, hend', hrun⟩

/-- The hint stands behind the only run of three free slots. -/
theorem SlotSession.isSome_alloc_iff_run_behind_hint :
    let calls := [.alloc 3, .alloc 5, .free ⟨0, 3⟩]
    let bm := ((SlotSession.machine 64).run (.new 10) calls).pool
    SlotSession.Proper (w := 64) 10 calls ∧
      ({ bm with firstFreeHint := 8 }.allocContiguous 3).2.isSome = true := by
  have hproper : SlotSession.Proper (w := 64) 10 [.alloc 3, .alloc 5, .free ⟨0, 3⟩] := by
    decide +kernel
  refine ⟨hproper, (SlotSession.isSome_alloc_iff_run 10 _ hproper 3 (by decide) 8).mpr ?_⟩
  refine ⟨0, by decide, fun s _ hs => ?_⟩
  have hslots : ∀ s < 0 + 3, (((SlotSession.machine 64).run (.new 10)
      [.alloc 3, .alloc 5, .free ⟨0, 3⟩]).pool.isAllocated s) = false := by decide +kernel
  exact hslots s hs

end VoltageEMS.Shm
