import VoltageEMS.Lib.Hashes
import VoltageEMS.Lib.OrderedMap
import VoltageEMS.Model.Point
import VoltageEMS.Shm.SlotBitmap

/-!
# The dynamic channel index

`channel_index.rs` (crate `voltage-rtdb-shm`): every channel has a range of slots of a `SlotBitmap`,
and its points are numbered through it by type and id.
-/

namespace VoltageEMS.Shm

open Lib List Option AList

/-! ## Layouts -/

/-- `[u32; 4]`, indexed by the type of the points. -/
abbrev TypeCounts := PointType → Nat

namespace TypeCounts

/-- The types in order. -/
def types : List PointType := [.telemetry, .signal, .control, .adjustment]

variable (counts : TypeCounts)

/-- The number of points. -/
def total : Nat := (types.map counts).sum

/-- `type_counts.iter().sum::<u32>()`. -/
def sum : Nat := counts.total % 2 ^ 32

/-- `type_counts[..type_idx].iter().sum::<u32>()`. -/
def offset (t : PointType) : Nat :=
  ((types.take t.toU8).map counts).sum % 2 ^ 32

end TypeCounts

/-- `DynamicChannelLayout`. -/
structure DynamicChannelLayout where
  baseSlot : Nat
  typeCounts : TypeCounts
  totalPoints : Nat
  allocation : SlotAllocation

namespace DynamicChannelLayout

/-- `new`. -/
def new (allocation : SlotAllocation) (typeCounts : TypeCounts) : DynamicChannelLayout :=
  ⟨allocation.baseSlot, typeCounts, typeCounts.sum, allocation⟩

/-- `slot`. -/
def slot (layout : DynamicChannelLayout) (pointType : PointType) (pointId : Nat) : Option Nat :=
  if pointId = 0 ∨ layout.typeCounts pointType < pointId then none
  else some ((layout.baseSlot + layout.typeCounts.offset pointType + (pointId - 1)) % 2 ^ 64)

/-- The layout fills its allocation. -/
structure Fills (layout : DynamicChannelLayout) : Prop where
  base : layout.baseSlot = layout.allocation.baseSlot
  count : layout.allocation.count = layout.typeCounts.total
  total_lt : layout.typeCounts.total < 2 ^ 32
  end_lt : layout.allocation.baseSlot + layout.allocation.count < 2 ^ 64

/-- The place in the range. -/
def position (layout : DynamicChannelLayout) (t : PointType) (pointId : Nat) : Nat :=
  ((TypeCounts.types.take t.toU8).map layout.typeCounts).sum + (pointId - 1)

variable {layout : DynamicChannelLayout} {t : PointType}

theorem position_lt {pointId : Nat} (hpos : 0 < pointId) (hle : pointId ≤ layout.typeCounts t) :
    layout.position t pointId < layout.typeCounts.total := by
  cases t <;>
    simp only [position, TypeCounts.total, TypeCounts.types, PointType.toU8, List.take,
      map_cons, map_nil, sum_cons, sum_nil] <;> omega

theorem position_injective {t' : PointType} {pointId pointId' : Nat} (hpos : 0 < pointId)
    (hle : pointId ≤ layout.typeCounts t) (hpos' : 0 < pointId')
    (hle' : pointId' ≤ layout.typeCounts t')
    (h : layout.position t pointId = layout.position t' pointId') :
    t = t' ∧ pointId = pointId' := by
  cases t <;> cases t' <;>
    simp only [position, TypeCounts.types, PointType.toU8, List.take,
      map_cons, map_nil, sum_cons, sum_nil] at h <;>
    first
      | exact ⟨rfl, by omega⟩
      | exact absurd h (by omega)

theorem Fills.slot_eq_some_iff (h : layout.Fills) {pointId s : Nat} :
    layout.slot t pointId = some s ↔
      0 < pointId ∧ pointId ≤ layout.typeCounts t ∧
        s = layout.allocation.baseSlot + layout.position t pointId := by
  unfold slot
  by_cases hout : pointId = 0 ∨ layout.typeCounts t < pointId
  · rw [if_pos hout]
    simp only [reduceCtorEq, false_iff]
    omega
  rw [if_neg hout]
  have hpos : 0 < pointId := by omega
  have hle : pointId ≤ layout.typeCounts t := by omega
  have hlt := position_lt hpos hle
  have hcount := h.count
  have htotal := h.total_lt
  have hend := h.end_lt
  have hoffset : layout.typeCounts.offset t + (pointId - 1) = layout.position t pointId := by
    rw [TypeCounts.offset, position, Nat.mod_eq_of_lt]
    unfold position at hlt
    omega
  rw [h.base, Nat.add_assoc, hoffset, Nat.mod_eq_of_lt (by omega), some.injEq]
  constructor
  · rintro rfl
    exact ⟨hpos, hle, rfl⟩
  rintro ⟨-, -, rfl⟩
  rfl

end DynamicChannelLayout

/-! ## Operations -/

/-- A `ChannelIndex` and the bitmap its slots come from. -/
structure Channels where
  index : Hash Nat DynamicChannelLayout
  bitmap : SlotBitmap

namespace Channels

variable (c : Channels)

/-- `slot`, by channel. -/
def slot (p : ChannelPoint) : Option Nat :=
  (c.index.lookup p.channelId).bind fun layout => layout.slot p.pointType p.pointId

/-- Slots for a new channel. -/
def allocate (channelId : Nat) (typeCounts : TypeCounts) :
    Channels × Option DynamicChannelLayout :=
  match c.bitmap.allocContiguous typeCounts.sum with
  | (bitmap, some a) =>
    (⟨c.index.insert channelId (.new a typeCounts), bitmap⟩, some (.new a typeCounts))
  | (bitmap, none) => (⟨c.index, bitmap⟩, none)

/-- `add_channel`. -/
def addChannel (channelId : Nat) (typeCounts : TypeCounts) :
    Channels × Except String DynamicChannelLayout :=
  if typeCounts.sum = 0 then (c, .error "Cannot add channel with zero points")
  else if channelId ∈ c.index then (c, .error s!"Channel {channelId} already exists")
  else
    match c.allocate channelId typeCounts with
    | (c, some layout) => (c, .ok layout)
    | (c, none) =>
      (c, .error s!"Failed to allocate {typeCounts.sum} slots for channel {channelId}")

/-- `remove_channel`. -/
def removeChannel (channelId : Nat) :
    Option (Channels × Except String DynamicChannelLayout) :=
  match c.index.lookup channelId with
  | none => some (c, .error s!"Channel {channelId} not found")
  | some layout =>
    match c.bitmap.free layout.allocation.baseSlot layout.allocation.count with
    | some bitmap => some (⟨c.index.erase channelId, bitmap⟩, .ok layout)
    | none => none

/-- `update_channel`. -/
def updateChannel (channelId : Nat) (newTypeCounts : TypeCounts) :
    Option (Channels × Except String DynamicChannelLayout) :=
  if channelId ∈ c.index then
    match c.removeChannel channelId with
    | none => none
    | some (c, .error e) => some (c, .error e)
    | some (c, .ok _) => some (c.addChannel channelId newTypeCounts)
  else some (c.addChannel channelId newTypeCounts)

/-- A channel with its range. -/
def withChannel (channelId : Nat) (typeCounts : TypeCounts) (base : Nat) : Channels :=
  ⟨c.index.insert channelId (.new ⟨base, typeCounts.sum⟩ typeCounts),
    c.bitmap.markAllocated base typeCounts.sum⟩

/-- The channel is gone. -/
def withoutChannel (channelId : Nat) (a : SlotAllocation) : Channels :=
  ⟨c.index.erase channelId, c.bitmap.clearAllocated a.baseSlot a.count⟩

theorem allocate_cases (channelId : Nat) (typeCounts : TypeCounts) :
    (∃ base, 0 < typeCounts.sum ∧ base + typeCounts.sum ≤ c.bitmap.totalSlots ∧
      FreeRun c.bitmap.isAllocated base typeCounts.sum ∧
      (c.bitmap.allocContiguous typeCounts.sum).2 = some ⟨base, typeCounts.sum⟩ ∧
      c.allocate channelId typeCounts = (c.withChannel channelId typeCounts base,
        some (.new ⟨base, typeCounts.sum⟩ typeCounts))) ∨
    ((c.bitmap.allocContiguous typeCounts.sum).2 = none ∧
      c.allocate channelId typeCounts = (c, none)) := by
  rcases c.bitmap.allocContiguous_cases typeCounts.sum with
    ⟨base, hpos, -, hend, hrun, heq⟩ | ⟨-, heq⟩
  · refine .inl ⟨base, hpos, hend, hrun, by rw [heq], ?_⟩
    rw [allocate, heq]
    rfl
  refine .inr ⟨by rw [heq], ?_⟩
  rw [allocate, heq]

theorem addChannel_cases (channelId : Nat) (typeCounts : TypeCounts) :
    (∃ base, channelId ∉ c.index ∧ 0 < typeCounts.sum ∧
      base + typeCounts.sum ≤ c.bitmap.totalSlots ∧
      FreeRun c.bitmap.isAllocated base typeCounts.sum ∧
      (c.bitmap.allocContiguous typeCounts.sum).2 = some ⟨base, typeCounts.sum⟩ ∧
      c.addChannel channelId typeCounts = (c.withChannel channelId typeCounts base,
        .ok (.new ⟨base, typeCounts.sum⟩ typeCounts))) ∨
    ((typeCounts.sum = 0 ∨ channelId ∈ c.index ∨
        (c.bitmap.allocContiguous typeCounts.sum).2 = none) ∧
      ∃ e, c.addChannel channelId typeCounts = (c, .error e)) := by
  unfold addChannel
  by_cases hzero : typeCounts.sum = 0
  · exact .inr ⟨.inl hzero, _, if_pos hzero⟩
  by_cases hin : channelId ∈ c.index
  · exact .inr ⟨.inr (.inl hin), _, by rw [if_neg hzero, if_pos hin]⟩
  rw [if_neg hzero, if_neg hin]
  rcases c.allocate_cases channelId typeCounts with
    ⟨base, hpos, hend, hrun, hsome, heq⟩ | ⟨hnone, heq⟩
  · rw [heq]
    exact .inl ⟨base, hin, hpos, hend, hrun, hsome, rfl⟩
  rw [heq]
  exact .inr ⟨.inr (.inr hnone), _, rfl⟩

variable {channelId : Nat} {layout : DynamicChannelLayout} {c : Channels}

theorem removeChannel_present (h : c.index.lookup channelId = some layout) :
    c.removeChannel channelId =
      if c.bitmap.Covers layout.allocation then
        some (c.withoutChannel channelId layout.allocation, .ok layout)
      else none := by
  rw [removeChannel, h]
  simp only [SlotPool.free]
  split_ifs <;> rfl

theorem updateChannel_absent (h : c.index.lookup channelId = none) (newTypeCounts : TypeCounts) :
    c.updateChannel channelId newTypeCounts = some (c.addChannel channelId newTypeCounts) :=
  if_neg (lookup_eq_none.mp h)

theorem updateChannel_present (h : c.index.lookup channelId = some layout)
    (newTypeCounts : TypeCounts) :
    c.updateChannel channelId newTypeCounts =
      if c.bitmap.Covers layout.allocation then
        some ((c.withoutChannel channelId layout.allocation).addChannel channelId newTypeCounts)
      else none := by
  have hin : channelId ∈ c.index := lookup_isSome.mp (by rw [h]; rfl)
  rw [updateChannel, if_pos hin, removeChannel_present h]
  split_ifs <;> rfl

theorem notMem_withoutChannel (channelId : Nat) (a : SlotAllocation) :
    channelId ∉ (c.withoutChannel channelId a).index := by
  simp [withoutChannel, mem_erase]

end Channels

/-! ## The index and its bitmap -/

/-- The ranges of the channels are the live allocations, and every layout fills its range. -/
structure Indexed (c : Channels) : Prop where
  allocated : Allocated c.bitmap (c.index.entries.map fun e => e.2.allocation)
  fills : ∀ {channelId layout}, c.index.lookup channelId = some layout → layout.Fills

namespace Indexed

variable {c : Channels}

theorem empty (total : Fin (2 ^ 64)) : Indexed ⟨∅, .new total⟩ where
  allocated := Allocated.new total
  fills h := by simp at h

theorem mem_ranges {channelId : Nat} {layout : DynamicChannelLayout}
    (h : c.index.lookup channelId = some layout) :
    layout.allocation ∈ c.index.entries.map fun e => e.2.allocation :=
  List.mem_map.mpr ⟨⟨channelId, layout⟩, mem_lookup_iff.mp h, rfl⟩

variable {typeCounts : TypeCounts} (h : Indexed c)
include h

variable {channelId : Nat} {layout : DynamicChannelLayout}

theorem withChannel {base : Nat} (hnew : channelId ∉ c.index) (hpos : 0 < typeCounts.sum)
    (hend : base + typeCounts.sum ≤ c.bitmap.totalSlots)
    (hrun : FreeRun c.bitmap.isAllocated base typeCounts.sum) (hsum : typeCounts.total < 2 ^ 32) :
    Indexed (c.withChannel channelId typeCounts base) where
  allocated := by
    rw [Channels.withChannel, entries_insert_of_notMem hnew, map_cons]
    exact h.allocated.mark hpos hend hrun
  fills := by
    intro k layout hlook
    rw [Channels.withChannel, Hash.lookup_insert_eq] at hlook
    split at hlook
    · cases hlook
      have hexact : typeCounts.sum = typeCounts.total := Nat.mod_eq_of_lt hsum
      exact ⟨rfl, hexact, hsum, lt_of_le_of_lt hend c.bitmap.total_lt⟩
    · exact h.fills hlook

theorem withoutChannel (hlook : c.index.lookup channelId = some layout) :
    Indexed (c.withoutChannel channelId layout.allocation) where
  allocated := by
    have hperm := (Hash.entries_perm_erase hlook).map fun e => e.2.allocation
    refine (h.allocated.clear (mem_ranges hlook)).perm ?_
    exact (hperm.erase layout.allocation).trans (by rw [map_cons, erase_cons_head]; rfl)
  fills := by
    intro k layout' hlook'
    by_cases hk : k = channelId
    · rw [Channels.withoutChannel, hk, lookup_erase] at hlook'
      cases hlook'
    rw [Channels.withoutChannel, lookup_erase_ne hk] at hlook'
    exact h.fills hlook'

theorem addChannel (hsum : typeCounts.total < 2 ^ 32) :
    Indexed (c.addChannel channelId typeCounts).1 := by
  rcases c.addChannel_cases channelId typeCounts with
    ⟨base, hnew, hpos, hend, hrun, -, heq⟩ | ⟨-, e, heq⟩
  · rw [heq]
    exact h.withChannel hnew hpos hend hrun hsum
  rw [heq]
  exact h

theorem covers (hlook : c.index.lookup channelId = some layout) :
    c.bitmap.Covers layout.allocation :=
  h.allocated.covers (mem_ranges hlook)

theorem removeChannel (channelId : Nat) :
    ∃ out, c.removeChannel channelId = some out ∧ Indexed out.1 := by
  cases hlook : c.index.lookup channelId with
  | none => exact ⟨_, by rw [Channels.removeChannel, hlook], h⟩
  | some layout =>
    exact ⟨_, (Channels.removeChannel_present hlook).trans (if_pos (h.covers hlook)),
      h.withoutChannel hlook⟩

theorem updateChannel (channelId : Nat) (hsum : typeCounts.total < 2 ^ 32) :
    ∃ out, c.updateChannel channelId typeCounts = some out ∧ Indexed out.1 := by
  cases hlook : c.index.lookup channelId with
  | none => exact ⟨_, Channels.updateChannel_absent hlook _, h.addChannel hsum⟩
  | some layout =>
    exact ⟨_, (Channels.updateChannel_present hlook _).trans (if_pos (h.covers hlook)),
      (h.withoutChannel hlook).addChannel hsum⟩

theorem disjoint {channelId' : Nat} {layout layout' : DynamicChannelLayout}
    (hlook : c.index.lookup channelId = some layout)
    (hlook' : c.index.lookup channelId' = some layout') (hne : channelId ≠ channelId') :
    layout.allocation.Disjoint layout'.allocation := by
  have hperm := (Hash.entries_perm_erase hlook).map fun e => e.2.allocation
  have hpairs := hperm.pairwise h.allocated.disjoint SlotAllocation.Disjoint.symm
  have hother : (c.index.erase channelId).lookup channelId' = some layout' := by
    rw [lookup_erase_ne hne.symm, hlook']
  exact (pairwise_cons.mp hpairs).1 _
    (List.mem_map.mpr ⟨⟨channelId', layout'⟩, mem_lookup_iff.mp hother, rfl⟩)

theorem bits (s : Nat) : bitAt c.bitmap.bitmap s = true ↔
    ∃ channelId layout, c.index.lookup channelId = some layout ∧ layout.allocation.Holds s := by
  rw [h.allocated.bits]
  constructor
  · rintro ⟨a, ha, hold⟩
    obtain ⟨⟨channelId, layout⟩, hmem, rfl⟩ := List.mem_map.mp ha
    exact ⟨channelId, layout, mem_lookup_iff.mpr hmem, hold⟩
  rintro ⟨channelId, layout, hlook, hold⟩
  exact ⟨layout.allocation, mem_ranges hlook, hold⟩

theorem slot_injective {p q : ChannelPoint} {s : Nat} (hp : c.slot p = some s)
    (hq : c.slot q = some s) : p = q := by
  obtain ⟨layout, hlook, hslot⟩ := bind_eq_some_iff.mp hp
  obtain ⟨layout', hlook', hslot'⟩ := bind_eq_some_iff.mp hq
  have hfills := h.fills hlook
  obtain ⟨hpos, hle, rfl⟩ := hfills.slot_eq_some_iff.mp hslot
  obtain ⟨hpos', hle', hsame⟩ := (h.fills hlook').slot_eq_some_iff.mp hslot'
  have hlt := DynamicChannelLayout.position_lt hpos hle
  have hlt' := DynamicChannelLayout.position_lt hpos' hle'
  rw [← hfills.count] at hlt
  rw [← (h.fills hlook').count] at hlt'
  -- the slot lies in the ranges of both channels
  have hchannel : p.channelId = q.channelId := by
    by_contra hne
    exact h.disjoint hlook hlook' hne _ ⟨Nat.le_add_right _ _, Nat.add_lt_add_left hlt _⟩
      ⟨by omega, by omega⟩
  rw [hchannel, hlook'] at hlook
  cases hlook
  obtain ⟨htype, hid⟩ := DynamicChannelLayout.position_injective hpos hle hpos' hle' (by omega)
  cases p
  cases q
  cases hchannel
  cases htype
  cases hid
  rfl

end Indexed

/-! ## Failed updates -/

namespace SlotPool

/-- Once `old` is free there are `n` free slots in a row. -/
def Replaceable (bm : SlotBitmap) (old : SlotAllocation) (n : Nat) : Prop :=
  0 < n ∧ n ≤ (bm.freeCount + old.count) % 2 ^ 64 ∧
    ∃ base, base + n ≤ bm.totalSlots ∧
      ∀ s, base ≤ s → s < base + n → bm.isAllocated s = true → old.Holds s

theorem freeCount_clearAllocated (bm : SlotBitmap) (baseSlot count : Nat) :
    (bm.clearAllocated baseSlot count).freeCount = (bm.freeCount + count) % 2 ^ 64 := by
  have htotal := bm.total_lt
  have hallocated := bm.allocated_lt
  rw [freeCount, freeCount, allocatedCount_clearAllocated, totalSlots_clearAllocated]
  by_cases hle : bm.allocatedCount ≤ bm.totalSlots
  · rw [if_pos hle]
    split_ifs <;> omega
  rw [if_neg hle]
  split_ifs <;> omega

theorem isAllocated_clearAllocated {w : Nat} (bm : SlotPool w) (old : SlotAllocation) (s : Nat) :
    (bm.clearAllocated old.baseSlot old.count).isAllocated s =
      (bm.isAllocated s && !decide (old.Holds s)) := by
  rw [isAllocated, isAllocated, totalSlots_clearAllocated, bitmap_clearAllocated, bitAt_clearRange]
  split_ifs <;> rfl

theorem isSome_alloc_clearAllocated (bm : SlotBitmap) (old : SlotAllocation) (n : Nat) :
    ((bm.clearAllocated old.baseSlot old.count).allocContiguous n).2.isSome = true ↔
      bm.Replaceable old n := by
  have hrun : ∀ base, FreeRun (bm.clearAllocated old.baseSlot old.count).isAllocated base n ↔
      ∀ s, base ≤ s → s < base + n → bm.isAllocated s = true → old.Holds s := by
    intro base
    refine forall₃_congr fun s _ _ => ?_
    rw [isAllocated_clearAllocated, Bool.and_eq_false_imp]
    simp
  rw [isSome_allocContiguous, freeCount_clearAllocated, totalSlots_clearAllocated]
  unfold Replaceable
  refine and_congr_right fun _ => and_congr_right fun _ => exists_congr fun base => ?_
  rw [hrun]

end SlotPool

/-- **When a failed update changes nothing.**  The channel is taken out before its new slots are
asked for, so a failed update leaves it unchanged exactly when it cannot fail: when the new points
fit once the old slots are free. -/
theorem Channels.updateChannel_error_unchanged_iff (c : Channels) (channelId : Nat)
    (newTypeCounts : TypeCounts) :
    (∀ c' e, c.updateChannel channelId newTypeCounts = some (c', .error e) → c' = c) ↔
      ∀ layout, c.index.lookup channelId = some layout → c.bitmap.Covers layout.allocation →
        c.bitmap.Replaceable layout.allocation newTypeCounts.sum := by
  cases hlook : c.index.lookup channelId with
  | none =>
    rw [updateChannel_absent hlook]
    refine iff_of_true (fun c' e herr => ?_) fun layout h => by cases h
    rcases c.addChannel_cases channelId newTypeCounts with ⟨_, _, _, _, _, _, heq⟩ | ⟨-, e', heq⟩
    · rw [heq] at herr
      cases herr
    rw [heq] at herr
    cases herr
    rfl
  | some layout =>
    rw [updateChannel_present hlook]
    simp only [some.injEq, forall_eq']
    by_cases hcovers : c.bitmap.Covers layout.allocation
    · rw [if_pos hcovers]
      simp only [hcovers, true_imp_iff, ← SlotPool.isSome_alloc_clearAllocated]
      have hgone := c.notMem_withoutChannel channelId layout.allocation
      rcases (c.withoutChannel channelId layout.allocation).addChannel_cases channelId newTypeCounts
        with ⟨base, -, -, -, -, hsome, heq⟩ | ⟨hwhy, e, heq⟩
      · refine iff_of_true (fun c' e herr => ?_) (isSome_iff_exists.mpr ⟨_, hsome⟩)
        rw [heq] at herr
        cases herr
      refine iff_of_false (fun hsame => hgone ?_) fun hsome => ?_
      · rw [hsame _ e (congrArg some heq)]
        exact lookup_isSome.mp (by rw [hlook]; rfl)
      rcases hwhy with hzero | hin | hnone
      · exact absurd hzero (SlotPool.isSome_allocContiguous _ _ |>.mp hsome).1.ne'
      · exact hgone hin
      rw [withoutChannel] at hnone
      rw [hnone] at hsome
      cases hsome
    rw [if_neg hcovers]
    exact iff_of_true (fun c' e herr => by cases herr) fun h => absurd h hcovers

private def fiveOfTen : Channels :=
  (Channels.addChannel ⟨∅, .new ⟨10, by decide⟩⟩ 1 fun | .telemetry => 5 | _ => 0).1

/-- Twenty points do not fit, and the channel is gone. -/
theorem updateChannel_error_loses_channel :
    ∃ c', fiveOfTen.updateChannel 1 (fun | .telemetry => 20 | _ => 0) =
        some (c', .error "Failed to allocate 20 slots for channel 1") ∧
      fiveOfTen.slot ⟨1, .telemetry, 1⟩ = some 0 ∧ c'.slot ⟨1, .telemetry, 1⟩ = none := by
  refine ⟨⟨∅, fiveOfTen.bitmap.clearAllocated 0 5⟩, ?_, by decide +kernel, by decide +kernel⟩
  rfl

end VoltageEMS.Shm
