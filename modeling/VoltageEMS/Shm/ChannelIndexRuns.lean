import VoltageEMS.Shm.ChannelIndex

/-!
# Building the channel index and changing it

Which points get a slot, and that over every run of additions, removals and updates the channels have
their own ranges.
-/

namespace VoltageEMS.Shm

open Lib List Option AList

/-! ## The points of a routing cache -/

/-- The tables of a `RoutingCache`: beside the C2M routes, those from instance points and those
between channel points. -/
structure RoutingTables extends RoutingCache where
  m2c : List ((Nat × PointType × Nat) × ChannelPoint)
  m2c_nodup : (m2c.map Prod.fst).Nodup
  c2c : List (ChannelPoint × ChannelPoint)
  c2c_nodup : (c2c.map Prod.fst).Nodup

variable (rc : RoutingTables)

/-- The points of the C2M and M2C routes. -/
def RoutingTables.channelPoints : List ChannelPoint :=
  rc.c2m.map Prod.fst ++ rc.m2c.map Prod.snd

/-- `counts[type_idx] = counts[type_idx].max(point_id)`. -/
def TypeCounts.raise (p : ChannelPoint) (counts : TypeCounts) : TypeCounts :=
  Function.update counts p.pointType (max (counts p.pointType) p.pointId)

/-- One point. -/
def collectPoint (channelPoints : List (Nat × TypeCounts)) (p : ChannelPoint) :
    List (Nat × TypeCounts) :=
  upsert p.channelId (fun _ => 0) (TypeCounts.raise p) channelPoints

/-- `collect_channel_points`. -/
def collectChannelPoints : List (Nat × TypeCounts) :=
  rc.channelPoints.foldl collectPoint []

/-- The same as a maximum. -/
def largestIds (points : List ChannelPoint) (channelId : Nat) : TypeCounts := fun t =>
  (points.toFinset.filter fun p => p.channelId = channelId ∧ p.pointType = t).sup
    ChannelPoint.pointId

variable {points : List ChannelPoint}

theorem le_largestIds {p : ChannelPoint} (h : p ∈ points) :
    p.pointId ≤ largestIds points p.channelId p.pointType :=
  Finset.le_sup (f := ChannelPoint.pointId)
    (Finset.mem_filter.mpr ⟨mem_toFinset.mpr h, rfl, rfl⟩)

theorem largestIds_of_absent {channelId : Nat} (h : ∀ p ∈ points, p.channelId ≠ channelId) :
    largestIds points channelId = fun _ => 0 := by
  funext t
  rw [largestIds, Finset.filter_eq_empty_iff.mpr, Finset.sup_empty]
  · rfl
  rintro p hp ⟨hchannel, -⟩
  exact h p (mem_toFinset.mp hp) hchannel

theorem largestIds_concat (points : List ChannelPoint) (p : ChannelPoint) (channelId : Nat) :
    largestIds (points ++ [p]) channelId =
      if channelId = p.channelId then (largestIds points channelId).raise p
      else largestIds points channelId := by
  funext t
  have hsup : largestIds (points ++ [p]) channelId t = max (largestIds points channelId t)
      (if p.channelId = channelId ∧ p.pointType = t then p.pointId else 0) := by
    rw [largestIds, toFinset_append, Finset.filter_union, Finset.sup_union]
    congr 1
    simp only [toFinset_cons, toFinset_nil, insert_empty_eq, Finset.filter_singleton]
    split_ifs
    · exact Finset.sup_singleton
    · rfl
  rw [hsup]
  split_ifs with hboth hchannel hchannel
  · obtain ⟨-, rfl⟩ := hboth
    rw [TypeCounts.raise, Function.update_self]
  · exact absurd hboth.1.symm hchannel
  · have htype : t ≠ p.pointType := fun ht => hboth ⟨hchannel.symm, ht.symm⟩
    rw [TypeCounts.raise, Function.update_of_ne htype, Nat.max_zero]
  · exact Nat.max_zero _

/-- The map after these points. -/
structure Collected (points : List ChannelPoint) (m : List (Nat × TypeCounts)) : Prop where
  ascending : Ascending m
  keys : ∀ channelId, channelId ∈ m.map Prod.fst ↔ ∃ p ∈ points, p.channelId = channelId
  counts : ∀ {channelId counts}, (channelId, counts) ∈ m → counts = largestIds points channelId

theorem Collected.concat {m : List (Nat × TypeCounts)} (h : Collected points m) (p : ChannelPoint) :
    Collected (points ++ [p]) (collectPoint m p) where
  ascending := ascending_upsert h.ascending
  keys channelId := by
    rw [collectPoint, mem_keys_upsert, h.keys]
    simp only [mem_append, mem_singleton, or_and_right, exists_or, exists_eq_left]
    rw [or_comm, eq_comm]
  counts := by
    intro channelId counts hmem
    rw [largestIds_concat]
    rcases of_mem_upsert h.ascending hmem with
      ⟨hne, hold⟩ | ⟨rfl, old, hold, rfl⟩ | ⟨rfl, hnew, rfl⟩
    · rw [if_neg hne, h.counts hold]
    · rw [if_pos rfl, h.counts hold]
    have habsent : ∀ q ∈ points, q.channelId ≠ p.channelId := fun q hq heq =>
      hnew ((h.keys _).mpr ⟨q, hq, heq⟩)
    rw [if_pos rfl, largestIds_of_absent habsent]

theorem collected : Collected rc.channelPoints (collectChannelPoints rc) := by
  unfold collectChannelPoints
  induction rc.channelPoints using reverseRecOn with
  | nil => exact ⟨.nil, by simp, by simp⟩
  | append_singleton points p ih =>
    rw [foldl_append]
    exact ih.concat p

/-! ## Building the index -/

namespace Channels

/-- One channel of the map. -/
def allocateFor (acc : Channels × Nat) (entry : Nat × TypeCounts) : Channels × Nat :=
  if entry.2.sum = 0 then acc
  else
    match acc.1.allocate entry.1 entry.2 with
    | (c, some layout) => (c, acc.2 + layout.allocation.count)
    | (c, none) => (c, acc.2)

/-- `from_routing_cache`. -/
def fromRoutingCache (bitmap : SlotBitmap) : Channels × Nat :=
  (collectChannelPoints rc).foldl allocateFor (⟨∅, bitmap⟩, 0)

theorem allocateFor_cases (acc : Channels × Nat) (entry : Nat × TypeCounts) :
    (∃ base, 0 < entry.2.sum ∧ base + entry.2.sum ≤ acc.1.bitmap.totalSlots ∧
      FreeRun acc.1.bitmap.isAllocated base entry.2.sum ∧
      (acc.1.bitmap.allocContiguous entry.2.sum).2 = some ⟨base, entry.2.sum⟩ ∧
      (allocateFor acc entry).1 = acc.1.withChannel entry.1 entry.2 base) ∨
    ((entry.2.sum = 0 ∨ (acc.1.bitmap.allocContiguous entry.2.sum).2 = none) ∧
      (allocateFor acc entry).1 = acc.1) := by
  unfold allocateFor
  by_cases hzero : entry.2.sum = 0
  · exact .inr ⟨.inl hzero, by rw [if_pos hzero]⟩
  rw [if_neg hzero]
  rcases acc.1.allocate_cases entry.1 entry.2 with ⟨base, hpos, hend, hrun, hsome, heq⟩ | ⟨hnone, heq⟩
  · exact .inl ⟨base, hpos, hend, hrun, hsome, by rw [heq]⟩
  · exact .inr ⟨.inr hnone, by rw [heq]⟩

end Channels

/-- The channels of the rest of the loop are not in the index yet. -/
def Pending (entries : List (Nat × TypeCounts)) (c : Channels) : Prop :=
  (entries.map Prod.fst).Nodup ∧ ∀ entry ∈ entries, entry.1 ∉ c.index

variable {entries : List (Nat × TypeCounts)} {entry : Nat × TypeCounts} {c : Channels}

theorem Pending.head (h : Pending (entry :: entries) c) : entry.1 ∉ c.index :=
  h.2 entry (mem_cons_self ..)

theorem Pending.tail (h : Pending (entry :: entries) c) (base : Nat) :
    Pending entries c ∧ Pending entries (c.withChannel entry.1 entry.2 base) := by
  obtain ⟨hhead, hnodup⟩ := nodup_cons.mp h.1
  refine ⟨⟨hnodup, fun e he => h.2 e (mem_cons_of_mem _ he)⟩, hnodup, fun e he => ?_⟩
  rw [Channels.withChannel, mem_insert, not_or]
  exact ⟨fun heq => hhead (heq ▸ mem_map_of_mem he), h.2 e (mem_cons_of_mem _ he)⟩

theorem Indexed.allocateAll (acc : Channels × Nat) (h : Indexed acc.1)
    (hpending : Pending entries acc.1) (hsums : ∀ entry ∈ entries, entry.2.total < 2 ^ 32) :
    Indexed (entries.foldl Channels.allocateFor acc).1 := by
  induction entries generalizing acc with
  | nil => exact h
  | cons entry entries ih =>
    have hrest : ∀ e ∈ entries, e.2.total < 2 ^ 32 := fun e he =>
      hsums e (mem_cons_of_mem _ he)
    rw [foldl_cons]
    rcases Channels.allocateFor_cases acc entry with ⟨base, hpos, hend, hrun, -, heq⟩ | ⟨-, heq⟩
    · refine ih _ ?_ ?_ hrest
      · rw [heq]
        exact h.withChannel hpending.head hpos hend hrun (hsums entry (mem_cons_self ..))
      rw [heq]
      exact (hpending.tail base).2
    refine ih _ ?_ ?_ hrest
    · rwa [heq]
    rw [heq]
    exact (hpending.tail 0).1

theorem pending_collected (bitmap : SlotBitmap) :
    Pending (collectChannelPoints rc) ⟨∅, bitmap⟩ :=
  ⟨(collected rc).ascending.imp fun h => h.ne, fun _ _ => notMem_empty _⟩

/-- The largest ids of no channel sum to more than a `u32`. -/
def RoutingTables.SumsFit : Prop :=
  ∀ p ∈ rc.channelPoints, (largestIds rc.channelPoints p.channelId).total < 2 ^ 32

instance (rc : RoutingTables) : Decidable rc.SumsFit :=
  inferInstanceAs (Decidable (∀ p ∈ rc.channelPoints, _))

variable {rc : RoutingTables}

theorem RoutingTables.SumsFit.collected (h : rc.SumsFit) :
    ∀ entry ∈ collectChannelPoints rc, entry.2.total < 2 ^ 32 := by
  intro entry hentry
  obtain ⟨p, hp, hchannel⟩ :=
    ((Shm.collected rc).keys entry.1).mp (mem_map_of_mem hentry)
  rw [(Shm.collected rc).counts hentry, ← hchannel]
  exact h p hp

theorem indexed_fromRoutingCache (h : rc.SumsFit) (total : Fin (2 ^ 64)) :
    Indexed (Channels.fromRoutingCache rc (.new total)).1 :=
  Indexed.allocateAll (⟨∅, .new total⟩, 0) (Indexed.empty total)
    (pending_collected rc (.new total)) h.collected

/-! ## Room for all -/

/-- The first `used` slots are handed out, the next search starts behind them. -/
structure Packed (bm : SlotBitmap) (used : Nat) : Prop where
  free : ∀ s, bm.isAllocated s = true → s < used
  hint : used < bm.totalSlots → bm.firstFreeHint = used

theorem Packed.new (total : Fin (2 ^ 64)) : Packed (.new total) 0 where
  free s hs := by simp [SlotPool.isAllocated, SlotPool.new, bitAt_replicate] at hs
  hint _ := rfl

theorem Packed.alloc {bm : SlotBitmap} {used n : Nat} {live : List SlotAllocation}
    (h : Packed bm used) (hall : Allocated bm live) (hpos : 0 < n)
    (hroom : used + n ≤ bm.totalSlots) :
    bm.allocContiguous n = (bm.markAllocated used n, some ⟨used, n⟩) ∧
      Packed (bm.markAllocated used n) (used + n) := by
  have hhint : bm.firstFreeHint = used := h.hint (by omega)
  have hrun : FreeRun bm.isAllocated used n := fun s hlow _ =>
    eq_false_of_ne_true fun hs => absurd (h.free s hs) (Nat.not_lt.mpr hlow)
  have hfree : n ≤ bm.freeCount := by
    have hcard := hall.card_add_le hroom hrun
    rw [hall.freeCount_eq, hall.counted]
    omega
  constructor
  · rw [← hhint] at hrun hroom ⊢
    exact SlotPool.allocContiguous_at_hint hpos hfree hroom hrun
  refine ⟨fun s hs => ?_, fun hlt => if_pos hlt⟩
  rw [(hall.mark hpos hroom hrun).isAllocated_eq] at hs
  change bitAt (markRange bm.bitmap used n) s = true at hs
  rw [bitAt_markRange (hroom.trans bm.total_le), Bool.or_eq_true, decide_eq_true_eq,
    ← hall.isAllocated_eq] at hs
  rcases hs with hs | hs
  · have := h.free s hs
    omega
  · exact hs.2

/-- What one channel of the loop leaves when there is room for it. -/
structure Channels.Given (c c' : Channels) (used : Nat) (entry : Nat × TypeCounts)
    (entries : List (Nat × TypeCounts)) : Prop where
  packed : Packed c'.bitmap (used + entry.2.total)
  indexed : Indexed c'
  pending : Pending entries c'
  totalSlots : c'.bitmap.totalSlots = c.bitmap.totalSlots
  kept : ∀ channelId layout, c.index.lookup channelId = some layout →
    c'.index.lookup channelId = some layout
  placed : entry.2.total ≠ 0 →
    ∃ layout, c'.index.lookup entry.1 = some layout ∧ layout.typeCounts = entry.2

theorem Packed.allocateFor {acc : Channels × Nat} {used : Nat} (h : Packed acc.1.bitmap used)
    (hindexed : Indexed acc.1) (hpending : Pending (entry :: entries) acc.1)
    (hsum : entry.2.total < 2 ^ 32) (hroom : used + entry.2.total ≤ acc.1.bitmap.totalSlots) :
    acc.1.Given (Channels.allocateFor acc entry).1 used entry entries := by
  have hexact : entry.2.sum = entry.2.total := Nat.mod_eq_of_lt hsum
  rcases Channels.allocateFor_cases acc entry with
    ⟨base, hpos, hend, hrun, hsome, heq⟩ | ⟨hwhy, heq⟩
  · obtain ⟨halloc, hpacked⟩ := h.alloc hindexed.allocated hpos (by omega)
    -- first fit gives the channel the slots behind the last one
    have hbase : base = used := by
      rw [halloc] at hsome
      exact (congrArg SlotAllocation.baseSlot (some.inj hsome)).symm
    rw [hbase] at heq hend hrun
    rw [heq]
    refine ⟨hexact ▸ hpacked, hindexed.withChannel hpending.head hpos hend hrun hsum,
      (hpending.tail used).2, rfl, fun channelId layout hlook => ?_, fun _ =>
        ⟨_, lookup_insert _, rfl⟩⟩
    have hother : channelId ≠ entry.1 := by
      rintro rfl
      exact hpending.head (lookup_isSome.mp (by rw [hlook]; rfl))
    rw [Channels.withChannel, Hash.lookup_insert_eq, if_neg hother, hlook]
  have hzero : entry.2.total = 0 := by
    rcases hwhy with hzero | hnone
    · rwa [hexact] at hzero
    by_contra hne
    obtain ⟨halloc, -⟩ := h.alloc hindexed.allocated (n := entry.2.sum) (by omega) (by omega)
    rw [halloc] at hnone
    cases hnone
  rw [heq]
  exact ⟨by rwa [hzero], hindexed, (hpending.tail 0).1, rfl, fun _ _ h => h, fun hne =>
    absurd hzero hne⟩

theorem Packed.allocateAll (acc : Channels × Nat) (used : Nat) (h : Packed acc.1.bitmap used)
    (hindexed : Indexed acc.1) (hpending : Pending entries acc.1)
    (hsums : ∀ entry ∈ entries, entry.2.total < 2 ^ 32)
    (hroom : used + (entries.map fun entry => entry.2.total).sum ≤ acc.1.bitmap.totalSlots) :
    let c := (entries.foldl Channels.allocateFor acc).1
    (∀ channelId layout, acc.1.index.lookup channelId = some layout →
      c.index.lookup channelId = some layout) ∧
    ∀ entry ∈ entries, entry.2.total ≠ 0 →
      ∃ layout, c.index.lookup entry.1 = some layout ∧ layout.typeCounts = entry.2 := by
  induction entries generalizing acc used with
  | nil => exact ⟨fun _ _ h => h, by simp⟩
  | cons entry entries ih =>
    rw [map_cons, sum_cons] at hroom
    have hgiven := h.allocateFor hindexed hpending (hsums entry (mem_cons_self ..)) (by omega)
    obtain ⟨hkeep, hnew⟩ := ih (Channels.allocateFor acc entry) (used + entry.2.total)
      hgiven.packed hgiven.indexed hgiven.pending
      (fun e he => hsums e (mem_cons_of_mem _ he))
      (by rw [hgiven.totalSlots]; omega)
    rw [foldl_cons]
    refine ⟨fun channelId layout hlook => hkeep channelId layout (hgiven.kept _ _ hlook),
      fun e he hne => ?_⟩
    rcases mem_cons.mp he with rfl | he
    · obtain ⟨layout, hlook, htypes⟩ := hgiven.placed hne
      exact ⟨layout, hkeep _ _ hlook, htypes⟩
    · exact hnew e he hne

/-- The slots for the largest ids of all channels of the routes. -/
def RoutingTables.slotsNeeded : Nat :=
  ∑ channelId ∈ (rc.channelPoints.map ChannelPoint.channelId).toFinset,
    (largestIds rc.channelPoints channelId).total

theorem sum_collectChannelPoints :
    ((collectChannelPoints rc).map fun entry => entry.2.total).sum = rc.slotsNeeded := by
  have hcollected := collected rc
  have hcounts : ((collectChannelPoints rc).map fun entry => entry.2.total) =
      ((collectChannelPoints rc).map Prod.fst).map fun channelId =>
        (largestIds rc.channelPoints channelId).total := by
    rw [List.map_map]
    exact map_congr_left fun entry hentry => by
      rw [hcollected.counts hentry]
      rfl
  have hkeys : ((collectChannelPoints rc).map Prod.fst).toFinset =
      (rc.channelPoints.map ChannelPoint.channelId).toFinset := by
    ext channelId
    rw [List.mem_toFinset, List.mem_toFinset, hcollected.keys, List.mem_map]
  rw [hcounts, ← sum_toFinset _ (pending_collected rc (.new 0)).1, hkeys]
  rfl

/-- **Which points get a slot.**  With room for all, those with a positive id that a C2M route comes
from or an M2C route goes to; and no two points share one. -/
theorem resolves_routed_points (rc : RoutingTables) (total : Fin (2 ^ 64)) (hsums : rc.SumsFit) :
    let c := (Channels.fromRoutingCache rc (.new total)).1
    (rc.slotsNeeded ≤ total → ∀ p ∈ rc.channelPoints, 0 < p.pointId → ∃ s, c.slot p = some s) ∧
      ∀ p q s, c.slot p = some s → c.slot q = some s → p = q := by
  have hindexed := indexed_fromRoutingCache hsums total
  refine ⟨fun hroom p hp hpos => ?_, fun p q s hp hq => hindexed.slot_injective hp hq⟩
  have hle := le_largestIds hp
  obtain ⟨⟨channelId, counts⟩, hentry, hchannel⟩ :=
    mem_map.mp (((collected rc).keys p.channelId).mpr ⟨p, hp, rfl⟩)
  have hcounts := (collected rc).counts hentry
  have hpacked := Packed.allocateAll (⟨∅, .new total⟩, 0) 0 (Packed.new total)
    (Indexed.empty total) (pending_collected rc (.new total)) hsums.collected
    (by rw [sum_collectChannelPoints, Nat.zero_add]; exact hroom)
  change channelId = p.channelId at hchannel
  have hcount : p.pointId ≤ counts p.pointType := by rw [hcounts, hchannel]; exact hle
  have hne : TypeCounts.total counts ≠ 0 := by
    have hmem := single_le_sum (l := TypeCounts.types.map counts) (by simp) (counts p.pointType)
      (mem_map_of_mem (by cases p.pointType <;> decide))
    unfold TypeCounts.total
    omega
  obtain ⟨layout, hlook, htypes⟩ := hpacked.2 _ hentry hne
  have hfills := hindexed.fills hlook
  refine ⟨_, bind_eq_some_iff.mpr ⟨layout, hchannel ▸ hlook, hfills.slot_eq_some_iff.mpr
    ⟨hpos, ?_, rfl⟩⟩⟩
  rw [htypes]
  exact hcount

private def threeRoutes : RoutingTables where
  c2m := [(⟨1, .telemetry, 2⟩, ⟨7, 1⟩)]
  c2m_nodup := by decide
  m2c := [((7, .adjustment, 1), ⟨2, .control, 3⟩)]
  m2c_nodup := by decide
  c2c := [(⟨1, .telemetry, 2⟩, ⟨3, .telemetry, 1⟩)]
  c2c_nodup := by decide

theorem resolves_routed_points_control :
    threeRoutes.SumsFit ∧ ∃ s, (Channels.fromRoutingCache threeRoutes (.new 100)).1.slot
      ⟨2, .control, 3⟩ = some s :=
  have hsums : threeRoutes.SumsFit := by decide +kernel
  ⟨hsums, (resolves_routed_points threeRoutes 100 hsums).1 (by decide +kernel) _ (by decide)
    (by decide)⟩

/-- The target of a C2C route has no slot, with room for hundreds. -/
theorem c2c_target_unresolved :
    (⟨1, .telemetry, 2⟩, ⟨3, .telemetry, 1⟩) ∈ threeRoutes.c2c ∧
      (Channels.fromRoutingCache threeRoutes (.new 1000)).1.slot ⟨3, .telemetry, 1⟩ = none := by
  decide +kernel

/-! ## Runs -/

/-- The calls on an index. -/
inductive ChannelCall where
  | add (channelId : Nat) (typeCounts : TypeCounts)
  | remove (channelId : Nat)
  | update (channelId : Nat) (typeCounts : TypeCounts)

namespace Channels

/-- One call; a panic changes nothing. -/
def perform (c : Channels) : ChannelCall → Channels
  | .add channelId typeCounts => (c.addChannel channelId typeCounts).1
  | .remove channelId => ((c.removeChannel channelId).map Prod.fst).getD c
  | .update channelId typeCounts => ((c.updateChannel channelId typeCounts).map Prod.fst).getD c

/-- The index under its calls. -/
def machine : Machine Channels ChannelCall Empty where
  step c call := (c.perform call, [])

end Channels

/-- The counts of the call sum to a `u32`. -/
def ChannelCall.SumFits : ChannelCall → Prop
  | .add _ typeCounts => typeCounts.total < 2 ^ 32
  | .remove _ => True
  | .update _ typeCounts => typeCounts.total < 2 ^ 32

theorem Indexed.perform (h : Indexed c) {call : ChannelCall} (hcall : call.SumFits) :
    Indexed (c.perform call) := by
  cases call with
  | add channelId typeCounts => exact h.addChannel hcall
  | remove channelId =>
    obtain ⟨out, heq, hout⟩ := h.removeChannel channelId
    simpa only [Channels.perform, heq, map_some, getD_some] using hout
  | update channelId typeCounts =>
    obtain ⟨out, heq, hout⟩ := h.updateChannel channelId hcall
    simpa only [Channels.perform, heq, map_some, getD_some] using hout

/-- **Channels do not share slots.**  An index is built from a routing cache (an empty one gives an
empty index) and changed by any calls.  As long as no sum of counts overflows, the ranges of the
channels are disjoint, the set bits are their union and no two points have one slot. -/
theorem channel_slots_distinct (rc : RoutingTables) (total : Fin (2 ^ 64)) (calls : List ChannelCall)
    (hsums : rc.SumsFit) (hcalls : ∀ call ∈ calls, call.SumFits) :
    let c := Channels.machine.run (Channels.fromRoutingCache rc (.new total)).1 calls
    (∀ channelId layout channelId' layout', c.index.lookup channelId = some layout →
        c.index.lookup channelId' = some layout' → channelId ≠ channelId' →
        layout.allocation.Disjoint layout'.allocation) ∧
      (∀ s, bitAt c.bitmap.bitmap s = true ↔ ∃ channelId layout,
        c.index.lookup channelId = some layout ∧ layout.allocation.Holds s) ∧
      ∀ p q s, c.slot p = some s → c.slot q = some s → p = q := by
  have hindexed : Indexed
      (Channels.machine.run (Channels.fromRoutingCache rc (.new total)).1 calls) :=
    Channels.machine.invariant (fun c (_ : List Empty) => Indexed c) (l := [])
      (fun c _ call h hfits => h.perform hfits) (indexed_fromRoutingCache hsums total)
      (Channels.machine.along_of_mem _ calls fun call hcall _ => hcalls call hcall)
  exact ⟨fun _ _ _ _ h h' hne => hindexed.disjoint h h' hne, hindexed.bits,
    fun _ _ _ hp hq => hindexed.slot_injective hp hq⟩

theorem channel_slots_distinct_updated :
    let calls := [.add 4 fun | .telemetry => 3 | _ => 1, .remove 1,
      .update 4 fun | .signal => 5 | _ => 2]
    let c := Channels.machine.run (Channels.fromRoutingCache threeRoutes (.new 100)).1 calls
    c.slot ⟨4, .signal, 2⟩ = some 8 ∧ ∀ p q s, c.slot p = some s → c.slot q = some s → p = q :=
  ⟨by decide +kernel, (channel_slots_distinct threeRoutes 100 _ (by decide +kernel) (by
    simp [ChannelCall.SumFits, TypeCounts.total, TypeCounts.types])).2.2⟩

private def noRoutes : RoutingTables := ⟨⟨[], nodup_nil⟩, [], by decide, [], by decide⟩

/-- The counts of channel 1 sum to `2 ^ 32 + 5`, so it is given 5 slots; its sixth point is in the
first slot of channel 2. -/
theorem overflown_channel_shares_slot :
    let calls := [.add 1 fun | .telemetry => 2 ^ 31 | .signal => 2 ^ 31 | .control => 5 | _ => 0,
      .add 2 fun | .telemetry => 5 | _ => 0]
    let c := Channels.machine.run (Channels.fromRoutingCache noRoutes (.new 100)).1 calls
    c.slot ⟨1, .telemetry, 6⟩ = some 5 ∧ c.slot ⟨2, .telemetry, 1⟩ = some 5 := by
  decide +kernel

end VoltageEMS.Shm
