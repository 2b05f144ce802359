import VoltageEMS.Shm.Handle

/-!
# The two slot indexes of a writer

`ChannelToSlotIndex::from_unified_writer` maps points to slots, `ReverseSlotIndex::from_forward` maps
slots back to their points.
-/

namespace VoltageEMS.Shm

open Lib List Option

/-! ## Writers -/

/-- The writer has the layouts and the slot count of the configuration, which the header holds as
`u32`. -/
structure UnifiedWriter.LaidOut (w : UnifiedWriter) (cp : ChannelPointCounts) : Prop where
  layouts : allocateLayouts cp = some (w.layouts, w.slotCount)
  slotCount_u32 : w.slotCount < 2 ^ 32

theorem laidOut_of_create {env : ShmEnv} {cp : ChannelPointCounts} {w : UnifiedWriter}
    (h : create env cp = .ok w) : w.LaidOut cp := by
  obtain ⟨n, halloc, hmax, hslots, -⟩ := create_ok h
  have hcount : w.slotCount = n := by
    rw [UnifiedWriter.slotCount, hslots, length_replicate]
  exact ⟨hcount ▸ halloc, hcount ▸ hmax.trans_lt env.maxSlots_u32⟩

theorem totalPoints_of_foldlM : ∀ {entries : List (Nat × (Fin 4 → Nat))}
    {acc r : List ChannelLayout × Nat}, (entries.map Prod.fst).Pairwise (· < ·) →
    entries.foldlM allocateEntry acc = some r → ∀ e ∈ entries,
      ∃ l, r.1[e.1]? = some l ∧ l.totalPoints = pointCount e.2 % 2 ^ 32
  | [], _, _, _, _, e, he => by cases he
  | f :: es, acc, r, hsort, hrun, e, he => by
    rw [map_cons, pairwise_cons] at hsort
    rw [foldlM_cons] at hrun
    obtain ⟨acc', hentry, hrest⟩ := bind_eq_some_iff.mp hrun
    rcases mem_cons.mp he with rfl | he
    · have hlater : e.1 ∉ es.map Prod.fst := fun h => (hsort.1 e.1 h).false
      rw [(foldlM_allocateEntry_frame es acc' r hrest).2 _ hlater]
      unfold allocateEntry at hentry
      cases hlayout : acc.1[e.1]? with
      | none =>
        rw [hlayout] at hentry
        cases hentry
      | some layout =>
        rw [hlayout] at hentry
        cases hentry
        have hlt : e.1 < acc.1.length := (List.getElem?_eq_some_iff.mp hlayout).1
        exact ⟨_, List.getElem?_set_self hlt, rfl⟩
    · exact totalPoints_of_foldlM hsort.2 hrest e he

namespace UnifiedWriter.LaidOut

variable {cp : ChannelPointCounts} {w : UnifiedWriter}

theorem totalPoints (h : w.LaidOut cp) {e : Nat × (Fin 4 → Nat)} (he : e ∈ cp.entries) :
    ∃ l, w.layouts[e.1]? = some l ∧ l.totalPoints = pointCount e.2 % 2 ^ 32 :=
  totalPoints_of_foldlM cp.sorted h.layouts e he

theorem fits (h : w.LaidOut cp) (hsums : ∀ e ∈ cp.entries, pointCount e.2 < 2 ^ 32) : cp.Fits where
  ids e he := by
    obtain ⟨l, hl, -⟩ := h.totalPoints he
    have hlt : e.1 < w.layouts.length := (List.getElem?_eq_some_iff.mp hl).1
    obtain ⟨hlen, -⟩ := foldlM_allocateEntry_frame _ _ _ h.layouts
    have hsize : vecSize cp < 2 ^ 32 := Nat.mod_lt _ (by decide)
    rw [length_replicate] at hlen
    dsimp only at hlen
    omega
  sums := hsums

end UnifiedWriter.LaidOut

/-! ## The forward index -/

namespace ChannelToSlotIndex

variable {p : ChannelPoint}

theorem lookup_eq_some_iff {idx : ChannelToSlotIndex} {slot : Nat}
    (hagree : ∀ s s', (p, s) ∈ idx.entries → (p, s') ∈ idx.entries → s = s') :
    idx.lookup p = some slot ↔ (p, slot) ∈ idx.entries := by
  rw [ChannelToSlotIndex.lookup, map_eq_some_iff]
  constructor
  · rintro ⟨⟨q, s⟩, hfind, rfl⟩
    have hq : q = p := by simpa using find?_some hfind
    exact hq ▸ List.mem_reverse.mp (List.mem_of_find?_eq_some hfind)
  intro hmem
  cases hfind : idx.entries.reverse.find? fun e => e.1 == p with
  | none =>
    have hnot := find?_eq_none.mp hfind _ (List.mem_reverse.mpr hmem)
    simp at hnot
  | some e =>
    obtain ⟨q, s⟩ := e
    have hq : q = p := by simpa using find?_some hfind
    subst hq
    have he := List.mem_reverse.mp (List.mem_of_find?_eq_some hfind)
    exact ⟨_, rfl, hagree s slot he hmem⟩

/-- The entries of the hash map, in some order: each key once, with the slot it is looked up to. -/
structure Lists (idx : ChannelToSlotIndex) (entries : List (ChannelPoint × Nat)) : Prop where
  keys : (entries.map Prod.fst).Nodup
  mem : ∀ p slot, (p, slot) ∈ entries ↔ idx.lookup p = some slot

/-- `mapped_count`: `index.len()`, of a map with these entries. -/
def mappedCount (entries : List (ChannelPoint × Nat)) : Nat := entries.length

theorem slot_unique {w : UnifiedWriter} (hlen : w.layouts.length ≤ 2 ^ 32) {s s' : Nat}
    (hs : (p, s) ∈ (fromUnifiedWriter w).entries) (hs' : (p, s') ∈ (fromUnifiedWriter w).entries) :
    s = s' := by
  obtain ⟨-, -, -, hs⟩ := (mem_fromUnifiedWriter hlen).mp hs
  obtain ⟨-, -, -, hs'⟩ := (mem_fromUnifiedWriter hlen).mp hs'
  exact some.inj (hs.symm.trans hs')

theorem lookup_fromUnifiedWriter {w : UnifiedWriter} (hlen : w.layouts.length ≤ 2 ^ 32) {slot : Nat} :
    (fromUnifiedWriter w).lookup p = some slot ↔
      ∃ l, w.layouts[p.channelId]? = some l ∧ l.totalPoints ≠ 0 ∧ Shm.lookup w.layouts p = some slot := by
  rw [lookup_eq_some_iff fun _ _ => slot_unique hlen, mem_fromUnifiedWriter hlen]

theorem nodup_channelEntries (layout : ChannelLayout) (channelId : Nat) :
    (channelEntries layout channelId).Nodup := by
  unfold channelEntries
  split
  · exact .nil
  refine List.nodup_flatMap.mpr ⟨fun t _ => ?_, ?_⟩
  · refine nodup_range.filterMap fun i j e hi hj => ?_
    obtain ⟨s, -, rfl⟩ := map_eq_some_iff.mp hi
    obtain ⟨s', -, he⟩ := map_eq_some_iff.mp hj
    exact ((ChannelPoint.mk.inj (Prod.mk.inj he).1).2.2).symm
  have hdistinct : [PointType.telemetry, .signal, .control, .adjustment].Pairwise (· ≠ ·) := by
    decide
  refine hdistinct.imp fun hne e he he' => ?_
  obtain ⟨i, -, hi⟩ := mem_filterMap.mp he
  obtain ⟨j, -, hj⟩ := mem_filterMap.mp he'
  obtain ⟨s, -, rfl⟩ := map_eq_some_iff.mp hi
  obtain ⟨s', -, hs'⟩ := map_eq_some_iff.mp hj
  exact hne (ChannelPoint.mk.inj (Prod.mk.inj hs').1).2.1.symm

theorem lists_fromUnifiedWriter {w : UnifiedWriter} (hlen : w.layouts.length ≤ 2 ^ 32) :
    (fromUnifiedWriter w).Lists (fromUnifiedWriter w).entries := by
  have hnodup : (fromUnifiedWriter w).entries.Nodup := by
    refine List.nodup_flatMap.mpr ⟨fun e _ => nodup_channelEntries _ _, ?_⟩
    have hids : w.layouts.zipIdx.Pairwise fun e f => e.2 < f.2 := by
      rw [← pairwise_map (f := Prod.snd), zipIdx_map_snd]
      exact pairwise_lt_range'
    refine List.Pairwise.imp_of_mem (fun {e f} he hf hlt x hx hx' => ?_) hids
    have hid := (mem_channelEntries.mp (show (x.1, x.2) ∈ _ from hx)).2.1
    have hid' := (mem_channelEntries.mp (show (x.1, x.2) ∈ _ from hx')).2.1
    have hf2 := (List.getElem?_eq_some_iff.mp (mem_zipIdx_iff_getElem?.mp hf)).1
    rw [Nat.mod_eq_of_lt (by omega)] at hid hid'
    omega
  refine ⟨List.Nodup.map_on ?_ hnodup,
    fun p slot => (lookup_eq_some_iff fun _ _ => slot_unique hlen).symm⟩
  rintro ⟨p, s⟩ he ⟨q, s'⟩ he' (rfl : p = q)
  rw [slot_unique hlen he he']

theorem lookup_of_laidOut {cp : ChannelPointCounts} {w : UnifiedWriter} (h : w.LaidOut cp)
    (hfits : cp.Fits) (p : ChannelPoint) :
    (fromUnifiedWriter w).lookup p = Shm.lookup w.layouts p := by
  refine Option.ext fun slot => ?_
  rw [lookup_fromUnifiedWriter (length_of_allocateLayouts h.layouts)]
  constructor
  · rintro ⟨-, -, -, hslot⟩
    exact hslot
  intro hslot
  obtain ⟨counts, hmem, hp⟩ := declares_of_lookup hfits h.layouts hslot
  obtain ⟨l, hl, htotal⟩ := h.totalPoints hmem
  have hpoints : 0 < pointCount counts := by
    have hle : counts (typeIdx p.pointType) ≤ pointCount counts := by
      unfold pointCount
      cases p.pointType <;> simp [typeIdx, PointType.toU8] <;> omega
    omega
  have hsum : pointCount counts < 2 ^ 32 := hfits.sums _ hmem
  dsimp only at htotal
  rw [Nat.mod_eq_of_lt hsum] at htotal
  exact ⟨l, hl, by rw [htotal]; exact hpoints.ne', hslot⟩

end ChannelToSlotIndex

/-! ## Both indexes -/

namespace ReverseSlotIndex

/-- `mapped_count`, as `from_forward` counts it. -/
def mappedCount (entries : List (ChannelPoint × Nat)) (slotCount : Nat) : Nat :=
  entries.countP fun e => e.2 < slotCount

/-- The number of slots with an origin. -/
def originCount (rev : ReverseSlotIndex) : Nat := rev.origins.countP isSome

end ReverseSlotIndex

/-- The indexes of a writer undo each other. -/
structure MutuallyInverse (cp : ChannelPointCounts) (w : UnifiedWriter)
    (entries : List (ChannelPoint × Nat)) : Prop where
  /-- a point has a slot exactly if it is the origin of the slot -/
  inverse : ∀ p slot, (ChannelToSlotIndex.fromUnifiedWriter w).lookup p = some slot ↔
    (ReverseSlotIndex.fromForward entries w.slotCount).get slot = some p
  declared : ∀ p, cp.Declares p →
    ∃ slot, (ChannelToSlotIndex.fromUnifiedWriter w).lookup p = some slot
  forwardCount : ChannelToSlotIndex.mappedCount entries =
    (ReverseSlotIndex.fromForward entries w.slotCount).originCount
  reverseCount : ReverseSlotIndex.mappedCount entries w.slotCount =
    (ReverseSlotIndex.fromForward entries w.slotCount).originCount

variable {cp : ChannelPointCounts} {w : UnifiedWriter} {entries : List (ChannelPoint × Nat)}

theorem mutuallyInverse_of_fits (h : w.LaidOut cp)
    (hlists : (ChannelToSlotIndex.fromUnifiedWriter w).Lists entries) (hfits : cp.Fits) :
    MutuallyInverse cp w entries := by
  obtain ⟨layouts, n, halloc, hsound⟩ := allocateLayouts_sound cp hfits
  rw [h.layouts] at halloc
  cases halloc
  have hlookup := ChannelToSlotIndex.lookup_of_laidOut h hfits
  -- a listed point is declared and has its slot in the layout table
  have hmem : ∀ {p slot}, (p, slot) ∈ entries ↔ lookup w.layouts p = some slot := fun {p slot} => by
    rw [hlists.mem, hlookup]
  have hdeclared : ∀ {p slot}, (p, slot) ∈ entries → cp.Declares p := fun he =>
    declares_of_lookup hfits h.layouts (hmem.mp he)
  have hrange : ∀ e ∈ entries, e.2 < w.slotCount := by
    rintro ⟨p, slot⟩ he
    obtain ⟨s, hs, hlt⟩ := hsound.declared p (hdeclared he)
    rw [hmem.mp he, some.injEq] at hs
    exact hs ▸ hlt
  have hslots : (entries.map Prod.snd).Nodup := by
    refine List.Nodup.map_on ?_ (List.Nodup.of_map _ hlists.keys)
    rintro ⟨p, slot⟩ he ⟨q, slot'⟩ he' (rfl : slot = slot')
    have hpq := hsound.injective p q (hdeclared he) (hdeclared he')
      ((hmem.mp he).trans (hmem.mp he').symm)
    rw [hpq]
  have hall : entries.countP (fun e => e.2 < w.slotCount) = entries.length :=
    List.countP_eq_length.mpr fun e he => by simpa using hrange e he
  have hcount := countP_reverseTable w.slotCount entries hslots
  refine ⟨fun p slot => ?_, fun p hp => ?_, ?_, hcount.symm⟩
  · rw [ReverseSlotIndex.get, ReverseSlotIndex.origins_fromForward, reverseTable_get_iff hslots,
      hlists.mem]
    exact ⟨fun hp => ⟨hp, hrange _ ((hlists.mem p slot).mpr hp)⟩, fun hp => hp.1⟩
  · obtain ⟨s, hs, -⟩ := hsound.declared p hp
    exact ⟨s, (hlookup p).trans hs⟩
  · exact hall.symm.trans hcount.symm

/-! ## The slot counter -/

/-- A channel takes its points and at most two padding slots, as long as the counter does not wrap. -/
theorem allocateChannel_takes (layout : ChannelLayout) {next : Nat} {counts : Fin 4 → Nat}
    (h : next + pointCount counts + 2 < 2 ^ 64) :
    next + pointCount counts ≤ (allocateChannel next layout counts).2 ∧
      (allocateChannel next layout counts).2 ≤ next + pointCount counts + 2 := by
  unfold pointCount at h ⊢
  obtain ⟨hb1, hb2, -⟩ := alignToCacheLine_spec (n := next) (by omega)
  have hfold : finRange 4 = [0, 1, 2, 3] := rfl
  simp only [allocateChannel, hfold, foldl_cons, foldl_nil, allocateType]
  generalize alignToCacheLine next = base at *
  generalize decide (0 < (counts 2 + counts 3) % 2 ^ 32) = act
  have hmid : (base + counts 0) % 2 ^ 64 = base + counts 0 := Nat.mod_eq_of_lt (by omega)
  have hmid' : (base + counts 0 + counts 1) % 2 ^ 64 = base + counts 0 + counts 1 :=
    Nat.mod_eq_of_lt (by omega)
  obtain ⟨hc1, hc2, -⟩ := alignToCacheLine_spec (n := base + counts 0 + counts 1) (by omega)
  simp only [Fin.reduceEq, false_and, true_and, if_false, hmid, hmid']
  cases act
  · simp only [Bool.false_eq_true, if_false]
    omega
  · simp only [if_true]
    omega

theorem foldlM_takes : ∀ {entries : List (Nat × (Fin 4 → Nat))} {acc r : List ChannelLayout × Nat},
    (∀ e ∈ entries, pointCount e.2 ≤ 2 ^ 34 - 4) →
    acc.2 + 2 ^ 34 * entries.length ≤ 2 ^ 64 →
    entries.foldlM allocateEntry acc = some r → acc.2 ≤ r.2 ∧ ∀ e ∈ entries, pointCount e.2 ≤ r.2
  | [], acc, r, _, _, hrun => by
    cases hrun
    exact ⟨le_refl _, fun e he => by cases he⟩
  | f :: es, acc, r, hcounts, hbound, hrun => by
    rw [foldlM_cons] at hrun
    obtain ⟨acc', hentry, hrest⟩ := bind_eq_some_iff.mp hrun
    have hf := hcounts f (mem_cons_self ..)
    rw [length_cons] at hbound
    have hnext : acc.2 + pointCount f.2 ≤ acc'.2 ∧ acc'.2 ≤ acc.2 + pointCount f.2 + 2 := by
      unfold allocateEntry at hentry
      cases hlayout : acc.1[f.1]? with
      | none =>
        rw [hlayout] at hentry
        cases hentry
      | some layout =>
        rw [hlayout] at hentry
        cases hentry
        exact allocateChannel_takes layout (by omega)
    obtain ⟨hle, hpoints⟩ := foldlM_takes (fun e he => hcounts e (mem_cons_of_mem _ he))
      (by omega) hrest
    refine ⟨by omega, fun e he => ?_⟩
    rcases mem_cons.mp he with rfl | he
    · omega
    · exact hpoints e he

/-- **The two indexes** of a writer are mutually inverse, with every declared point and the right
counts.  Up to `2 ^ 30` channels the slot counter cannot wrap, so the slot limit keeps every
channel's total below `2 ^ 32`. -/
theorem mutuallyInverse_of_length_le (h : w.LaidOut cp)
    (hlists : (ChannelToSlotIndex.fromUnifiedWriter w).Lists entries)
    (hcounts : ∀ e ∈ cp.entries, ∀ i, e.2 i < 2 ^ 32) (hfew : cp.entries.length ≤ 2 ^ 30) :
    MutuallyInverse cp w entries := by
  refine mutuallyInverse_of_fits h hlists (h.fits fun e he => ?_)
  have hsmall : ∀ e ∈ cp.entries, pointCount e.2 ≤ 2 ^ 34 - 4 := fun e he => by
    have := hcounts e he
    have h0 := this 0
    have h1 := this 1
    have h2 := this 2
    have h3 := this 3
    unfold pointCount
    omega
  exact ((foldlM_takes hsmall (by dsimp only; omega) h.layouts).2 e he).trans_lt h.slotCount_u32

theorem mutuallyInverse_twoChannels :
    ∃ w, w.LaidOut twoChannels ∧
      MutuallyInverse twoChannels w (ChannelToSlotIndex.fromUnifiedWriter w).entries := by
  obtain ⟨w, hw⟩ : ∃ w, create telemetryEnv twoChannels = .ok w := ⟨_, rfl⟩
  have hlaid := laidOut_of_create hw
  have hlists := ChannelToSlotIndex.lists_fromUnifiedWriter (length_of_allocateLayouts hlaid.layouts)
  exact ⟨w, hlaid, mutuallyInverse_of_length_le hlaid hlists (by decide) (by decide)⟩

end VoltageEMS.Shm
