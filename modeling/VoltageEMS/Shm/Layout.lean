import VoltageEMS.Model.Point

/-!
# Slot layout of the shared-memory segment

`voltage-rtdb-shm/src/layout.rs` and `channel_points.rs`.  `u32` and `usize` (64-bit) arithmetic wraps
as in a release build.  The slot counter needs no hypothesis of its own: `2 ^ 32 - 1` channels of less
than `2 ^ 32` points, with at most two padding slots each, stay below `2 ^ 64`.
-/

namespace VoltageEMS.Shm

open List Option

/-- `ChannelPointCounts(BTreeMap<u32, [u32; 4]>)`: strictly increasing channel ids. -/
structure ChannelPointCounts where
  entries : List (Nat × (Fin 4 → Nat))
  sorted : (entries.map Prod.fst).Pairwise (· < ·)

/-- `ChannelLayout`; the default is the layout of a channel that was never allocated. -/
structure ChannelLayout where
  baseSlot : Nat := 0
  typeOffsets : Fin 4 → Nat := fun _ => 0
  typeCounts : Fin 4 → Nat := fun _ => 0
  totalPoints : Nat := 0
deriving DecidableEq

/-- `ChannelLayout::slot`. -/
def ChannelLayout.slot (l : ChannelLayout) (pointType pointId : Nat) : Option Nat :=
  if h : pointType < 4 then
    if l.typeCounts ⟨pointType, h⟩ ≤ pointId then none
    else some ((l.baseSlot + l.typeOffsets ⟨pointType, h⟩ + pointId) % 2 ^ 64)
  else none

/-- `align_to_cache_line`: `& !1` clears bit 0. -/
def alignToCacheLine (slot : Nat) : Nat := (slot + 1) % 2 ^ 64 / 2 * 2

/-- One type of a channel. -/
def allocateType (counts : Fin 4 → Nat) (hasActionSlots : Bool)
    (acc : ChannelLayout × Nat) (typeIdx : Fin 4) : ChannelLayout × Nat :=
  let nextSlot := if typeIdx = 2 ∧ hasActionSlots = true then alignToCacheLine acc.2 else acc.2
  ({ acc.1 with
      typeOffsets :=
        Function.update acc.1.typeOffsets typeIdx ((nextSlot + 2 ^ 64 - acc.1.baseSlot) % 2 ^ 64)
      typeCounts := Function.update acc.1.typeCounts typeIdx (counts typeIdx) },
    (nextSlot + counts typeIdx) % 2 ^ 64)

/-- The points of a channel. -/
def pointCount (counts : Fin 4 → Nat) : Nat := counts 0 + counts 1 + counts 2 + counts 3

/-- One channel. -/
def allocateChannel (nextSlot : Nat) (layout : ChannelLayout) (counts : Fin 4 → Nat) :
    ChannelLayout × Nat :=
  let base := alignToCacheLine nextSlot
  let hasActionSlots := decide (0 < (counts 2 + counts 3) % 2 ^ 32)
  let r := (finRange 4).foldl (allocateType counts hasActionSlots)
    ({ layout with baseSlot := base }, base)
  ({ r.1 with totalPoints := (counts 0 + counts 1 + counts 2 + counts 3) % 2 ^ 32 }, r.2)

/-- One round of the loop. -/
def allocateEntry (acc : List ChannelLayout × Nat) (e : Nat × (Fin 4 → Nat)) :
    Option (List ChannelLayout × Nat) :=
  match acc.1[e.1]? with
  | none => none
  | some layout =>
    let r := allocateChannel acc.2 layout e.2
    some (acc.1.set e.1 r.1, r.2)

/-- `(max_channel_id + 1) as usize`, the addition in `u32`. -/
def vecSize (cp : ChannelPointCounts) : Nat :=
  ((cp.entries.map Prod.fst).max?.getD 0 + 1) % 2 ^ 32

/-- `allocate_layouts`: the layout vector, indexed by channel id, and the slot count. -/
def allocateLayouts (cp : ChannelPointCounts) : Option (List ChannelLayout × Nat) :=
  cp.entries.foldlM allocateEntry (replicate (vecSize cp) {}, 0)

/-- The slot of a point. -/
def lookup (layouts : List ChannelLayout) (p : ChannelPoint) : Option Nat :=
  layouts[p.channelId]?.bind fun l => l.slot p.pointType.toU8 p.pointId

/-! ## Configurations -/

/-- The largest channel id is below `u32::MAX` and no per-channel sum overflows. -/
structure ChannelPointCounts.Fits (cp : ChannelPointCounts) : Prop where
  ids : ∀ e ∈ cp.entries, e.1 < 2 ^ 32 - 1
  sums : ∀ e ∈ cp.entries, e.2 0 + e.2 1 + e.2 2 + e.2 3 < 2 ^ 32

/-- The index of a type. -/
def typeIdx (t : PointType) : Fin 4 := ⟨t.toU8, t.toU8_lt⟩

/-- The point is declared: its channel has more points of its type than its id. -/
def ChannelPointCounts.Declares (cp : ChannelPointCounts) (p : ChannelPoint) : Prop :=
  ∃ counts, (p.channelId, counts) ∈ cp.entries ∧ p.pointId < counts (typeIdx p.pointType)

/-! ## One channel -/

variable {n : Nat}

theorem alignToCacheLine_spec (h : n + 1 < 2 ^ 64) :
    n ≤ alignToCacheLine n ∧ alignToCacheLine n ≤ n + 1 ∧ alignToCacheLine n % 2 = 0 := by
  unfold alignToCacheLine
  rw [Nat.mod_eq_of_lt h]
  omega

/-- What the allocator guarantees of the layout of one channel. -/
structure WellPlaced (counts : Fin 4 → Nat) (l : ChannelLayout) : Prop where
  counts_eq : l.typeCounts = counts
  base_even : l.baseSlot % 2 = 0
  telemetry : l.typeOffsets 0 = 0
  signal : l.typeOffsets 1 = counts 0
  control : counts 0 + counts 1 ≤ l.typeOffsets 2
  adjustment : l.typeOffsets 3 = l.typeOffsets 2 + counts 2
  control_even : 0 < counts 2 + counts 3 → l.typeOffsets 2 % 2 = 0
  bound : l.baseSlot + l.typeOffsets 3 + counts 3 < 2 ^ 64

/-- Behind its last slot. -/
def ChannelLayout.endSlot (l : ChannelLayout) : Nat :=
  l.baseSlot + l.typeOffsets 3 + l.typeCounts 3

theorem ChannelLayout.baseSlot_le_endSlot (l : ChannelLayout) : l.baseSlot ≤ l.endSlot := by
  unfold endSlot
  omega

/-- Where its control points start. -/
def controlStart (base : Nat) (counts : Fin 4 → Nat) : Nat :=
  if 0 < counts 2 + counts 3 then alignToCacheLine (base + counts 0 + counts 1)
  else base + counts 0 + counts 1

variable {counts : Fin 4 → Nat} {l : ChannelLayout}

theorem allocateType_eq {act : Bool} {next s : Nat} {i : Fin 4}
    (hs : (if i = 2 ∧ act = true then alignToCacheLine next else next) = s) (hbase : l.baseSlot ≤ s)
    (hlt : s + counts i < 2 ^ 64) :
    allocateType counts act (l, next) i =
      ({ l with
          typeOffsets := Function.update l.typeOffsets i (s - l.baseSlot)
          typeCounts := Function.update l.typeCounts i (counts i) }, s + counts i) := by
  simp only [allocateType, hs]
  rw [Nat.mod_eq_of_lt hlt, Nat.sub_add_comm hbase, Nat.add_mod_right, Nat.mod_eq_of_lt (by omega)]

theorem controlStart_spec (base : Nat) (counts : Fin 4 → Nat)
    (h : base + counts 0 + counts 1 + 1 < 2 ^ 64) :
    base + counts 0 + counts 1 ≤ controlStart base counts ∧
      controlStart base counts ≤ base + counts 0 + counts 1 + 1 ∧
      (0 < counts 2 + counts 3 → controlStart base counts % 2 = 0) := by
  obtain ⟨h1, h2, h3⟩ := alignToCacheLine_spec h
  unfold controlStart
  split <;> omega

theorem allocateChannel_eq {next base mid : Nat} {layout : ChannelLayout}
    (hsum : counts 0 + counts 1 + counts 2 + counts 3 < 2 ^ 32)
    (hnext : next + (counts 0 + counts 1 + counts 2 + counts 3) + 2 < 2 ^ 64)
    (hbase : alignToCacheLine next = base) (hmid : controlStart base counts = mid) :
    allocateChannel next layout counts =
      (⟨base, ![0, counts 0, mid - base, mid - base + counts 2], counts,
        counts 0 + counts 1 + counts 2 + counts 3⟩, mid + counts 2 + counts 3) := by
  have hb := alignToCacheLine_spec (n := next) (by omega)
  have hm := controlStart_spec base counts (by omega)
  have hact : (0 < (counts 2 + counts 3) % 2 ^ 32) = (0 < counts 2 + counts 3) := by
    rw [Nat.mod_eq_of_lt (by omega)]
  have hstart : (if (2 : Fin 4) = 2 ∧ decide (0 < counts 2 + counts 3) = true then
      alignToCacheLine (base + counts 0 + counts 1) else base + counts 0 + counts 1) = mid := by
    simpa only [controlStart, true_and, decide_eq_true_eq] using hmid
  have hfold : finRange 4 = [0, 1, 2, 3] := rfl
  simp only [allocateChannel, hfold, foldl_cons, foldl_nil, hact, hbase]
  rw [allocateType_eq (i := 0) (s := base), allocateType_eq (i := 1) (s := base + counts 0),
    allocateType_eq (i := 2) (s := mid), allocateType_eq (i := 3) (s := mid + counts 2),
    Nat.mod_eq_of_lt hsum]
  · simp only [Prod.mk.injEq, ChannelLayout.mk.injEq, and_true, true_and]
    constructor
    · funext i
      fin_cases i <;> simp
      omega
    funext i
    fin_cases i <;> simp
  all_goals first | exact hstart | omega | rfl | (dsimp only; omega)

theorem allocateChannel_spec (next : Nat) (layout : ChannelLayout)
    (hsum : counts 0 + counts 1 + counts 2 + counts 3 < 2 ^ 32)
    (hnext : next + (counts 0 + counts 1 + counts 2 + counts 3) + 2 < 2 ^ 64) :
    WellPlaced counts (allocateChannel next layout counts).1 ∧
      next ≤ (allocateChannel next layout counts).1.baseSlot ∧
      (allocateChannel next layout counts).2 = (allocateChannel next layout counts).1.endSlot ∧
      (allocateChannel next layout counts).2 ≤
        next + (counts 0 + counts 1 + counts 2 + counts 3) + 2 := by
  obtain ⟨hb1, hb2, hb3⟩ := alignToCacheLine_spec (n := next) (by omega)
  obtain ⟨hm1, hm2, hm3⟩ := controlStart_spec (alignToCacheLine next) counts (by omega)
  rw [allocateChannel_eq hsum hnext rfl rfl]
  refine ⟨⟨rfl, hb3, rfl, rfl, ?_, rfl, ?_, ?_⟩, hb1, ?_, ?_⟩ <;>
    simp [ChannelLayout.endSlot] <;> omega

/-! ## All channels -/

/-- The channels of `entries` are well placed in `[lo, hi)`, one after the other. -/
structure Placed (entries : List (Nat × (Fin 4 → Nat))) (layouts : List ChannelLayout)
    (lo hi : Nat) : Prop where
  each : ∀ e ∈ entries, ∃ l, layouts[e.1]? = some l ∧ WellPlaced e.2 l ∧
    lo ≤ l.baseSlot ∧ l.endSlot ≤ hi
  apart : entries.Pairwise fun e f => ∀ l m, layouts[e.1]? = some l → layouts[f.1]? = some m →
    l.endSlot ≤ m.baseSlot

theorem foldlM_allocateEntry : ∀ (entries : List (Nat × (Fin 4 → Nat)))
    (layouts : List ChannelLayout) (next lo : Nat),
    (entries.map Prod.fst).Pairwise (· < ·) →
    (∀ e ∈ entries, lo ≤ e.1 ∧ e.1 < 2 ^ 32 - 1 ∧ e.1 < layouts.length) →
    (∀ e ∈ entries, e.2 0 + e.2 1 + e.2 2 + e.2 3 < 2 ^ 32) →
    next ≤ (2 ^ 32 + 1) * lo → lo ≤ 2 ^ 32 - 1 →
    ∃ layouts' next', entries.foldlM allocateEntry (layouts, next) = some (layouts', next') ∧
      next ≤ next' ∧ next' < 2 ^ 64 ∧
      (∀ id, id ∉ entries.map Prod.fst → layouts'[id]? = layouts[id]?) ∧
      Placed entries layouts' next next'
  | [], layouts, next, lo, _, _, _, hnext, hlo =>
    ⟨layouts, next, rfl, le_refl _, by omega, fun _ _ => rfl, ⟨by simp, .nil⟩⟩
  | e :: es, layouts, next, lo, hsort, hids, hsums, hnext, hlo => by
    obtain ⟨hid1, hid2, hid3⟩ := hids e (.head _)
    have hsum := hsums e (.head _)
    rw [map_cons, pairwise_cons] at hsort
    obtain ⟨hwp, hbase, hend, hle⟩ :=
      allocateChannel_spec next layouts[e.1] hsum (by omega)
    set r := allocateChannel next layouts[e.1] e.2 with hr
    have hgrow := r.1.baseSlot_le_endSlot
    obtain ⟨layouts', next', hrun, hmono, hlt, hrest, hpl⟩ :=
      foldlM_allocateEntry es (layouts.set e.1 r.1) r.2 (e.1 + 1) hsort.2
        (fun f hf => ⟨hsort.1 f.1 (List.mem_map_of_mem hf), (hids f (.tail _ hf)).2.1,
          by simpa using (hids f (.tail _ hf)).2.2⟩)
        (fun f hf => hsums f (.tail _ hf)) (by omega) (by omega)
    have hself : layouts'[e.1]? = some r.1 := by
      rw [hrest e.1 (fun h => (hsort.1 e.1 h).false)]
      simp [hid3]
    refine ⟨layouts', next', ?_, by omega, hlt, ?_, ?_, ?_⟩
    · rw [foldlM_cons, allocateEntry, List.getElem?_eq_getElem hid3]
      exact hrun
    · intro id hid
      rw [map_cons, mem_cons, not_or] at hid
      rw [hrest id hid.2, List.getElem?_set_ne (Ne.symm hid.1)]
    · intro f hf
      rcases mem_cons.mp hf with rfl | hf
      · exact ⟨r.1, hself, hwp, hbase, by omega⟩
      obtain ⟨l, hl, hw, h1, h2⟩ := hpl.each f hf
      exact ⟨l, hl, hw, by omega, h2⟩
    refine pairwise_cons.mpr ⟨fun f hf l m hl hm => ?_, hpl.apart⟩
    obtain ⟨m', hm', -, h1, -⟩ := hpl.each f hf
    rw [hself] at hl
    rw [hm] at hm'
    cases hl
    cases hm'
    omega

variable {cp : ChannelPointCounts}

theorem vecSize_spec (h : cp.Fits) : ∀ e ∈ cp.entries, e.1 < vecSize cp := by
  intro e he
  have hmem : e.1 ∈ cp.entries.map Prod.fst := List.mem_map_of_mem he
  unfold vecSize
  cases hmax : (cp.entries.map Prod.fst).max? with
  | none => simp [max?_eq_none_iff.mp hmax] at hmem
  | some m =>
    obtain ⟨hm, hle⟩ := max?_eq_some_iff.mp hmax
    obtain ⟨f, hf, rfl⟩ := List.mem_map.mp hm
    have := h.ids f hf
    have := hle e.1 hmem
    rw [getD_some, Nat.mod_eq_of_lt (by omega)]
    omega

/-- **Allocation**: counts that fit are laid out without overflow, channel after channel. -/
theorem allocateLayouts_spec (h : cp.Fits) :
    ∃ layouts slotCount, allocateLayouts cp = some (layouts, slotCount) ∧ slotCount < 2 ^ 64 ∧
      Placed cp.entries layouts 0 slotCount := by
  obtain ⟨layouts, n, hrun, -, hlt, -, hpl⟩ :=
    foldlM_allocateEntry cp.entries (replicate (vecSize cp) {}) 0 0 cp.sorted
      (fun e he => ⟨Nat.zero_le _, h.ids e he, by simpa using vecSize_spec h e he⟩)
      h.sums (by omega) (by omega)
  exact ⟨layouts, n, hrun, hlt, hpl⟩

theorem foldlM_allocateEntry_frame : ∀ (entries : List (Nat × (Fin 4 → Nat)))
    (acc r : List ChannelLayout × Nat), entries.foldlM allocateEntry acc = some r →
    r.1.length = acc.1.length ∧ ∀ id ∉ entries.map Prod.fst, r.1[id]? = acc.1[id]?
  | [], acc, r, h => by
    cases h
    exact ⟨rfl, fun _ _ => rfl⟩
  | e :: es, acc, r, h => by
    rw [foldlM_cons] at h
    obtain ⟨acc', hentry, hrest⟩ := bind_eq_some_iff.mp h
    obtain ⟨hlen, hframe⟩ := foldlM_allocateEntry_frame es acc' r hrest
    unfold allocateEntry at hentry
    split at hentry
    · cases hentry
    cases hentry
    refine ⟨by simpa using hlen, fun id hid => ?_⟩
    rw [map_cons, mem_cons, not_or] at hid
    rw [hframe id hid.2, List.getElem?_set_ne (Ne.symm hid.1)]

variable {layouts : List ChannelLayout}

theorem length_of_allocateLayouts (h : allocateLayouts cp = some (layouts, n)) :
    layouts.length ≤ 2 ^ 32 := by
  obtain ⟨hlen, -⟩ := foldlM_allocateEntry_frame _ _ _ h
  rw [hlen, length_replicate]
  exact (Nat.mod_lt _ (by decide)).le

/-! ## Slots of declared points -/

theorem WellPlaced.slot_eq (h : WellPlaced counts l) {t : PointType} {pid : Nat}
    (hp : pid < counts (typeIdx t)) :
    l.slot t.toU8 pid = some (l.baseSlot + l.typeOffsets (typeIdx t) + pid) ∧
      l.baseSlot + l.typeOffsets (typeIdx t) + pid < l.endSlot := by
  obtain ⟨hc, -, h0, h1, h2, h3, -, hb⟩ := h
  have hend : l.baseSlot + l.typeOffsets (typeIdx t) + pid < l.endSlot := by
    unfold ChannelLayout.endSlot
    rw [hc]
    cases t <;> simp only [typeIdx, PointType.toU8] at hp ⊢ <;>
      simp only [Fin.zero_eta, Fin.mk_one, Fin.reduceFinMk] at hp ⊢ <;> omega
  refine ⟨?_, hend⟩
  unfold ChannelLayout.endSlot at hend
  rw [hc] at hend
  rw [ChannelLayout.slot, dif_pos t.toU8_lt, if_neg (by rw [hc]; exact Nat.not_le.mpr hp)]
  exact congrArg some (Nat.mod_eq_of_lt (by unfold typeIdx at hend; omega))

theorem WellPlaced.slot_inj (h : WellPlaced counts l) {t t' : PointType} {pid pid' : Nat}
    (hp : pid < counts (typeIdx t)) (hp' : pid' < counts (typeIdx t'))
    (heq : l.typeOffsets (typeIdx t) + pid = l.typeOffsets (typeIdx t') + pid') :
    t = t' ∧ pid = pid' := by
  obtain ⟨-, -, h0, h1, h2, h3, -, -⟩ := h
  cases t <;> cases t' <;>
    simp only [typeIdx, PointType.toU8, Fin.zero_eta, Fin.mk_one, Fin.reduceFinMk,
      reduceCtorEq, true_and, false_and] at hp hp' heq ⊢ <;> omega

theorem WellPlaced.line_lt (h : WellPlaced counts l) {t t' : PointType} {pid pid' : Nat}
    (ht : t.isMeasurement = true) (ht' : t'.isAction = true) (hp : pid < counts (typeIdx t))
    (hp' : pid' < counts (typeIdx t')) :
    (l.baseSlot + l.typeOffsets (typeIdx t) + pid) / 2 <
      (l.baseSlot + l.typeOffsets (typeIdx t') + pid') / 2 := by
  obtain ⟨-, hbase, h0, h1, h2, h3, heven, -⟩ := h
  cases t <;> cases t' <;>
    simp only [PointType.isMeasurement, PointType.isAction, Bool.false_eq_true, typeIdx,
      PointType.toU8, Fin.zero_eta, Fin.mk_one, Fin.reduceFinMk] at ht ht' hp hp' ⊢ <;> omega

variable {entries : List (Nat × (Fin 4 → Nat))}

theorem Placed.disjoint {lo hi : Nat} (h : Placed entries layouts lo hi) {e f : Nat × (Fin 4 → Nat)}
    (he : e ∈ entries) (hf : f ∈ entries) (hne : e.1 ≠ f.1) {m : ChannelLayout}
    (hl : layouts[e.1]? = some l) (hm : layouts[f.1]? = some m) :
    l.endSlot ≤ m.baseSlot ∨ m.endSlot ≤ l.baseSlot := by
  let R (e f : Nat × (Fin 4 → Nat)) : Prop := ∀ l m, layouts[e.1]? = some l →
    layouts[f.1]? = some m → l.endSlot ≤ m.baseSlot ∨ m.endSlot ≤ l.baseSlot
  have : Std.Symm R := ⟨fun a b hab l m hl hm => (hab m l hm hl).symm⟩
  have hpair : entries.Pairwise R := h.apart.imp fun hab l m hl hm => .inl (hab l m hl hm)
  exact hpair.forall he hf (fun hef => hne (congrArg Prod.fst hef)) l m hl hm

variable {p : ChannelPoint}

theorem Placed.lookup_eq {lo hi : Nat} (h : Placed entries layouts lo hi)
    (hmem : (p.channelId, counts) ∈ entries) (hp : p.pointId < counts (typeIdx p.pointType)) :
    ∃ l, layouts[p.channelId]? = some l ∧ WellPlaced counts l ∧ l.endSlot ≤ hi ∧
      lookup layouts p = some (l.baseSlot + l.typeOffsets (typeIdx p.pointType) + p.pointId) ∧
      l.baseSlot + l.typeOffsets (typeIdx p.pointType) + p.pointId < l.endSlot := by
  obtain ⟨l, hl, hw, -, hhi⟩ := h.each _ hmem
  obtain ⟨hslot, hlt⟩ := hw.slot_eq hp
  exact ⟨l, hl, hw, hhi, by simp [lookup, hl, hslot], hlt⟩

/-! ## Soundness of the layout -/

/-- What a segment layout has to give its readers and writers. -/
structure SoundLayout (cp : ChannelPointCounts) (layouts : List ChannelLayout)
    (slotCount : Nat) : Prop where
  /-- every declared point has a slot of the segment -/
  declared : ∀ p, cp.Declares p → ∃ s, lookup layouts p = some s ∧ s < slotCount
  /-- different declared points have different slots -/
  injective : ∀ p q, cp.Declares p → cp.Declares q → lookup layouts p = lookup layouts q → p = q
  /-- an allocated channel has no slot for an undeclared point, whatever the type byte -/
  undeclared : ∀ id counts, (id, counts) ∈ cp.entries → ∃ l, layouts[id]? = some l ∧
    ∀ ty pid, (∀ hty : ty < 4, counts ⟨ty, hty⟩ ≤ pid) → l.slot ty pid = none
  /-- comsrv-owned and modsrv-owned points never share a 64-byte line (two slots) -/
  lines : ∀ p q s s', cp.Declares p → cp.Declares q → p.pointType.isMeasurement = true →
    q.pointType.isAction = true → lookup layouts p = some s → lookup layouts q = some s' →
    s / 2 ≠ s' / 2

theorem Placed.soundLayout (h : Placed cp.entries layouts 0 n) :
    SoundLayout cp layouts n where
  declared := by
    rintro p ⟨counts, hmem, hp⟩
    obtain ⟨l, -, -, hhi, hslot, hlt⟩ := h.lookup_eq hmem hp
    exact ⟨_, hslot, by omega⟩
  injective := by
    rintro p q ⟨cp', hpm, hp⟩ ⟨cq, hqm, hq⟩ heq
    obtain ⟨l, hl, hwl, -, hsl, hltl⟩ := h.lookup_eq hpm hp
    obtain ⟨m, hm, hwm, -, hsm, hltm⟩ := h.lookup_eq hqm hq
    rw [hsl, hsm, some.injEq] at heq
    by_cases hch : p.channelId = q.channelId
    · -- one channel: the regions of its four types do not overlap
      rw [hch, hm] at hl
      cases hl
      have hc : cp' = cq := by rw [← hwl.counts_eq, hwm.counts_eq]
      subst hc
      obtain ⟨ht, hpid⟩ := hwl.slot_inj hp hq (by omega)
      cases p
      cases q
      simp_all
    · rcases h.disjoint hpm hqm hch hl hm with hd | hd <;> omega
  undeclared := by
    intro id counts hmem
    obtain ⟨l, hl, hw, -⟩ := h.each _ hmem
    refine ⟨l, hl, fun ty pid hund => ?_⟩
    unfold ChannelLayout.slot
    split
    · rename_i hty
      rw [hw.counts_eq, if_pos (hund hty)]
    · rfl
  lines := by
    rintro p q s s' ⟨cp', hpm, hp⟩ ⟨cq, hqm, hq⟩ htp htq hs hs'
    obtain ⟨l, hl, hwl, -, hsl, hltl⟩ := h.lookup_eq hpm hp
    obtain ⟨m, hm, hwm, -, hsm, hltm⟩ := h.lookup_eq hqm hq
    rw [hs] at hsl
    rw [hs'] at hsm
    cases hsl
    cases hsm
    by_cases hch : p.channelId = q.channelId
    · rw [hch, hm] at hl
      cases hl
      have hq' : q.pointId < cp' (typeIdx q.pointType) := by
        rwa [← hwl.counts_eq, hwm.counts_eq]
      exact (hwl.line_lt htp htq hp hq').ne
    -- the later of the two channels starts at an even slot
    have hbl := hwl.base_even
    have hbm := hwm.base_even
    rcases h.disjoint hpm hqm hch hl hm with hd | hd <;> omega

theorem declares_of_lookup (h : cp.Fits) {s : Nat} (halloc : allocateLayouts cp = some (layouts, n))
    (hp : lookup layouts p = some s) : cp.Declares p := by
  obtain ⟨layouts', n', halloc', -, hpl⟩ := allocateLayouts_spec h
  rw [halloc] at halloc'
  cases halloc'
  by_cases hid : p.channelId ∈ cp.entries.map Prod.fst
  · obtain ⟨⟨id, counts⟩, hmem, rfl⟩ := List.mem_map.mp hid
    by_contra hund
    obtain ⟨l, hl, hnone⟩ := hpl.soundLayout.undeclared _ _ hmem
    have hty : ∀ hty : p.pointType.toU8 < 4, counts ⟨p.pointType.toU8, hty⟩ ≤ p.pointId := by
      intro hty
      by_contra hlt
      exact hund ⟨counts, hmem, by simpa [typeIdx] using hlt⟩
    rw [lookup, hl] at hp
    exact absurd (hp.symm.trans (hnone _ _ hty)) (by simp)
  -- a channel without counts keeps the default layout
  obtain ⟨-, hframe⟩ := foldlM_allocateEntry_frame _ _ _ halloc
  have hl := hframe _ hid
  rw [List.getElem?_replicate] at hl
  rw [lookup, hl] at hp
  split at hp <;> simp [ChannelLayout.slot] at hp

/-- **Slot allocation is sound** for every configuration that fits `u32`. -/
theorem allocateLayouts_sound (cp : ChannelPointCounts) (h : cp.Fits) :
    ∃ layouts slotCount, allocateLayouts cp = some (layouts, slotCount) ∧
      SoundLayout cp layouts slotCount := by
  obtain ⟨layouts, n, hrun, -, hpl⟩ := allocateLayouts_spec h
  exact ⟨layouts, n, hrun, hpl.soundLayout⟩

def twoChannels : ChannelPointCounts := ⟨[(1, ![3, 1, 1, 0]), (3, ![0, 0, 2, 1])], by decide⟩

theorem allocateLayouts_sound_twoChannels :
    ∃ layouts slotCount, allocateLayouts twoChannels = some (layouts, slotCount) ∧
      SoundLayout twoChannels layouts slotCount :=
  allocateLayouts_sound twoChannels ⟨by decide, by decide⟩

end VoltageEMS.Shm
