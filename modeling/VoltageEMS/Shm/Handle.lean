import VoltageEMS.Lib.ReverseTable
import VoltageEMS.Shm.Segment

/-!
# The swappable layout of comsrv

`UnifiedWriter::open_existing`, `ChannelToSlotIndex`, `ReverseSlotIndex` and
`ShmHandle::rebuild_via_swap`.
-/

namespace VoltageEMS.Shm

open Lib List

/-! ## Opening a segment -/

/-- `{:#018X}`. -/
def hexUpper16 (n : Nat) : String :=
  let digits := (String.ofList (Nat.toDigits 16 n)).toUpper
  "0x" ++ "".pushn '0' (16 - digits.length) ++ digits

/-- `validate_shm_header`: the slot limit and the slot count of the file. -/
def validateShmHeader (env : ShmEnv) (header : UnifiedHeader) (cp : ChannelPointCounts) :
    Except ShmError (Nat × Nat) :=
  if header.magic ≠ unifiedMagic then
    .error (.bail ("Invalid magic: expected " ++ hexUpper unifiedMagic ++ ", got " ++
      hexUpper header.magic))
  else if header.version ≠ unifiedVersion then
    .error (.bail ("Version mismatch: expected " ++ toString unifiedVersion ++ ", got " ++
      toString header.version))
  else if env.layoutHash cp ≠ header.routingHash then
    .error (.bail ("Channel layout mismatch! SHM layout_hash=" ++ hexUpper16 header.routingHash ++
      ", local layout_hash=" ++ hexUpper16 (env.layoutHash cp) ++
      ". Slot indexes may be misaligned. Solution: Restart the writer process (comsrv) to " ++
      "synchronize."))
  else
    .ok (header.maxSlots, header.slotCount)

/-- `verify_slot_count`. -/
def verifySlotCount (fileSlotCount calculatedSlots : Nat) : Except ShmError Unit :=
  if calculatedSlots ≠ fileSlotCount then
    .error (.bail ("Slot count mismatch: file=" ++ toString fileSlotCount ++ ", calculated=" ++
      toString calculatedSlots ++ ". allocate_layouts() produced different results. Solution: " ++
      "Restart both services to synchronize."))
  else
    .ok ()

/-- `open_existing`. -/
def openExisting (env : ShmEnv) (segment : Segment) (cp : ChannelPointCounts) :
    Except ShmError UnifiedWriter := do
  let (_, slotCount) ← validateShmHeader env segment.header cp
  match allocateLayouts cp with
  | none => throw .panicked
  | some (layouts, calculatedSlots) =>
    verifySlotCount slotCount calculatedSlots
    return { segment, dirtyWords := replicate (dirtyWordCount slotCount) 0, layouts }

variable {cp : ChannelPointCounts} {w : UnifiedWriter} {env : ShmEnv}

theorem openExisting_ok {segment : Segment} (h : openExisting env segment cp = .ok w) :
    w.segment = segment ∧ segment.header.routingHash = env.layoutHash cp ∧
      allocateLayouts cp = some (w.layouts, segment.header.slotCount) := by
  unfold openExisting validateShmHeader at h
  by_cases hmagic : segment.header.magic = unifiedMagic
  case neg => simp [hmagic, bind, Except.bind] at h
  by_cases hversion : segment.header.version = unifiedVersion
  case neg => simp [hmagic, hversion, bind, Except.bind] at h
  by_cases hhash : env.layoutHash cp = segment.header.routingHash
  case neg => simp [hmagic, hversion, hhash, bind, Except.bind] at h
  simp only [hmagic, hversion, hhash, ne_eq, not_true_eq_false, if_false, bind, Except.bind] at h
  split at h
  · cases h
  rename_i layouts n halloc
  unfold verifySlotCount at h
  by_cases hcount : n = segment.header.slotCount
  case neg => simp [hcount] at h
  simp only [hcount, ne_eq, not_true_eq_false, if_false, pure, Except.pure] at h
  cases h
  exact ⟨rfl, hhash.symm, hcount ▸ halloc⟩

theorem openExisting_create (h : create env cp = .ok w) :
    openExisting env w.segment cp = .ok w := by
  obtain ⟨layouts, n, halloc, -, rfl⟩ := create_eq_ok h
  simp [openExisting, validateShmHeader, verifySlotCount, freshWriter, halloc, bind, Except.bind,
    pure, Except.pure]

/-! ## Indexes -/

/-- `ChannelToSlotIndex`: the entries of the hash map, in the order of insertion. -/
structure ChannelToSlotIndex where
  entries : List (ChannelPoint × Nat)
deriving DecidableEq

namespace ChannelToSlotIndex

/-- The entries of one channel. -/
def channelEntries (layout : ChannelLayout) (channelId : Nat) : List (ChannelPoint × Nat) :=
  if layout.totalPoints = 0 then []
  else
    [PointType.telemetry, .signal, .control, .adjustment].flatMap fun t =>
      (List.range (layout.typeCounts (typeIdx t))).filterMap fun pointId =>
        (layout.slot t.toU8 pointId).map fun slot => (⟨channelId % 2 ^ 32, t, pointId⟩, slot)

/-- `from_unified_writer`. -/
def fromUnifiedWriter (w : UnifiedWriter) : ChannelToSlotIndex :=
  ⟨w.layouts.zipIdx.flatMap fun e => channelEntries e.1 e.2⟩

variable {p : ChannelPoint}

theorem mem_channelEntries {layout : ChannelLayout} {channelId slot : Nat} :
    (p, slot) ∈ channelEntries layout channelId ↔
      layout.totalPoints ≠ 0 ∧ p.channelId = channelId % 2 ^ 32 ∧
        layout.slot p.pointType.toU8 p.pointId = some slot := by
  obtain ⟨channel, t, id⟩ := p
  unfold channelEntries
  split
  case isTrue hzero => simp [hzero]
  case isFalse hzero =>
    simp only [mem_flatMap, mem_filterMap, mem_range, Option.map_eq_some_iff,
      Prod.mk.injEq, ChannelPoint.mk.injEq]
    constructor
    · rintro ⟨t', -, id', -, slot', hslot, ⟨rfl, rfl, rfl⟩, rfl⟩
      exact ⟨hzero, rfl, hslot⟩
    rintro ⟨-, rfl, hslot⟩
    refine ⟨t, by cases t <;> simp, id, ?_, slot, hslot, ⟨rfl, rfl, rfl⟩, rfl⟩
    by_contra hge
    simp [ChannelLayout.slot, t.toU8_lt, typeIdx] at hslot hge
    omega

/-- **The index holds what `lookup` finds**, in the channels that have points. -/
theorem mem_fromUnifiedWriter (hlen : w.layouts.length ≤ 2 ^ 32) {slot : Nat} :
    (p, slot) ∈ (fromUnifiedWriter w).entries ↔
      ∃ l, w.layouts[p.channelId]? = some l ∧ l.totalPoints ≠ 0 ∧
        lookup w.layouts p = some slot := by
  simp only [fromUnifiedWriter, mem_flatMap, mem_channelEntries, Prod.exists]
  constructor
  · rintro ⟨l, channel, hmem, htotal, hid, hslot⟩
    have hl : w.layouts[channel]? = some l := mem_zipIdx_iff_getElem?.mp hmem
    have hlt : channel < w.layouts.length := (List.getElem?_eq_some_iff.mp hl).1
    rw [Nat.mod_eq_of_lt (hlt.trans_le hlen)] at hid
    subst hid
    exact ⟨l, hl, htotal, by rw [lookup, hl]; exact hslot⟩
  rintro ⟨l, hl, htotal, hslot⟩
  have hlt : p.channelId < w.layouts.length := (List.getElem?_eq_some_iff.mp hl).1
  refine ⟨l, p.channelId, mem_zipIdx_iff_getElem?.mpr hl, htotal,
    (Nat.mod_eq_of_lt (hlt.trans_le hlen)).symm, ?_⟩
  rw [lookup, hl] at hslot
  exact hslot

end ChannelToSlotIndex

/-- `lookup`: the last insertion under a key wins. -/
def ChannelToSlotIndex.lookup (idx : ChannelToSlotIndex) (p : ChannelPoint) : Option Nat :=
  (idx.entries.reverse.find? fun e => e.1 == p).map Prod.snd

/-- `ReverseSlotIndex`: slot to origin. -/
structure ReverseSlotIndex where
  origins : List (Option ChannelPoint)
deriving DecidableEq

namespace ReverseSlotIndex

/-- One entry. -/
def place (slotCount : Nat) (origins : List (Option ChannelPoint)) (e : ChannelPoint × Nat) :
    List (Option ChannelPoint) :=
  if e.2 < slotCount then origins.set e.2 (some e.1) else origins

/-- `from_forward`, over the entries in the order in which the map yields them. -/
def fromForward (entries : List (ChannelPoint × Nat)) (slotCount : Nat) : ReverseSlotIndex :=
  ⟨entries.foldl (place slotCount) (replicate slotCount none)⟩

/-- `get`. -/
def get (rev : ReverseSlotIndex) (slot : Nat) : Option ChannelPoint :=
  (rev.origins[slot]?).join

theorem origins_fromForward (entries : List (ChannelPoint × Nat)) (slotCount : Nat) :
    (fromForward entries slotCount).origins = reverseTable entries slotCount := rfl

theorem mem_of_get {entries : List (ChannelPoint × Nat)} {slotCount slot : Nat} {p : ChannelPoint}
    (h : (fromForward entries slotCount).get slot = some p) : (p, slot) ∈ entries := by
  rw [get, origins_fromForward] at h
  exact mem_of_reverseTable h

end ReverseSlotIndex

/-! ## The handle -/

/-- The immutable part of `PointWatchSignaler`; it is shared by every writer it is attached to. -/
structure PointWatchSignaler where
  reverseIndex : ReverseSlotIndex
  producerId : Nat
deriving DecidableEq

/-- `ShmLayout`: a writer, the signaler attached to it, and the indexes of its layout table. -/
structure ShmLayout where
  writer : UnifiedWriter
  pointWatch : Option PointWatchSignaler
  index : ChannelToSlotIndex
  reverseIndex : ReverseSlotIndex

/-- `ShmLayout::new` on a writer and the index built from it. -/
def ShmLayout.new (writer : UnifiedWriter) (pointWatch : Option PointWatchSignaler) : ShmLayout :=
  let index := ChannelToSlotIndex.fromUnifiedWriter writer
  { writer, pointWatch, index,
    reverseIndex := .fromForward index.entries writer.slotCount }

/-- `ShmHandle`: the current layout, and the signaler registered at startup. -/
structure ShmHandle where
  layout : Option ShmLayout
  pointWatcher : Option PointWatchSignaler

/-- What the file system does during a rebuild: the paths as they are printed, and the error of the
first operation that fails. -/
structure SwapIo where
  stagingPath : String
  canonicalPath : String
  createError : Option String := none
  flushError : Option String := none
  renameError : Option String := none
  openError : Option String := none

/-- `map_err(|e| anyhow!("{context}: {e}"))`; a panic passes. -/
def ShmError.withContext (context : String) : ShmError → ShmError
  | .bail message => .bail (context ++ ": " ++ message)
  | .panicked => .panicked

/-- An operation of the file system. -/
def SwapIo.run (error : Option String) : Except ShmError Unit :=
  match error with
  | some message => .error (.bail message)
  | none => .ok ()

/-- `ShmHandle::rebuild_via_swap`: the layout it stores.  On an error the layout stays. -/
def rebuildViaSwap (env : ShmEnv) (io : SwapIo) (h : ShmHandle) (cp : ChannelPointCounts) :
    Except ShmError ShmHandle := do
  let staged ← (SwapIo.run io.createError >>= fun _ => create env cp).mapError
    (.withContext ("create staging SHM at " ++ io.stagingPath))
  (SwapIo.run io.flushError).mapError
    (.withContext ("flush staging SHM at " ++ io.stagingPath ++ " before swap"))
  (SwapIo.run io.renameError).mapError fun _ =>
    .bail ("rename " ++ io.stagingPath ++ " → " ++ io.canonicalPath)
  -- the canonical path now names the staged file
  let writer ← (SwapIo.run io.openError >>= fun _ => openExisting env staged.segment cp).mapError
    (.withContext ("re-open new SHM at canonical " ++ io.canonicalPath ++ " as writer"))
  return { h with layout := some (.new writer h.pointWatcher) }

/-- **What a rebuild stores**: a fresh writer of the new configuration with its own indexes and the
registered signaler. -/
theorem rebuildViaSwap_ok {io : SwapIo} {h h' : ShmHandle}
    (hrun : rebuildViaSwap env io h cp = .ok h') :
    ∃ w, create env cp = .ok w ∧ h' = { h with layout := some (.new w h.pointWatcher) } := by
  unfold rebuildViaSwap SwapIo.run at hrun
  cases hc : io.createError <;> simp [hc, bind, Except.bind, Except.mapError] at hrun
  cases hw : create env cp <;> simp [hw] at hrun
  cases hf : io.flushError <;> simp [hf] at hrun
  cases hr : io.renameError <;> simp [hr] at hrun
  cases ho : io.openError <;> simp [ho, openExisting_create hw, pure, Except.pure] at hrun
  exact ⟨_, rfl, hrun.symm⟩

end VoltageEMS.Shm
