import VoltageEMS.Lib.Bitmap
import VoltageEMS.Shm.Layout

/-!
# Slots, segments and the writer

`core/slot.rs`, `core/header.rs`, `core/writer.rs` and `UnifiedWriter` in `unified_shm.rs` (crate
`voltage-rtdb-shm`).
-/

namespace VoltageEMS.Shm

open List Option

/-! ## Slots -/

/-- `SLOT_UNWRITTEN_BITS`: the quiet NaN of a slot without data. -/
def slotUnwritten : Float := Float.ofBits 0x7FF8000000000000

/-- `PointSlot`; `seq` is odd while a write is in progress. -/
structure PointSlot where
  value : Float
  timestamp : Nat
  raw : Float
  seq : Nat
  dirty : Nat
deriving DecidableEq

/-- An unwritten slot. -/
def PointSlot.new : PointSlot := ⟨slotUnwritten, 0, slotUnwritten, 0, 0⟩

/-- The stores of `PointSlot::set`. -/
inductive SlotOp
  | beginWrite
  | storeValue (value : Float)
  | storeRaw (raw : Float)
  | storeTimestamp (timestamp : Nat)
  | endWrite
  | storeDirty
deriving DecidableEq

/-- One store. -/
def SlotOp.apply (s : PointSlot) : SlotOp → PointSlot
  | beginWrite | endWrite => { s with seq := (s.seq + 1) % 2 ^ 32 }
  | storeValue value => { s with value }
  | storeRaw raw => { s with raw }
  | storeTimestamp timestamp => { s with timestamp }
  | storeDirty => { s with dirty := 1 }

/-- The stores in order. -/
def setOps (value raw : Float) (timestamp : Nat) : List SlotOp :=
  [.beginWrite, .storeValue value, .storeRaw raw, .storeTimestamp timestamp, .endWrite, .storeDirty]

/-- `PointSlot::set`. -/
def PointSlot.set (s : PointSlot) (value raw : Float) (timestamp : Nat) : PointSlot :=
  (setOps value raw timestamp).foldl SlotOp.apply s

theorem PointSlot.set_eq (s : PointSlot) (value raw : Float) (timestamp : Nat) :
    s.set value raw timestamp = ⟨value, timestamp, raw, (s.seq + 2) % 2 ^ 32, 1⟩ := by
  simp [set, setOps, SlotOp.apply]

/-- `try_load_consistent`. -/
def PointSlot.tryLoadConsistent (s : PointSlot) : Option (Float × Float × Nat) :=
  if s.seq % 2 = 1 then none else some (s.value, s.raw, s.timestamp)

/-! ## Segments -/

/-- `UNIFIED_MAGIC`. -/
def unifiedMagic : Nat := 0x564F4C544147455F

/-- `UNIFIED_VERSION`. -/
def unifiedVersion : Nat := 4

/-- `UnifiedHeader`; `routingHash` is the fingerprint of the channel layout. -/
structure UnifiedHeader where
  magic : Nat
  version : Nat
  maxSlots : Nat
  slotCount : Nat
  lastUpdateTs : Nat
  writerHeartbeat : Nat
  routingHash : Nat
  writerGeneration : Nat
deriving DecidableEq

/-- The mapped file: the header and the `slot_count` allocated slots. -/
structure Segment where
  header : UnifiedHeader
  slots : List PointSlot

/-- `UnifiedWriter`: a mapped segment, the dirty bitmap of this process, and the layout table. -/
structure UnifiedWriter where
  segment : Segment
  dirtyWords : List Nat
  layouts : List ChannelLayout

variable (w : UnifiedWriter)

/-- `slot_count`. -/
def UnifiedWriter.slotCount : Nat := w.segment.slots.length

/-- `bail!` with its message, or a panic. -/
inductive ShmError
  | bail (message : String)
  | panicked
deriving DecidableEq, Repr

/-- `{:#X}`. -/
def hexUpper (n : Nat) : String := "0x" ++ (String.ofList (Nat.toDigits 16 n)).toUpper

/-- What a call depends on besides its arguments: the slot limit, the hash of `layout_hash`, the
seed of the generation, the wall clock. -/
structure ShmEnv where
  maxSlots : Nat
  maxSlots_u32 : maxSlots < 2 ^ 32
  layoutHash : ChannelPointCounts → Nat
  layoutHash_u64 : ∀ cp, layoutHash cp < 2 ^ 64
  seed : Nat
  nowMs : Nat

/-- A hash of the telemetry counts. -/
def telemetryEnv : ShmEnv where
  maxSlots := 100000
  maxSlots_u32 := by decide
  layoutHash := fun cp => (cp.entries.map fun e => e.2 (typeIdx .telemetry)).sum % 2 ^ 64
  layoutHash_u64 := fun _ => Nat.mod_lt _ (by decide)
  seed := 0
  nowMs := 1000

/-- `(seed & !1).max(2)`: even and nonzero. -/
def generationSeed (seed : Nat) : Nat := max 2 (seed % 2 ^ 64 / 2 * 2)

/-- `dirty_word_count`. -/
def dirtyWordCount (slotCount : Nat) : Nat := (slotCount + 63) / 64

/-- `UnifiedWriter::create`: a fresh segment whose slots are all unwritten. -/
def create (env : ShmEnv) (cp : ChannelPointCounts) : Except ShmError UnifiedWriter :=
  match allocateLayouts cp with
  | none => .error .panicked
  | some (layouts, slotCount) =>
    if env.maxSlots < slotCount then
      .error (.bail ("Too many slots: " ++ toString slotCount ++ " (max=" ++ toString env.maxSlots ++
        ")"))
    else
      .ok {
        segment := {
          header := {
            magic := unifiedMagic
            version := unifiedVersion
            maxSlots := env.maxSlots
            slotCount := slotCount
            lastUpdateTs := 0
            writerHeartbeat := 0
            routingHash := env.layoutHash cp
            writerGeneration := generationSeed env.seed }
          slots := replicate slotCount .new }
        dirtyWords := replicate (dirtyWordCount slotCount) 0
        layouts := layouts }

namespace UnifiedWriter

/-- `mark_dirty_slot`. -/
def markDirtySlot (words : List Nat) (slot : Nat) : List Nat :=
  words.modify (slot / 64) fun w => w ||| 2 ^ (slot % 64)

/-- `set_direct`. -/
def setDirect (slot : Nat) (value raw : Float) (timestampMs : Nat) :
    UnifiedWriter where
  segment := {
    header := { w.segment.header with writerHeartbeat := timestampMs }
    slots := w.segment.slots.modify slot fun s => s.set value raw timestampMs }
  dirtyWords := markDirtySlot w.dirtyWords slot
  layouts := w.layouts

/-- `get_channel`: value and timestamp of a channel point, through the layout table. -/
def getChannel (p : ChannelPoint) : Option (Float × Nat) := do
  let slot ← lookup w.layouts p
  let s ← w.segment.slots[slot]?
  let (value, _, timestamp) ← s.tryLoadConsistent
  return (value, timestamp)

@[simp] theorem setDirect_layouts (slot : Nat) (value raw : Float) (ts : Nat) :
    (w.setDirect slot value raw ts).layouts = w.layouts := rfl

@[simp] theorem setDirect_slots (slot : Nat) (value raw : Float) (ts : Nat) :
    (w.setDirect slot value raw ts).segment.slots =
      w.segment.slots.modify slot fun s => s.set value raw ts := rfl

theorem getChannel_eq_some {w : UnifiedWriter} {p : ChannelPoint} {v : Float} {ts : Nat} :
    w.getChannel p = some (v, ts) ↔ ∃ slot s raw, lookup w.layouts p = some slot ∧
      w.segment.slots[slot]? = some s ∧ s.tryLoadConsistent = some (v, raw, ts) := by
  simp only [getChannel, bind_eq_bind, bind_eq_some_iff, Option.pure_def,
    some.injEq, Prod.mk.injEq, Prod.exists]
  constructor
  · rintro ⟨slot, hslot, s, hs, v', raw, ts', hload, rfl, rfl⟩
    exact ⟨slot, s, raw, hslot, hs, hload⟩
  rintro ⟨slot, s, raw, hslot, hs, hload⟩
  exact ⟨slot, hslot, s, hs, v, raw, ts, hload, rfl, rfl⟩

end UnifiedWriter

/-- What `create` returns. -/
def freshWriter (env : ShmEnv) (cp : ChannelPointCounts) (layouts : List ChannelLayout) (n : Nat) :
    UnifiedWriter where
  segment := {
    header := ⟨unifiedMagic, unifiedVersion, env.maxSlots, n, 0, 0, env.layoutHash cp,
      generationSeed env.seed⟩
    slots := replicate n .new }
  dirtyWords := replicate (dirtyWordCount n) 0
  layouts := layouts

variable {cp : ChannelPointCounts} {env : ShmEnv}

theorem create_eq_ok {w : UnifiedWriter} (h : create env cp = .ok w) :
    ∃ layouts n, allocateLayouts cp = some (layouts, n) ∧ n ≤ env.maxSlots ∧
      w = freshWriter env cp layouts n := by
  unfold create at h
  split at h
  · cases h
  rename_i layouts n halloc
  split at h
  · cases h
  rename_i hle
  cases h
  exact ⟨layouts, n, halloc, by omega, rfl⟩

theorem create_ok {w : UnifiedWriter} (h : create env cp = .ok w) :
    ∃ slotCount, allocateLayouts cp = some (w.layouts, slotCount) ∧ slotCount ≤ env.maxSlots ∧
      w.segment.slots = replicate slotCount .new ∧ w.segment.header.slotCount = slotCount ∧
      w.segment.header.magic = unifiedMagic ∧ w.segment.header.version = unifiedVersion ∧
      w.segment.header.routingHash = env.layoutHash cp := by
  obtain ⟨layouts, n, halloc, hle, rfl⟩ := create_eq_ok h
  exact ⟨n, halloc, hle, rfl, rfl, rfl, rfl, rfl⟩

theorem dirtyWords_create {w : UnifiedWriter} (h : create env cp = .ok w) :
    w.dirtyWords = replicate (dirtyWordCount w.slotCount) 0 := by
  obtain ⟨layouts, n, -, -, rfl⟩ := create_eq_ok h
  simp [freshWriter, UnifiedWriter.slotCount]

theorem create_of_allocateLayouts {layouts : List ChannelLayout} {n : Nat}
    (halloc : allocateLayouts cp = some (layouts, n)) (hfits : n ≤ env.maxSlots) :
    ∃ w, create env cp = .ok w ∧ w.layouts = layouts ∧
      w.segment.slots = replicate n .new := by
  unfold create
  rw [halloc]
  simp only [Nat.not_lt.mpr hfits, if_false]
  exact ⟨_, rfl, rfl, rfl⟩

end VoltageEMS.Shm
