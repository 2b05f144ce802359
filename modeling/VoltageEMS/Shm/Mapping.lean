import VoltageEMS.Shm.Handle
import VoltageEMS.Shm.Snapshot

/-!
# Opening a segment file

`UnifiedReader::open`, `UnifiedReader::open_raw`, `ActionWriter::open` and `SlotReader::slot_at`, down
to the bytes of the mapped file.  The coverage check reads `max_slots`, the accesses read
`slot_count`, and nothing compares the two.
-/

namespace VoltageEMS.Shm

open Lib List

/-! ## The file -/

/-- `slot_offset`: `size_of::<UnifiedHeader>()`. -/
def slotOffset : Nat := 64

/-- `size_of::<PointSlot>()`. -/
def slotSize : Nat := 32

/-- `calculate_file_size`. -/
def calculateFileSize (maxSlots : Nat) : Nat := slotOffset + maxSlots * slotSize

/-- The file at the configured path: the path as it is printed, and the bytes or the text of the
error. -/
structure ShmFile where
  path : String
  contents : Except String (List UInt8)

/-- The number in `len` bytes from `start` on. -/
def readField (bytes : List UInt8) (start len : Nat) : Nat :=
  ofLeBytes ((bytes.drop start).take len)

/-- The header as the cast of the first 64 bytes reads it. -/
def headerOf (bytes : List UInt8) : UnifiedHeader where
  magic := readField bytes 0 8
  version := readField bytes 8 4
  maxSlots := readField bytes 12 4
  slotCount := readField bytes 16 4
  lastUpdateTs := readField bytes 24 8
  writerHeartbeat := readField bytes 32 8
  routingHash := readField bytes 40 8
  writerGeneration := readField bytes 48 8

/-- `verify_file_min_size`. -/
def verifyFileMinSize (path : String) (len : Nat) : Except ShmError Unit :=
  if len < slotOffset then
    .error (.bail ("SHM file " ++ path ++ " truncated: len=" ++ toString len ++ " < header size " ++
      toString slotOffset ++ " — refusing unsafe header cast"))
  else
    .ok ()

/-- `verify_mmap_covers_slots`. -/
def verifyMmapCoversSlots (path : String) (mmapLen maxSlots : Nat) : Except ShmError Unit :=
  if mmapLen < calculateFileSize maxSlots then
    .error (.bail ("SHM file " ++ path ++ " too small for declared max_slots=" ++
      toString maxSlots ++ ": have " ++ toString mmapLen ++ " bytes, need " ++
      toString (calculateFileSize maxSlots)))
  else
    .ok ()

/-- The mapping of a file that is not too short. -/
def mapFile (file : ShmFile) : Except ShmError (List UInt8) := do
  match file.contents with
  | .error message => throw (.bail message)
  | .ok bytes =>
    verifyFileMinSize file.path bytes.length
    return bytes

/-! ## Mappings -/

/-- `SlotReader`, and `SlotWriter` as far as its accesses go. -/
structure SlotMap where
  mmap : List UInt8
  maxSlots : Nat
  slotCount : Nat
deriving DecidableEq

/-- What an access finds. -/
inductive SlotAccess
  | panicked
  | slot (bytes : List UInt8)
  | outside
deriving DecidableEq

/-- `slot_at`: the index is checked against `slot_count`, the pointer is not checked. -/
def SlotMap.slotAt (m : SlotMap) (index : Nat) : SlotAccess :=
  if index < m.slotCount then
    match field m.mmap (slotOffset + index * slotSize) slotSize with
    | some bytes => .slot bytes
    | none => .outside
  else
    .panicked

/-- The checks of `UnifiedReader::open` and `UnifiedWriter::open_existing`. -/
def openMapping (env : ShmEnv) (file : ShmFile) (cp : ChannelPointCounts) :
    Except ShmError (SlotMap × List ChannelLayout) := do
  let mmap ← mapFile file
  let (maxSlots, slotCount) ← validateShmHeader env (headerOf mmap) cp
  verifyMmapCoversSlots file.path mmap.length maxSlots
  match allocateLayouts cp with
  | none => throw .panicked
  | some (layouts, calculatedSlots) =>
    verifySlotCount slotCount calculatedSlots
    return (⟨mmap, maxSlots, slotCount⟩, layouts)

/-- `UnifiedReader`. -/
structure UnifiedReader where
  inner : SlotMap
  channelLayouts : List ChannelLayout
  channelIds : List Nat

/-- `UnifiedReader::open`. -/
def openReader (env : ShmEnv) (file : ShmFile) (cp : ChannelPointCounts) :
    Except ShmError UnifiedReader := do
  let (inner, channelLayouts) ← openMapping env file cp
  let valid := channelLayouts.zipIdx.filter fun e => decide (0 < e.1.totalPoints)
  return { inner, channelLayouts, channelIds := valid.map fun e => e.2 % 2 ^ 32 }

/-- `UnifiedReader::open_raw`: only the magic number is checked. -/
def openRaw (file : ShmFile) : Except ShmError UnifiedReader := do
  let mmap ← mapFile file
  let header := headerOf mmap
  if header.magic ≠ unifiedMagic then
    throw (.bail ("Invalid magic: expected " ++ hexUpper unifiedMagic ++ ", got " ++
      hexUpper header.magic))
  verifyMmapCoversSlots file.path mmap.length header.maxSlots
  return { inner := ⟨mmap, header.maxSlots, header.slotCount⟩, channelLayouts := [],
           channelIds := [] }

/-- `UnifiedWriter::open_existing`, which `ActionWriter::open` wraps: its mapping and its layout
table. -/
def openActions (env : ShmEnv) (file : ShmFile) (cp : ChannelPointCounts) :
    Except ShmError (SlotMap × List ChannelLayout) := openMapping env file cp

/-- The mappings that one of the three openers makes of a file. -/
inductive Opened (env : ShmEnv) (file : ShmFile) (cp : ChannelPointCounts) : SlotMap → Prop
  | reader {r : UnifiedReader} (h : openReader env file cp = .ok r) : Opened env file cp r.inner
  | raw {r : UnifiedReader} (h : openRaw file = .ok r) : Opened env file cp r.inner
  | actions {m : SlotMap} {layouts : List ChannelLayout}
      (h : openActions env file cp = .ok (m, layouts)) : Opened env file cp m

/-! ## What the checks establish -/

variable {file : ShmFile}

theorem mapFile_ok {bytes : List UInt8} (h : mapFile file = .ok bytes) :
    file.contents = .ok bytes ∧ slotOffset ≤ bytes.length := by
  unfold mapFile at h
  cases hcontents : file.contents with
  | error message => rw [hcontents] at h; cases h
  | ok read =>
    rw [hcontents] at h
    obtain ⟨⟨⟩, hsize, hread⟩ := bind_eq_ok_iff.mp h
    cases hread
    refine ⟨rfl, ?_⟩
    unfold verifyFileMinSize at hsize
    split at hsize
    · cases hsize
    · omega

theorem verifyMmapCoversSlots_ok {path : String} {len maxSlots : Nat}
    (h : verifyMmapCoversSlots path len maxSlots = .ok ()) : calculateFileSize maxSlots ≤ len := by
  unfold verifyMmapCoversSlots at h
  split at h
  · cases h
  · omega

variable {cp : ChannelPointCounts} {env : ShmEnv}

theorem validateShmHeader_ok {header : UnifiedHeader} {r : Nat × Nat}
    (h : validateShmHeader env header cp = .ok r) : r = (header.maxSlots, header.slotCount) := by
  unfold validateShmHeader at h
  split_ifs at h
  cases h
  rfl

/-- What a mapping keeps of the file it was made from. -/
structure SlotMap.Of (m : SlotMap) (file : ShmFile) : Prop where
  contents : file.contents = .ok m.mmap
  maxSlots : m.maxSlots = (headerOf m.mmap).maxSlots
  slotCount : m.slotCount = (headerOf m.mmap).slotCount
  header_inside : slotOffset ≤ m.mmap.length
  covers : calculateFileSize m.maxSlots ≤ m.mmap.length

variable {m : SlotMap} {layouts : List ChannelLayout}

/-- **What an accepted file satisfies**, with the validation the opener of segments repeats. -/
theorem openMapping_ok (h : openMapping env file cp = .ok (m, layouts)) :
    m.Of file ∧ validateShmHeader env (headerOf m.mmap) cp = .ok (m.maxSlots, m.slotCount) ∧
      ∃ n, allocateLayouts cp = some (layouts, n) ∧ verifySlotCount m.slotCount n = .ok () := by
  obtain ⟨mmap, hmap, h⟩ := bind_eq_ok_iff.mp h
  obtain ⟨⟨maxSlots, slotCount⟩, hheader, h⟩ := bind_eq_ok_iff.mp h
  obtain ⟨⟨⟩, hcovers, h⟩ := bind_eq_ok_iff.mp h
  split at h
  case h_1 => cases h
  case h_2 n halloc =>
    obtain ⟨⟨⟩, hcount, h⟩ := bind_eq_ok_iff.mp h
    cases h
    obtain ⟨hcontents, hinside⟩ := mapFile_ok hmap
    obtain ⟨rfl, rfl⟩ := Prod.mk.inj (validateShmHeader_ok hheader)
    exact ⟨⟨hcontents, rfl, rfl, hinside, verifyMmapCoversSlots_ok hcovers⟩, hheader, n, halloc,
      hcount⟩

theorem openRaw_ok {r : UnifiedReader} (h : openRaw file = .ok r) : r.inner.Of file := by
  obtain ⟨mmap, hmap, h⟩ := bind_eq_ok_iff.mp h
  dsimp only at h
  split at h
  · cases h
  obtain ⟨⟨⟩, hcovers, h⟩ := bind_eq_ok_iff.mp h
  cases h
  obtain ⟨hcontents, hinside⟩ := mapFile_ok hmap
  exact ⟨hcontents, rfl, rfl, hinside, verifyMmapCoversSlots_ok hcovers⟩

theorem Opened.of_file (h : Opened env file cp m) : m.Of file := by
  cases h with
  | reader h =>
    obtain ⟨⟨inner, layouts⟩, hopen, h⟩ := bind_eq_ok_iff.mp h
    cases h
    exact (openMapping_ok hopen).1
  | raw h => exact openRaw_ok h
  | actions h => exact (openMapping_ok h).1

/-! ## Slots of an accepted file -/

theorem SlotMap.slotAt_iff {i : Nat} (hi : i < m.slotCount) :
    (∃ bytes, m.slotAt i = .slot bytes ∧ bytes.length = slotSize) ↔
      slotOffset + i * slotSize + slotSize ≤ m.mmap.length := by
  unfold slotAt field
  rw [if_pos hi]
  by_cases hfit : slotOffset + i * slotSize + slotSize ≤ m.mmap.length
  · simp only [hfit, if_true, SlotAccess.slot.injEq, iff_true]
    refine ⟨_, rfl, ?_⟩
    rw [length_take, length_drop]
    omega
  · simp [hfit]

theorem SlotMap.slotAt_outside_iff {i : Nat} :
    m.slotAt i = .outside ↔
      i < m.slotCount ∧ m.mmap.length < slotOffset + i * slotSize + slotSize := by
  unfold slotAt field
  split_ifs with hi hfit
  · simp only [false_iff, not_and]
    omega
  · simp only [true_iff]
    omega
  · simp [hi]

theorem SlotMap.slotAt_ne_outside
    (hslots : ∀ i < m.slotCount, slotOffset + i * slotSize + slotSize ≤ m.mmap.length) (i : Nat) :
    m.slotAt i ≠ .outside := by
  intro houtside
  obtain ⟨hi, hlen⟩ := SlotMap.slotAt_outside_iff.mp houtside
  have hinside := hslots i hi
  omega

theorem SlotMap.slots_inside_iff (hheader : slotOffset ≤ m.mmap.length) :
    (∀ i < m.slotCount, slotOffset + i * slotSize + slotSize ≤ m.mmap.length) ↔
      calculateFileSize m.slotCount ≤ m.mmap.length := by
  unfold calculateFileSize slotSize
  constructor
  · intro hslots
    rcases Nat.eq_zero_or_pos m.slotCount with hzero | hpos
    · rw [hzero]
      omega
    have hlast := hslots (m.slotCount - 1) (by omega)
    omega
  intro hroom i hi
  omega

/-- The header of the file counts no more slots than it declares. -/
def ShmFile.CountsWithin (file : ShmFile) : Prop :=
  ∀ bytes, file.contents = .ok bytes → (headerOf bytes).slotCount ≤ (headerOf bytes).maxSlots

theorem SlotMap.Of.countsWithin_iff (hof : m.Of file) :
    file.CountsWithin ↔ m.slotCount ≤ m.maxSlots := by
  simp only [ShmFile.CountsWithin, hof.contents, Except.ok.injEq, forall_eq', hof.slotCount,
    hof.maxSlots]

/-- Every slot below the count is there in full, and no access leaves the mapping. -/
def SlotMap.Inside (m : SlotMap) : Prop :=
  (∀ i < m.slotCount, ∃ bytes, m.slotAt i = .slot bytes ∧ bytes.length = slotSize) ∧
    ∀ i, m.slotAt i ≠ .outside

theorem SlotMap.inside_iff (hheader : slotOffset ≤ m.mmap.length) :
    m.Inside ↔ calculateFileSize m.slotCount ≤ m.mmap.length := by
  rw [← SlotMap.slots_inside_iff hheader]
  constructor
  · rintro ⟨hslots, -⟩ i hi
    exact (SlotMap.slotAt_iff hi).mp (hslots i hi)
  intro hslots
  exact ⟨fun i hi => (SlotMap.slotAt_iff hi).mpr (hslots i hi),
    SlotMap.slotAt_ne_outside hslots⟩

/-- **The slots of an accepted file lie in the mapping** if its header counts no more slots than it
declares, whichever opener accepted it; of a file with no room beyond the declared slots this is
needed. -/
theorem opened_slots_inside {env : ShmEnv} {file : ShmFile} {cp : ChannelPointCounts} {m : SlotMap}
    (h : Opened env file cp m) :
    (file.CountsWithin → m.Inside) ∧
      (m.mmap.length < calculateFileSize (m.maxSlots + 1) → (m.Inside ↔ file.CountsWithin)) := by
  have hof := h.of_file
  have hcovers := hof.covers
  rw [hof.countsWithin_iff, SlotMap.inside_iff hof.header_inside]
  unfold calculateFileSize slotSize at *
  omega

/-- A header with these slots. -/
private def sampleHeader (maxSlots slotCount : Nat) : UnifiedHeader :=
  ⟨unifiedMagic, unifiedVersion, maxSlots, slotCount, 0, 0, 1, 2⟩

/-- One telemetry point. -/
private def sampleConfig : ChannelPointCounts := ⟨[(0, ![1, 0, 0, 0])], by simp⟩

/-- A file with that header and body. -/
private def sampleFile (maxSlots slotCount bodyLength : Nat) : ShmFile :=
  ⟨"\"/shm/voltage-rtdb.shm\"",
    .ok (headerBytes (sampleHeader maxSlots slotCount) ++ replicate bodyLength 0)⟩

theorem opened_slots_inside_one_slot :
    ∃ m, Opened telemetryEnv (sampleFile 1 1 32) sampleConfig m ∧ m.slotCount = 1 ∧ m.Inside := by
  obtain ⟨r, hr⟩ : ∃ r, openReader telemetryEnv (sampleFile 1 1 32) sampleConfig = .ok r := ⟨_, rfl⟩
  refine ⟨r.inner, .reader hr, ?_, (opened_slots_inside (.reader hr)).1 ?_⟩
  · cases hr
    decide
  · intro bytes hbytes
    cases hbytes
    decide

/-- A file of 64 bytes whose header declares no slots and counts one: all three openers accept it,
and slot 0 is outside. -/
theorem slot_past_mapping :
    (∃ r, openReader telemetryEnv (sampleFile 0 1 0) sampleConfig = .ok r ∧
      0 < r.inner.slotCount ∧ r.inner.slotAt 0 = .outside) ∧
    (∃ r, openRaw (sampleFile 0 1 0) = .ok r ∧
      0 < r.inner.slotCount ∧ r.inner.slotAt 0 = .outside) ∧
    ∃ m layouts, openActions telemetryEnv (sampleFile 0 1 0) sampleConfig = .ok (m, layouts) ∧
      0 < m.slotCount ∧ m.slotAt 0 = .outside := by
  refine ⟨⟨_, rfl, by decide, by decide⟩, ⟨_, rfl, by decide, by decide⟩,
    ⟨_, _, rfl, by decide, by decide⟩⟩

end VoltageEMS.Shm
