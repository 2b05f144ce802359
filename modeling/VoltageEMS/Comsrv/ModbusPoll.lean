import VoltageEMS.Comsrv.Registers

/-!
# Register segments of a Modbus poll

The registers of a group of points are read in segments, each in one request
(`build_register_segments` and `read_register_segment` in
`comsrv/src/protocols/adapters/modbus_poll.rs`).  A segment ends where its last point ends, so a
point that ends further is cut off.
-/

namespace VoltageEMS.Comsrv.ModbusPoll

open Lib Comsrv.Mapping Comsrv.Registers
open VoltageEMS.Iec61850 (Value applyTransform)

/-! ## Segments -/

/-- A point with its first register and their number. -/
structure Entry where
  addr : Nat
  count : Nat
  point : PointConfig

/-- The number of registers a value occupies. -/
def registerCount : DataFormat → Nat
  | .bool | .uint16 | .int16 => 1
  | .uint32 | .int32 | .float32 => 2
  | .uint64 | .int64 | .float64 => 4
  | .string => 8

/-- The registers `startAddress` up to `endAddress`, read in one request. -/
structure RegisterSegment where
  startAddress : Nat
  endAddress : Nat
  points : List Entry

/-- The sum of two 16-bit numbers; with overflow checks, one that is too large panics. -/
def addU16 (checks : Bool) (a b : Nat) : Option Nat :=
  if a + b < 65536 then some (a + b) else if checks then none else some ((a + b) % 65536)

/-- The loop of `build_register_segments`, from the segment that is being built. -/
def buildFrom (checks : Bool) (maxGap maxBatchSize : Nat) :
    Option RegisterSegment → List Entry → Option (List RegisterSegment)
  | none, [] => some []
  | some seg, [] => some [seg]
  | none, e :: es =>
    (addU16 checks e.addr e.count).bind fun stop =>
      buildFrom checks maxGap maxBatchSize (some ⟨e.addr, stop, [e]⟩) es
  | some seg, e :: es =>
    (addU16 checks e.addr e.count).bind fun stop =>
      if e.addr - seg.endAddress ≤ maxGap ∧ stop - seg.startAddress ≤ maxBatchSize then
        buildFrom checks maxGap maxBatchSize (some ⟨seg.startAddress, stop, seg.points ++ [e]⟩) es
      else
        (buildFrom checks maxGap maxBatchSize (some ⟨e.addr, stop, [e]⟩) es).map (seg :: ·)

/-- The segments of points in the order of their registers. -/
def buildRegisterSegments (checks : Bool) (sortedPoints : List Entry) (maxGap maxBatchSize : Nat) :
    Option (List RegisterSegment) :=
  buildFrom checks maxGap maxBatchSize none sortedPoints

/-- The register after the point's last one. -/
def Entry.stop (e : Entry) : Nat := e.addr + e.count

section Segments

variable {checks : Bool} {maxGap maxBatchSize : Nat}

theorem addU16_eq {e : Entry} (h : e.stop < 65536) : addU16 checks e.addr e.count = some e.stop :=
  if_pos h

theorem flatMap_buildFrom : ∀ {cur : Option RegisterSegment} {es : List Entry}
    {segs : List RegisterSegment}, buildFrom checks maxGap maxBatchSize cur es = some segs →
    segs.flatMap RegisterSegment.points = cur.elim [] RegisterSegment.points ++ es
  | none, [], segs, h => by
    cases h
    rfl
  | some seg, [], segs, h => by
    cases h
    simp
  | none, e :: es, segs, h => by
    obtain ⟨stop, -, h⟩ := Option.bind_eq_some_iff.mp h
    have hpoints := flatMap_buildFrom h
    exact hpoints
  | some seg, e :: es, segs, h => by
    obtain ⟨stop, -, h⟩ := Option.bind_eq_some_iff.mp h
    split at h
    · rw [flatMap_buildFrom h]
      simp
    obtain ⟨rest, hrest, rfl⟩ := Option.map_eq_some_iff.mp h
    rw [List.flatMap_cons, flatMap_buildFrom hrest]
    rfl

theorem isSome_buildFrom : ∀ {cur : Option RegisterSegment} {es : List Entry},
    (buildFrom checks maxGap maxBatchSize cur es).isSome = true ↔
      (checks = true → ∀ e ∈ es, e.stop < 65536)
  | none, [] => by simp [buildFrom]
  | some seg, [] => by simp [buildFrom]
  | cur, e :: es => by
    have hadd : ∀ f : Nat → Option (List RegisterSegment),
        (∀ stop, (f stop).isSome = true ↔ (checks = true → ∀ e ∈ es, e.stop < 65536)) →
        (((addU16 checks e.addr e.count).bind f).isSome = true ↔
          (checks = true → ∀ d ∈ e :: es, d.stop < 65536)) := by
      intro f hf
      by_cases hfit : e.stop < 65536
      · rw [addU16_eq hfit, Option.bind_some, hf]
        simp [hfit]
      have hover : addU16 checks e.addr e.count =
          if checks then none else some (e.stop % 65536) := if_neg hfit
      cases checks with
      | true => simp [hover, hfit]
      | false => simp [hover, hf]
    cases cur with
    | none => exact hadd _ fun stop => isSome_buildFrom
    | some seg =>
      refine hadd _ fun stop => ?_
      split
      · exact isSome_buildFrom
      · rw [Option.isSome_map, isSome_buildFrom]

/-- The segment holds the registers of every one of its points. -/
structure RegisterSegment.Holds (seg : RegisterSegment) : Prop where
  starts : ∀ e ∈ seg.points, seg.startAddress ≤ e.addr
  ends : ∀ e ∈ seg.points, e.stop ≤ seg.endAddress
  bounded : seg.endAddress < 65536

theorem holds_single {e : Entry} (hstop : e.stop < 65536) :
    RegisterSegment.Holds ⟨e.addr, e.stop, [e]⟩ :=
  ⟨by simp, by simp, hstop⟩

/-- One point no later than another: it starts and ends no later. -/
def Entry.Before (d e : Entry) : Prop := d.addr ≤ e.addr ∧ d.stop ≤ e.stop

theorem holds_buildFrom : ∀ {es : List Entry} {seg : RegisterSegment}
    {segs : List RegisterSegment}, buildFrom checks maxGap maxBatchSize (some seg) es = some segs →
    (∀ e ∈ es, e.stop < 65536) → es.Pairwise Entry.Before →
    (∀ e ∈ es, seg.startAddress ≤ e.addr ∧ seg.endAddress ≤ e.stop) → seg.Holds →
    ∀ s ∈ segs, s.Holds
  | [], seg, segs, h, _, _, _, hseg => by
    cases h
    simpa using hseg
  | e :: es, seg, segs, h, hstop, horder, hafter, hseg => by
    have hstops : ∀ d ∈ es, d.stop < 65536 := fun d hd => hstop d (.tail _ hd)
    obtain ⟨hfirst, horder⟩ := List.pairwise_cons.mp horder
    obtain ⟨hstart, hend⟩ := hafter e (.head _)
    rw [buildFrom, addU16_eq (hstop e (.head _)), Option.bind_some] at h
    split at h
    · -- the end moves to the end of the new point, which is no earlier
      refine holds_buildFrom h hstops horder (fun d hd => ?_) ⟨?_, ?_, hstop e (.head _)⟩
      · exact ⟨(hafter d (.tail _ hd)).1, (hfirst d hd).2⟩
      · simpa [or_imp, forall_and] using ⟨hseg.starts, hstart⟩
      · simpa [or_imp, forall_and] using fun d hd => (hseg.ends d hd).trans hend
    obtain ⟨rest, hrest, rfl⟩ := Option.map_eq_some_iff.mp h
    exact List.forall_mem_cons.mpr
      ⟨hseg, holds_buildFrom hrest hstops horder hfirst (holds_single (hstop e (.head _)))⟩

theorem span_buildFrom : ∀ {es : List Entry} {seg : RegisterSegment}
    {segs : List RegisterSegment}, buildFrom checks maxGap maxBatchSize (some seg) es = some segs →
    (∀ e ∈ es, e.stop < 65536) → (∀ e ∈ es, e.count ≤ maxBatchSize) →
    seg.endAddress ≤ seg.startAddress + maxBatchSize →
    ∀ s ∈ segs, s.endAddress ≤ s.startAddress + maxBatchSize
  | [], seg, segs, h, _, _, hseg => by
    cases h
    simpa using hseg
  | e :: es, seg, segs, h, hstop, hcount, hseg => by
    have hstops : ∀ d ∈ es, d.stop < 65536 := fun d hd => hstop d (.tail _ hd)
    have hcounts : ∀ d ∈ es, d.count ≤ maxBatchSize := fun d hd => hcount d (.tail _ hd)
    rw [buildFrom, addU16_eq (hstop e (.head _)), Option.bind_some] at h
    split at h
    · rename_i hjoin
      exact span_buildFrom h hstops hcounts (Nat.sub_le_iff_le_add'.mp hjoin.2)
    obtain ⟨rest, hrest, rfl⟩ := Option.map_eq_some_iff.mp h
    refine List.forall_mem_cons.mpr ⟨hseg, span_buildFrom hrest hstops hcounts ?_⟩
    exact Nat.add_le_add_left (hcount e (.head _)) _

variable {entries : List Entry} {segs : List RegisterSegment}

theorem holds_segments (h : buildRegisterSegments checks entries maxGap maxBatchSize = some segs)
    (hstop : ∀ e ∈ entries, e.stop < 65536) (horder : entries.Pairwise Entry.Before) :
    ∀ s ∈ segs, s.Holds := by
  cases entries with
  | nil =>
    cases h
    simp
  | cons e es =>
    obtain ⟨hfirst, horder⟩ := List.pairwise_cons.mp horder
    rw [buildRegisterSegments, buildFrom, addU16_eq (hstop e (.head _)), Option.bind_some] at h
    exact holds_buildFrom h (fun d hd => hstop d (.tail _ hd)) horder hfirst
      (holds_single (hstop e (.head _)))

theorem span_segments (h : buildRegisterSegments checks entries maxGap maxBatchSize = some segs)
    (hstop : ∀ e ∈ entries, e.stop < 65536) (hcount : ∀ e ∈ entries, e.count ≤ maxBatchSize) :
    ∀ s ∈ segs, s.endAddress ≤ s.startAddress + maxBatchSize := by
  cases entries with
  | nil =>
    cases h
    simp
  | cons e es =>
    rw [buildRegisterSegments, buildFrom, addU16_eq (hstop e (.head _)), Option.bind_some] at h
    exact span_buildFrom h (fun d hd => hstop d (.tail _ hd)) (fun d hd => hcount d (.tail _ hd))
      (Nat.add_le_add_left (hcount e (.head _)) _)

end Segments

/-! ## Reading -/

/-- A value that was read, with its point. -/
structure DataPoint where
  id : Nat
  pointType : PointType
  value : Value

/-- The difference of two 16-bit numbers, modulo `2 ^ 16`. -/
def subU16 (a b : Nat) : Nat := (a + 65536 - b) % 65536

theorem subU16_eq {a b : Nat} (hb : b ≤ a) (ha : a < 65536) : subU16 a b = a - b := by
  rw [subU16]
  omega

/-- The value of a point among the registers of its segment, if they hold it and it can be decoded. -/
def decodePoint (start : Nat) (registers : List UInt16) (e : Entry) : Option DataPoint :=
  let offset := subU16 e.addr start
  if offset + e.count ≤ registers.length then
    match e.point.address with
    | .modbus a =>
      match decodeRegisters ((registers.drop offset).take e.count) a.format a.byteOrder
          a.bitPosition with
      | .ok value => some ⟨e.point.id, e.point.pointType, applyTransform value e.point.transform⟩
      | .error _ => none
    | .virtual _ => none
  else none

/-! ## Segments that hold their points -/

/-- The segments are right: no sum is too large, every point is in exactly one segment, with all its
registers, no segment is too long, and no point is dropped when the device answers with the
registers that were requested. -/
def SegmentsRight (entries : List Entry) (maxGap maxBatchSize : Nat) : Prop :=
  ∃ segs, buildRegisterSegments true entries maxGap maxBatchSize = some segs ∧
    segs.flatMap RegisterSegment.points = entries ∧
    (∀ seg ∈ segs, seg.Holds ∧ seg.endAddress ≤ seg.startAddress + maxBatchSize) ∧
    ∀ seg ∈ segs, ∀ registers : List UInt16,
      registers.length = subU16 seg.endAddress seg.startAddress →
      ∀ e ∈ seg.points, subU16 e.addr seg.startAddress + e.count ≤ registers.length

theorem RegisterSegment.Holds.offset_le {seg : RegisterSegment} (h : seg.Holds) {e : Entry}
    (he : e ∈ seg.points) : subU16 e.addr seg.startAddress = e.addr - seg.startAddress ∧
      e.addr - seg.startAddress + e.count ≤ subU16 seg.endAddress seg.startAddress := by
  have hstart := h.starts e he
  have hstop : e.addr + e.count ≤ seg.endAddress := h.ends e he
  have hbounded := h.bounded
  rw [subU16_eq hstart (by omega), subU16_eq (by omega) hbounded]
  omega

/-- **The segments are right**, if no point ends before the one in front of it, exactly if every point
ends before register 65536. -/
theorem segments_right_iff {entries : List Entry} {maxGap maxBatchSize : Nat}
    (hsorted : entries.Pairwise (·.addr ≤ ·.addr)) (hcount : ∀ e ∈ entries, e.count ≤ maxBatchSize)
    (hends : entries.Pairwise (·.stop ≤ ·.stop)) :
    SegmentsRight entries maxGap maxBatchSize ↔ ∀ e ∈ entries, e.stop < 65536 := by
  have hsome : (buildRegisterSegments true entries maxGap maxBatchSize).isSome = true ↔
      ∀ e ∈ entries, e.stop < 65536 := isSome_buildFrom.trans (forall_prop_of_true rfl)
  constructor
  · rintro ⟨segs, hbuild, -⟩
    exact hsome.mp (Option.isSome_of_eq_some hbuild)
  intro hstop
  obtain ⟨segs, hbuild⟩ := Option.isSome_iff_exists.mp (hsome.mpr hstop)
  have hholds := holds_segments hbuild hstop (hsorted.and hends)
  refine ⟨segs, hbuild, flatMap_buildFrom hbuild, fun s hs => ?_, fun s hs registers hlength e he => ?_⟩
  · exact ⟨hholds s hs, span_segments hbuild hstop hcount s hs⟩
  obtain ⟨hoffset, hle⟩ := (hholds s hs).offset_le he
  rwa [hlength, hoffset]

namespace SamplePoll

/-- A telemetry point of slave 1, read with function code 3. -/
def point (id register : Nat) (format : DataFormat) : PointConfig where
  id := id
  pointType := .telemetry
  name := none
  address := .modbus ⟨1, 3, register, format, .abcd, none⟩
  transform := {}

/-- The same as an entry. -/
def entry (id register : Nat) (format : DataFormat) : Entry :=
  ⟨register, registerCount format, point id register format⟩

end SamplePoll

open SamplePoll in
/-- Two points that overlap, one next to them, and one that needs a segment of its own. -/
theorem segments_right_overlapping :
    SegmentsRight [entry 1 0 .uint32, entry 2 1 .uint32, entry 3 3 .uint16, entry 4 100 .uint64]
      10 64 :=
  (segments_right_iff (by simp [entry]) (by simp [entry, registerCount])
    (by simp [entry, registerCount, Entry.stop])).mpr (by simp [entry, registerCount, Entry.stop])

open SamplePoll in
/-- A point inside the registers of the one before it shortens the segment, and that one is dropped;
the last register is one too many. -/
theorem inner_point_shortens_segment :
    (buildRegisterSegments true [entry 1 0 .uint64, entry 2 1 .uint16] 10 64).map
        (·.map fun s => (s.startAddress, s.endAddress, s.points.length)) = some [(0, 2, 2)] ∧
      (decodePoint 0 [1, 2] (entry 1 0 .uint64)).isNone = true ∧
      (buildRegisterSegments true [entry 1 65535 .uint16] 10 64).isNone = true := by
  decide

end VoltageEMS.Comsrv.ModbusPoll
