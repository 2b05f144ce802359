import VoltageEMS.Lib.Bytes
import VoltageEMS.Shm.Segment

/-!
# Snapshots of a segment

`core/snapshot_save.rs` and `UnifiedWriter::restore_from_snapshot`, down to the bytes of the file
(little-endian, as on every deployment target).
-/

namespace VoltageEMS.Shm

open Lib UnifiedWriter List Option

/-! ## Saving -/

/-- The 64 bytes of `UnifiedHeader`. -/
def headerBytes (h : UnifiedHeader) : List UInt8 :=
  leBytes 8 h.magic ++ (leBytes 4 h.version ++ (leBytes 4 h.maxSlots ++ (leBytes 4 h.slotCount ++
    (leBytes 4 0 ++ (leBytes 8 h.lastUpdateTs ++ (leBytes 8 h.writerHeartbeat ++
      (leBytes 8 h.routingHash ++ (leBytes 8 h.writerGeneration ++ leBytes 8 0))))))))

/-- The 32 bytes of a slot. -/
def slotRecord (value raw : Float) (timestamp seq : Nat) : List UInt8 :=
  leBytes 8 value.toBits.toNat ++ (leBytes 8 timestamp ++ (leBytes 8 raw.toBits.toNat ++
    (leBytes 4 seq ++ leBytes 4 0)))

/-- `slot_snapshot_bytes`. -/
def slotSnapshotBytes (s : PointSlot) : List UInt8 :=
  match s.tryLoadConsistent with
  | some (value, raw, timestamp) => slotRecord value raw timestamp 2
  | none => slotRecord slotUnwritten slotUnwritten 0 0

/-- `save_snapshot_impl`, the contents of the file. -/
def saveSnapshot (w : UnifiedWriter) : List UInt8 :=
  headerBytes w.segment.header ++
    (w.segment.slots.take w.segment.header.slotCount).flatMap slotSnapshotBytes

/-! ## Restoring -/

/-- A number, if it is there. -/
def readNe (buf : List UInt8) (start len : Nat) (label : String) : Except ShmError Nat :=
  match field buf start len with
  | none => .error (.bail ("Snapshot missing " ++ label))
  | some bytes => .ok (ofLeBytes bytes)

/-- One slot. -/
def restoreSlot (record : List UInt8) (w : UnifiedWriter) (i : Nat) :
    Except ShmError UnifiedWriter := do
  let value := Float.ofBits (UInt64.ofNat (← readNe record 0 8 "slot.value_bits"))
  let timestamp ← readNe record 8 8 "slot.timestamp"
  let raw := Float.ofBits (UInt64.ofNat (← readNe record 16 8 "slot.raw_bits"))
  if value.isNaN && raw.isNaN then
    return w
  else if !value.isFinite || !raw.isFinite then
    return w
  else
    return w.setDirect i value raw timestamp

/-- The header checks: magic and version; the slot count of the file comes back.  Another layout
hash is only logged. -/
def checkSnapshotHeader (snapshot : List UInt8) : Except ShmError Nat := do
  if snapshot.length < 64 then
    throw (.bail ("Snapshot file too small: " ++ toString snapshot.length ++ " bytes"))
  let magic ← readNe snapshot 0 8 "header.magic"
  let version ← readNe snapshot 8 4 "header.version"
  let slotCount ← readNe snapshot 16 4 "header.slot_count"
  let _routingHash ← readNe snapshot 40 8 "header.routing_hash"
  if magic ≠ unifiedMagic then
    throw (.bail ("Invalid snapshot magic: expected " ++ hexUpper unifiedMagic ++ ", got " ++
      hexUpper magic))
  if version ≠ unifiedVersion then
    throw (.bail ("Snapshot version mismatch: expected " ++ toString unifiedVersion ++ ", got " ++
      toString version ++ " — refusing restore (start fresh)"))
  return slotCount

/-- The loop over the slots. -/
def restoreSlots (snapshot : List UInt8) (w : UnifiedWriter) (n : Nat) :
    Except ShmError UnifiedWriter :=
  (List.range n).foldlM (fun w i => restoreSlot ((snapshot.drop (64 + i * 32)).take 32) w i) w

/-- The times of the header. -/
def touch (w : UnifiedWriter) (nowMs : Nat) : UnifiedWriter :=
  { w with segment := { w.segment with
      header := { w.segment.header with lastUpdateTs := nowMs, writerHeartbeat := nowMs } } }

/-- `UnifiedWriter::restore_from_snapshot`. -/
def restoreFromSnapshot (env : ShmEnv) (snapshot : List UInt8) (cp : ChannelPointCounts) :
    Except ShmError UnifiedWriter := do
  let writer ← create env cp
  let snapshotSlotCount ← checkSnapshotHeader snapshot
  let slotsToRestore := min snapshotSlotCount writer.slotCount
  if slotsToRestore = 0 then
    return writer
  if snapshot.length < 64 + slotsToRestore * 32 then
    throw (.bail ("Snapshot file truncated: expected at least " ++
      toString (64 + slotsToRestore * 32) ++ " bytes, got " ++ toString snapshot.length))
  let writer ← restoreSlots snapshot writer slotsToRestore
  return touch writer env.nowMs

/-! ## The file of a saved writer -/

/-- The writer was laid out from the configuration; its slots may hold anything. -/
structure LaidOut (env : ShmEnv) (cp : ChannelPointCounts) (w : UnifiedWriter) : Prop where
  allocated : allocateLayouts cp = some (w.layouts, w.slotCount)
  fits : w.slotCount ≤ env.maxSlots
  magic : w.segment.header.magic = unifiedMagic
  version : w.segment.header.version = unifiedVersion
  slotCount : w.segment.header.slotCount = w.slotCount

variable {w : UnifiedWriter} {cp : ChannelPointCounts} {env : ShmEnv}

theorem create_laidOut (h : create env cp = .ok w) : LaidOut env cp w := by
  obtain ⟨n, halloc, hle, hslots, hcount, hmagic, hversion, -⟩ := create_ok h
  have hn : w.slotCount = n := by simp [UnifiedWriter.slotCount, hslots]
  exact ⟨hn ▸ halloc, hn ▸ hle, hmagic, hversion, hn ▸ hcount⟩

theorem LaidOut.setDirect (h : LaidOut env cp w) (slot : Nat) (value raw : Float) (ts : Nat) :
    LaidOut env cp (w.setDirect slot value raw ts) := by
  have hn : (w.setDirect slot value raw ts).slotCount = w.slotCount := by
    simp [UnifiedWriter.slotCount]
  exact ⟨by rw [hn]; exact h.allocated, by rw [hn]; exact h.fits, h.magic, h.version,
    by rw [hn]; exact h.slotCount⟩

@[simp] theorem length_headerBytes (h : UnifiedHeader) : (headerBytes h).length = 64 := by
  simp [headerBytes]

@[simp] theorem length_slotSnapshotBytes (s : PointSlot) : (slotSnapshotBytes s).length = 32 := by
  unfold slotSnapshotBytes
  split <;> simp [slotRecord]

theorem readNe_of_field {buf : List UInt8} {start len n : Nat} {label : String}
    (h : field buf start len = some (leBytes len n)) (hn : n < 256 ^ len) :
    readNe buf start len label = .ok n := by
  unfold readNe
  rw [h]
  simp only [ofLeBytes_leBytes, Nat.mod_eq_of_lt hn]

theorem field_headerBytes (h : UnifiedHeader) (rest : List UInt8) :
    field (headerBytes h ++ rest) 0 8 = some (leBytes 8 h.magic) ∧
      field (headerBytes h ++ rest) 8 4 = some (leBytes 4 h.version) ∧
      field (headerBytes h ++ rest) 16 4 = some (leBytes 4 h.slotCount) ∧
      field (headerBytes h ++ rest) 40 8 = some (leBytes 8 h.routingHash) := by
  have h8 : ∀ n, (leBytes 8 n).length = 8 := length_leBytes 8
  have h4 : ∀ n, (leBytes 4 n).length = 4 := length_leBytes 4
  simp only [headerBytes, append_assoc]
  refine ⟨field_head (h8 _), ?_, ?_, ?_⟩
  · rw [field_tail (h8 _) (by decide)]
    exact field_head (h4 _)
  · rw [field_tail (h8 _) (by decide), field_tail (h4 _) (by decide), field_tail (h4 _) (by decide)]
    exact field_head (h4 _)
  rw [field_tail (h8 _) (by decide), field_tail (h4 _) (by decide), field_tail (h4 _) (by decide),
    field_tail (h4 _) (by decide), field_tail (h4 _) (by decide), field_tail (h8 _) (by decide),
    field_tail (h8 _) (by decide)]
  exact field_head (h8 _)

theorem checkSnapshotHeader_saveSnapshot (h : LaidOut env cp w) :
    checkSnapshotHeader (saveSnapshot w) = .ok w.slotCount := by
  obtain ⟨hmagic, hversion, hcount, hhash⟩ := field_headerBytes w.segment.header
    ((w.segment.slots.take w.segment.header.slotCount).flatMap slotSnapshotBytes)
  rw [h.magic] at hmagic
  rw [h.version] at hversion
  rw [h.slotCount] at hcount
  have hlen : ¬ (saveSnapshot w).length < 64 := by simp [saveSnapshot]
  have hu32 : w.slotCount < 256 ^ 4 := h.fits.trans_lt env.maxSlots_u32
  have rmagic : readNe (saveSnapshot w) 0 8 "header.magic" = .ok unifiedMagic :=
    readNe_of_field hmagic (by decide)
  have rversion : readNe (saveSnapshot w) 8 4 "header.version" = .ok unifiedVersion :=
    readNe_of_field hversion (by decide)
  have rcount : readNe (saveSnapshot w) 16 4 "header.slot_count" = .ok w.slotCount :=
    readNe_of_field hcount hu32
  have rhash : ∃ n, readNe (saveSnapshot w) 40 8 "header.routing_hash" = .ok n := by
    unfold readNe saveSnapshot
    rw [hhash]
    exact ⟨_, rfl⟩
  obtain ⟨n, rhash⟩ := rhash
  simp [checkSnapshotHeader, hlen, rmagic, rversion, rcount, rhash, bind, Except.bind, pure,
    Except.pure]

/-! ## Slot by slot -/

/-- What a saved slot makes of another. -/
def restoredFrom (s dst : PointSlot) : PointSlot :=
  match s.tryLoadConsistent with
  | some (value, raw, timestamp) =>
    if value.isFinite && raw.isFinite then dst.set value raw (timestamp % 2 ^ 64) else dst
  | none => dst

theorem restoreSlot_of_readNe {record : List UInt8} {v t r : Nat} {value raw : Float}
    (hv : readNe record 0 8 "slot.value_bits" = .ok v)
    (ht : readNe record 8 8 "slot.timestamp" = .ok t)
    (hr : readNe record 16 8 "slot.raw_bits" = .ok r)
    (hvalue : Float.ofBits (UInt64.ofNat v) = value) (hraw : Float.ofBits (UInt64.ofNat r) = raw)
    (w : UnifiedWriter) (i : Nat) :
    restoreSlot record w i =
      .ok (if value.isFinite && raw.isFinite then w.setDirect i value raw t else w) := by
  unfold restoreSlot
  rw [hv, ht, hr]
  simp only [bind, Except.bind, pure, Except.pure, hvalue, hraw]
  by_cases hfv : value.isFinite = true
  · by_cases hfr : raw.isFinite = true
    · rw [isNaN_of_isFinite hfv]
      simp [hfv, hfr]
    · simp [hfv, hfr]
  · simp [hfv]

theorem ofBits_mod_toBits (x : Float) :
    Float.ofBits (UInt64.ofNat (x.toBits.toNat % 256 ^ 8)) = x := by
  have hlt : x.toBits.toNat < 256 ^ 8 := x.toBits.toNat_lt
  rw [Nat.mod_eq_of_lt hlt, UInt64.ofNat_toNat, Float.ofBits_toBits]

theorem restoreSlot_slotRecord (value raw : Float) (timestamp seq : Nat) (w : UnifiedWriter)
    (i : Nat) :
    restoreSlot (slotRecord value raw timestamp seq) w i =
      .ok (if value.isFinite && raw.isFinite then w.setDirect i value raw (timestamp % 2 ^ 64)
        else w) := by
  have h8 : ∀ n, (leBytes 8 n).length = 8 := length_leBytes 8
  have rvalue : readNe (slotRecord value raw timestamp seq) 0 8 "slot.value_bits" =
      .ok (value.toBits.toNat % 256 ^ 8) := by
    unfold readNe slotRecord
    rw [field_head (h8 _)]
    simp only [ofLeBytes_leBytes]
  have rtime : readNe (slotRecord value raw timestamp seq) 8 8 "slot.timestamp" =
      .ok (timestamp % 2 ^ 64) := by
    unfold readNe slotRecord
    rw [field_tail (h8 _) (by decide), field_head (h8 _)]
    simp only [ofLeBytes_leBytes, Nat.reducePow]
  have rraw : readNe (slotRecord value raw timestamp seq) 16 8 "slot.raw_bits" =
      .ok (raw.toBits.toNat % 256 ^ 8) := by
    unfold readNe slotRecord
    rw [field_tail (h8 _) (by decide), field_tail (h8 _) (by decide), field_head (h8 _)]
    simp only [ofLeBytes_leBytes]
  exact restoreSlot_of_readNe rvalue rtime rraw (ofBits_mod_toBits value) (ofBits_mod_toBits raw) w i

theorem restoreSlot_slotSnapshotBytes (s : PointSlot) (w : UnifiedWriter) (i : Nat) :
    ∃ w', restoreSlot (slotSnapshotBytes s) w i = .ok w' ∧ w'.layouts = w.layouts ∧
      w'.segment.slots = w.segment.slots.modify i (restoredFrom s) := by
  unfold slotSnapshotBytes restoredFrom
  cases hload : s.tryLoadConsistent with
  | none =>
    refine ⟨w, ?_, rfl, ?_⟩
    · simp only [restoreSlot_slotRecord]
      rw [if_neg (by decide)]
    · exact (modify_id i _).symm
  | some r =>
    obtain ⟨value, raw, timestamp⟩ := r
    simp only [restoreSlot_slotRecord]
    by_cases hfin : (value.isFinite && raw.isFinite) = true
    · simp only [hfin, if_true]
      exact ⟨_, rfl, rfl, rfl⟩
    simp only [hfin]
    exact ⟨w, rfl, rfl, (modify_id i _).symm⟩

theorem saveSnapshot_eq (h : LaidOut env cp w) :
    saveSnapshot w = headerBytes w.segment.header ++ w.segment.slots.flatMap slotSnapshotBytes := by
  unfold saveSnapshot
  rw [h.slotCount, UnifiedWriter.slotCount, take_length]

theorem length_saveSnapshot (h : LaidOut env cp w) :
    (saveSnapshot w).length = 64 + w.slotCount * 32 := by
  rw [saveSnapshot_eq h, length_append, length_headerBytes,
    length_flatMap_eq_mul (fun s _ => length_slotSnapshotBytes s), UnifiedWriter.slotCount]

variable {s : PointSlot}

theorem record_saveSnapshot (h : LaidOut env cp w) {i : Nat} (hs : w.segment.slots[i]? = some s) :
    ((saveSnapshot w).drop (64 + i * 32)).take 32 = slotSnapshotBytes s := by
  apply take_drop_of_field
  rw [saveSnapshot_eq h, field_tail (length_headerBytes _) (by omega), Nat.add_sub_cancel_left,
    Nat.mul_comm]
  exact field_flatMap (fun s _ => length_slotSnapshotBytes s) hs

/-- The same by index. -/
def restoredAt (w : UnifiedWriter) (j : Nat) (dst : PointSlot) : PointSlot :=
  match w.segment.slots[j]? with
  | some s => restoredFrom s dst
  | none => dst

theorem restoreSlots_spec (h : LaidOut env cp w) (fresh : UnifiedWriter) :
    ∀ n ≤ w.slotCount, ∃ w', restoreSlots (saveSnapshot w) fresh n = .ok w' ∧
      w'.layouts = fresh.layouts ∧
      w'.segment.slots = fresh.segment.slots.mapIdx fun j dst =>
        if j < n then restoredAt w j dst else dst
  | 0, _ => ⟨fresh, rfl, rfl, (mapIdx_keep _).symm⟩
  | n + 1, hn => by
    obtain ⟨w₁, hrun, hlay, hslots⟩ := restoreSlots_spec h fresh n (by omega)
    obtain ⟨s, hs⟩ : ∃ s, w.segment.slots[n]? = some s :=
      ⟨_, List.getElem?_eq_getElem (by exact hn)⟩
    obtain ⟨w₂, hstep, hlay₂, hslots₂⟩ := restoreSlot_slotSnapshotBytes s w₁ n
    refine ⟨w₂, ?_, hlay₂.trans hlay, ?_⟩
    · unfold restoreSlots at hrun ⊢
      rw [range_succ, foldlM_append, hrun]
      simp only [foldlM_cons, foldlM_nil, record_saveSnapshot h hs, bind, Except.bind,
        hstep, pure, Except.pure]
    apply ext_getElem?
    intro j
    rw [hslots₂, hslots, List.getElem?_modify, List.getElem?_mapIdx, List.getElem?_mapIdx]
    by_cases hnj : n = j
    · subst hnj
      cases fresh.segment.slots[n]? <;> simp [restoredAt, hs]
    have hiff : (j < n + 1) = (j < n) := by
      apply propext
      omega
    simp [hnj, hiff]

/-- **What a restore leaves in the slots**: a fresh writer of the new configuration in which the
consistent, finite slots of the file went to the same index. -/
theorem restore_saved {env' : ShmEnv} {cp' : ChannelPointCounts} {fresh : UnifiedWriter}
    (h : LaidOut env cp w) (hfresh : create env' cp' = .ok fresh) :
    ∃ w', restoreFromSnapshot env' (saveSnapshot w) cp' = .ok w' ∧ w'.layouts = fresh.layouts ∧
      w'.segment.slots = fresh.segment.slots.mapIdx (restoredAt w) := by
  -- beyond the end of the file nothing is restored
  have hbeyond : ∀ j dst, w.slotCount ≤ j → restoredAt w j dst = dst := by
    intro j dst hj
    simp only [restoredAt, List.getElem?_eq_none hj]
  have hall : (fresh.segment.slots.mapIdx fun j dst =>
      if j < min w.slotCount fresh.slotCount then restoredAt w j dst else dst) =
      fresh.segment.slots.mapIdx (restoredAt w) := by
    apply List.mapIdx_eq_mapIdx_iff.mpr
    intro j hj
    by_cases hin : j < w.slotCount
    · have hmin : j < min w.slotCount fresh.slotCount := Nat.lt_min.mpr ⟨hin, hj⟩
      rw [if_pos hmin]
    · rw [hbeyond j _ (Nat.le_of_not_lt hin), ite_self]
  have hlen : ¬ (saveSnapshot w).length < 64 + min w.slotCount fresh.slotCount * 32 := by
    have hbody := length_saveSnapshot h
    have := Nat.min_le_left w.slotCount fresh.slotCount
    omega
  by_cases hzero : min w.slotCount fresh.slotCount = 0
  · refine ⟨fresh, ?_, rfl, ?_⟩
    · simp [restoreFromSnapshot, hfresh, checkSnapshotHeader_saveSnapshot h, hzero, bind,
        Except.bind, pure, Except.pure]
    rw [← hall, hzero]
    exact (mapIdx_keep _).symm
  obtain ⟨w', hrun, hlay, hslots⟩ :=
    restoreSlots_spec h fresh (min w.slotCount fresh.slotCount) (Nat.min_le_left _ _)
  refine ⟨touch w' env'.nowMs, ?_, hlay, hslots.trans hall⟩
  simp only [restoreFromSnapshot, hfresh, checkSnapshotHeader_saveSnapshot h, bind,
    Except.bind, pure, Except.pure, hzero, hlen, if_false, hrun]

/-! ## Snapshots across configurations -/

/-- A snapshot saved under `cp` and accepted under `cp'` leaves in every point with a finite value
the value saved for it. -/
def RestoresOwnValues (env env' : ShmEnv) (cp cp' : ChannelPointCounts) : Prop :=
  ∀ w, LaidOut env cp w → ∀ w', restoreFromSnapshot env' (saveSnapshot w) cp' = .ok w' →
    ∀ p v ts, w'.getChannel p = some (v, ts) → v.isFinite = true →
      ∃ ts', w.getChannel p = some (v, ts')

theorem slotUnwritten_not_finite : slotUnwritten.isFinite = false := by decide

theorem load_restoredAt {j : Nat} {v raw : Float} {ts : Nat}
    (hload : (restoredAt w j .new).tryLoadConsistent = some (v, raw, ts)) (hv : v.isFinite = true) :
    ∃ s ts', w.segment.slots[j]? = some s ∧ s.tryLoadConsistent = some (v, raw, ts') := by
  have hnew : PointSlot.new.tryLoadConsistent ≠ some (v, raw, ts) := by
    intro heq
    have : slotUnwritten = v := congrArg Prod.fst (some.inj heq)
    rw [← this, slotUnwritten_not_finite] at hv
    cases hv
  unfold restoredAt at hload
  split at hload
  case h_2 => exact absurd hload hnew
  case h_1 s hs =>
    unfold restoredFrom at hload
    split at hload
    case h_2 => exact absurd hload hnew
    case h_1 value raw' timestamp hsaved =>
      split at hload
      · rw [PointSlot.set_eq] at hload
        obtain ⟨rfl, rfl, -⟩ : value = v ∧ raw' = raw ∧ timestamp % 2 ^ 64 = ts := by
          simpa [PointSlot.tryLoadConsistent, PointSlot.new] using hload
        exact ⟨s, timestamp, hs, hsaved⟩
      · exact absurd hload hnew

theorem load_restoredAt_setDirect {j : Nat} {v : Float} {ts : Nat}
    (hs : w.segment.slots[j]? = some s) (hseq : s.seq % 2 = 0) (hv : v.isFinite = true) :
    (restoredAt (w.setDirect j v v ts) j .new).tryLoadConsistent = some (v, v, ts % 2 ^ 64) := by
  have hset : (w.setDirect j v v ts).segment.slots[j]? = some (s.set v v ts) := by
    simp [hs]
  have hload : (s.set v v ts).tryLoadConsistent = some (v, v, ts) := by
    rw [PointSlot.set_eq, PointSlot.tryLoadConsistent, if_neg]
    simp only
    omega
  simp only [restoredAt, hset, restoredFrom, hload, hv, Bool.and_self, if_true]
  simp [PointSlot.set_eq, PointSlot.tryLoadConsistent, PointSlot.new]

/-- **Snapshots across configurations**: restoring keeps every value with its point exactly when
each point of the new configuration in the restored range had the same slot in the old one. -/
theorem restores_own_values_iff {env env' : ShmEnv} {cp cp' : ChannelPointCounts}
    {lay lay' : List ChannelLayout} {n n' : Nat} (halloc : allocateLayouts cp = some (lay, n))
    (halloc' : allocateLayouts cp' = some (lay', n')) (hfits : n ≤ env.maxSlots)
    (hfits' : n' ≤ env'.maxSlots) :
    RestoresOwnValues env env' cp cp' ↔
      ∀ p slot, lookup lay' p = some slot → slot < min n n' → lookup lay p = some slot := by
  obtain ⟨fresh, hfresh, rfl, hslots'⟩ := create_of_allocateLayouts halloc' hfits'
  have hcount' : fresh.slotCount = n' := by simp [UnifiedWriter.slotCount, hslots']
  constructor
  · -- mark one slot of an otherwise unwritten segment and see which point gets the mark
    intro hown p slot hp hslot
    obtain ⟨w, hw, rfl, hslots⟩ := create_of_allocateLayouts halloc hfits
    have hnew : w.segment.slots[slot]? = some .new := by
      rw [hslots, List.getElem?_replicate, if_pos (by omega)]
    have hmarked := (create_laidOut hw).setDirect slot 1.0 1.0 0
    obtain ⟨w', hrestore, hlay', hall⟩ := restore_saved hmarked hfresh
    have hrestored : w'.segment.slots[slot]? =
        some (restoredAt (w.setDirect slot 1.0 1.0 0) slot .new) := by
      rw [hall, List.getElem?_mapIdx, hslots', List.getElem?_replicate, if_pos (by omega)]
      rfl
    have hread : w'.getChannel p = some (1.0, 0) :=
      getChannel_eq_some.mpr ⟨slot, _, 1.0, hlay' ▸ hp, hrestored,
        load_restoredAt_setDirect hnew rfl (by decide)⟩
    obtain ⟨ts, hsaved⟩ := hown _ hmarked w' hrestore p 1.0 0 hread (by decide)
    obtain ⟨slot', s, raw, hp', hs, hload⟩ := getChannel_eq_some.mp hsaved
    have hsame : slot' = slot := by
      by_contra hne
      rw [UnifiedWriter.setDirect_slots, List.getElem?_modify, hslots, List.getElem?_replicate]
        at hs
      obtain ⟨-, rfl⟩ : slot' < n ∧ .new = s := by
        simpa [Ne.symm hne] using hs
      have : slotUnwritten = 1.0 := congrArg Prod.fst (some.inj hload)
      exact absurd this (by decide)
    rw [← hsame]
    exact hp'
  · intro hsame w hw w' hrestore p v ts hread hv
    obtain ⟨w₁, hrestore₁, hlay, hall⟩ := restore_saved hw hfresh
    rw [hrestore] at hrestore₁
    cases hrestore₁
    obtain ⟨slot, s, raw, hp, hs, hload⟩ := getChannel_eq_some.mp hread
    rw [hall, List.getElem?_mapIdx, hslots', List.getElem?_replicate] at hs
    obtain ⟨hslot, rfl⟩ : slot < n' ∧ restoredAt w slot .new = s := by simpa using hs
    obtain ⟨s, ts', hs, hsaved⟩ := load_restoredAt hload hv
    obtain ⟨rfl, rfl⟩ : lay = w.layouts ∧ n = w.slotCount := by
      simpa using halloc.symm.trans hw.allocated
    have hn : slot < w.slotCount := (List.getElem?_eq_some_iff.mp hs).1
    exact ⟨ts', getChannel_eq_some.mpr ⟨slot, s, raw, hsame p slot (hlay ▸ hp) (by omega), hs,
      hsaved⟩⟩

def twoTelemetry : ChannelPointCounts := ⟨[(1, ![2, 0, 0, 0])], by decide⟩

def telemetryAndSignal : ChannelPointCounts := ⟨[(1, ![1, 1, 0, 0])], by decide⟩

/-- The same and a second channel behind it. -/
def channelAdded : ChannelPointCounts := ⟨[(1, ![2, 0, 0, 0]), (2, ![1, 0, 0, 0])], by decide⟩

theorem restores_own_values_channelAdded :
    RestoresOwnValues telemetryEnv telemetryEnv twoTelemetry channelAdded := by
  refine (restores_own_values_iff (n := 2) rfl rfl (by decide) (by decide)).mpr ?_
  intro p slot hp hslot
  obtain ⟨channelId, pointType, pointId⟩ := p
  match channelId with
  | 0 | 1 => exact hp
  | 2 =>
    -- the added channel starts at the first slot that is not restored
    have : 2 ≤ slot := by
      match pointType, pointId with
      | .telemetry, 0 => cases hp; decide
      | .telemetry, pointId + 1 => cases hp
      | .signal, _ | .control, _ | .adjustment, _ => cases hp
    omega
  | channelId + 3 => cases hp

/-- Telemetry 1 of channel 1 was saved with the value 5; after the restore signal 0, a new point,
reads 5. -/
theorem restore_misplaces_value :
    ∃ w w', LaidOut telemetryEnv twoTelemetry w ∧
      w.getChannel ⟨1, .telemetry, 1⟩ = some (5.0, 7) ∧ w.getChannel ⟨1, .signal, 0⟩ = none ∧
      restoreFromSnapshot telemetryEnv (saveSnapshot w) telemetryAndSignal = .ok w' ∧
      w'.getChannel ⟨1, .signal, 0⟩ = some (5.0, 7) := by
  obtain ⟨w, hw, hlay, hslots⟩ :=
    create_of_allocateLayouts (rfl : allocateLayouts twoTelemetry = _)
      (by decide : _ ≤ telemetryEnv.maxSlots)
  obtain ⟨fresh, hfresh, hlay', hslots'⟩ :=
    create_of_allocateLayouts (rfl : allocateLayouts telemetryAndSignal = _)
      (by decide : _ ≤ telemetryEnv.maxSlots)
  have hmarked := (create_laidOut hw).setDirect 1 5.0 5.0 7
  obtain ⟨w', hrestore, hlay₁, hslots₁⟩ := restore_saved hmarked hfresh
  have hnew : w.segment.slots[1]? = some .new := by rw [hslots]; rfl
  refine ⟨w.setDirect 1 5.0 5.0 7, w', hmarked, ?_, ?_, hrestore, ?_⟩
  · simp only [getChannel, setDirect_layouts, setDirect_slots, hlay, hslots]
    decide
  · simp only [getChannel, setDirect_layouts, setDirect_slots, hlay, hslots]
    decide
  have hload : (restoredAt (w.setDirect 1 5.0 5.0 7) 1 .new).tryLoadConsistent =
      some (5.0, 5.0, 7) := load_restoredAt_setDirect hnew rfl (by decide)
  refine getChannel_eq_some.mpr ⟨1, _, 5.0, ?_, ?_, hload⟩
  · rw [hlay₁, hlay']
    rfl
  rw [hslots₁, hslots']
  rfl

/-! ## The same configuration -/

/-- The slot has a consistent, finite value and raw value. -/
def PointSlot.Holds (s : PointSlot) (value raw : Float) (timestamp : Nat) : Prop :=
  s.tryLoadConsistent = some (value, raw, timestamp) ∧ value.isFinite = true ∧ raw.isFinite = true

theorem restoredFrom_of_holds {value raw : Float} {timestamp : Nat}
    (h : s.Holds value raw timestamp) :
    restoredFrom s .new = PointSlot.new.set value raw (timestamp % 2 ^ 64) := by
  obtain ⟨hload, hvalue, hraw⟩ := h
  rw [restoredFrom, hload]
  simp only [hvalue, hraw, Bool.and_self, if_true]

theorem restoredFrom_of_not_holds (h : ∀ value raw timestamp, ¬ s.Holds value raw timestamp) :
    restoredFrom s .new = .new := by
  unfold restoredFrom
  cases hload : s.tryLoadConsistent with
  | none => rfl
  | some r =>
    obtain ⟨value, raw, timestamp⟩ := r
    have hnot : ¬ (value.isFinite && raw.isFinite) = true := fun hfinite =>
      h value raw timestamp ⟨hload, Bool.and_eq_true_iff.mp hfinite⟩
    exact if_neg hnot

/-- **Round trip.**  A snapshot restored into a fresh writer with the same layout: every slot with a
finite value and raw value has them back with their timestamp, every other slot is unwritten. -/
theorem snapshot_round_trip {env env' : ShmEnv} {cp cp' : ChannelPointCounts} {w : UnifiedWriter}
    (h : LaidOut env cp w) (hu64 : ∀ s ∈ w.segment.slots, s.timestamp < 2 ^ 64)
    (hlayout : allocateLayouts cp' = allocateLayouts cp) (hfits : w.slotCount ≤ env'.maxSlots) :
    ∃ w', restoreFromSnapshot env' (saveSnapshot w) cp' = .ok w' ∧ w'.layouts = w.layouts ∧
      w'.slotCount = w.slotCount ∧
      ∀ (i : Nat) (s s' : PointSlot), w.segment.slots[i]? = some s →
        w'.segment.slots[i]? = some s' →
        (∀ value raw timestamp, s.Holds value raw timestamp → s'.Holds value raw timestamp) ∧
        ((∀ value raw timestamp, ¬ s.Holds value raw timestamp) → s' = .new) ∧
        (s'.value.isFinite = true → s.tryLoadConsistent = some (s'.value, s'.raw, s'.timestamp)) := by
  obtain ⟨fresh, hfresh, hlay, hslots⟩ :=
    create_of_allocateLayouts (hlayout.trans h.allocated) hfits
  obtain ⟨w', hrestore, hlay', hall⟩ := restore_saved h hfresh
  refine ⟨w', hrestore, hlay'.trans hlay, ?_, fun i s s' hs hs' => ?_⟩
  · rw [UnifiedWriter.slotCount, hall, hslots, length_mapIdx, length_replicate]
  have hi : i < w.slotCount := (List.getElem?_eq_some_iff.mp hs).1
  have hs'' : s' = restoredFrom s .new := by
    rw [hall, List.getElem?_mapIdx, hslots, List.getElem?_replicate, if_pos hi, map_some,
      some.injEq, restoredAt, hs] at hs'
    exact hs'.symm
  -- the timestamp of a consistent slot is its `u64`
  have hback : ∀ value raw timestamp, s.Holds value raw timestamp →
      s' = ⟨value, timestamp, raw, 2, 1⟩ := by
    intro value raw timestamp hold
    have hstamp : timestamp = s.timestamp := by
      have hload := hold.1
      unfold PointSlot.tryLoadConsistent at hload
      split at hload
      · cases hload
      cases hload
      rfl
    have hlt := hu64 s (mem_of_getElem? hs)
    rw [hs'', restoredFrom_of_holds hold, PointSlot.set_eq, Nat.mod_eq_of_lt (hstamp ▸ hlt)]
    rfl
  refine ⟨fun value raw timestamp hold => ?_, fun hnone => ?_, fun hfinite => ?_⟩
  · rw [hback value raw timestamp hold]
    exact ⟨if_neg (show ¬ 2 % 2 = 1 by decide), hold.2⟩
  · rw [hs'', restoredFrom_of_not_holds hnone]
  by_cases hold : ∃ value raw timestamp, s.Holds value raw timestamp
  · obtain ⟨value, raw, timestamp, hold⟩ := hold
    rw [hback value raw timestamp hold]
    exact hold.1
  rw [hs'', restoredFrom_of_not_holds fun value raw timestamp hs => hold ⟨_, _, _, hs⟩] at hfinite
  exact absurd hfinite (by decide)

/-- The second of two slots was written. -/
theorem snapshot_round_trip_one_written :
    ∃ w w', LaidOut telemetryEnv twoTelemetry w ∧
      restoreFromSnapshot telemetryEnv (saveSnapshot w) twoTelemetry = .ok w' ∧
      ∀ s' : PointSlot, w'.segment.slots[1]? = some s' → s'.Holds 5.0 2.5 7 := by
  obtain ⟨w, hw, hlay, hslots⟩ : ∃ w, create telemetryEnv twoTelemetry = .ok w ∧
      w.layouts = _ ∧ w.segment.slots = replicate 2 .new :=
    create_of_allocateLayouts rfl (by decide)
  have hmarked := (create_laidOut hw).setDirect 1 5.0 2.5 7
  have hwritten : (w.setDirect 1 5.0 2.5 7).segment.slots = [.new, ⟨5.0, 7, 2.5, 2, 1⟩] := by
    rw [UnifiedWriter.setDirect_slots, hslots]
    rfl
  obtain ⟨w', hrestore, -, -, hall⟩ := snapshot_round_trip hmarked
    (by rw [hwritten]; decide) rfl
    (show _ ≤ telemetryEnv.maxSlots by rw [UnifiedWriter.slotCount, hwritten]; decide)
  refine ⟨_, w', hmarked, hrestore, fun s' hs' => ?_⟩
  exact (hall 1 _ s' (by rw [hwritten]; rfl) hs').1 5.0 2.5 7 ⟨rfl, by decide, by decide⟩

end VoltageEMS.Shm
