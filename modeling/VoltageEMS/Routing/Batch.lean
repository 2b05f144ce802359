import VoltageEMS.Lib.Grouping
import VoltageEMS.Model.Point

/-!
# Batch writers with C2C routing

`write_channel_batch` and `write_channel_batch_buffered` (`voltage-routing/src/batch.rs`) and
`write_channel_batch_direct` (`voltage-rtdb-shm/src/batch_direct.rs`).  All three group a batch by
channel and point type, write each group, look up the C2C route of every point, and hand the forwarded
updates of a group to a call of themselves with the points of the group marked as visited.
-/

namespace VoltageEMS.Routing

open Lib

/-- `C2CTarget`. -/
structure C2CTarget where
  channelId : Nat
  pointType : PointType
  pointId : Nat
  scale : Float
  offset : Float
deriving DecidableEq

namespace C2CTarget

/-- The channel point. -/
def point (t : C2CTarget) : ChannelPoint := ⟨t.channelId, t.pointType, t.pointId⟩

/-- `transform`. -/
def transform (t : C2CTarget) (value : Float) : Float := t.scale * value + t.offset

end C2CTarget

/-- The lookups of a `RoutingCache` that the writers use. -/
structure RoutingTables where
  lookupC2m : ChannelPoint → Option C2MTarget
  lookupC2c : ChannelPoint → Option C2CTarget

/-- `MAX_C2C_CASCADE_DEPTH`. -/
def maxC2cCascadeDepth : Nat := 2

/-- `ChannelPointUpdate`. -/
structure ChannelPointUpdate where
  channelId : Nat
  pointType : PointType
  pointId : Nat
  value : Float
  rawValue : Option Float := none
  cascadeDepth : Nat := 0
deriving DecidableEq

namespace ChannelPointUpdate

variable (u : ChannelPointUpdate)

/-- The channel point. -/
def point : ChannelPoint := ⟨u.channelId, u.pointType, u.pointId⟩

/-- The group it is written in. -/
def key : Nat × PointType := (u.channelId, u.pointType)

/-- `raw_value.unwrap_or(value)`. -/
def raw : Float := u.rawValue.getD u.value

/-- The update a route makes of it. -/
def forward (t : C2CTarget) : ChannelPointUpdate where
  channelId := t.channelId
  pointType := t.pointType
  pointId := t.pointId
  value := t.transform u.value
  rawValue := none
  cascadeDepth := u.cascadeDepth + 1

end ChannelPointUpdate

/-- `BatchRoutingResult`. -/
structure BatchRoutingResult where
  channelWrites : Nat := 0
  c2mWrites : Nat := 0
  c2cForwards : Nat := 0
  cyclesDetected : Nat := 0
  slotMisses : Nat := 0
deriving DecidableEq

/-- `merge`. -/
def BatchRoutingResult.merge (r other : BatchRoutingResult) : BatchRoutingResult where
  channelWrites := r.channelWrites + other.channelWrites
  c2mWrites := r.c2mWrites + other.c2mWrites
  c2cForwards := r.c2cForwards + other.c2cForwards
  cyclesDetected := r.cyclesDetected + other.cyclesDetected
  slotMisses := r.slotMisses + other.slotMisses

/-- What happened to an update: it was handed to the writes of its group, its route was followed, or
its route was taken for a cycle. -/
inductive BatchEvent
  | handled (u : ChannelPointUpdate)
  | forwarded (u v : ChannelPointUpdate)
  | cycle (u v : ChannelPointUpdate)
deriving DecidableEq

/-! ## One group -/

/-- The loop over a group: `group_visited`, `c2c_forwards` and `cycles_detected`. -/
structure Scan where
  visited : List ChannelPoint
  forwards : List ChannelPointUpdate := []
  cycles : Nat := 0
  events : List BatchEvent := []
deriving DecidableEq

variable (tables : RoutingTables)

/-- The route, above the depth limit. -/
def routeOf (u : ChannelPointUpdate) : Option C2CTarget :=
  if u.cascadeDepth < maxC2cCascadeDepth then tables.lookupC2c u.point else none

/-- One update: it is marked as visited, then its target is looked up among the visited. -/
def scanUpdate (s : Scan) (u : ChannelPointUpdate) : Scan :=
  let visited := u.point :: s.visited
  match routeOf tables u with
  | none => { s with visited }
  | some target =>
    if target.point ∈ visited then
      { s with
        visited
        cycles := s.cycles + 1
        events := s.events ++ [.cycle u (u.forward target)] }
    else
      { s with
        visited
        forwards := s.forwards ++ [u.forward target]
        events := s.events ++ [.forwarded u (u.forward target)] }

/-- The loop over a group. -/
def scanGroup (visited : List ChannelPoint) (updates : List ChannelPointUpdate) : Scan :=
  updates.foldl (scanUpdate tables) { visited }

/-! ## The recursion -/

/-- A key with its updates. -/
abbrev Group := (Nat × PointType) × List ChannelPointUpdate

/-- Where the three writers differ, and what is up to the environment. -/
structure BatchWriter (σ : Type) where
  accepts : PointType → Bool
  /-- The time of a call, from the milliseconds since the epoch if the clock is past it. -/
  now : σ → Except String Nat × σ
  writeGroup : σ → (timestampMs : Nat) → Group → Except String BatchRoutingResult × σ
  writeGroup_routes : ∀ world timestampMs g r, (writeGroup world timestampMs g).1 = .ok r →
    r.c2cForwards = 0 ∧ r.cyclesDetected = 0
  /-- The order in which the hash map of groups is gone through. -/
  groupOrder : List Group → List Group
  groupOrder_perm : ∀ gs, (groupOrder gs).Perm gs

/-- A call: its result, what it did, the state it left. -/
structure BatchRun (σ : Type) where
  outcome : Except String BatchRoutingResult
  events : List BatchEvent
  world : σ

namespace BatchWriter

variable {σ : Type} (w : BatchWriter σ) (tables : RoutingTables)

/-- The loop over the groups; `sub` is the call for the forwarded updates of a group. -/
def writeGroups (sub : List ChannelPoint → List ChannelPointUpdate → σ → BatchRun σ)
    (timestampMs : Nat) (visited : List ChannelPoint) :
    List Group → BatchRoutingResult → σ → BatchRun σ
  | [], result, world => ⟨.ok result, [], world⟩
  | g :: gs, result, world =>
    match w.writeGroup world timestampMs g with
    | (.error e, world) => ⟨.error e, [], world⟩
    | (.ok written, world) =>
      let scan := scanGroup tables visited g.2
      let result := (result.merge written).merge { cyclesDetected := scan.cycles }
      let events := g.2.map .handled ++ scan.events
      if scan.forwards.isEmpty then
        let rest := writeGroups sub timestampMs visited gs result world
        { rest with events := events ++ rest.events }
      else
        let r := sub scan.visited scan.forwards world
        match r.outcome with
        | .error e => ⟨.error e, events ++ r.events, r.world⟩
        | .ok subResult =>
          let result := (result.merge { c2cForwards := scan.forwards.length }).merge subResult
          let rest := writeGroups sub timestampMs visited gs result r.world
          { rest with events := events ++ r.events ++ rest.events }

/-- The recursion of the writers, `levels` calls deep at most. -/
def writeImpl : Nat → List ChannelPoint → List ChannelPointUpdate → σ → BatchRun σ
  | 0, _, _, world => ⟨.ok {}, [], world⟩
  | levels + 1, visited, updates, world =>
    if updates.isEmpty then ⟨.ok {}, [], world⟩
    else
      match w.now world with
      | (.error e, world) => ⟨.error e, [], world⟩
      | (.ok timestampMs, world) =>
        let grouped := w.groupOrder
          (groupByKey ChannelPointUpdate.key (updates.filter fun u => w.accepts u.pointType))
        w.writeGroups tables (writeImpl levels) timestampMs visited grouped {} world

/-- A forwarded update lies one deeper, so a call has at most `MAX_C2C_CASCADE_DEPTH` others below
it. -/
def write (updates : List ChannelPointUpdate) (world : σ) : BatchRun σ :=
  w.writeImpl tables (maxC2cCascadeDepth + 1) [] updates world

end BatchWriter

/-! ## The three writers -/

section Writers

variable {σ : Type}

/-- What all writers get from the environment: the clock and the order of a hash map. -/
structure BatchEnv (σ : Type) where
  /-- `SystemTime::now().duration_since(UNIX_EPOCH)` in milliseconds. -/
  sinceEpoch : σ → Option Nat × σ
  groupOrder : List Group → List Group
  groupOrder_perm : ∀ gs, (groupOrder gs).Perm gs

/-- `duration_since(UNIX_EPOCH).unwrap_or(Duration::ZERO)`. -/
def BatchEnv.nowOrZero (env : BatchEnv σ) (world : σ) : Except String Nat × σ :=
  let (since, world) := env.sinceEpoch world
  (.ok (since.getD 0), world)

/-- The shared memory of `write_channel_batch_direct`. -/
structure DirectEnv (σ : Type) extends BatchEnv σ where
  /-- `ChannelToSlotIndex::lookup`. -/
  lookup : ChannelPoint → Option Nat
  /-- `UnifiedWriter::set_direct`. -/
  setDirect : σ → (slot : Nat) → (value raw : Float) → (timestampMs : Nat) → σ

/-- One point of a group. -/
def DirectEnv.writePoint (env : DirectEnv σ) (timestampMs : Nat) (r : BatchRoutingResult × σ)
    (u : ChannelPointUpdate) : BatchRoutingResult × σ :=
  match env.lookup u.point with
  | some slot =>
    ({ r.1 with channelWrites := r.1.channelWrites + 1 },
      env.setDirect r.2 slot u.value u.raw timestampMs)
  | none => ({ r.1 with slotMisses := r.1.slotMisses + 1 }, r.2)

/-- The writes of a group. -/
def DirectEnv.writeGroup (env : DirectEnv σ) (world : σ) (timestampMs : Nat) (g : Group) :
    Except String BatchRoutingResult × σ :=
  let (written, world) := g.2.foldl (env.writePoint timestampMs) ({}, world)
  (.ok written, world)

theorem DirectEnv.writePoint_routes (env : DirectEnv σ) (timestampMs : Nat) :
    ∀ (us : List ChannelPointUpdate) (r : BatchRoutingResult × σ),
      (us.foldl (env.writePoint timestampMs) r).1.c2cForwards = r.1.c2cForwards ∧
        (us.foldl (env.writePoint timestampMs) r).1.cyclesDetected = r.1.cyclesDetected
  | [], _ => ⟨rfl, rfl⟩
  | u :: us, r => by
    obtain ⟨hf, hc⟩ := writePoint_routes env timestampMs us (env.writePoint timestampMs r u)
    rw [List.foldl_cons, hf, hc, writePoint]
    split <;> exact ⟨rfl, rfl⟩

/-- `write_channel_batch_direct`: control and adjustment points are refused. -/
def DirectEnv.writer (env : DirectEnv σ) : BatchWriter σ where
  accepts := PointType.isMeasurement
  now := env.nowOrZero
  writeGroup := env.writeGroup
  writeGroup_routes world timestampMs g r h := by
    cases h
    exact env.writePoint_routes timestampMs g.2 ({}, world)
  groupOrder := env.groupOrder
  groupOrder_perm := env.groupOrder_perm

/-- A value of a hash: `f64_to_bytes` or `i64_to_bytes`. -/
inductive HashValue
  | f64 (x : Float)
  | i64 (n : Int)
deriving DecidableEq

/-- Fields with values. -/
abbrev HashFields := List (String × HashValue)

/-- Values, times and raw values. -/
def channelLayers (timestampMs : Nat) (g : Group) : List (String × HashFields) :=
  let key := KeySpace.channelKey g.1.1 g.1.2
  [(key, g.2.map fun u => (toString u.pointId, .f64 u.value)),
   (key ++ ":ts", g.2.map fun u => (toString u.pointId, .i64 timestampMs)),
   (key ++ ":raw", g.2.map fun u => (toString u.pointId, .f64 u.raw))]

/-- `instance_writes`: the C2M targets of a group by instance, with the values. -/
def instanceWrites (tables : RoutingTables) (updates : List ChannelPointUpdate) :
    List (Nat × List (C2MTarget × Float)) :=
  groupByKey (fun e => e.1.instanceId)
    (updates.filterMap fun u => (tables.lookupC2m u.point).map fun t => (t, u.value))

/-- The fields of the values. -/
def valueFields (es : List (C2MTarget × Float)) : HashFields :=
  es.map fun e => (toString e.1.pointId, .f64 e.2)

/-- `instance_ts_writes`. -/
def tsFields (timestampMs : Nat) (es : List (C2MTarget × Float)) : HashFields :=
  es.map fun e => (toString e.1.pointId, .i64 timestampMs)

/-- The store of `write_channel_batch`. -/
structure RtdbEnv (σ : Type) extends BatchEnv σ where
  pipelineHashMset : σ → List (String × HashFields) → Except String Unit × σ
  hashMset : σ → String → HashFields → Except String Unit × σ
  instanceOrder : List (Nat × List (C2MTarget × Float)) → List (Nat × List (C2MTarget × Float))
  instanceOrder_perm : ∀ l, (instanceOrder l).Perm l

/-- Until one fails. -/
def RtdbEnv.msetAll (env : RtdbEnv σ) : List (String × HashFields) → σ → Except String Unit × σ
  | [], world => (.ok (), world)
  | (key, fields) :: rest, world =>
    match env.hashMset world key fields with
    | (.error e, world) => (.error e, world)
    | (.ok (), world) => msetAll env rest world

/-- The writes of a group. -/
def RtdbEnv.writeGroup (env : RtdbEnv σ) (tables : RoutingTables) (world : σ) (timestampMs : Nat)
    (g : Group) : Except String BatchRoutingResult × σ :=
  match env.pipelineHashMset world (channelLayers timestampMs g) with
  | (.error e, world) => (.error e, world)
  | (.ok (), world) =>
    let instances := env.instanceOrder (instanceWrites tables g.2)
    let values := instances.map fun e => (KeySpace.instanceMeasurementKey e.1, valueFields e.2)
    let stamps := instances.map fun e =>
      (KeySpace.instanceMeasurementTsKey e.1, tsFields timestampMs e.2)
    match env.msetAll (values ++ stamps) world with
    | (.error e, world) => (.error e, world)
    | (.ok (), world) => (.ok { channelWrites := g.2.length, c2mWrites := instances.length }, world)

/-- `write_channel_batch`: a clock before the epoch or a failing store is an error. -/
def RtdbEnv.writer (env : RtdbEnv σ) (tables : RoutingTables) : BatchWriter σ where
  accepts _ := true
  now world :=
    match env.sinceEpoch world with
    | (none, world) => (.error "Failed to get timestamp", world)
    | (some since, world) => (.ok since, world)
  writeGroup := env.writeGroup tables
  writeGroup_routes world timestampMs g r h := by
    unfold RtdbEnv.writeGroup at h
    split at h
    · cases h
    dsimp only at h
    split at h
    · cases h
    cases h
    exact ⟨rfl, rfl⟩
  groupOrder := env.groupOrder
  groupOrder_perm := env.groupOrder_perm

/-- The buffer of `write_channel_batch_buffered`; an overflow drops the fields of one call. -/
structure BufferEnv (σ : Type) extends BatchEnv σ where
  bufferHashMset : σ → String → HashFields → Option Nat × σ
  instanceOrder : List (Nat × List (C2MTarget × Float)) → List (Nat × List (C2MTarget × Float))
  instanceOrder_perm : ∀ l, (instanceOrder l).Perm l

/-- All the calls, with what they drop. -/
def BufferEnv.bufferAll (env : BufferEnv σ) : List (String × HashFields) → σ → List Nat × σ
  | [], world => ([], world)
  | (key, fields) :: rest, world =>
    let (dropped, world) := env.bufferHashMset world key fields
    let (drops, world) := bufferAll env rest world
    (dropped.toList ++ drops, world)

/-- The writes of a group. -/
def BufferEnv.writeGroup (env : BufferEnv σ) (tables : RoutingTables) (world : σ)
    (timestampMs : Nat) (g : Group) : Except String BatchRoutingResult × σ :=
  let (drops, world) := env.bufferAll (channelLayers timestampMs g) world
  let buffered := drops.foldl (fun n dropped => n - dropped) (g.2.length * 3) / 3
  let instances := env.instanceOrder (instanceWrites tables g.2)
  let (valueDrops, world) := env.bufferAll
    (instances.map fun e => (KeySpace.instanceMeasurementKey e.1, valueFields e.2)) world
  let (stampDrops, world) := env.bufferAll
    (instances.map fun e => (KeySpace.instanceMeasurementTsKey e.1, tsFields timestampMs e.2)) world
  (.ok {
    channelWrites := buffered
    c2mWrites := instances.length
    slotMisses := valueDrops.sum + stampDrops.sum }, world)

/-- `write_channel_batch_buffered`. -/
def BufferEnv.writer (env : BufferEnv σ) (tables : RoutingTables) : BatchWriter σ where
  accepts _ := true
  now := env.nowOrZero
  writeGroup := env.writeGroup tables
  writeGroup_routes world timestampMs g r h := by
    cases h
    exact ⟨rfl, rfl⟩
  groupOrder := env.groupOrder
  groupOrder_perm := env.groupOrder_perm

/-- `write_channel_batch_direct`. -/
def writeChannelBatchDirect (env : DirectEnv σ) (tables : RoutingTables)
    (updates : List ChannelPointUpdate) (world : σ) : BatchRun σ :=
  env.writer.write tables updates world

/-- `write_channel_batch`. -/
def writeChannelBatch (env : RtdbEnv σ) (tables : RoutingTables)
    (updates : List ChannelPointUpdate) (world : σ) : BatchRun σ :=
  (env.writer tables).write tables updates world

/-- `write_channel_batch_buffered`. -/
def writeChannelBatchBuffered (env : BufferEnv σ) (tables : RoutingTables)
    (updates : List ChannelPointUpdate) (world : σ) : BatchRun σ :=
  (env.writer tables).write tables updates world

end Writers

end VoltageEMS.Routing
