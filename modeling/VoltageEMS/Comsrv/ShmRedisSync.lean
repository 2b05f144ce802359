import VoltageEMS.Lib.Batch
import VoltageEMS.Lib.Run
import VoltageEMS.Shm.Handle
import VoltageEMS.Shm.SlotWrites

/-!
# From shared memory to Redis

`ShmRedisSync` copies slots to Redis.  A call of `flush_once` collects candidates (every slot on a
full scan, the marked slots otherwise, and those kept for a retry), reads the first
`MAX_PIPELINE_SLOTS` of them and sends what has changed as one pipeline.  The schedule of a call says
what the writers do before each of its accesses and before the reply of Redis.
-/

namespace VoltageEMS.Comsrv

open Lib Shm

/-- `MAX_PIPELINE_SLOTS`. -/
def maxPipelineSlots : Nat := 1024

/-- `MAX_RETRY_SLOTS`. -/
def maxRetrySlots : Nat := maxPipelineSlots * 4

/-- `FULL_SCAN_INTERVAL`. -/
def fullScanInterval : Nat := 600

/-- The fields of `ShmRedisSync` that change.  A slot `last_seq` does not reach yet counts as zero.
-/
structure ShmRedisSync where
  lastSeq : Nat → Nat
  lastLayoutPtr : Nat
  lastRoutingHash : Nat
  retrySlots : List Nat
  tickCount : Nat

/-- `new`. -/
def ShmRedisSync.new : ShmRedisSync := ⟨fun _ => 0, 0, 0, [], 0⟩

/-- The end of a call. -/
def ShmRedisSync.tick (σ : ShmRedisSync) : ShmRedisSync :=
  { σ with tickCount := (σ.tickCount + 1) % 2 ^ 64 }

/-! ## What is sent -/

/-- The bytes of a hash field, before `f64_to_bytes` or `i64_to_bytes`. -/
inductive FieldValue
  | f64 (value : Float)
  | i64 (value : Int)
deriving DecidableEq

/-- One field of a `pipeline_hash_mset`. -/
structure HashOp where
  key : String
  field : String
  value : FieldValue
deriving DecidableEq

/-- A slot read for the pipeline: the counter seen first, the data and the number of their write. -/
structure Synced where
  slot : Nat
  seq : Nat
  origin : ChannelPoint
  data : SlotData
  version : Nat

/-- The fields of a slot. -/
def slotOps (routing : RoutingCache) (e : Synced) : List HashOp :=
  let field := toString e.origin.pointId
  let ts := FieldValue.i64 (Int.bmod e.data.timestamp (2 ^ 64))
  [⟨KeySpace.channelKey e.origin.channelId e.origin.pointType, field, .f64 e.data.value⟩,
    ⟨KeySpace.channelTsKey e.origin.channelId e.origin.pointType, field, ts⟩,
    ⟨KeySpace.channelRawKey e.origin.channelId e.origin.pointType, field, .f64 e.data.raw⟩] ++
  match routing.lookupC2m e.origin with
  | some target =>
    [⟨KeySpace.instanceMeasurementKey target.instanceId, toString target.pointId,
        .f64 e.data.value⟩,
      ⟨KeySpace.instanceMeasurementTsKey target.instanceId, toString target.pointId, ts⟩]
  | none => []

/-! ## The first half of a call -/

/-- A `ShmLayout` behind its pointer, with the calls under way on its writer. -/
structure SyncLayout where
  ptr : Nat
  reverseIndex : ReverseSlotIndex
  shared : Shared

/-- A swapped layout or another content of the routing cache resets what was synced.  Returns
whether the layout was swapped. -/
def detectChange (σ : ShmRedisSync) (ptr hash : Nat) : ShmRedisSync × Bool :=
  let layoutChanged := σ.lastLayoutPtr ≠ 0 && ptr ≠ σ.lastLayoutPtr
  let routingChanged := σ.lastRoutingHash ≠ 0 && hash ≠ σ.lastRoutingHash
  let σ := if layoutChanged || routingChanged then
      { σ with lastSeq := fun _ => 0, retrySlots := [] }
    else σ
  ({ σ with lastLayoutPtr := ptr, lastRoutingHash := hash }, layoutChanged)

/-- The slots looked at. -/
def collect (c : Cursor) (fullScan : Bool) : Cursor × List Nat :=
  if fullScan then (c, List.range c.shared.slotCount) else c.takeDirtySlots

/-- What a call works on; the slots kept for a retry are among the candidates. -/
structure Gathered where
  sync : ShmRedisSync
  cursor : Cursor
  candidates : List Nat

/-- The first half of a call. -/
def gather (l : SyncLayout) (hash : Nat) (schedule : Schedule) (σ : ShmRedisSync) : Gathered :=
  let (σ, layoutChanged) := detectChange σ l.ptr hash
  let fullScan := layoutChanged || σ.tickCount == 0 || σ.tickCount % fullScanInterval == 0
  let (cursor, found) := collect ⟨l.shared, schedule⟩ fullScan
  ⟨{ σ with retrySlots := [] }, cursor, sortDedup (found ++ σ.retrySlots)⟩

/-! ## The second half -/

/-- The variables of the loop. -/
structure Scan where
  cursor : Cursor
  lastSeq : Nat → Nat
  retrySlots : List Nat
  synced : List Synced

/-- What becomes of a read.  A torn one is tried again; a slot without finite numbers or an origin
is done. -/
def scanRead (reverseIndex : ReverseSlotIndex) (scan : Scan) (i seq : Nat) :
    Cursor × Option (SlotData × Nat) → Scan
  | (c, none) => { scan with cursor := c, retrySlots := scan.retrySlots ++ [i] }
  | (c, some (data, version)) =>
    if data.isFinite then
      match reverseIndex.get i with
      | none => { scan with cursor := c, lastSeq := Function.update scan.lastSeq i seq }
      | some origin =>
        { scan with cursor := c, synced := scan.synced ++ [⟨i, seq, origin, data, version⟩] }
    else { scan with cursor := c, lastSeq := Function.update scan.lastSeq i seq }

/-- One round of the loop. -/
def scanSlot (reverseIndex : ReverseSlotIndex) (scan : Scan) (i : Nat) : Scan :=
  if scan.cursor.shared.slotCount ≤ i then scan
  else
    let (c, seq) := scan.cursor.seqRaw i
    if seq = scan.lastSeq i then { scan with cursor := c }
    else scanRead reverseIndex scan i seq (c.tryLoadConsistent i)

/-- The counters of what was sent. -/
def recordSeqs (lastSeq : Nat → Nat) (synced : List Synced) : Nat → Nat :=
  synced.foldl (fun seqs e => Function.update seqs e.slot e.seq) lastSeq

/-- The outcome of a call: the fields of the pipeline, if one was sent, and the slots Redis
accepted. -/
structure Flushed where
  sync : ShmRedisSync
  shared : Shared
  pipeline : List HashOp
  accepted : List Synced

/-- The loop. -/
def scanCandidates (reverseIndex : ReverseSlotIndex) (g : Gathered) : Scan :=
  (g.candidates.take maxPipelineSlots).foldl (scanSlot reverseIndex)
    ⟨g.cursor, g.sync.lastSeq, keepLast maxRetrySlots (g.candidates.drop maxPipelineSlots), []⟩

/-- The pipeline. -/
def sendPipeline (routing : RoutingCache) (redisOk : Bool) (σ : ShmRedisSync) (scan : Scan) :
    Flushed :=
  let ops := scan.synced.flatMap (slotOps routing)
  if ops = [] then
    ⟨{ σ with lastSeq := scan.lastSeq, retrySlots := scan.retrySlots }.tick, scan.cursor.shared,
      [], []⟩
  else if redisOk then
    ⟨{ σ with
        lastSeq := recordSeqs scan.lastSeq scan.synced
        retrySlots := scan.retrySlots }.tick, scan.cursor.advance.shared, ops, scan.synced⟩
  else
    ⟨{ σ with
        lastSeq := scan.lastSeq
        retrySlots := sortDedup (scan.retrySlots ++ scan.synced.map Synced.slot) }.tick,
      scan.cursor.advance.shared, ops, []⟩

/-- The second half of a call. -/
def publish (l : SyncLayout) (routing : RoutingCache) (redisOk : Bool) (g : Gathered) : Flushed :=
  if g.candidates = [] then ⟨g.sync.tick, g.cursor.shared, [], []⟩
  else sendPipeline routing redisOk g.sync (scanCandidates l.reverseIndex g)

/-- `flush_once`. -/
def flushOnce (l : SyncLayout) (routing : RoutingCache) (hash : Nat) (schedule : Schedule)
    (redisOk : Bool) (σ : ShmRedisSync) : Flushed :=
  if l.shared.slotCount = 0 then ⟨σ, l.shared, [], []⟩
  else if l.shared.generation % 2 = 1 then ⟨σ.tick, l.shared, [], []⟩
  else publish l routing redisOk (gather l hash schedule σ)

/-! ## The system -/

/-- What happens to the segment and the task. -/
inductive SyncInput
  | write (st : WriterStep)
  /-- `rebuild_via_swap` stores a layout around a fresh writer. -/
  | rebuild (ptr : Nat) (layout : ShmLayout)
  | reroute (routing : RoutingCache)
  | flush (schedule : Schedule) (redisOk : Bool)

/-- The current layout and routes, the task, and what Redis last accepted for each slot: the data
and the number of their write. -/
structure SyncWorld where
  layout : Option SyncLayout
  routing : RoutingCache
  sync : ShmRedisSync
  accepted : Nat → Option (SlotData × Nat)

/-- A pipeline that was sent, and whether Redis accepted it. -/
structure Pipeline where
  ops : List HashOp
  accepted : Bool

/-- The same after a pipeline. -/
def recordAccepted (accepted : Nat → Option (SlotData × Nat)) (synced : List Synced) :
    Nat → Option (SlotData × Nat) :=
  synced.foldl (fun acc e => Function.update acc e.slot (some (e.data, e.version))) accepted

namespace SyncWorld

/-- `content_hash` is a parameter. -/
def step (contentHash : RoutingCache → Nat) (w : SyncWorld) :
    SyncInput → SyncWorld × List Pipeline
  | .write st =>
    ({ w with layout := w.layout.map fun l => { l with shared := l.shared.step st } }, [])
  | .rebuild ptr layout =>
    ({ w with
        layout := some ⟨ptr, layout.reverseIndex, .ofWriter layout.writer⟩
        accepted := fun _ => none }, [])
  | .reroute routing => ({ w with routing }, [])
  | .flush schedule redisOk =>
    match w.layout with
    | none => (w, [])
    | some l =>
      let f := flushOnce l w.routing (contentHash w.routing) schedule redisOk w.sync
      ({ w with
          layout := some { l with shared := f.shared }
          sync := f.sync
          accepted := recordAccepted w.accepted f.accepted },
        if f.pipeline = [] then [] else [⟨f.pipeline, redisOk⟩])

/-- The segment with the task. -/
def machine (contentHash : RoutingCache → Nat) : Machine SyncWorld SyncInput Pipeline where
  step := step contentHash

/-- Before the first call. -/
def init (l : SyncLayout) (routing : RoutingCache) : SyncWorld :=
  ⟨some l, routing, .new, fun _ => none⟩

end SyncWorld

end VoltageEMS.Comsrv
