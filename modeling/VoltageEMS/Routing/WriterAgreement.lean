import VoltageEMS.Routing.CascadePlan

/-!
# The writes of the three writers

What the stores of the three writers hold after a batch: the calls each of them got, compared between
the writers, and the slots, compared between the orders a hash map may be gone through in.
-/

namespace VoltageEMS.Routing

open Lib List Option

/-! ## What the stores see -/

section Stores

variable {σ : Type}

/-- The call of `set_direct` for an update, if its point has a slot. -/
def DirectEnv.call (env : DirectEnv σ) (u : ChannelPointUpdate) : Option (Nat × Float × Float) :=
  (env.lookup u.point).map fun slot => (slot, u.value, u.raw)

/-- A shared memory that keeps the calls of `set_direct`. -/
structure DirectEnv.Record (env : DirectEnv σ) where
  calls : σ → List (Nat × Float × Float)
  calls_clock : ∀ s, calls (env.sinceEpoch s).2 = calls s
  calls_setDirect : ∀ s slot value raw timestampMs,
    calls (env.setDirect s slot value raw timestampMs) = calls s ++ [(slot, value, raw)]

/-- A shared memory whose slots hold value and raw value; a call changes one slot. -/
structure DirectEnv.View (env : DirectEnv σ) where
  slots : σ → Nat → Option (Float × Float)
  slots_clock : ∀ s, slots (env.sinceEpoch s).2 = slots s
  slots_setDirect : ∀ s slot value raw timestampMs,
    slots (env.setDirect s slot value raw timestampMs) =
      Function.update (slots s) slot (some (value, raw))

/-- A value of a hash without the time. -/
def HashValue.untimed : HashValue → HashValue
  | .f64 x => .f64 x
  | .i64 _ => .i64 0

/-- The fields of a hash without the times. -/
def untimed (layer : String × HashFields) : String × HashFields :=
  (layer.1, layer.2.map fun f => (f.1, f.2.untimed))

/-- A store that keeps the pipelines it gets. -/
structure RtdbEnv.Record (env : RtdbEnv σ) where
  pipelines : σ → List (List (String × HashFields))
  pipelines_clock : ∀ s, pipelines (env.sinceEpoch s).2 = pipelines s
  pipelines_pipeline : ∀ s layers,
    pipelines (env.pipelineHashMset s layers).2 = pipelines s ++ [layers]
  pipelines_mset : ∀ s key fields, pipelines (env.hashMset s key fields).2 = pipelines s

/-- A buffer that keeps the calls it gets. -/
structure BufferEnv.Record (env : BufferEnv σ) where
  calls : σ → List (String × HashFields)
  calls_clock : ∀ s, calls (env.sinceEpoch s).2 = calls s
  calls_mset : ∀ s key fields,
    calls (env.bufferHashMset s key fields).2 = calls s ++ [(key, fields)]

/-- Whether a hash is one of a channel. -/
def ofChannel (layer : String × HashFields) : Bool :=
  KeySpace.dataPrefix.toList.isPrefixOf layer.1.toList

/-- The channel writes of a buffer, without the times. -/
def BufferEnv.Record.channelCalls {env : BufferEnv σ} (r : env.Record) (s : σ) :
    List (String × HashFields) :=
  ((r.calls s).filter ofChannel).map untimed

variable {env : DirectEnv σ} (record : env.Record) (timestampMs : Nat) (view : env.View)
    (us : List ChannelPointUpdate)

theorem map_untimed (g : Group) :
    (channelLayers timestampMs g).map untimed = channelLayers 0 g := by
  simp [channelLayers, untimed, HashValue.untimed, Function.comp_def]

theorem filter_channelLayers (g : Group) :
    (channelLayers timestampMs g).filter ofChannel = channelLayers timestampMs g := by
  refine filter_eq_self.mpr fun layer h => ?_
  simp only [channelLayers, mem_cons, not_mem_nil, or_false] at h
  rcases h with rfl | rfl | rfl <;>
    simp [ofChannel, KeySpace.channelKey, KeySpace.dataPrefix, String.toList_append]

theorem ofChannel_measurement (instanceId : Nat) (fields : HashFields) :
    ofChannel (KeySpace.instanceMeasurementKey instanceId, fields) = false ∧
      ofChannel (KeySpace.instanceMeasurementTsKey instanceId, fields) = false := by
  simp only [ofChannel, KeySpace.instanceMeasurementKey, KeySpace.instanceMeasurementTsKey,
    KeySpace.dataPrefix, KeySpace.instPrefix, String.toList_append]
  exact ⟨rfl, rfl⟩

/-! ### One group -/

theorem DirectEnv.Record.calls_foldl : ∀ r : BatchRoutingResult × σ,
      record.calls (us.foldl (env.writePoint timestampMs) r).2 =
        record.calls r.2 ++ us.filterMap env.call := by
  induction us with
  | nil => simp
  | cons u us ih =>
    intro r
    rw [foldl_cons, ih]
    cases hslot : env.lookup u.point with
    | none => simp [DirectEnv.writePoint, DirectEnv.call, hslot]
    | some slot => simp [DirectEnv.writePoint, DirectEnv.call, hslot, record.calls_setDirect]

theorem DirectEnv.Record.observed :
    env.writer.Observed record.calls fun log g => log ++ g.2.filterMap env.call :=
  ⟨record.calls_clock, fun s timestampMs g => record.calls_foldl timestampMs g.2 ({}, s)⟩

/-- What a call of `set_direct` for an update makes of the slots. -/
def DirectEnv.setSlot (env : DirectEnv σ) (slots : Nat → Option (Float × Float))
    (u : ChannelPointUpdate) : Nat → Option (Float × Float) :=
  match env.lookup u.point with
  | some slot => Function.update slots slot (some (u.value, u.raw))
  | none => slots

theorem DirectEnv.View.slots_foldl (timestampMs : Nat) (us : List ChannelPointUpdate) :
    ∀ r : BatchRoutingResult × σ,
      view.slots (us.foldl (env.writePoint timestampMs) r).2 =
        us.foldl env.setSlot (view.slots r.2) := by
  induction us with
  | nil => simp
  | cons u us ih =>
    intro r
    rw [foldl_cons, ih, foldl_cons]
    cases hslot : env.lookup u.point with
    | none => simp [DirectEnv.writePoint, DirectEnv.setSlot, hslot]
    | some slot => simp [DirectEnv.writePoint, DirectEnv.setSlot, hslot, view.slots_setDirect]

theorem DirectEnv.View.observed :
    env.writer.Observed view.slots fun slots g => g.2.foldl env.setSlot slots :=
  ⟨view.slots_clock, fun s timestampMs g => view.slots_foldl timestampMs g.2 ({}, s)⟩

theorem RtdbEnv.Record.pipelines_msetAll {env : RtdbEnv σ} (record : env.Record) :
    ∀ (hashes : List (String × HashFields)) (s : σ),
      record.pipelines (env.msetAll hashes s).2 = record.pipelines s
  | [], _ => rfl
  | (key, fields) :: rest, s => by
    have hmset := record.pipelines_mset s key fields
    rw [RtdbEnv.msetAll]
    split
    · rename_i heq
      rwa [heq] at hmset
    · rename_i heq
      rw [heq] at hmset
      rw [pipelines_msetAll record rest, hmset]

/-- The pipelines of a store, without the times. -/
def RtdbEnv.Record.channelPipelines {env : RtdbEnv σ} (record : env.Record) (s : σ) :
    List (List (String × HashFields)) :=
  (record.pipelines s).map (·.map untimed)

theorem RtdbEnv.Record.observed {env : RtdbEnv σ} (record : env.Record) (tables : RoutingTables) :
    (env.writer tables).Observed record.channelPipelines fun log g => log ++ [channelLayers 0 g] where
  now s := by
    have hclock := record.pipelines_clock s
    rw [RtdbEnv.Record.channelPipelines, RtdbEnv.Record.channelPipelines, ← hclock]
    simp only [RtdbEnv.writer]
    split <;> simp_all
  group s timestampMs g := by
    have hpipeline := record.pipelines_pipeline s (channelLayers timestampMs g)
    have hseen : record.pipelines ((env.writer tables).writeGroup s timestampMs g).2 =
        record.pipelines s ++ [channelLayers timestampMs g] := by
      simp only [RtdbEnv.writer, RtdbEnv.writeGroup]
      split
      · rename_i heq
        rwa [heq] at hpipeline
      rename_i heq
      rw [heq] at hpipeline
      rw [← hpipeline]
      split
      · rename_i hall
        exact (congrArg _ (congrArg Prod.snd hall)).symm.trans (record.pipelines_msetAll _ _)
      · rename_i hall
        exact (congrArg _ (congrArg Prod.snd hall)).symm.trans (record.pipelines_msetAll _ _)
    rw [RtdbEnv.Record.channelPipelines, hseen, map_append, map_singleton, map_untimed]
    rfl

theorem BufferEnv.Record.calls_bufferAll {env : BufferEnv σ} (record : env.Record) :
    ∀ (hashes : List (String × HashFields)) (s : σ),
      record.calls (env.bufferAll hashes s).2 = record.calls s ++ hashes
  | [], _ => (append_nil _).symm
  | (key, fields) :: rest, s => by
    simp only [BufferEnv.bufferAll]
    rw [calls_bufferAll record rest, record.calls_mset, append_assoc, singleton_append]

theorem BufferEnv.Record.observed {env : BufferEnv σ} (record : env.Record) (tables : RoutingTables) :
    (env.writer tables).Observed record.channelCalls fun log g => log ++ channelLayers 0 g where
  now s := by
    rw [BufferEnv.Record.channelCalls, BufferEnv.Record.channelCalls, ← record.calls_clock s]
    rfl
  group s timestampMs g := by
    have hnone : ∀ (key : Nat → String) (fields : List (C2MTarget × Float) → HashFields),
        (∀ i fs, ofChannel (key i, fs) = false) → ∀ es : List (Nat × List (C2MTarget × Float)),
        (es.map fun e => (key e.1, fields e.2)).filter ofChannel = [] := by
      intro key fields hkey es
      simp [List.filter_map, Function.comp_def, hkey]
    have hvalues := hnone _ valueFields fun i fs => (ofChannel_measurement i fs).1
    have hstamps := hnone _ (tsFields timestampMs) fun i fs => (ofChannel_measurement i fs).2
    simp only [BufferEnv.writer, BufferEnv.writeGroup, BufferEnv.Record.channelCalls,
      record.calls_bufferAll, filter_append, hvalues, hstamps, filter_channelLayers, append_nil,
      map_append, map_untimed]

end Stores

/-! ## Where a batch leads -/

/-- The point a C2C route leads to, if the writer accepts its type. -/
def nextPoint (accepts : PointType → Bool) (tables : RoutingTables) (p : ChannelPoint) :
    Option ChannelPoint :=
  ((tables.lookupC2c p).map C2CTarget.point).filter fun q => accepts q.pointType

/-- The point a point leads to in `k` hops. -/
def reached (accepts : PointType → Bool) (tables : RoutingTables) :
    Nat → ChannelPoint → Option ChannelPoint
  | 0, p => some p
  | k + 1, p => (nextPoint accepts tables p).bind (reached accepts tables k)

section Reached

variable {accepts : PointType → Bool} {tables : RoutingTables}

theorem reached_succ {u : ChannelPointUpdate} {t : C2CTarget} (ht : routeOf tables u = some t)
    (hacc : accepts t.pointType = true) (k : Nat) :
    reached accepts tables (k + 1) u.point = reached accepts tables k t.point := by
  rw [reached, nextPoint, lookup_of_routeOf ht, map_some,
    filter_some_pos (p := fun q : ChannelPoint => accepts q.pointType) hacc,
    bind_some]

variable {g : List ChannelPointUpdate} {levels : Nat} {q : ChannelPoint}

theorem reached_of_forwards {visited : List ChannelPoint}
    (h : ∃ v ∈ (scanGroup tables visited g).forwards, accepts v.pointType = true ∧
      ∃ i < levels, reached accepts tables i v.point = some q) :
    ∃ u ∈ g, ∃ i < levels + 1, reached accepts tables i u.point = some q := by
  obtain ⟨v, hv, hacc, i, hi, hreach⟩ := h
  obtain ⟨u, hu, t, ht, rfl⟩ := forwards_of_scan hv
  exact ⟨u, hu, i + 1, Nat.succ_lt_succ hi, (reached_succ ht hacc i).trans hreach⟩

theorem reached_of_mem_plan {order : List Group → List Group} (horder : ∀ gs, (order gs).Perm gs) :
    ∀ (levels : Nat) (visited : List ChannelPoint) (us : List ChannelPointUpdate)
      (x : ChannelPointUpdate), x ∈ (plan accepts order tables levels visited us).updates →
      ∃ u ∈ us, accepts u.pointType = true ∧
        ∃ i < levels, reached accepts tables i u.point = some x.point
  | 0, _, _, _, hx => by cases hx
  | levels + 1, visited, us, x, hx => by
    simp only [plan, planGroups, Plan.updates, flatMap_assoc, flatMap_cons,
      mem_flatMap, mem_append] at hx
    obtain ⟨g, hg, hx⟩ := hx
    obtain ⟨u, hu, hreach⟩ :
        ∃ u ∈ g.2, ∃ i < levels + 1, reached accepts tables i u.point = some x.point := by
      rcases hx with hx | hx
      · exact ⟨x, hx, 0, Nat.succ_pos _, rfl⟩
      exact reached_of_forwards
        (reached_of_mem_plan horder levels _ _ x (mem_flatMap.mpr hx))
    obtain ⟨hmem, hacc, -⟩ := of_mem_orderedGroups accepts order horder hg hu
    exact ⟨u, hmem, hacc, hreach⟩

end Reached

/-! ## The three writers -/

section Agreement

variable {tables : RoutingTables} {updates : List ChannelPointUpdate}

theorem measurement_of_forwards
    (htargets : ∀ p t, tables.lookupC2c p = some t → t.pointType.isMeasurement = true)
    (visited : List ChannelPoint) (us : List ChannelPointUpdate) :
    ∀ v ∈ (scanGroup tables visited us).forwards, v.pointType.isMeasurement = true := by
  intro v hv
  obtain ⟨u, -, t, ht, rfl⟩ := forwards_of_scan hv
  exact htargets _ t (lookup_of_routeOf ht)

theorem plan_measurement (order : List Group → List Group)
    (htargets : ∀ p t, tables.lookupC2c p = some t → t.pointType.isMeasurement = true) :
    ∀ (levels : Nat) (visited : List ChannelPoint) (us : List ChannelPointUpdate),
      (∀ u ∈ us, u.pointType.isMeasurement = true) →
      plan PointType.isMeasurement order tables levels visited us =
        plan (fun _ => true) order tables levels visited us
  | 0, _, _, _ => rfl
  | levels + 1, visited, us, hus => by
    have hgroups : orderedGroups PointType.isMeasurement order us =
        orderedGroups (fun _ => true) order us := by
      rw [orderedGroups, orderedGroups, List.filter_eq_self.mpr hus,
        List.filter_eq_self.mpr fun _ _ => rfl]
    have hbelow : ∀ g : Group,
        plan PointType.isMeasurement order tables levels (scanGroup tables visited g.2).visited
            (scanGroup tables visited g.2).forwards =
          plan (fun _ => true) order tables levels (scanGroup tables visited g.2).visited
            (scanGroup tables visited g.2).forwards := fun g =>
      plan_measurement order htargets levels _ _ (measurement_of_forwards htargets visited g.2)
    simp only [plan, planGroups, hgroups, hbelow]

theorem batchPlan_direct {σ τ : Type} {direct : DirectEnv σ} {rtdb : RtdbEnv τ}
    (htargets : ∀ p t, tables.lookupC2c p = some t → t.pointType.isMeasurement = true)
    (hbatch : ∀ u ∈ updates, u.pointType.isMeasurement = true)
    (horder : direct.groupOrder = rtdb.groupOrder) :
    direct.writer.batchPlan tables updates = (rtdb.writer tables).batchPlan tables updates := by
  have hplan := plan_measurement direct.groupOrder htargets (maxC2cCascadeDepth + 1) [] updates hbatch
  rw [horder] at hplan
  simpa only [BatchWriter.batchPlan, BatchWriter.plan, DirectEnv.writer, RtdbEnv.writer, horder]
    using hplan

theorem foldl_append_groups {β : Type} (f : Group → List β) (gs : List Group) :
    ∀ log : List β, gs.foldl (fun log g => log ++ f g) log = log ++ gs.flatMap f := by
  induction gs with
  | nil => simp
  | cons g gs ih => simp [ih]

/-- **The three stores get the same writes.**  For telemetry and signal updates with targets of
these types, groups gone through in one order, a slot for every point the batch leads to and a
`write_channel_batch` that returns, there is one sequence of groups that each store gets, the shared
memory point by point, the others group by group, and the counts of forwards and cycles are the
same. Any two runs may differ in their clocks and in what their stores hold. -/
theorem writers_agree {σ τ υ : Type} {direct : DirectEnv σ} (slots : direct.Record)
    {rtdb : RtdbEnv τ} (redis : rtdb.Record) {buffer : BufferEnv υ} (buffered : buffer.Record)
    (tables : RoutingTables) (updates : List ChannelPointUpdate)
    (htargets : ∀ p t, tables.lookupC2c p = some t → t.pointType.isMeasurement = true)
    (hbatch : ∀ u ∈ updates, u.pointType.isMeasurement = true)
    (horder : direct.groupOrder = rtdb.groupOrder ∧ buffer.groupOrder = rtdb.groupOrder)
    (hslots : ∀ u ∈ updates, ∀ k ≤ maxC2cCascadeDepth,
      ∀ q ∈ reached PointType.isMeasurement tables k u.point, (direct.lookup q).isSome = true)
    (world : σ) (store : τ) (queue : υ) {r : BatchRoutingResult}
    (hreturns : (writeChannelBatch rtdb tables updates store).outcome = .ok r) :
    ∃ (groups : List Group) (rd rb : BatchRoutingResult),
      (∀ g ∈ groups, ∀ u ∈ g.2, (direct.call u).isSome = true) ∧
      slots.calls (writeChannelBatchDirect direct tables updates world).world =
        slots.calls world ++ groups.flatMap (·.2.filterMap direct.call) ∧
      redis.channelPipelines (writeChannelBatch rtdb tables updates store).world =
        redis.channelPipelines store ++ groups.map (channelLayers 0) ∧
      buffered.channelCalls (writeChannelBatchBuffered buffer tables updates queue).world =
        buffered.channelCalls queue ++ groups.flatMap (channelLayers 0) ∧
      (writeChannelBatchDirect direct tables updates world).outcome = .ok rd ∧
      (writeChannelBatchBuffered buffer tables updates queue).outcome = .ok rb ∧
      rd.c2cForwards = r.c2cForwards ∧ rd.cyclesDetected = r.cyclesDetected ∧
      rb.c2cForwards = r.c2cForwards ∧ rb.cyclesDetected = r.cyclesDetected := by
  obtain ⟨rd, hrd⟩ := outcome_direct direct tables updates world
  obtain ⟨rb, hrb⟩ := outcome_buffered buffer tables updates queue
  obtain ⟨hredis, hforwards, hcycles⟩ :=
    (rtdb.writer tables).seen_write tables (redis.observed tables) hreturns
  obtain ⟨hdirect, hforwards', hcycles'⟩ := direct.writer.seen_write tables slots.observed hrd
  obtain ⟨hbuffer, hforwards'', hcycles''⟩ :=
    (buffer.writer tables).seen_write tables (buffered.observed tables) hrb
  have hplan := batchPlan_direct htargets hbatch horder.1
  have hplan' : (buffer.writer tables).batchPlan tables updates =
      (rtdb.writer tables).batchPlan tables updates := by
    simp only [BatchWriter.batchPlan, BatchWriter.plan, BufferEnv.writer, RtdbEnv.writer, horder.2]
  rw [hplan, foldl_append_groups] at hdirect
  rw [hplan', foldl_append_groups] at hbuffer
  rw [foldl_append_groups fun g => [channelLayers 0 g], ← List.map_eq_flatMap] at hredis
  refine ⟨_, rd, rb, fun g hg u hu => ?_, hdirect, hredis, hbuffer, hrd, hrb, ?_, ?_, ?_, ?_⟩
  · rw [← hplan] at hg
    obtain ⟨v, hv, -, k, hk, hreach⟩ := reached_of_mem_plan direct.groupOrder_perm _ [] updates u
      (mem_flatMap.mpr ⟨g, hg, hu⟩)
    rw [DirectEnv.call, isSome_map]
    exact hslots v hv k (Nat.le_of_lt_succ hk) _ hreach
  · rw [hforwards', hplan, hforwards]
  · rw [hcycles', hplan, hcycles]
  · rw [hforwards'', hplan', hforwards]
  · rw [hcycles'', hplan', hcycles]

end Agreement

/-! ## Samples -/

namespace SampleWriters

/-- A clock that stands still, and an order of the groups. -/
def env (σ : Type) (now : Option Nat) (order : List Group → List Group)
    (h : ∀ gs, (order gs).Perm gs) : BatchEnv σ := ⟨fun world => (now, world), order, h⟩

/-- An index with ten slots for the telemetry points of a channel. -/
def slotOf (p : ChannelPoint) : Option Nat :=
  if p.pointType = .telemetry ∧ p.pointId < 10 then some (10 * p.channelId + p.pointId) else none

variable (p : ChannelPoint) (now : Option Nat)

/-- A shared memory that is nothing but the calls it gets. -/
def direct : DirectEnv (List (Nat × Float × Float)) :=
  { env _ now id .refl with
    lookup := slotOf
    setDirect calls slot value raw _ := calls ++ [(slot, value, raw)] }

/-- A store that is nothing but the pipelines it gets. -/
def rtdb : RtdbEnv (List (List (String × HashFields))) :=
  { env _ now id .refl with
    pipelineHashMset log layers := (.ok (), log ++ [layers])
    hashMset log _ _ := (.ok (), log)
    instanceOrder := id
    instanceOrder_perm _ := .refl _ }

/-- A buffer that is nothing but the calls it gets. -/
def buffer : BufferEnv (List (String × HashFields)) :=
  { env _ now id .refl with
    bufferHashMset log key fields := (none, log ++ [(key, fields)])
    instanceOrder := id
    instanceOrder_perm _ := .refl _ }

/-- It keeps its calls. -/
def direct.record : (direct now).Record := ⟨id, fun _ => rfl, fun _ _ _ _ _ => rfl⟩

/-- It keeps its pipelines. -/
def rtdb.record : (rtdb now).Record :=
  ⟨id, fun _ => rfl, fun _ _ => rfl, fun _ _ _ => rfl⟩

/-- It keeps its calls. -/
def buffer.record : (buffer now).Record := ⟨id, fun _ => rfl, fun _ _ _ => rfl⟩

/-- One route, from `1:T:1` to `2:T:1`. -/
def tables : RoutingTables where
  lookupC2m _ := none
  lookupC2c p := if p = ⟨1, .telemetry, 1⟩ then some ⟨2, .telemetry, 1, 1, 0⟩ else none

/-- Values for both points. -/
def batch : List ChannelPointUpdate := [⟨1, .telemetry, 1, 5, none, 0⟩, ⟨2, .telemetry, 1, 7, none, 0⟩]

theorem targets (t : C2CTarget) (h : tables.lookupC2c p = some t) :
    t.pointType.isMeasurement = true := by
  simp only [tables] at h
  split at h
  · cases h
    rfl
  · cases h

end SampleWriters

open SampleWriters in
theorem writers_agree_two_channels :
    ∃ groups : List Group,
      (writeChannelBatchDirect (direct none) tables batch []).world =
        groups.flatMap (·.2.filterMap (direct none).call) ∧
      (rtdb.record (some 1000)).channelPipelines
          (writeChannelBatch (rtdb (some 1000)) tables batch []).world =
        groups.map (channelLayers 0) ∧
      (buffer.record none).channelCalls
          (writeChannelBatchBuffered (buffer none) tables batch []).world =
        groups.flatMap (channelLayers 0) := by
  obtain ⟨groups, -, -, -, hdirect, hredis, hbuffer, -⟩ := writers_agree (direct.record none)
    (rtdb.record (some 1000)) (buffer.record none) tables batch targets (by decide) ⟨rfl, rfl⟩
    (by decide) [] [] []
    (show _ = Except.ok { channelWrites := 3, c2cForwards := 1 } by decide +kernel)
  exact ⟨groups, hdirect, hredis, hbuffer⟩

open SampleWriters in
/-- A clock before the epoch: `write_channel_batch` gives up, the others write with time 0. -/
theorem clock_before_epoch_stops_one :
    (writeChannelBatch (rtdb none) tables batch []).outcome = .error "Failed to get timestamp" ∧
      (writeChannelBatch (rtdb none) tables batch []).world = [] ∧
      (writeChannelBatchDirect (direct none) tables batch []).world =
        [(11, 5, 5), (21, 5, 5), (21, 7, 7)] ∧
      (writeChannelBatchBuffered (buffer none) tables batch []).world.length = 9 := by
  decide +kernel

/-! ## The order of the groups -/

/-- The group a point is written in. -/
def ChannelPoint.groupKey (p : ChannelPoint) : Nat × PointType := (p.channelId, p.pointType)

section InStep

variable (accepts : PointType → Bool) (tables : RoutingTables) (levels : Nat)

/-- Two points lead to the same group at every hop up to the `n`-th. -/
def SameGroups (n : Nat) (p q : ChannelPoint) : Prop :=
  ∀ k ≤ n, (reached accepts tables k p).map ChannelPoint.groupKey =
    (reached accepts tables k q).map ChannelPoint.groupKey

instance (n : Nat) (p q : ChannelPoint) : Decidable (SameGroups accepts tables n p q) := by
  unfold SameGroups
  infer_instance

/-- Where two points lead to one, in fewer than `levels` hops each, they lead to the same group at
every hop until the first of them is there. -/
def Together (p q : ChannelPoint) : Prop :=
  ∀ i < levels, ∀ j < levels, (reached accepts tables i p).isSome = true →
    reached accepts tables i p = reached accepts tables j q →
    SameGroups accepts tables (min i j) p q

instance (p q : ChannelPoint) : Decidable (Together accepts tables levels p q) := by
  unfold Together
  infer_instance

/-- The points of any two updates go together. -/
def InStep (us : List ChannelPointUpdate) : Prop :=
  ∀ u ∈ us, ∀ v ∈ us, accepts u.pointType = true → accepts v.pointType = true →
    Together accepts tables levels u.point v.point

instance (us : List ChannelPointUpdate) : Decidable (InStep accepts tables levels us) := by
  unfold InStep
  infer_instance

end InStep

theorem flatMap_eq_of_perm {α β : Type} {f : α → List β} {l l' : List α} (hperm : l.Perm l')
    (hone : ∀ a ∈ l, ∀ b ∈ l, f a ≠ [] → f b ≠ [] → a = b) : l.flatMap f = l'.flatMap f := by
  classical
  have hfilter : ∀ l : List α, l.flatMap f = (l.filter fun a => f a ≠ []).flatMap f := by
    intro l
    induction l with
    | nil => rfl
    | cons a l ih => by_cases ha : f a = [] <;> simp [ha, ih]
  have hsame := hperm.filter fun a => f a ≠ []
  cases hl : l.filter fun a => f a ≠ [] with
  | nil =>
    rw [hl] at hsame
    rw [hfilter l, hfilter l', hl, hsame.nil_eq]
  | cons a rest =>
    have hall : ∀ b ∈ l.filter fun a => f a ≠ [], b = a := by
      intro b hb
      have ha : a ∈ l.filter fun a => f a ≠ [] := hl ▸ mem_cons_self
      simp only [mem_filter, decide_eq_true_eq] at ha hb
      exact hone b hb.1 a ha.1 hb.2 ha.2
    have hrep := List.eq_replicate_iff.mpr ⟨rfl, hall⟩
    rw [hrep] at hsame
    rw [hfilter l, hfilter l', hrep, List.perm_replicate.mp hsame.symm]

section Order

variable {accepts : PointType → Bool} {tables : RoutingTables} {levels : Nat} {q : ChannelPoint}
  {us g : List ChannelPointUpdate}

theorem InStep.forwards (h : InStep accepts tables (levels + 1) us)
    (hg : ∀ u ∈ g, u ∈ us ∧ accepts u.pointType = true) (visited : List ChannelPoint) :
    InStep accepts tables levels (scanGroup tables visited g).forwards := by
  intro v hv v' hv' hacc hacc' i hi j hj hsome hsame k hk
  obtain ⟨u, hu, t, ht, rfl⟩ := forwards_of_scan hv
  obtain ⟨u', hu', t', ht', rfl⟩ := forwards_of_scan hv'
  have hkeys := h u (hg u hu).1 u' (hg u' hu').1 (hg u hu).2 (hg u' hu').2 (i + 1)
    (Nat.succ_lt_succ hi) (j + 1) (Nat.succ_lt_succ hj)
    (by rwa [reached_succ ht hacc i]) (by rwa [reached_succ ht hacc i, reached_succ ht' hacc' j])
    (k + 1) (by omega)
  rwa [reached_succ ht hacc k, reached_succ ht' hacc' k] at hkeys

theorem InStep.key_eq (h : InStep accepts tables levels us) {u v : ChannelPointUpdate} (hu : u ∈ us)
    (hv : v ∈ us) (hacc : accepts u.pointType = true) (hacc' : accepts v.pointType = true)
    {i j : Nat} (hi : i < levels) (hj : j < levels)
    (hreach : reached accepts tables i u.point = some q)
    (hreach' : reached accepts tables j v.point = some q) : u.key = v.key :=
  some.inj (h u hu v hv hacc hacc' i hi j hj (hreach ▸ rfl) (hreach.trans hreach'.symm) 0
    (Nat.zero_le _))

/-- **The writes of a point do not depend on the order of the groups**, if the batch is in step: at
every level only one group leads to it. -/
theorem filter_plan_eq {order order' : List Group → List Group}
    (horder : ∀ gs, (order gs).Perm gs) (horder' : ∀ gs, (order' gs).Perm gs) (p : ChannelPoint) :
    ∀ (levels : Nat) (visited : List ChannelPoint) (us : List ChannelPointUpdate),
      InStep accepts tables levels us →
      (plan accepts order tables levels visited us).updates.filter (·.point = p) =
        (plan accepts order' tables levels visited us).updates.filter (·.point = p) := by
  intro levels
  induction levels with
  | zero => intro visited us _; rfl
  | succ levels ih =>
    intro visited us hstep
    -- the writes to `p` of a group and of the calls below it
    let writes (order : List Group → List Group) (g : Group) : List ChannelPointUpdate :=
      (g.2 ++ (plan accepts order tables levels (scanGroup tables visited g.2).visited
        (scanGroup tables visited g.2).forwards).updates).filter (·.point = p)
    have hplan : ∀ order : List Group → List Group,
        (plan accepts order tables (levels + 1) visited us).updates.filter (·.point = p) =
          (orderedGroups accepts order us).flatMap (writes order) := by
      intro order
      simp only [plan, planGroups, Plan.updates, flatMap_assoc, flatMap_cons,
        filter_flatMap, writes]
    have hsame : ∀ g ∈ orderedGroups accepts order us, writes order g = writes order' g := by
      intro g hg
      have hg : ∀ u ∈ g.2, u ∈ us ∧ accepts u.pointType = true := fun u hu =>
        (of_mem_orderedGroups accepts order horder hg hu).imp_right And.left
      simp only [writes, filter_append, ih _ _ (hstep.forwards hg visited)]
    have hleads : ∀ g, writes order g ≠ [] →
        ∃ u ∈ g.2, ∃ i < levels + 1, reached accepts tables i u.point = some p := by
      intro g hne
      obtain ⟨x, hx⟩ := exists_mem_of_ne_nil _ hne
      obtain ⟨hx', hp⟩ := mem_filter.mp hx
      obtain rfl : x.point = p := of_decide_eq_true hp
      rcases mem_append.mp hx' with hx' | hx'
      · exact ⟨x, hx', 0, Nat.succ_pos _, rfl⟩
      · exact reached_of_forwards (reached_of_mem_plan horder levels _ _ x hx')
    have hperm : (orderedGroups accepts order us).Perm (orderedGroups accepts order' us) :=
      (horder _).trans (horder' _).symm
    rw [hplan, hplan, ← flatMap_congr fun g hg => hsame g (hperm.mem_iff.mpr hg)]
    refine flatMap_eq_of_perm hperm fun g hg g' hg' hne hne' => ?_
    obtain ⟨u, hu, i, hi, hreach⟩ := hleads g hne
    obtain ⟨v, hv, j, hj, hreach'⟩ := hleads g' hne'
    obtain ⟨hmem, hacc, hkey⟩ := of_mem_orderedGroups accepts order horder hg hu
    obtain ⟨hmem', hacc', hkey'⟩ := of_mem_orderedGroups accepts order horder hg' hv
    have hkeys : g.1 = g'.1 :=
      hkey.symm.trans ((hstep.key_eq hmem hmem' hacc hacc' hi hj hreach hreach').trans hkey')
    refine Prod.ext hkeys ?_
    rw [mem_orderedGroups accepts order horder hg, mem_orderedGroups accepts order horder hg', hkeys]

end Order

theorem DirectEnv.View.slots_write {σ : Type} {env : DirectEnv σ} (view : env.View)
    (tables : RoutingTables) (updates : List ChannelPointUpdate) (world : σ) :
    view.slots (writeChannelBatchDirect env tables updates world).world =
      (env.writer.batchPlan tables updates).updates.foldl env.setSlot (view.slots world) := by
  obtain ⟨r, hr⟩ := outcome_direct env tables updates world
  rw [writeChannelBatchDirect, (env.writer.seen_write tables view.observed hr).1, Plan.updates,
    foldl_flatMap]

theorem DirectEnv.setSlot_foldl {σ : Type} (env : DirectEnv σ) (slot : Nat)
    (slots : Nat → Option (Float × Float)) (us : List ChannelPointUpdate) :
    us.foldl env.setSlot slots slot =
      ((us.filter fun u => env.lookup u.point = some slot).getLast?.map
        fun u => some (u.value, u.raw)).getD (slots slot) := by
  induction us using reverseRecOn with
  | nil => rfl
  | append_singleton us u ih =>
    rw [foldl_append, foldl_cons, foldl_nil, filter_append, DirectEnv.setSlot]
    cases hslot : env.lookup u.point with
    | none => simpa [hslot] using ih
    | some s =>
      by_cases hs : s = slot
      · simp [hslot, hs]
      · simpa [hslot, hs, Ne.symm hs] using ih

/-- **The slots end with the same values in every order of the groups**, if the batch is in step:
two runs of `write_channel_batch_direct` over one index, in which no two points share a slot, that
start with the same slots end with the same. -/
theorem final_values_agree {σ τ : Type} {env : DirectEnv σ} (view : env.View) {env' : DirectEnv τ}
    (view' : env'.View) (hindex : env.lookup = env'.lookup)
    (hslots : ∀ p q slot, env.lookup p = some slot → env.lookup q = some slot → p = q)
    (tables : RoutingTables) (updates : List ChannelPointUpdate)
    (hstep : InStep PointType.isMeasurement tables (maxC2cCascadeDepth + 1) updates)
    {world : σ} {world' : τ} (hworld : view.slots world = view'.slots world') :
    view.slots (writeChannelBatchDirect env tables updates world).world =
      view'.slots (writeChannelBatchDirect env' tables updates world').world := by
  have hset : env'.setSlot = env.setSlot := by
    funext slots u
    rw [DirectEnv.setSlot, DirectEnv.setSlot, hindex]
  have hplan : ∀ p, (env.writer.batchPlan tables updates).updates.filter (·.point = p) =
      (env'.writer.batchPlan tables updates).updates.filter (·.point = p) := fun p =>
    filter_plan_eq env.groupOrder_perm env'.groupOrder_perm p _ [] updates hstep
  rw [view.slots_write, view'.slots_write, hset, hworld]
  funext slot
  rw [DirectEnv.setSlot_foldl, DirectEnv.setSlot_foldl]
  by_cases hpoint : ∃ p, env.lookup p = some slot
  · obtain ⟨p, hp⟩ := hpoint
    have honly : ∀ us : List ChannelPointUpdate,
        us.filter (fun u => env.lookup u.point = some slot) = us.filter (·.point = p) := by
      intro us
      refine filter_congr fun u _ => decide_eq_decide.mpr ⟨fun hu => hslots _ _ _ hu hp, ?_⟩
      rintro rfl
      exact hp
    rw [honly, honly, hplan p]
  · have hnone : ∀ us : List ChannelPointUpdate,
        us.filter (fun u => env.lookup u.point = some slot) = [] := fun us =>
      filter_eq_nil_iff.mpr fun u _ hu => hpoint ⟨u.point, of_decide_eq_true hu⟩
    rw [hnone, hnone]

namespace SampleWriters

/-- A shared memory that is nothing but its slots. -/
def memory (order : List Group → List Group) (h : ∀ gs, (order gs).Perm gs) :
    DirectEnv (Nat → Option (Float × Float)) :=
  { env _ none order h with
    lookup := slotOf
    setDirect slots slot value raw _ := Function.update slots slot (some (value, raw)) }

/-- It shows its slots. -/
def memory.view (order : List Group → List Group) (h : ∀ gs, (order gs).Perm gs) :
    (memory order h).View := ⟨id, fun _ => rfl, fun _ _ _ _ _ => rfl⟩

theorem slotOf_inj (p q : ChannelPoint) (slot : Nat) (hp : slotOf p = some slot)
    (hq : slotOf q = some slot) : p = q := by
  obtain ⟨⟨htype, hid⟩, hp⟩ := Option.ite_none_right_eq_some.mp hp
  obtain ⟨⟨htype', hid'⟩, hq⟩ := Option.ite_none_right_eq_some.mp hq
  have hsum : 10 * p.channelId + p.pointId = 10 * q.channelId + q.pointId :=
    (some.inj hp).trans (some.inj hq).symm
  cases p
  cases q
  simp only [ChannelPoint.mk.injEq] at *
  exact ⟨by omega, htype.trans htype'.symm, by omega⟩

/-- Two routes from one group to `2:T:1`. -/
def joined : RoutingTables where
  lookupC2m _ := none
  lookupC2c p := if p.channelId = 1 then some ⟨2, .telemetry, 1, 2, 0⟩ else none

def joinedBatch : List ChannelPointUpdate :=
  [⟨1, .telemetry, 1, 5, none, 0⟩, ⟨3, .telemetry, 1, 7, none, 0⟩, ⟨1, .telemetry, 2, 6, none, 0⟩]

end SampleWriters

open SampleWriters in
/-- Both updates of channel 1 are forwarded to one point: the later one of the group wins. -/
theorem final_values_agree_joined :
    (writeChannelBatchDirect (memory id fun _ => .refl _) joined joinedBatch fun _ => none).world =
      (writeChannelBatchDirect (memory List.reverse reverse_perm) joined joinedBatch
        fun _ => none).world :=
  final_values_agree (memory.view id fun _ => .refl _) (memory.view List.reverse reverse_perm) rfl
    slotOf_inj joined joinedBatch (by decide +kernel) rfl

open SampleWriters in
/-- A point that is in the batch and a target of another group: the group that comes last wins. -/
theorem final_value_by_order :
    (batch.map ChannelPointUpdate.point).Nodup ∧
      (writeChannelBatchDirect (memory id fun _ => .refl _) tables batch fun _ => none).world 21 =
        some (7, 7) ∧
      (writeChannelBatchDirect (memory List.reverse reverse_perm) tables batch
        fun _ => none).world 21 = some (5, 5) := by
  decide +kernel

end VoltageEMS.Routing
