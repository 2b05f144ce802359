import VoltageEMS.Lib.Run
import VoltageEMS.Rules.Trigger

/-!
# The rule scheduler

`RuleScheduler` (`voltage-rules/src/scheduler.rs`) and `PointWatchDispatcher`
(`point_watch_dispatcher.rs`).  `start` takes ticks and PointWatch events one at a time; one input
of `machine` is one of them, with everything the environment decides: how long the scheduler
waited, what the snapshot source and the executor answered, in which order the concurrent
executions completed.
-/

namespace VoltageEMS.Rules

open Lib List

/-! ## Results of an execution -/

/-- `ActionResult`, the part that enters the history fingerprint. -/
structure ActionResult where
  targetId : Nat
  pointId : Nat
  success : Bool
deriving DecidableEq, Repr

/-- `RuleExecutionResult`: what the executor reports, with the points it read, in order. -/
structure RuleExecutionResult where
  success : Bool
  actionsExecuted : List ActionResult
  error : Option String
  pointReads : List (PointRef × Float)

variable (r : RuleExecutionResult)

/-- `point_values`: the reads of an execution under their cache keys. -/
def RuleExecutionResult.pointValues : String → Option Float :=
  insertAll (fun _ => none) (r.pointReads.map fun e => (e.1.cacheKey, e.2))

/-- `result.success && !result.actions_executed.is_empty()`. -/
def RuleExecutionResult.startCooldown : Bool :=
  r.success && !r.actionsExecuted.isEmpty

/-- What the executor answers. -/
abbrev Outcome := Except String RuleExecutionResult

/-- A cooldown is to start. -/
def Outcome.acted : Outcome → Bool
  | .ok r => r.startCooldown
  | .error _ => false

/-- The points it read. -/
def Outcome.pointReads : Outcome → List (PointRef × Float)
  | .ok r => r.pointReads
  | .error _ => []

/-- `executor_point_values`: empty when the executor failed. -/
def Outcome.pointValues : Outcome → String → Option Float
  | .ok r => r.pointValues
  | .error _ => fun _ => none

/-- The executor did not fail. -/
def Outcome.isOk : Outcome → Bool
  | .ok _ => true
  | .error _ => false

/-! ## Scheduled rules -/

/-- `ScheduledRule`. -/
structure ScheduledRule where
  rule : Rule
  trigger : TriggerConfig
  lastExecution : Option Nat := none
  lastCooldownStart : Option Nat := none
  onchangeState : OnChangeState := {}
  lastHistoryFingerprint : Option String := none
  lastHistoryWritten : Option Nat := none

/-- `load_rules`: fresh runtime state for every rule the repository returned. -/
def loadRules (rules : List Rule) : List ScheduledRule :=
  rules.map fun r => { rule := r, trigger := r.trigger }

/-- `HISTORY_REPEAT_INTERVAL`, one hour. -/
def historyRepeatInterval : Nat := 3600 * 10 ^ 9

/-- `execution_fingerprint`. -/
def executionFingerprint : String :=
  let actions := r.actionsExecuted.map fun a =>
    toString a.targetId ++ "-" ++ toString a.pointId ++ "-" ++ toString a.success
  toString r.success ++ "|" ++ r.error.getD "" ++ "|" ++
    String.intercalate "," (actions.insertionSort (· ≤ ·))

/-- `should_persist_history`. -/
def shouldPersistHistory : Bool :=
  !r.actionsExecuted.isEmpty || r.error.isSome

/-- Another record, or an old one. -/
def needsHistoryWrite (s : ScheduledRule) (fp : String) (clock : Nat) : Bool :=
  s.lastHistoryFingerprint != some fp ||
    match s.lastHistoryWritten with
    | none => true
    | some t => decide (historyRepeatInterval ≤ clock - t)

/-- The history dedup both paths run under the write lock, at `clock` (`t.elapsed()`) in the step of
`now`.  The flag says that a record is written. -/
def recordHistory (s : ScheduledRule) (r : RuleExecutionResult) (now clock : Nat) :
    ScheduledRule × Bool :=
  if shouldPersistHistory r = true ∧ needsHistoryWrite s (executionFingerprint r) clock = true then
    ({ s with
        lastHistoryFingerprint := some (executionFingerprint r)
        lastHistoryWritten := some now }, true)
  else (s, false)

/-! ## Events of a run -/

/-- What started an execution. -/
inductive Path
  | tick
  | watch
deriving DecidableEq, Repr

/-- One execution of the rule at position `idx`, at the instant of its step. -/
structure Execution where
  idx : Nat
  path : Path
  start : Nat
  acted : Bool
deriving DecidableEq, Repr

/-- What is observed of a step. -/
inductive Event
  /-- `fetch_point_snapshot` read a finite value for the point -/
  | snapshotRead (p : PointRef) (v : Float)
  /-- the executor read a value for the point while it ran the rule -/
  | executorRead (idx : Nat) (p : PointRef) (v : Float)
  /-- a `WatchEvent` of this channel point reached the scheduler -/
  | watchEvent (source : ChannelPoint) (v : Float)
  | executed (e : Execution)
  /-- `write_rule_exec_to_redis` -/
  | execToRedis (ruleId : Int)
  /-- `write_rule_history_to_db` -/
  | historyToDb (ruleId : Int)
deriving DecidableEq

/-! ## Snapshot -/

/-- The hash of the point in Redis. -/
def PointRef.hashKey (p : PointRef) : String :=
  match p.pointType with
  | .measurement => KeySpace.instanceMeasurementKey p.inst
  | .action => KeySpace.instanceActionKey p.inst

/-- Where `fetch_point_snapshot` reads: the shared-memory reader, or Redis, where `hash_mget` fails
for a whole hash or returns the parsed number of each field. -/
inductive SnapshotSource
  | shm (getInstance : (inst instanceType point : Nat) → Option Float)
  | redis (hashMget : String → Option (String → Option Float))

/-- The value of one point. -/
def SnapshotSource.read : SnapshotSource → PointRef → Option Float
  | shm getInstance, p =>
    let instanceType := match p.pointType with
      | .measurement => 0
      | .action => 1
    (getInstance p.inst instanceType p.point).filter Float.isFinite
  | redis hashMget, p =>
    ((hashMget p.hashKey).bind fun fields => fields (toString p.point)).filter Float.isFinite

/-- `fetch_point_snapshot`. -/
def fetchPointSnapshot (source : SnapshotSource) (subscriptions : List PointRef) : Snapshot :=
  insertAll (fun _ => none) (subscriptions.map fun p => (p.cacheKey, source.read p))

theorem fetchPointSnapshot_eq_some {source : SnapshotSource} {subs : List PointRef} {p : PointRef}
    {x : Option Float} :
    fetchPointSnapshot source subs p.cacheKey = some x ↔ p ∈ subs ∧ source.read p = x := by
  have hread : ∀ {y}, (p.cacheKey, y) ∈ subs.map (fun q => (q.cacheKey, source.read q)) →
      p ∈ subs ∧ source.read p = y := by
    intro y hy
    obtain ⟨q, hmem, heq⟩ := mem_map.mp hy
    rw [Prod.mk.injEq] at heq
    obtain rfl := PointRef.cacheKey_injective heq.1
    exact ⟨hmem, heq.2⟩
  constructor
  · intro h
    exact hread ((mem_of_insertAll h).resolve_right nofun)
  rintro ⟨hp, rfl⟩
  exact insertAll_of_unique (mem_map.mpr ⟨p, hp, rfl⟩) fun y hy => (hread hy).2.symm

/-- The points of enabled rules. -/
def subscriptions (rules : List ScheduledRule) : List PointRef :=
  (rules.filter fun s => s.rule.enabled).flatMap fun s => s.trigger.pointRefs

/-! ## Finishing an execution -/

/-- The values of a trigger are kept. -/
def OnChangeState.advance (st : OnChangeState) (pointRefs : List PointRef)
    (value : PointRef → Option Float) (now : Nat) : OnChangeState where
  lastValue := insertAll st.lastValue
    (pointRefs.filterMap fun p => ((value p).filter Float.isFinite).map fun v => (p.cacheKey, v))
  lastTrigger := some now

/-- Phase 3 of `tick` for one rule; the flag says that a history record is written. -/
def finishTick (snapshot : Snapshot) (now clock : Nat) (s : ScheduledRule) (o : Outcome) :
    ScheduledRule × Bool :=
  let s' := { s with
    lastExecution := some now
    lastCooldownStart := if o.acted then some now else s.lastCooldownStart
    onchangeState :=
      if s.trigger.isOnChange then
        -- the executor's own read first, then the snapshot of phase 0
        s.onchangeState.advance s.trigger.pointRefs
          (fun p => (o.pointValues p.cacheKey).or (snapshot p.cacheKey).join) now
      else s.onchangeState }
  match o with
  | .ok r => recordHistory s' r now clock
  | .error _ => (s', false)

/-- The update of `execute_watch_triggered` for one rule: every subscribed point gets the value of
the event, and no cooldown starts. -/
def finishWatch (value : Float) (now clock : Nat) (s : ScheduledRule) :
    Outcome → ScheduledRule × Bool
  | .ok r =>
    recordHistory { s with
      lastExecution := some now
      onchangeState :=
        if s.trigger.isOnChange then
          s.onchangeState.advance s.trigger.pointRefs (fun _ => some value) now
        else s.onchangeState } r now clock
  | .error _ => ({ s with lastExecution := some now }, false)

/-! ## One step -/

/-- `buffer_unordered`: the executions of a step complete in some order. -/
structure Completion where
  order : List Nat → List Nat
  perm : ∀ l, (order l).Perm l

/-- One after the other. -/
def Completion.inOrder : Completion := ⟨id, fun _ => .refl _⟩

/-- What the environment decides in a step: the wait before it, its duration up to the write lock,
the executor's answers, and the order of completion. -/
structure StepEnv where
  wait : Nat
  busy : Nat
  outcome : Nat → Outcome
  completion : Completion

/-- Where the due rules are. -/
def duePositions (due : ScheduledRule → Bool) (rules : List ScheduledRule) : List Nat :=
  (List.range rules.length).filter fun i => (rules[i]?).any due

/-- What one execution leaves. -/
def executionEvents (path : Path) (now : Nat) (idx : Nat) (ruleId : Int) (o : Outcome)
    (history : Bool) : List Event :=
  (o.pointReads.map fun e => .executorRead idx e.1 e.2) ++
    [.executed ⟨idx, path, now, o.acted⟩] ++
    (if o.isOk then [.execToRedis ruleId] else []) ++
    (if history then [.historyToDb ruleId] else [])

/-- Execute the due rules concurrently, then update each of them; the order shows only in the
events. -/
def executeAll (path : Path) (now : Nat) (due : ScheduledRule → Bool)
    (finish : ScheduledRule → Outcome → ScheduledRule × Bool) (env : StepEnv)
    (rules : List ScheduledRule) : List ScheduledRule × List Event :=
  (rules.mapIdx fun i s => if due s then (finish s (env.outcome i)).1 else s,
    (env.completion.order (duePositions due rules)).flatMap fun i =>
      match rules[i]? with
      | none => []
      | some s =>
        executionEvents path now i s.rule.id (env.outcome i) (finish s (env.outcome i)).2)

/-- The scheduler. -/
structure State where
  clock : Nat := 0
  rules : List ScheduledRule

/-- The rule is due on a tick. -/
def dueOnTick (snapshot : Snapshot) (now : Nat) (s : ScheduledRule) : Bool :=
  s.rule.enabled &&
  (match s.trigger with
    | .interval intervalMs =>
      match s.lastExecution with
      | none => true
      | some last => decide (intervalMs ≤ elapsedMs now last)
    | .onChange pointRefs timeDeadbandMs valueDeadband =>
      shouldTriggerOnchange s.onchangeState pointRefs timeDeadbandMs valueDeadband snapshot now) &&
  s.rule.cooldownOk s.lastCooldownStart now

/-- `RuleScheduler::tick`. -/
def tick (env : StepEnv) (source : SnapshotSource) (st : State) : State × List Event :=
  let now := st.clock + env.wait
  let clock := now + env.busy
  let subs := subscriptions st.rules
  let snapshot := fetchPointSnapshot source subs
  let r := executeAll .tick now (dueOnTick snapshot now) (finishTick snapshot now clock) env st.rules
  ({ clock := clock, rules := r.1 },
    (subs.filterMap fun p => (source.read p).map fun v => Event.snapshotRead p v) ++ r.2)

/-! ## PointWatch -/

/-- `WatchEvent`. -/
structure WatchEvent where
  ruleIds : List Int
  channelId : Nat
  pointId : Nat
  value : Float
  raw : Float
  timestampMs : Nat

/-- The rules subscribed to a channel point, by `(channel_id, point_id)`. -/
abbrev SubIndex := Nat × Nat → List Int

/-- `rebuild_from_rules`, the index: an instance point subscribes to the telemetry and signal points
whose C2M route has its instance and point id. -/
def rebuildFromRules (routing : RoutingCache) (rules : List ScheduledRule) : SubIndex := fun key =>
  (rules.filter fun s => s.rule.enabled).flatMap fun s =>
    s.trigger.pointRefs.flatMap fun p =>
      (routing.c2m.filter fun route =>
        route.2 == ⟨p.inst, p.point⟩ && route.1.pointType.isMeasurement &&
          (route.1.channelId, route.1.pointId) == key).map fun _ => s.rule.id

/-- `PointWatchDispatcher::dispatch`; the key has no point type. -/
def dispatch (index : SubIndex) (ev : PointWatchEvent) : Option WatchEvent :=
  match index (ev.channelId, ev.pointId) with
  | [] => none
  | ruleIds => some ⟨ruleIds, ev.channelId, ev.pointId, ev.value, ev.raw, ev.timestampMs⟩

/-- The event as a snapshot. -/
def watchSnapshot (value : Float) (pointRefs : List PointRef) : Snapshot :=
  insertAll (fun _ => none) (pointRefs.map fun p => (p.cacheKey, some value))

/-- The rule is due on an event. -/
def dueOnWatch (ev : WatchEvent) (now : Nat) (s : ScheduledRule) : Bool :=
  ev.ruleIds.contains s.rule.id && s.rule.enabled &&
  match s.trigger with
  | .interval _ => false
  | .onChange pointRefs timeDeadbandMs valueDeadband =>
    shouldTriggerOnchange s.onchangeState pointRefs timeDeadbandMs valueDeadband
      (watchSnapshot ev.value pointRefs) now

/-- `execute_watch_triggered`. -/
def executeWatchTriggered (env : StepEnv) (ev : WatchEvent) (st : State) : State × List Event :=
  let now := st.clock + env.wait
  let clock := now + env.busy
  let r := executeAll .watch now (dueOnWatch ev now) (finishWatch ev.value now clock) env st.rules
  ({ clock := clock, rules := r.1 }, r.2)

/-! ## Runs -/

/-- What `start` waits for. -/
inductive Input
  | tick (env : StepEnv) (source : SnapshotSource)
  | watch (env : StepEnv) (ev : PointWatchEvent)

/-- One round of the loop in `start`; an event without subscribers never leaves the dispatcher. -/
def step (index : SubIndex) (st : State) : Input → State × List Event
  | .tick env source => tick env source st
  | .watch env ev =>
    match dispatch index ev with
    | none => ({ st with clock := st.clock + env.wait }, [])
    | some we =>
      let r := executeWatchTriggered env we st
      (r.1, .watchEvent ev.source ev.value :: r.2)

/-- The scheduler as a machine. -/
def machine (routing : RoutingCache) (rules : List Rule) : Machine State Input Event where
  step := step (rebuildFromRules routing (loadRules rules))

/-- Before the first tick. -/
def init (rules : List Rule) : State := { rules := loadRules rules }

/-! ## What a step does -/

/-- The executions. -/
def executions (events : List Event) : List Execution :=
  events.filterMap fun
    | .executed e => some e
    | _ => none

@[simp] theorem executions_append (l l' : List Event) :
    executions (l ++ l') = executions l ++ executions l' := filterMap_append

theorem executions_flatMap (l : List Nat) (f : Nat → List Event) :
    executions (l.flatMap f) = l.flatMap fun i => executions (f i) := by
  unfold executions
  rw [filterMap_flatMap]

theorem executions_executionEvents (path : Path) (now : Nat) (idx : Nat) (ruleId : Int)
    (o : Outcome) (history : Bool) :
    executions (executionEvents path now idx ruleId o history) = [⟨idx, path, now, o.acted⟩] := by
  have hreads : executions (o.pointReads.map fun e => Event.executorRead idx e.1 e.2) = [] := by
    simp [executions]
  unfold executionEvents
  rw [executions_append, executions_append, executions_append, hreads]
  cases o.isOk <;> cases history <;> rfl

variable {i : Nat}

theorem mem_duePositions {due : ScheduledRule → Bool} {rules : List ScheduledRule} :
    i ∈ duePositions due rules ↔ ∃ s, rules[i]? = some s ∧ due s = true := by
  unfold duePositions
  rw [mem_filter, mem_range, Option.any_eq_true]
  constructor
  · rintro ⟨-, s, hs, hd⟩
    exact ⟨s, hs, hd⟩
  rintro ⟨s, hs, hd⟩
  exact ⟨(List.getElem?_eq_some_iff.mp hs).1, s, hs, hd⟩

theorem nodup_duePositions (due : ScheduledRule → Bool) (rules : List ScheduledRule) :
    (duePositions due rules).Nodup := nodup_range.filter _

theorem executions_snapshotReads (subs : List PointRef) (source : SnapshotSource) :
    executions (subs.filterMap fun p => (source.read p).map fun v => Event.snapshotRead p v) = [] := by
  unfold executions
  rw [filterMap_filterMap, filterMap_eq_nil_iff]
  intro p _
  cases source.read p <;> rfl

section RecordHistory

variable (s : ScheduledRule) (r : RuleExecutionResult) (now clock : Nat)

@[simp] theorem recordHistory_rule : (recordHistory s r now clock).1.rule = s.rule := by
  unfold recordHistory
  split <;> rfl

@[simp] theorem recordHistory_trigger : (recordHistory s r now clock).1.trigger = s.trigger := by
  unfold recordHistory
  split <;> rfl

@[simp] theorem recordHistory_lastCooldownStart :
    (recordHistory s r now clock).1.lastCooldownStart = s.lastCooldownStart := by
  unfold recordHistory
  split <;> rfl

@[simp] theorem recordHistory_onchangeState :
    (recordHistory s r now clock).1.onchangeState = s.onchangeState := by
  unfold recordHistory
  split <;> rfl

end RecordHistory

theorem finishTick_spec (snapshot : Snapshot) (now clock : Nat) (s : ScheduledRule)
    (o : Outcome) :
    (finishTick snapshot now clock s o).1.rule = s.rule ∧
      (finishTick snapshot now clock s o).1.trigger = s.trigger ∧
      (finishTick snapshot now clock s o).1.lastCooldownStart =
        (if o.acted then some now else s.lastCooldownStart) ∧
      (finishTick snapshot now clock s o).1.onchangeState =
        if s.trigger.isOnChange then
          s.onchangeState.advance s.trigger.pointRefs
            (fun p => (o.pointValues p.cacheKey).or (snapshot p.cacheKey).join) now
        else s.onchangeState := by
  cases o with
  | error e => exact ⟨rfl, rfl, rfl, rfl⟩
  | ok r => simp [finishTick]

theorem finishWatch_spec (value : Float) (now clock : Nat) (s : ScheduledRule) (o : Outcome) :
    (finishWatch value now clock s o).1.rule = s.rule ∧
      (finishWatch value now clock s o).1.trigger = s.trigger ∧
      (finishWatch value now clock s o).1.lastCooldownStart = s.lastCooldownStart ∧
      (finishWatch value now clock s o).1.onchangeState =
        if o.isOk ∧ s.trigger.isOnChange then
          s.onchangeState.advance s.trigger.pointRefs (fun _ => some value) now
        else s.onchangeState := by
  cases o with
  | error | ok => simp [finishWatch, Outcome.isOk]

section ExecuteAll

variable {path : Path} {now : Nat} {due : ScheduledRule → Bool}
  {finish : ScheduledRule → Outcome → ScheduledRule × Bool} {env : StepEnv}
  {rules : List ScheduledRule}

theorem executeAll_getElem {s : ScheduledRule} (h : rules[i]? = some s) :
    (executeAll path now due finish env rules).1[i]? =
      some (if due s then (finish s (env.outcome i)).1 else s) := by
  simp [executeAll, List.getElem?_mapIdx, h]

theorem of_executeAll_getElem {s' : ScheduledRule}
    (h : (executeAll path now due finish env rules).1[i]? = some s') :
    ∃ s, rules[i]? = some s ∧ s' = if due s then (finish s (env.outcome i)).1 else s := by
  cases hs : rules[i]? with
  | none => simp [executeAll, List.getElem?_mapIdx, hs] at h
  | some s =>
    rw [executeAll_getElem hs, Option.some.injEq] at h
    exact ⟨s, rfl, h.symm⟩

theorem executions_executeAll :
    executions (executeAll path now due finish env rules).2 =
      (env.completion.order (duePositions due rules)).map fun i =>
        ⟨i, path, now, (env.outcome i).acted⟩ := by
  unfold executeAll
  rw [executions_flatMap, map_eq_flatMap]
  refine flatMap_congr fun i hi => ?_
  obtain ⟨s, hs, -⟩ := mem_duePositions.mp ((env.completion.perm _).mem_iff.mp hi)
  rw [hs]
  exact executions_executionEvents ..

theorem mem_executions_executeAll {e : Execution}
    (h : e ∈ executions (executeAll path now due finish env rules).2) :
    ∃ s, rules[e.idx]? = some s ∧ due s = true ∧ e.start = now ∧
      e.acted = (env.outcome e.idx).acted := by
  rw [executions_executeAll] at h
  obtain ⟨i, hi, rfl⟩ := mem_map.mp h
  obtain ⟨s, hs, hd⟩ := mem_duePositions.mp ((env.completion.perm _).mem_iff.mp hi)
  exact ⟨s, hs, hd, rfl, rfl⟩

theorem executions_executeAll_ne :
    (executions (executeAll path now due finish env rules).2).Pairwise fun e f =>
      e.idx ≠ f.idx := by
  rw [executions_executeAll, pairwise_map]
  exact (env.completion.perm _).nodup_iff.mpr (nodup_duePositions due rules)

end ExecuteAll

variable {ev : PointWatchEvent} {index : SubIndex}

theorem step_watch_none {st : State} {env : StepEnv} (h : dispatch index ev = none) :
    step index st (.watch env ev) = ({ st with clock := st.clock + env.wait }, []) := by
  simp only [step, h]

theorem step_watch_some {st : State} {env : StepEnv} {we : WatchEvent}
    (h : dispatch index ev = some we) :
    step index st (.watch env ev) = ((executeWatchTriggered env we st).1,
      .watchEvent ev.source ev.value :: (executeWatchTriggered env we st).2) := by
  simp only [step, h]

end VoltageEMS.Rules
