import VoltageEMS.Routing.Batch
import VoltageEMS.Routing.Cache
import VoltageEMS.Shm.Dispatch

/-!
# Actions that leave for a device

An action of an instance that has an M2C route is a command.  `execute_action` of modsrv and
`write_action_point` of the rule engine send it through an `ActionDispatch` first and store it in
Redis afterwards, so that Redis never shows a command the device was not given.  The store is any
`Rtdb`: its answers may fail at any write, and a failed write may still have changed it.
-/

namespace VoltageEMS.Shm

open Lib List

theorem World.effect_phase_ne_noop (w : World) (i : Nat) {c : Call} (io : CallIo)
    (h : c.phase ≠ .done .noop) : (w.effect i c io).phase ≠ .done .noop := by
  unfold World.effect
  cases hphase : c.phase with
  | started => cases w.writer <;> simp [World.goTo]
  | loaded | awaitingNotifier => dsimp only; split_ifs <;> simp [World.goTo]
  | checked aw expected =>
    dsimp only
    split
    · simp [World.goTo]
    · split_ifs <;> simp [World.goTo]
  | written aw expected =>
    dsimp only
    split_ifs
    · simp [World.goTo]
    · cases w.notifier <;> simp [World.goTo]
  | notifying =>
    dsimp only
    split
    · simp [World.goTo]
    · simp [World.goTo]
    rename_i n pt _ _
    cases hr : (n.notify io.notify c.ctx.targetChannelId pt c.ctx.targetPointId c.value
      c.ctx.timestampMs).2.1 <;> simp [World.outcomeOf]
  | done outcome => simpa [World.goTo, hphase] using h
  | panicked => simp [World.goTo]

theorem World.calls_step_ne_noop (env : ShmEnv) {w : World} (input : ShmInput)
    (h : ∀ c ∈ w.calls, c.phase ≠ .done .noop) :
    ∀ c ∈ (w.step env input).1.calls, c.phase ≠ .done .noop := by
  unfold World.step
  cases input with
  | swap | publish => dsimp only; split <;> exact h
  | watchInode =>
    obtain ⟨_, _, heq⟩ := watchInode_eq w
    dsimp only
    rw [heq]
    exact h
  | openWriter cp => dsimp only [World.openWriter]; split <;> (try split) <;> (try split) <;> exact h
  | call ctx value =>
    intro c hc
    rcases mem_append.mp hc with hc | hc
    · exact h c hc
    rw [mem_singleton.mp hc]
    exact fun hdone => nomatch hdone
  | advance i io =>
    dsimp only
    split
    · exact h
    rename_i c hi
    intro c' hc'
    rcases mem_or_eq_of_mem_set hc' with hc' | rfl
    · exact h c' hc'
    · exact w.effect_phase_ne_noop i io (h c (mem_of_getElem? hi))

theorem noop_not_reported (env : ShmEnv) (notifier : Option ShmNotifier) (inputs : List ShmInput) :
    ∀ c ∈ ((World.machine env).run (.init notifier) inputs).calls, c.phase ≠ .done .noop :=
  (World.machine env).invariant (fun w _ => ∀ c ∈ w.calls, c.phase ≠ .done .noop)
    (fun _ _ input h _ => World.calls_step_ne_noop env input h) (l := [])
    (by simp [World.init])
    ((World.machine env).along_true _ inputs)

end VoltageEMS.Shm

namespace VoltageEMS.Routing

open VoltageEMS.Shm

/-! ## The store and the dispatcher -/

/-- The writes to Redis; one that fails may still have changed the store. -/
structure Rtdb (ρ : Type) where
  hashSet : ρ → (key field : String) → HashValue → Except String Unit × ρ
  pipelineHashMset : ρ → List (String × HashFields) → Except String Unit × ρ

/-- An `ActionDispatch` by what it reports: `ShmDispatch` or `NoopDispatch`. -/
inductive ActionDispatch
  | shm (report : RouteContext → Float → DispatchOutcome)
      (ne_noop : ∀ ctx value, report ctx value ≠ .noop)
  | noop

/-- The outcome of a call that has come to its end. -/
def Call.outcome? (c : Call) : Option DispatchOutcome :=
  match c.phase with
  | .done outcome => some outcome
  | _ => none

/-- `ShmDispatch` in a run of the two services: the call comes after `before`, its steps are among
`after`; a call that does not end has delivered nothing. -/
def ActionDispatch.ofRun (env : ShmEnv) (notifier : Option ShmNotifier)
    (before after : List ShmInput) : ActionDispatch :=
  let call := ((World.machine env).run (.init notifier) before).calls.length
  .shm
    (fun ctx value =>
      let w := (World.machine env).run (.init notifier) (before ++ .call ctx value :: after)
      (w.calls[call]?.bind Call.outcome?).getD .noWriter)
    fun ctx value h => by
      rcases Option.getD_eq_iff.mp h with hreported | ⟨-, h⟩
      · obtain ⟨c, hcall, houtcome⟩ := Option.bind_eq_some_iff.mp hreported
        refine noop_not_reported env notifier _ c (List.mem_of_getElem? hcall) ?_
        unfold Call.outcome? at houtcome
        split at houtcome
        · rename_i hphase
          cases houtcome
          exact hphase
        · cases houtcome
      · cases h

/-- `dispatch`. -/
def ActionDispatch.dispatch : ActionDispatch → RouteContext → Float → DispatchOutcome
  | shm report _, ctx, value => report ctx value
  | noop, _, _ => .noop

/-- The writes of both paths. -/
inductive RedisWrite
  | hashSet (key field : String) (value : HashValue)
  | pipelineHashMset (ops : List (String × HashFields))
deriving DecidableEq

/-- What a run logs. -/
inductive ActionEvent
  | dispatched (ctx : RouteContext) (value : Float) (outcome : DispatchOutcome)
  | wrote (w : RedisWrite)
deriving DecidableEq

/-- The store and the log. -/
structure ActionTrace (ρ : Type) where
  redis : ρ
  events : List ActionEvent

namespace Rtdb

variable {ρ : Type} (rtdb : Rtdb ρ)

/-- One write. -/
def perform (redis : ρ) : RedisWrite → Except String Unit × ρ
  | .hashSet key field value => rtdb.hashSet redis key field value
  | .pipelineHashMset ops => rtdb.pipelineHashMset redis ops

/-- Writes up to the first that fails; the text of an error is its outermost context. -/
def writeAll : List (RedisWrite × String) → ActionTrace ρ → Except String Unit × ActionTrace ρ
  | [], t => (.ok (), t)
  | (w, context) :: rest, t =>
    match rtdb.perform t.redis w with
    | (.error _, redis) => (.error context, ⟨redis, t.events ++ [.wrote w]⟩)
    | (.ok (), redis) => writeAll rest ⟨redis, t.events ++ [.wrote w]⟩

/-- All the writes succeed, one after the other, and leave `redis'`. -/
def Committed : List RedisWrite → ρ → ρ → Prop
  | [], redis, redis' => redis' = redis
  | w :: rest, redis, redis' =>
    ∃ next, rtdb.perform redis w = (.ok (), next) ∧ Committed rest next redis'

variable {rtdb}

theorem writeAll_events (ws : List (RedisWrite × String)) (t : ActionTrace ρ) :
    ∃ done, (rtdb.writeAll ws t).2.events = t.events ++ done := by
  induction ws generalizing t with
  | nil => exact ⟨[], (List.append_nil _).symm⟩
  | cons w ws ih =>
    simp only [writeAll]
    split
    · exact ⟨_, rfl⟩
    obtain ⟨done, h⟩ := ih ⟨_, t.events ++ [.wrote w.1]⟩
    exact ⟨.wrote w.1 :: done, by rw [h]; simp⟩

theorem writeAll_ok {ws : List (RedisWrite × String)} {t : ActionTrace ρ}
    (h : (rtdb.writeAll ws t).1 = .ok ()) :
    (rtdb.writeAll ws t).2.events = t.events ++ ws.map (.wrote ∘ Prod.fst) ∧
      rtdb.Committed (ws.map Prod.fst) t.redis (rtdb.writeAll ws t).2.redis := by
  induction ws generalizing t with
  | nil => exact ⟨(List.append_nil _).symm, rfl⟩
  | cons w ws ih =>
    unfold writeAll at h ⊢
    cases hw : rtdb.perform t.redis w.1 with
    | mk answer redis =>
      cases answer with
      | error e => simp [hw] at h
      | ok =>
        simp only [hw] at h ⊢
        obtain ⟨hevents, hcommitted⟩ := ih h
        exact ⟨by rw [hevents]; simp, redis, hw, hcommitted⟩

end Rtdb

/-! ## The commit -/

/-- `ValueValidationError` as text; the default configuration has no maximum. -/
def validationText : ValueValidationError → String
  | .nan => "Value is NaN (Not a Number)"
  | .infinity => "Value is infinite"
  | .outOfRange value max => s!"Value {value} exceeds max absolute value {max}"

/-- `validate_action_value`. -/
def validateActionValue (instanceId : Nat) (pointId : String) (value : Float) :
    Except String Float :=
  (validateValue value {}).mapError fun e =>
    s!"M2C data validation failed for inst:{instanceId}:A:{pointId}: " ++ validationText e

theorem validateActionValue_eq {instanceId : Nat} {pointId : String} {value value' : Float}
    (h : validateActionValue instanceId pointId value = .ok value') : value' = value := by
  unfold validateActionValue validateValue at h
  split_ifs at h <;> simp_all [Except.mapError]

/-- `route_context_from_target`, without its texts. -/
def routeContextFromTarget (target : ChannelPoint) (timestampMs : Nat) : RouteContext :=
  ⟨target.channelId, target.pointType.toU8, target.pointId, timestampMs⟩

/-- `instance_action_ts_key`. -/
def instanceActionTsKey (instanceId : Nat) : String :=
  s!"{KeySpace.instPrefix}:{instanceId}:A:ts"

/-- The value and the time. -/
def instanceWrite (instanceId : Nat) (pointId : String) (value : Float) (timestampMs : Nat) :
    List (RedisWrite × String) :=
  [(.hashSet (KeySpace.instanceActionKey instanceId) pointId (.f64 value),
    "Failed to write instance action point"),
   (.hashSet (instanceActionTsKey instanceId) pointId (.i64 timestampMs),
    "Failed to write instance action point timestamp")]

/-- `write_channel_hash_only`: the value is its own raw value. -/
def channelWrite (target : ChannelPoint) (value : Float) (timestampMs : Nat) :
    List (RedisWrite × String) :=
  let field := toString target.pointId
  let key := KeySpace.channelKey target.channelId target.pointType
  [(.pipelineHashMset [(key, [(field, .f64 value)]), (key ++ ":ts", [(field, .i64 timestampMs)]),
      (key ++ ":raw", [(field, .f64 value)])],
    "Failed to write channel hash")]

/-- `ActionRouteOutcome`; `status` is always `"success"`. -/
structure ActionRouteOutcome where
  instanceId : Nat
  pointId : String
  value : Float
  routed : Bool
  routeResult : Option String
  routeContext : Option RouteContext
deriving DecidableEq

section

variable {ρ : Type} (rtdb : Rtdb ρ)

/-- `set_action_point_with_target_at`. -/
def setActionPointWithTargetAt (instanceId : Nat) (pointId : String) (value : Float)
    (target : Option ChannelPoint) (timestampMs : Nat) (t : ActionTrace ρ) :
    Except String ActionRouteOutcome × ActionTrace ρ :=
  match validateActionValue instanceId pointId value with
  | .error e => (.error e, t)
  | .ok value =>
    let inst := instanceWrite instanceId pointId value timestampMs
    match target with
    | some target =>
      let (answer, t) := rtdb.writeAll (inst ++ channelWrite target value timestampMs) t
      (answer.map fun _ => ⟨instanceId, pointId, value, true, some (toString target.channelId),
        some (routeContextFromTarget target timestampMs)⟩, t)
    | none =>
      let (answer, t) := rtdb.writeAll inst t
      (answer.map fun _ => ⟨instanceId, pointId, value, false, some "no_route", none⟩, t)

/-- All the writes of an action. -/
def commitWrites (instanceId : Nat) (pointId : String) (value : Float) (target : ChannelPoint)
    (timestampMs : Nat) : List RedisWrite :=
  (instanceWrite instanceId pointId value timestampMs
    ++ channelWrite target value timestampMs).map Prod.fst

theorem setActionPoint_events (instanceId : Nat) (pointId : String) (value : Float)
    (target : Option ChannelPoint) (timestampMs : Nat) (t : ActionTrace ρ) :
    ∃ done, (setActionPointWithTargetAt rtdb instanceId pointId value target timestampMs t).2.events
      = t.events ++ done := by
  unfold setActionPointWithTargetAt
  split
  · exact ⟨[], (List.append_nil _).symm⟩
  · cases target <;> exact Rtdb.writeAll_events ..

variable {rtdb}

theorem setActionPoint_ok {instanceId : Nat} {pointId : String} {value : Float}
    {target : ChannelPoint} {timestampMs : Nat} {t : ActionTrace ρ} {outcome : ActionRouteOutcome}
    (h : (setActionPointWithTargetAt rtdb instanceId pointId value target timestampMs t).1
      = .ok outcome) :
    let t' := (setActionPointWithTargetAt rtdb instanceId pointId value target timestampMs t).2
    let writes := commitWrites instanceId pointId value target timestampMs
    t'.events = t.events ++ writes.map .wrote ∧ rtdb.Committed writes t.redis t'.redis := by
  unfold setActionPointWithTargetAt at h ⊢
  cases hvalue : validateActionValue instanceId pointId value with
  | error e => simp [hvalue] at h
  | ok value' =>
    cases validateActionValue_eq hvalue
    simp only [hvalue] at h ⊢
    have hall : (rtdb.writeAll (instanceWrite instanceId pointId value timestampMs
        ++ channelWrite target value timestampMs) t).1 = .ok () := by
      cases hw : (rtdb.writeAll _ t).1 with
      | error e => simp [hw, Except.map] at h
      | ok => rfl
    simpa [commitWrites] using Rtdb.writeAll_ok hall

variable (rtdb)

/-! ## The two callers -/

/-- `ChannelHealthCache`. -/
structure ChannelHealthCache where
  initialized : Bool
  map : Nat → Option Bool

/-- `is_online`: what is not known is online. -/
def ChannelHealthCache.isOnline (health : ChannelHealthCache) (channelId : Nat) : Bool :=
  if health.initialized then (health.map channelId).getD true else true

/-- The errors of `execute_action`. -/
inductive ModSrvError
  | dispatchDegraded (text : String)
  | channelUnreachable (channelId : Nat)
  | internalError (text : String)
deriving DecidableEq

variable (tables : BuiltTables)

/-- `InstanceManager::execute_action`, at the time `nowMs`. -/
def executeAction (health : ChannelHealthCache) (dispatch : ActionDispatch)
    (nowMs : Nat) (instanceId : Nat) (actionId : String) (value : Float) (redis : ρ) :
    Except ModSrvError Unit × ActionTrace ρ :=
  -- the route is looked up once: a reload in between cannot turn a command into a local write
  let m2cTarget := (parseU32 actionId).bind (tables.lookupM2cByParts instanceId .adjustment)
  match m2cTarget with
  | some target =>
    if health.isOnline target.channelId then
      match validateActionValue instanceId actionId value with
      | .error e => (.error (.internalError e), ⟨redis, []⟩)
      | .ok value =>
        let ctx := routeContextFromTarget target nowMs
        let outcome := dispatch.dispatch ctx value
        let t : ActionTrace ρ := ⟨redis, [.dispatched ctx value outcome]⟩
        match outcome with
        | .delivered | .noop =>
          let (answer, t) :=
            setActionPointWithTargetAt rtdb instanceId actionId value (some target) nowMs t
          ((answer.mapError .internalError).map fun _ => (), t)
        | .shmOnly reason =>
          (.error (.dispatchDegraded
            s!"UDS notification failed ({reason}): command may not reach device"), t)
        | .noWriter =>
          (.error (.dispatchDegraded "SHM writer unavailable: comsrv may have restarted"), t)
        | .mirrorMiss reason =>
          (.error (.dispatchDegraded s!"{reason}: routing/SHM layout may be stale"), t)
    else (.error (.channelUnreachable target.channelId), ⟨redis, []⟩)
  | none =>
    let (answer, t) :=
      setActionPointWithTargetAt rtdb instanceId actionId value none nowMs ⟨redis, []⟩
    ((answer.mapError .internalError).map fun _ => (), t)

/-- `dispatch_action_to_comsrv`. -/
def dispatchActionToComsrv (actionDispatch : Option ActionDispatch) (ctx : RouteContext)
    (value : Float) (t : ActionTrace ρ) : Bool × ActionTrace ρ :=
  match actionDispatch with
  | none => (false, t)
  | some dispatch =>
    let outcome := dispatch.dispatch ctx value
    (match outcome with
      | .delivered | .noop => true
      | .noWriter | .mirrorMiss _ | .shmOnly _ => false,
      { t with events := t.events ++ [.dispatched ctx value outcome] })

/-- The action had a route. -/
def routedOf : Except String ActionRouteOutcome → Bool
  | .ok outcome => outcome.routed
  | .error _ => false

/-- `write_action_point` of the rule engine. -/
def writeActionPoint (actionDispatch : Option ActionDispatch) (nowMs : Nat)
    (instanceId point : Nat) (pointStr : String) (value : Float) (redis : ρ) :
    Bool × ActionTrace ρ :=
  match tables.lookupM2cByParts instanceId .adjustment point with
  | none =>
    let (answer, t) :=
      setActionPointWithTargetAt rtdb instanceId pointStr value none nowMs ⟨redis, []⟩
    (routedOf answer, t)
  | some target =>
    match validateActionValue instanceId pointStr value with
    | .error _ => (false, ⟨redis, []⟩)
    | .ok value =>
      let ctx := routeContextFromTarget target nowMs
      match dispatchActionToComsrv actionDispatch ctx value ⟨redis, []⟩ with
      | (false, t) => (false, t)
      | (true, t) =>
        let (answer, t) :=
          setActionPointWithTargetAt rtdb instanceId pointStr value (some target) nowMs t
        (routedOf answer, t)

/-! ## Dispatch before commit -/

/-- The trace starts with a dispatch of the value to the target that was reported as delivered, or
went to the no-op dispatcher. -/
def SentFirst (dispatch : Option ActionDispatch) (target : ChannelPoint) (value : Float)
    (nowMs : Nat) (events rest : List ActionEvent) : Prop :=
  let ctx := routeContextFromTarget target nowMs
  ∃ d, dispatch = some d ∧ (d.dispatch ctx value = .delivered ∨ d = .noop) ∧
    events = .dispatched ctx value (d.dispatch ctx value) :: rest

/-- What a run for a routed action may do to the store, and what its success stands for. -/
structure Gated (dispatch : Option ActionDispatch) (nowMs instanceId : Nat) (pointId : String)
    (target : ChannelPoint) (value : Float) (redis : ρ) (success : Prop) (t : ActionTrace ρ) :
    Prop where
  unwritten : (t.redis = redis ∧ ∀ w, .wrote w ∉ t.events) ∨
    ∃ rest, SentFirst dispatch target value nowMs t.events rest
  complete : success →
    let writes := commitWrites instanceId pointId value target nowMs
    SentFirst dispatch target value nowMs t.events (writes.map .wrote) ∧
      rtdb.Committed writes redis t.redis

variable {rtdb} {nowMs instanceId : Nat} {pointId : String} {target : ChannelPoint} {value : Float}
  {redis : ρ}

theorem Gated.refused {dispatch : Option ActionDispatch} {success : Prop} {t : ActionTrace ρ}
    (hredis : t.redis = redis) (hevents : ∀ w, .wrote w ∉ t.events) (hfailed : ¬ success) :
    Gated rtdb dispatch nowMs instanceId pointId target value redis success t where
  unwritten := .inl ⟨hredis, hevents⟩
  complete h := absurd h hfailed

variable {d : ActionDispatch}

theorem Gated.commit {success : Prop}
    (hsent : d.dispatch (routeContextFromTarget target nowMs) value = .delivered ∨ d = .noop)
    {events : List ActionEvent}
    (hevents : events = [.dispatched (routeContextFromTarget target nowMs) value
      (d.dispatch (routeContextFromTarget target nowMs) value)])
    (hsuccess : success → ∃ outcome, (setActionPointWithTargetAt rtdb instanceId pointId value
      (some target) nowMs ⟨redis, events⟩).1 = .ok outcome) :
    Gated rtdb (some d) nowMs instanceId pointId target value redis success
      (setActionPointWithTargetAt rtdb instanceId pointId value (some target) nowMs
        ⟨redis, events⟩).2 where
  unwritten := by
    obtain ⟨done, hdone⟩ := setActionPoint_events rtdb instanceId pointId value
      (some target) nowMs ⟨redis, events⟩
    exact .inr ⟨done, d, rfl, hsent, by rw [hdone, hevents]; rfl⟩
  complete h := by
    obtain ⟨outcome, hok⟩ := hsuccess h
    obtain ⟨hdone, hcommitted⟩ := setActionPoint_ok hok
    exact ⟨⟨d, rfl, hsent, by rw [hdone, hevents]; rfl⟩, hcommitted⟩

theorem ActionDispatch.eq_noop {ctx : RouteContext} (h : d.dispatch ctx value = .noop) :
    d = .noop := by
  cases d with
  | shm report ne_noop => exact absurd h (ne_noop ctx value)
  | noop => rfl

variable {answer : Except String ActionRouteOutcome}

theorem exists_ok_of_map
    (h : ((answer.mapError ModSrvError.internalError).map fun _ => ()) = .ok ()) :
    ∃ outcome, answer = .ok outcome := by
  cases answer with
  | error e => cases h
  | ok outcome => exact ⟨outcome, rfl⟩

theorem exists_ok_of_routedOf (h : routedOf answer = true) : ∃ outcome, answer = .ok outcome := by
  cases answer with
  | error e => cases h
  | ok outcome => exact ⟨outcome, rfl⟩

theorem executeAction_gated (health : ChannelHealthCache) (dispatch : ActionDispatch)
    (hroute : (parseU32 pointId).bind (tables.lookupM2cByParts instanceId .adjustment)
      = some target) :
    let r := executeAction rtdb tables health dispatch nowMs instanceId pointId value redis
    Gated rtdb (some dispatch) nowMs instanceId pointId target value redis (r.1 = .ok ()) r.2 := by
  unfold executeAction
  simp only [hroute]
  split_ifs
  · cases hvalue : validateActionValue instanceId pointId value with
    | error e => exact .refused rfl (by simp) (by simp)
    | ok value' =>
      cases validateActionValue_eq hvalue
      cases hout : dispatch.dispatch (routeContextFromTarget target nowMs) value with
      | delivered =>
        simp only [hout]
        exact .commit (.inl hout) (by rw [hout]) exists_ok_of_map
      | noop =>
        simp only [hout]
        exact .commit (.inr (ActionDispatch.eq_noop hout)) (by rw [hout]) exists_ok_of_map
      | shmOnly | noWriter | mirrorMiss =>
        simp only [hout]
        exact .refused rfl (by simp) (by simp)
  · exact .refused rfl (by simp) (by simp)

theorem writeActionPoint_gated (actionDispatch : Option ActionDispatch) {point : Nat}
    (hroute : tables.lookupM2cByParts instanceId .adjustment point = some target) :
    let r := writeActionPoint rtdb tables actionDispatch nowMs instanceId point pointId value redis
    Gated rtdb actionDispatch nowMs instanceId pointId target value redis (r.1 = true) r.2 := by
  unfold writeActionPoint
  simp only [hroute]
  cases hvalue : validateActionValue instanceId pointId value with
  | error e => exact .refused rfl (by simp) (by simp)
  | ok value' =>
    cases validateActionValue_eq hvalue
    cases actionDispatch with
    | none => exact .refused rfl (by simp [dispatchActionToComsrv]) (by simp [dispatchActionToComsrv])
    | some dispatch =>
      cases hout : dispatch.dispatch (routeContextFromTarget target nowMs) value with
      | delivered =>
        simp only [dispatchActionToComsrv, hout]
        exact .commit (.inl hout) (by rw [hout]; rfl) exists_ok_of_routedOf
      | noop =>
        simp only [dispatchActionToComsrv, hout]
        exact .commit (.inr (ActionDispatch.eq_noop hout)) (by rw [hout]; rfl) exists_ok_of_routedOf
      | shmOnly | noWriter | mirrorMiss =>
        simp only [dispatchActionToComsrv, hout]
        exact .refused rfl (by simp) (by simp)

/-- **An action with a route is dispatched before it is stored.**  On both paths, whatever the
dispatcher reports and the store answers: without a report of delivery for this value and target (or
the no-op dispatcher) nothing is written, and a success means that the dispatch and every write took
place. -/
theorem routed_action_gated (rtdb : Rtdb ρ) (tables : BuiltTables) (health : ChannelHealthCache)
    (dispatch : ActionDispatch) (actionDispatch : Option ActionDispatch) (nowMs instanceId : Nat)
    (actionId pointStr : String) (point : Nat) (target : ChannelPoint) (value : Float) (redis : ρ)
    (haction : parseU32 actionId = some point)
    (hroute : tables.lookupM2cByParts instanceId .adjustment point = some target) :
    let http := executeAction rtdb tables health dispatch nowMs instanceId actionId value redis
    let rule := writeActionPoint rtdb tables actionDispatch nowMs instanceId point pointStr value
      redis
    Gated rtdb (some dispatch) nowMs instanceId actionId target value redis (http.1 = .ok ())
        http.2 ∧
      Gated rtdb actionDispatch nowMs instanceId pointStr target value redis (rule.1 = true)
        rule.2 :=
  ⟨executeAction_gated tables health dispatch (by rw [haction]; exact hroute),
    writeActionPoint_gated tables actionDispatch hroute⟩

end

/-- Point 7 of instance 3 is adjustment 2 of channel 5. -/
def oneAction : BuiltTables :=
  buildTables [] [("3:A:7", "5:A:2")]

/-- A store that keeps its writes, and never fails. -/
def writeLog : Rtdb (List RedisWrite) where
  hashSet log key field value := (.ok (), log ++ [.hashSet key field value])
  pipelineHashMset log ops := (.ok (), log ++ [.pipelineHashMset ops])

/-- Adjustment points 0 to 2 of channel 5. -/
def threeAdjustments : ChannelPointCounts := ⟨[(5, ![0, 0, 0, 3])], List.pairwise_singleton ..⟩

/-- `ShmDispatch` on an open file, with six steps for the call. -/
def openDispatch (io : CallIo) : ActionDispatch :=
  .ofRun telemetryEnv (some connectedNotifier)
    [.swap 2 threeAdjustments, .openWriter threeAdjustments, .publish]
    (List.replicate 6 (.advance 0 io))

/-- A dispatch that reached comsrv, and the command is stored; one that did not, and it is not. -/
theorem routed_action_gated_oneAction :
    let run := fun d => executeAction writeLog oneAction ⟨true, fun _ => none⟩ d 50 3 "7" 1.5 []
    let delivered := openDispatch smoothIo
    let degraded := openDispatch ⟨true, ⟨false, fun _ => true⟩⟩
    ((run delivered).1 = .ok () ∧
        Gated writeLog (some delivered) 50 3 "7" ⟨5, .adjustment, 2⟩ 1.5 []
          ((run delivered).1 = .ok ()) (run delivered).2) ∧
      (run degraded).2.redis = [] := by
  refine ⟨⟨by decide +kernel, ?_⟩, by decide +kernel⟩
  exact (routed_action_gated writeLog oneAction ⟨true, fun _ => none⟩ _ none 50 3 "7" "7" 7
    ⟨5, .adjustment, 2⟩ 1.5 [] (by decide +kernel) (by decide +kernel)).1

end VoltageEMS.Routing
