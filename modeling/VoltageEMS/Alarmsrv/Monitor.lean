import VoltageEMS.Lib.Run
import VoltageEMS.Alarmsrv.Store

/-!
# The alarm monitor and the rule calls, step by step

Checks of rules (`alarmsrv/src/monitor.rs`) and calls of the API (`alarmsrv/src/routes.rs`) run
concurrently on one database.  Between two statements or transactions of a task any other task may
run, so a task is a state machine with one step per statement.

* `change_step` — **what a step can do** to the tables.
-/

namespace VoltageEMS.Alarmsrv

open Lib List

/-- Where a task is: about to run the statement it is named after. -/
inductive Task
  /-- `check_single_rule`: read the value of the rule, then its alert. -/
  | check (rule : AlertRule)
  /-- `check_single_rule`: insert, update or resolve. -/
  | act (rule : AlertRule) (value : Float) (existing : Option Alert)
  | create (req : CreateRuleRequest)
  | createPoint (req : CreateRuleRequest)
  | createWrite (req : CreateRuleRequest)
  | update (id : Nat) (req : UpdateRuleRequest)
  | updatePoint (id : Nat) (req : UpdateRuleRequest) (existing : AlertRule)
  | updateName (id : Nat) (req : UpdateRuleRequest)
  | updateWrite (id : Nat) (req : UpdateRuleRequest)
  | enable (id : Nat)
  | disable (id : Nat)
  /-- `on_rule_updated`: read the rule. -/
  | ruleUpdated (id : Nat) (done : String)
  /-- `on_rule_updated`: the rule was read and is disabled; resolve its alerts. -/
  | resolveDisabled (rule : AlertRule) (done : String)
  | delete (id : Nat)
  | deleteWrite (rule : AlertRule)
  | resolve (alertId : Nat)
  | resolveWrite (alert : Alert)
  | resolveAnnounce (alert : Alert)

/-- The replies of the API, with their messages. -/
inductive Reply
  | ok (message : String) (id : Nat)
  | badRequest (message : String)
  | notFound (message : String)
  | conflict (message : String) (existing : AlertRule)

/-- What a task makes known: alarms and recoveries, and its reply. -/
inductive Event
  | triggered (alertId : Nat) (rule : AlertRule) (value : Float) (names : DeviceNames)
  | recovered (alertId : Nat) (rule : AlertRule) (value : Option Float) (reason : String)
      (names : DeviceNames)
  | reply (r : Reply)

/-- What a step depends on: the value found in Redis, the clock, the names a rule resolves to. -/
structure Env where
  reading : Option Float
  now : Int
  names : DeviceNames

/-- `is_valid_operator`. -/
def isValidOperator (op : String) : Bool := op ∈ [">", "<", ">=", "<=", "==", "!="]

/-- `validate_channel_online_shape`: the message, if the shape is refused. -/
def validateChannelOnlineShape (serviceType dataType : String) (pointId : Int) : Option String :=
  if serviceType = "comsrv" ∧ dataType = "online" ∧ pointId ≠ 0 then
    some ("Channel online rules (data_type=\"online\") ignore point_id; pass point_id=0 (got " ++
      toString pointId ++ ")")
  else none

/-- The reply to a bad operator. -/
def invalidOperator : Reply := .badRequest "Invalid operator. Allowed: >, <, >=, <=, ==, !="

/-- The reply to a name in use. -/
def duplicateName (name : String) (existing : AlertRule) : Reply :=
  .conflict ("A rule named '" ++ name ++ "' already exists") existing

/-- The reply to a point in use. -/
def duplicatePoint (existing : AlertRule) : Reply :=
  .conflict ("A rule already monitors this point (service:" ++ existing.serviceType ++ ", channel:" ++
    toString existing.channelId ++ ", type:" ++ existing.dataType ++ ", point:" ++
    toString existing.pointId ++ ")") existing

/-- The point of the rule changes. -/
def UpdateRuleRequest.touchesPoint (req : UpdateRuleRequest) : Bool :=
  req.serviceType.isSome || req.channelId.isSome || req.dataType.isSome || req.pointId.isSome

/-- The recoveries of a rule. -/
def recoveries (rule : AlertRule) (reason : String) (resolved : List Alert) : List Event :=
  resolved.map fun a => .recovered a.id rule none reason a.names

/-- The task replies and ends. -/
def finish (db : Db) (r : Reply) : Db × Option Task × List Event := (db, none, [.reply r])

/-- The task goes on. -/
def goOn (db : Db) (t : Task) : Db × Option Task × List Event := (db, some t, [])

namespace Task

variable (env : Env) (db : Db)

/-- `check_single_rule` after its reads. -/
def stepAct (rule : AlertRule) (value : Float) : Option Alert → Db × Option Task × List Event
  | some alert =>
    if rule.evaluate value then (db.updateAlertValue alert.id value, none, [])
    else (db.resolveAlert alert value env.now, none,
      [.recovered alert.id rule (some value) "Condition cleared" alert.names])
  | none =>
    if rule.evaluate value then
      match db.insertAlert rule value env.names env.now with
      | some (db, alertId) => (db, none, [.triggered alertId rule value env.names])
      | none => (db, none, [])
    else (db, none, [])

/-- `update_rule` up to its write. -/
def stepUpdate (id : Nat) (req : UpdateRuleRequest) : Db × Option Task × List Event :=
  if req.operator.any fun op => !isValidOperator op then finish db invalidOperator
  else if req.touchesPoint then
    match db.getRuleById id with
    | none => finish db (.notFound "Rule not found")
    | some existing =>
      match validateChannelOnlineShape (req.apply existing).serviceType (req.apply existing).dataType
          (req.apply existing).pointId with
      | some message => finish db (.badRequest message)
      | none => goOn db (.updatePoint id req existing)
  else goOn db (.updateName id req)

/-- One statement. -/
def step : Task → Db × Option Task × List Event
  | .check rule =>
    match env.reading with
    | none => (db, none, [])
    | some value => goOn db (.act rule value (db.getAlertByRuleId rule.id))
  | .act rule value existing => stepAct env db rule value existing
  | .create req =>
    if !isValidOperator req.operator then finish db invalidOperator
    else
      match validateChannelOnlineShape req.serviceType req.dataType req.pointId with
      | some message => finish db (.badRequest message)
      | none =>
        match db.findRuleByName req.ruleName with
        | some existing => finish db (duplicateName req.ruleName existing)
        | none => goOn db (.createPoint req)
  | .createPoint req =>
    match db.findRuleByPoint req.serviceType req.channelId req.dataType req.pointId none with
    | some existing => finish db (duplicatePoint existing)
    | none => goOn db (.createWrite req)
  | .createWrite req =>
    finish (db.insertRule req).1 (.ok ("Rule '" ++ req.ruleName ++ "' created") (db.insertRule req).2)
  | .update id req => stepUpdate db id req
  | .updatePoint id req existing =>
    let new := req.apply existing
    match db.findRuleByPoint new.serviceType new.channelId new.dataType new.pointId (some id) with
    | some conflict => finish db (duplicatePoint conflict)
    | none => goOn db (.updateName id req)
  | .updateName id req =>
    match req.ruleName with
    | none => goOn db (.updateWrite id req)
    | some name =>
      match db.findRuleByName name with
      | none => goOn db (.updateWrite id req)
      | some existing =>
        if existing.id = id then goOn db (.updateWrite id req)
        else finish db (duplicateName name existing)
  | .updateWrite id req =>
    if (db.updateRule id req).2 then goOn (db.updateRule id req).1 (.ruleUpdated id "Rule updated")
    else finish (db.updateRule id req).1 (.notFound "Rule not found")
  | .enable id =>
    if (db.setRuleEnabled id true).2 then
      finish (db.setRuleEnabled id true).1 (.ok "Rule enabled" id)
    else finish (db.setRuleEnabled id true).1 (.notFound "Rule not found")
  | .disable id =>
    if (db.setRuleEnabled id false).2 then
      goOn (db.setRuleEnabled id false).1 (.ruleUpdated id "Rule disabled")
    else finish (db.setRuleEnabled id false).1 (.notFound "Rule not found")
  | .ruleUpdated id done =>
    match db.getRuleById id with
    | none => finish db (.ok done id)
    | some rule => if rule.enabled then finish db (.ok done id) else goOn db (.resolveDisabled rule done)
  | .resolveDisabled rule done =>
    let (db, resolved) := db.resolveAlertsByRuleId rule.id env.now
    (db, none, recoveries rule "Rule disabled" resolved ++ [.reply (.ok done rule.id)])
  | .delete id =>
    match db.getRuleById id with
    | none => finish db (.notFound "Rule not found")
    | some rule => goOn db (.deleteWrite rule)
  | .deleteWrite rule =>
    match (db.deleteRule rule.id env.now).2 with
    | none => finish (db.deleteRule rule.id env.now).1 (.notFound "Rule not found")
    | some resolved =>
      ((db.deleteRule rule.id env.now).1, none,
        recoveries rule "Rule deleted" resolved ++ [.reply (.ok "Rule deleted" rule.id)])
  | .resolve alertId =>
    match db.getAlertById alertId with
    | none => finish db (.notFound "Alert not found")
    | some alert => goOn db (.resolveWrite alert)
  | .resolveWrite alert => goOn (db.resolveAlert alert alert.currentValue env.now) (.resolveAnnounce alert)
  | .resolveAnnounce alert =>
    (db, none, (match db.getRuleById alert.ruleId with
      | none => []
      | some rule => [.recovered alert.id rule none "Manually resolved" alert.names]) ++
        [.reply (.ok "Alert resolved" alert.id)])

end Task

/-! ## The system -/

/-- The database and the tasks in flight. -/
structure State where
  db : Db
  tasks : List Task

/-- The calls of the API. -/
inductive Call
  | create (req : CreateRuleRequest)
  | update (id : Nat) (req : UpdateRuleRequest)
  | enable (id : Nat)
  | disable (id : Nat)
  | delete (id : Nat)
  | resolve (alertId : Nat)

/-- The first statement. -/
def Call.task : Call → Task
  | create req => .create req
  | update id req => .update id req
  | enable id => .enable id
  | disable id => .disable id
  | delete id => .delete id
  | resolve alertId => .resolve alertId

/-- Ticks, calls, and steps of a task. -/
inductive Input
  /-- `check_all_rules`: load the enabled rules, start a check for each. -/
  | tick
  | call (c : Call)
  | run (i : Nat) (env : Env)

/-- The tasks after a step of one. -/
def advance (tasks : List Task) (i : Nat) : Option Task → List Task
  | some t => tasks.set i t
  | none => tasks.eraseIdx i

/-- One input. -/
def step (s : State) : Input → State × List Event
  | .tick => ({ s with tasks := s.tasks ++ s.db.getAllEnabledRules.map Task.check }, [])
  | .call c => ({ s with tasks := s.tasks ++ [c.task] }, [])
  | .run i env =>
    match s.tasks[i]? with
    | none => (s, [])
    | some t =>
      (⟨(t.step env s.db).1, advance s.tasks i (t.step env s.db).2.1⟩, (t.step env s.db).2.2)

/-- Tasks interleaved. -/
def machine : Machine State Input Event where
  step := step

/-! ## What a step can do -/

variable {tasks : List Task}

theorem mem_advance_of_ne {i : Nat} {next : Option Task} {t t' : Task} (hi : tasks[i]? = some t')
    (ht : t ∈ tasks) (hne : t ≠ t') : t ∈ advance tasks i next := by
  obtain ⟨j, hj⟩ := mem_iff_getElem?.mp ht
  have hij : i ≠ j := by
    rintro rfl
    exact hne (Option.some.inj (hj.symm.trans hi))
  cases next with
  | none => exact (mem_eraseIdx_iff_getElem?).mpr ⟨j, hij.symm, hj⟩
  | some t'' =>
    refine mem_iff_getElem?.mpr ⟨j, ?_⟩
    rw [advance, List.getElem?_set_ne hij, hj]

/-- The next statement may write. -/
def Task.Writes : Task → Prop
  | .createWrite _ | .updateWrite _ _ | .enable _ | .disable _ | .resolveDisabled _ _
  | .deleteWrite _ | .resolveWrite _ => True
  | _ => False

/-- How a step of a task changes the tables. -/
inductive Change (env : Env) (db : Db) : Task → Db → Prop
  | keep {t : Task} (h : ¬ t.Writes) : Change env db t db
  | insertAlert {rule : AlertRule} {value : Float} {db' : Db} {alertId : Nat}
      (heval : rule.evaluate value = true)
      (h : db.insertAlert rule value env.names env.now = some (db', alertId)) :
      Change env db (.act rule value none) db'
  | updateAlertValue (rule : AlertRule) (value : Float) (alert : Alert) :
      Change env db (.act rule value (some alert)) (db.updateAlertValue alert.id value)
  | resolveChecked {rule : AlertRule} {value : Float} (alert : Alert)
      (heval : rule.evaluate value = false) :
      Change env db (.act rule value (some alert)) (db.resolveAlert alert value env.now)
  | resolveManually (alert : Alert) :
      Change env db (.resolveWrite alert) (db.resolveAlert alert alert.currentValue env.now)
  | resolveDisabled (rule : AlertRule) (done : String) :
      Change env db (.resolveDisabled rule done) (db.resolveAlertsByRuleId rule.id env.now).1
  | insertRule (req : CreateRuleRequest) :
      Change env db (.createWrite req) (db.insertRule req).1
  | updateRule (id : Nat) (req : UpdateRuleRequest) :
      Change env db (.updateWrite id req) (db.updateRule id req).1
  | enable (id : Nat) : Change env db (.enable id) (db.setRuleEnabled id true).1
  | disable (id : Nat) : Change env db (.disable id) (db.setRuleEnabled id false).1
  | deleteRule (rule : AlertRule) :
      Change env db (.deleteWrite rule) (db.deleteRule rule.id env.now).1

theorem change_act (env : Env) (db : Db) (rule : AlertRule) (value : Float) (existing : Option Alert) :
    Change env db (.act rule value existing) (Task.stepAct env db rule value existing).1 := by
  unfold Task.stepAct
  cases existing with
  | some alert =>
    dsimp only
    split
    · exact .updateAlertValue rule value alert
    rename_i h
    exact .resolveChecked alert (by simpa using h)
  | none =>
    dsimp only
    split
    · rename_i heval
      split
      · rename_i h
        exact .insertAlert heval h
      · exact .keep not_false
    · exact .keep not_false

/-- **What a step can do** to the tables; everything else only reads them. -/
theorem change_step (env : Env) (db : Db) (t : Task) : Change env db t (t.step env db).1 := by
  cases t with
  | act rule value existing => exact change_act env db rule value existing
  | createWrite req => exact .insertRule req
  | updateWrite id req =>
    dsimp only [Task.step]
    split <;> exact .updateRule id req
  | enable id =>
    dsimp only [Task.step]
    split <;> exact .enable id
  | disable id =>
    dsimp only [Task.step]
    split <;> exact .disable id
  | resolveDisabled rule done => exact .resolveDisabled rule done
  | deleteWrite rule =>
    dsimp only [Task.step]
    split <;> exact .deleteRule rule
  | resolveWrite alert => exact .resolveManually alert
  | check | createPoint | updatePoint | delete | resolve =>
    dsimp only [Task.step]
    split <;> exact .keep not_false
  | create | updateName =>
    dsimp only [Task.step]
    split
    · exact .keep not_false
    split
    · exact .keep not_false
    · split <;> exact .keep not_false
  | update id req =>
    dsimp only [Task.step, Task.stepUpdate]
    split_ifs
    · exact .keep not_false
    · split
      · exact .keep not_false
      · split <;> exact .keep not_false
    · exact .keep not_false
  | ruleUpdated id done =>
    dsimp only [Task.step]
    split
    · exact .keep not_false
    · split <;> exact .keep not_false
  | resolveAnnounce alert => exact .keep not_false

theorem next_mem_advance {i : Nat} {t t' : Task} (hi : tasks[i]? = some t') :
    t ∈ advance tasks i (some t) :=
  mem_set (List.getElem?_eq_some_iff.mp hi).1 t

end VoltageEMS.Alarmsrv
