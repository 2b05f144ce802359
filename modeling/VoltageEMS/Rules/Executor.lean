import VoltageEMS.Lib.Worklist
import VoltageEMS.Lib.Grouping
import VoltageEMS.Rules.Flow
import VoltageEMS.Rules.Scheduler

/-!
# The rule executor

`RuleExecutor` (`voltage-rules/src/executor.rs`): one call of `execute` walks the flow of a rule from
its start node, reading variables, evaluating conditions, writing points.
-/

namespace VoltageEMS.Rules.Executor

open Lib

/-! ## Services -/

/-- A variable to be read from Redis. -/
structure Pending where
  name : String
  field : String
  inst : Nat
  point : Nat
deriving DecidableEq

/-- The variables wanted of one hash, with whether it holds action points. -/
abbrev Request := (String × Bool) × List Pending

/-- The environment of an execution, with its own state. -/
structure Services (σ : Type) where
  /-- `shared_reader.get_instance`, nothing when there is no reader. -/
  getInstance : σ → (inst : Nat) → (isAction : Bool) → (point : Nat) → Option Float × σ
  /-- `rtdb.hash_mget`. -/
  hashMget : σ → (key : String) → (fields : List String) →
    Except String (List (Option String)) × σ
  /-- The order in which a `HashMap` of requests is gone through. -/
  requestOrder : List Request → List Request
  requestOrder_perm : ∀ l, (requestOrder l).Perm l
  /-- `str::parse::<f64>`. -/
  parse : ParseF64
  /-- `formula::evaluate_formula`. -/
  evaluateFormula : String → Values → Option Float
  /-- `CalcEngine::evaluate` in the context of a rule. -/
  evaluate : σ → (ruleId : Int) → (formula : String) → Values → Except String Float × σ
  /-- `period_delta`. -/
  periodDelta : σ → (ruleId : Int) → (stateKey : String) → Float → (period : String) →
    Except String Float × σ
  /-- `write_measurement_point`, whether it went well. -/
  writeMeasurementPoint : σ → (inst : Nat) → (point : Nat) → Float → Bool × σ
  /-- `write_action_point`. -/
  writeActionPoint : σ → (inst : Nat) → (point : Nat) → Float → Bool × σ

variable {σ : Type}

/-! ## Reading variables -/

/-- `RuleReadOutcome`; the point values in the order they were read. -/
structure RuleReadOutcome where
  valuesChanged : Bool := false
  missing : List String := []
  pointValues : List (PointRef × Float) := []

/-- The state of one `read_rule_variables`. -/
structure Reading (σ : Type) where
  world : σ
  values : Values
  outcome : RuleReadOutcome := {}
  requests : List Request := []

/-- A value is read. -/
def Reading.store (r : Reading σ) (name : String) (ref : PointRef) (val : Float) : Reading σ :=
  let changed := match r.values name with
    | none => true
    | some prev => totalCmp prev val != .eq
  { r with
    values := Function.update r.values name (some val)
    outcome := { r.outcome with
      pointValues := r.outcome.pointValues ++ [(ref, val)]
      valuesChanged := r.outcome.valuesChanged || changed } }

/-- A variable has no value. -/
def Reading.miss (r : Reading σ) (name : String) : Reading σ :=
  { r with outcome := { r.outcome with missing := r.outcome.missing ++ [name] } }

/-- The kind of point. -/
def pointKind (isAction : Bool) : PointKind := if isAction then .action else .measurement

/-- `instance_action_key` or `instance_measurement_key`. -/
def hashKey (isAction : Bool) (inst : Nat) : String :=
  if isAction then KeySpace.instanceActionKey inst else KeySpace.instanceMeasurementKey inst

/-- A missing action is not reported. -/
def Reading.unusable (r : Reading σ) (name : String) (isAction : Bool) : Reading σ :=
  if isAction then r else r.miss name

/-- The reads from shared memory. -/
def readShared (sv : Services σ) : List RuleVariable → Reading σ → Except String Unit × Reading σ
  | [], r => (.ok (), r)
  | v :: vs, r =>
    if !v.formula.isEmpty then readShared sv vs r
    else
      match v.inst, v.point with
      | none, _ => (.error ("Variable '" ++ v.name ++ "' is missing instance_id"), r)
      | some _, none => (.error ("Variable '" ++ v.name ++ "' is missing point_id"), r)
      | some inst, some point =>
        let isAction : Bool := v.pointType.getD "measurement" = "action"
        let (hit, world) := sv.getInstance r.world inst isAction point
        let r := { r with world }
        match hit with
        | some val =>
          if val.isFinite then
            readShared sv vs (r.store v.name ⟨inst, pointKind isAction, point⟩ val)
          else readShared sv vs (r.unusable v.name isAction)
        | none =>
          readShared sv vs { r with
            requests := pushKeyed (hashKey isAction inst, isAction)
              ⟨v.name, toString point, inst, point⟩ r.requests }

variable (sv : Services σ)

/-- One field of a hash. -/
def readField (isAction : Bool) (r : Reading σ) (p : Pending) (bytes : Option String) : Reading σ :=
  match bytes.bind sv.parse with
  | some val =>
    if val.isFinite then r.store p.name ⟨p.inst, pointKind isAction, p.point⟩ val
    else r.unusable p.name isAction
  | none => r.unusable p.name isAction

/-- One hash. -/
def readRequest (r : Reading σ) (q : Request) : Reading σ :=
  let isAction := q.1.2
  match sv.hashMget r.world q.1.1 (q.2.map Pending.field) with
  | (.ok results, world) =>
    q.2.zipIdx.foldl (fun r e => readField sv isAction r e.1 (results[e.2]?.join))
      { r with world }
  | (.error _, world) =>
    q.2.foldl (fun r p => r.unusable p.name isAction) { r with world }

/-- `evaluate_token_formula`: the tokens as one expression. -/
def evaluateTokenFormula (tokens : List JsonValue) (values : Values) :
    Option Float :=
  let text : JsonValue → String
    | .string s => s
    | v => v.display
  sv.evaluateFormula (String.intercalate " " (tokens.map text)) values

/-- One formula. -/
def readFormula (r : Reading σ) (v : RuleVariable) : Reading σ :=
  if v.formula.isEmpty then r
  else
    match evaluateTokenFormula sv v.formula r.values with
    | some result =>
      let changed := match r.values v.name with
        | none => true
        | some prev => !(prev.beq result)
      { r with
        values := Function.update r.values v.name (some result)
        outcome := { r.outcome with valuesChanged := r.outcome.valuesChanged || changed } }
    | none => r.miss v.name

/-- `read_rule_variables`; `values` is changed in place, also when the call fails. -/
def readRuleVariables (vars : List RuleVariable) (values : Values) (world : σ) :
    Except String RuleReadOutcome × Values × σ :=
  match readShared sv vars { world, values } with
  | (.error e, r) => (.error ("Rule execution error: " ++ e), r.values, r.world)
  | (.ok (), r) =>
    let r := (sv.requestOrder r.requests).foldl (readRequest sv) r
    let r := vars.foldl (readFormula sv) r
    (.ok r.outcome, r.values, r.world)

/-! ## Writing points -/

/-- The type of a written point. -/
inductive PointTag
  | m
  | a
  | t
  | s
  | c
deriving DecidableEq, Repr

/-- `point_type_to_static`. -/
def pointTypeToStatic (pt : Option String) (default : PointTag) : PointTag :=
  match pt with
  | some "M" | some "measurement" => .m
  | some "A" | some "action" => .a
  | some "T" | some "telemetry" => .t
  | some "S" | some "status" => .s
  | some "C" | some "control" => .c
  | _ => default

/-- `ActionResult`; the target type is always an instance. -/
structure ActionResult where
  targetId : Nat
  pointType : PointTag
  pointId : Nat
  value : Float
  success : Bool
deriving DecidableEq

/-- `f64::NAN`. -/
def nan : Float := Float.ofBits 0x7FF8000000000000

/-- `validate_write_target`. -/
def validateWriteTarget (v : RuleVariable) (rawValue : Float) (default : PointTag) :
    Except ActionResult (Nat × Nat × Float × PointTag) :=
  let pt := pointTypeToStatic v.pointType default
  match validateValue rawValue {} with
  | .error _ => .error ⟨v.inst.getD 0, pt, v.point.getD 0, nan, false⟩
  | .ok value =>
    match v.inst, v.point with
    | none, _ => .error ⟨0, pt, 0, value, false⟩
    | some inst, none => .error ⟨inst, pt, 0, value, false⟩
    | some inst, some point => .ok (inst, point, value, pt)

/-- `action_skipped`. -/
def actionSkipped (v : RuleVariable) : ActionResult where
  targetId := v.inst.getD 0
  pointType := pointTypeToStatic v.pointType .a
  pointId := v.point.getD 0
  value := nan
  success := false

/-- `write_to_point`. -/
def writeToPoint (world : σ) (inst point : Nat) (value : Float) (pt : PointTag) :
    ActionResult × σ :=
  let (success, world) := match pt with
    | .m => sv.writeMeasurementPoint world inst point value
    | .a => sv.writeActionPoint world inst point value
    | _ => (false, world)
  (⟨inst, pt, point, value, success⟩, world)

/-- The value an assignment stands for; a text is a number before it is a variable. -/
def assignmentValue (values : Values) : JsonValue → Option Float
  | .number value _ => some value
  | .string s => (sv.parse s).or (values s)
  | .other _ => none

/-- `execute_rule_change`. -/
def executeRuleChange (world : σ) (v : RuleVariable)
    (assignment : RuleValueAssignment) (values : Values) : ActionResult × σ :=
  match assignmentValue sv values assignment.value with
  | none => (actionSkipped v, world)
  | some rawValue =>
    match validateWriteTarget v rawValue .a with
    | .error action => (action, world)
    | .ok (inst, point, value, pt) => writeToPoint sv world inst point value pt

/-- `write_calculation_result`. -/
def writeCalculationResult (world : σ) (v : RuleVariable) (rawValue : Float) : ActionResult × σ :=
  match validateWriteTarget v rawValue .m with
  | .error action => (action, world)
  | .ok (inst, point, value, pt) => writeToPoint sv world inst point value pt

/-- `write_period_delta_result`: a measurement point whatever the variable says. -/
def writePeriodDeltaResult (world : σ) (v : RuleVariable) (rawValue : Float) : ActionResult × σ :=
  match validateWriteTarget v rawValue .m with
  | .error action => (action, world)
  | .ok (inst, point, value, _) => writeToPoint sv world inst point value .m

/-! ## The trace -/

/-- `node_type` of a visited node, with its label. -/
inductive NodeType
  | unknown
  | start
  | finish
  | switch
  | change
  | calculation
  | periodDelta
deriving DecidableEq, Repr

namespace NodeType

/-- The type of a node. -/
def ofNode : RuleNode → NodeType
  | .start _ => start
  | .finish => finish
  | .switch .. => switch
  | .changeValue .. => change
  | .calculation .. => calculation
  | .periodDelta .. => periodDelta

end NodeType

/-- `ExecutionNodeStatus`. -/
inductive ExecutionNodeStatus
  | executed
  | skipped
  | failed
deriving DecidableEq, Repr

/-- `terminal_kind`: why a node ended its branch. -/
inductive TerminalKind
  | finish
  | noDownstream
  | nodeNotFound
  | executionError
  | variablesUnavailable
  | invalidInput
  | noMatchingBranch
deriving DecidableEq, Repr

/-- `ExecutionGraphNode`; `terminal` says that there is a `terminalKind`. -/
structure ExecutionGraphNode where
  id : String
  nodeType : NodeType
  status : ExecutionNodeStatus := .executed
  terminal : Bool := false
  terminalKind : Option TerminalKind := none
  terminalReason : Option String := none
deriving DecidableEq

/-- `ExecutionGraphEdge`. -/
structure ExecutionGraphEdge where
  source : String
  target : String
  port : Option String
  label : Option String
deriving DecidableEq

/-- `ExecutionGraph`. -/
structure ExecutionGraph where
  nodes : List ExecutionGraphNode := []
  edges : List ExecutionGraphEdge := []
deriving DecidableEq

namespace ExecutionGraph

/-- `push_node`. -/
def pushNode (g : ExecutionGraph) (id : String) (nodeType : NodeType) : ExecutionGraph :=
  { g with nodes := g.nodes ++ [{ id, nodeType }] }

/-- The first with the id. -/
def finishFirst (id : String) (status : ExecutionNodeStatus) (kind : Option TerminalKind)
    (reason : Option String) : List ExecutionGraphNode → List ExecutionGraphNode
  | [] => []
  | n :: ns =>
    if n.id = id then
      { n with status, terminal := kind.isSome, terminalKind := kind, terminalReason := reason } ::
        ns
    else n :: finishFirst id status kind reason ns

/-- `finish_node`: the latest node with the id. -/
def finishNode (g : ExecutionGraph) (id : String) (status : ExecutionNodeStatus)
    (kind : Option TerminalKind) (reason : Option String) : ExecutionGraph :=
  { g with nodes := (finishFirst id status kind reason g.nodes.reverse).reverse }

/-- `activate_edges`, of which the targets are queued. -/
def activateEdges (g : ExecutionGraph) (source : String) (port : Option String)
    (targets : List String) : ExecutionGraph :=
  { g with edges := g.edges ++ targets.map fun target => ⟨source, target, port, port⟩ }

end ExecutionGraph

/-- `NodeExecutionDetail`. -/
structure NodeExecutionDetail where
  nodeType : NodeType
  inputValues : Values
  conditionResults : Option (List ConditionResult) := none
  matchedPort : Option String := none
  actions : Option (List ActionResult) := none
  terminal : Bool

/-! ## Nodes -/

/-- All that an execution has gathered; `details` are the insertions into `node_details`. -/
structure ExecState (σ : Type) where
  world : σ
  values : Values := fun _ => none
  pointValues : List (PointRef × Float) := []
  snapshot : Option Values := none
  errors : List String := []
  actions : List ActionResult := []
  graph : ExecutionGraph := {}
  matchedCondition : Option String := none
  details : List (String × NodeExecutionDetail) := []

namespace ExecState

variable (st : ExecState σ)

/-- The node failed. -/
def fail (id : String) (status : ExecutionNodeStatus) (kind : TerminalKind)
    (reason : String) : ExecState σ :=
  { st with
    graph := st.graph.finishNode id status (some kind) (some reason)
    errors := st.errors ++ [reason] }

/-- The node ends its branch. -/
def terminate (id : String) (kind : TerminalKind) (reason : String) :
    ExecState σ :=
  { st with graph := st.graph.finishNode id .executed (some kind) (some reason) }

/-- The edges are activated. -/
def follow (id : String) (port : Option String) (targets : List String) :
    ExecState σ × List String :=
  ({ st with graph := st.graph.activateEdges id port targets }, targets)

/-- `snapshot_or_reuse`. -/
def snapshotOrReuse (valuesChanged : Bool) : Values × ExecState σ :=
  match valuesChanged, st.snapshot with
  | false, some snapshot => (snapshot, st)
  | _, _ => (st.values, { st with snapshot := some st.values })

/-- The way four kinds of node begin: their variables are read and, when all are there, the values
are kept for the details. -/
def readNode (readFailed unavailable : String) (vars : List RuleVariable)
    (id : String) (st : ExecState σ) : ExecState σ × Option Values :=
  match readRuleVariables sv vars st.values st.world with
  | (.error e, values, world) =>
    ({ st with values, world }.fail id .failed .executionError (readFailed ++ e), none)
  | (.ok outcome, values, world) =>
    let st := { st with values, world, pointValues := st.pointValues ++ outcome.pointValues }
    if !outcome.missing.isEmpty then
      (st.fail id .skipped .variablesUnavailable
        (unavailable ++ String.intercalate ", " outcome.missing), none)
    else
      let (snapshot, st) := st.snapshotOrReuse outcome.valuesChanged
      (st, some snapshot)

/-- The details of a node. -/
def detail (id : String) (d : NodeExecutionDetail) : ExecState σ :=
  { st with details := st.details ++ [(id, d)] }

/-- An action and what it left. -/
def act (r : ActionResult × σ) : ExecState σ :=
  { st with world := r.2, actions := st.actions ++ [r.1] }

/-- The loop over the assignments. -/
def assignAll (sv : Services σ) (vars : List RuleVariable) :
    List RuleValueAssignment → ExecState σ → ExecState σ × List ActionResult
  | [], st => (st, [])
  | a :: assignments, st =>
    match vars.find? fun v => v.name = a.variableName with
    | none => assignAll sv vars assignments st
    | some v =>
      let r := executeRuleChange sv st.world v a st.values
      let (st, rest) := assignAll sv vars assignments (st.act r)
      (st, r.1 :: rest)

/-- The loop over the calculations. -/
def calculateAll (sv : Services σ) (ruleId : Int) (vars : List RuleVariable) :
    List CalculationRule → ExecState σ → Except String (List ActionResult) × ExecState σ
  | [], st => (.ok [], st)
  | c :: calculations, st =>
    match sv.evaluate st.world ruleId c.formula st.values with
    | (.error e, world) =>
      (.error ("Calc '" ++ c.formula ++ "' error: " ++ e), { st with world })
    | (.ok result, world) =>
      let st := { st with world }
      let (done, st) := match vars.find? fun v => v.name = c.output with
        | none => ([], st)
        | some v =>
          let r := writeCalculationResult sv st.world v result
          ([r.1], st.act r)
      let st := { st with values := Function.update st.values c.output (some result) }
      let (rest, st) := calculateAll sv ruleId vars calculations st
      (rest.map (done ++ ·), st)

/-- The way a node is left. -/
def leave (id : String) (wires : List String) : ExecState σ × List String :=
  if wires.isEmpty then (st.terminate id .noDownstream "No downstream node connected", [])
  else st.follow id none wires

/-- `RuleNode::Start`. -/
def visitStart (id : String) (wires : List String) (st : ExecState σ) : ExecState σ × List String :=
  if wires.isEmpty then (st.fail id .failed .noDownstream "Start node has no output wire", [])
  else st.follow id none wires

/-- `RuleNode::Switch`. -/
def visitSwitch (id : String) (vars : List RuleVariable)
    (rule : List RuleSwitchBranch) (wires : String → Option (List String)) (st : ExecState σ) :
    ExecState σ × List String :=
  match st.readNode sv "Failed to read variables: "
      "Rule cycle skipped: variables unavailable: " vars id with
  | (st, none) => (st, [])
  | (st, some snapshot) =>
    let conditionResults := evaluateAllConditions sv.parse rule st.values
    let (targets, port, cond) := evaluateRuleSwitchWithDetails sv.parse rule wires st.values
    let st := { st with matchedCondition := cond.or st.matchedCondition }
    let st := st.detail id {
      nodeType := .switch
      inputValues := snapshot
      conditionResults := some conditionResults
      matchedPort := port
      terminal := targets.isEmpty }
    if targets.isEmpty then (st.terminate id .noMatchingBranch "No branch condition matched", [])
    else st.follow id port targets

/-- `RuleNode::ChangeValue`. -/
def visitChangeValue (id : String) (vars : List RuleVariable)
    (rule : List RuleValueAssignment) (wires : List String) (st : ExecState σ) :
    ExecState σ × List String :=
  match st.readNode sv "Failed to read variables: "
      "Rule cycle skipped: variables unavailable: " vars id with
  | (st, none) => (st, [])
  | (st, some snapshot) =>
    let (st, actions) := st.assignAll sv vars rule
    (st.detail id {
      nodeType := .change
      inputValues := snapshot
      actions := some actions
      terminal := wires.isEmpty }).leave id wires

/-- `RuleNode::Calculation`. -/
def visitCalculation (ruleId : Int) (id : String) (vars : List RuleVariable)
    (rule : List CalculationRule) (wires : List String) (st : ExecState σ) :
    ExecState σ × List String :=
  match st.readNode sv "Failed to read variables: "
      "Calculation skipped: variables unavailable: " vars id with
  | (st, none) => (st, [])
  | (st, some snapshot) =>
    match st.calculateAll sv ruleId vars rule with
    | (.error reason, st) => (st.fail id .failed .executionError reason, [])
    | (.ok actions, st) =>
      ({ st with snapshot := none }.detail id {
        nodeType := .calculation
        inputValues := snapshot
        actions := some actions
        terminal := wires.isEmpty }).leave id wires

/-- `{}` of a float. -/
def displayNonFinite (v : Float) : String :=
  if v.isNaN then "NaN" else if v > 0 then "inf" else "-inf"

/-- `RuleNode::PeriodDelta`. -/
def visitPeriodDelta (ruleId : Int) (id : String) (input output : RuleVariable)
    (period : String) (wires : List String) (st : ExecState σ) : ExecState σ × List String :=
  match st.readNode sv "Failed to read input variable: "
      "PeriodDelta skipped: input variable unavailable: " [input] id with
  | (st, none) => (st, [])
  | (st, some snapshot) =>
    match st.values input.name with
    | none =>
      (st.fail id .skipped .variablesUnavailable
        ("PeriodDelta skipped: input variable '" ++ input.name ++ "' unavailable after read"), [])
    | some value =>
      if value.isFinite then
        let stateKey := toString ruleId ++ ":" ++ toString (input.inst.getD 0) ++ ":" ++
          toString (input.point.getD 0)
        match sv.periodDelta st.world ruleId stateKey value period with
        | (.error e, world) =>
          ({ st with world }.fail id .failed .executionError ("period_delta error: " ++ e), [])
        | (.ok delta, world) =>
          let r := writePeriodDeltaResult sv world output delta
          let st := st.act r
          ({ st with
              values := Function.update st.values output.name (some delta)
              snapshot := none }.detail id {
            nodeType := .periodDelta
            inputValues := snapshot
            actions := some [r.1]
            terminal := wires.isEmpty }).leave id wires
      else
        (st.fail id .skipped .invalidInput ("PeriodDelta skipped: input variable '" ++ input.name ++
          "' is non-finite (" ++ displayNonFinite value ++ ")"), [])

end ExecState

/-! ## Execution -/

/-- The rule, as far as it is executed. -/
structure FlowRule where
  id : Int
  flow : RuleFlow

/-- One round of the loop. -/
def visit (rule : FlowRule) (st : ExecState σ) (id : String) :
    ExecState σ × List String :=
  match rule.flow.nodes id with
  | none =>
    ({ st with graph := st.graph.pushNode id .unknown }.fail id .failed .nodeNotFound
      ("Node not found: " ++ id), [])
  | some node =>
    let st := { st with graph := st.graph.pushNode id (.ofNode node) }
    match node with
    | .finish => (st.terminate id .finish "End node reached", [])
    | .start wires => st.visitStart id wires
    | .switch vars branches wires => st.visitSwitch sv id vars branches wires
    | .changeValue vars assignments wires => st.visitChangeValue sv id vars assignments wires
    | .calculation vars calculations wires =>
      st.visitCalculation sv rule.id id vars calculations wires
    | .periodDelta input output period wires =>
      st.visitPeriodDelta sv rule.id id input output period wires

/-- `MAX_VISITS`. -/
def maxVisits : Nat := 1000

/-- The error of the cap. -/
def tooManyVisits : String := "Execution exceeded maximum node visits"

/-- The loop of `execute`. -/
def walker (rule : FlowRule) : Walker String (ExecState σ) where
  cap := maxVisits
  visit := visit sv rule
  overflow st := { st with errors := st.errors ++ [tooManyVisits] }

/-- The loop from the start node. -/
def traverse (rule : FlowRule) (world : σ) : Search String (ExecState σ) :=
  (walker sv rule).drain ⟨[rule.flow.startNode], ∅, [], { world }⟩

/-- `RuleExecutionResult`. -/
structure RuleExecutionResult where
  ruleId : Int
  success : Bool
  actionsExecuted : List ActionResult
  error : Option String
  executionPath : List String
  executionGraph : ExecutionGraph
  matchedCondition : Option String
  variableValues : Values
  pointValues : List (PointRef × Float)
  nodeDetails : String → Option NodeExecutionDetail

/-- `execute`; it never returns an error of its own. -/
def execute (rule : FlowRule) (world : σ) : RuleExecutionResult × σ :=
  let t := traverse sv rule world
  let st := t.data
  ({ ruleId := rule.id
     success := st.errors.isEmpty
     actionsExecuted := st.actions
     error := if st.errors.isEmpty then none else some (String.intercalate "; " st.errors)
     executionPath := t.path
     executionGraph := st.graph
     matchedCondition := st.matchedCondition
     variableValues := st.values
     pointValues := st.pointValues
     nodeDetails := insertAll (fun _ => none) st.details }, st.world)

/-- What the scheduler is told. -/
def RuleExecutionResult.report (r : RuleExecutionResult) : Rules.RuleExecutionResult where
  success := r.success
  actionsExecuted := r.actionsExecuted.map fun a => ⟨a.targetId, a.pointId, a.success⟩
  error := r.error
  pointReads := r.pointValues

end VoltageEMS.Rules.Executor
