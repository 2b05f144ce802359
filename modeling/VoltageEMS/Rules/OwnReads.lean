import VoltageEMS.Rules.ExecutorValues

/-!
# Conditions and assignments use the node's own reads

A variable is declared with an instance, a kind of point and a point, but conditions and assignments
find it by its name in the map that all nodes share.
-/

namespace VoltageEMS.Rules

/-- The condition refers to a name, on its left or on its right. -/
def FlowCondition.Uses (c : FlowCondition) (name : String) : Prop :=
  c.variableName = some name ∨ c.value = some (.string name)

end VoltageEMS.Rules

namespace VoltageEMS.Rules.Executor

open Lib List

variable {σ : Type}

/-- The value of a declared variable in `values` is what the reads of the node found for it, at the
declared point. -/
structure OwnReading (sv : Services σ) (vars : List RuleVariable) (world : σ)
    (outcome : RuleReadOutcome) (values : Values) (v : RuleVariable) : Prop where
  value : values v.name = ownReads sv vars world v.name
  source : ∀ x, ownReads sv vars world v.name = some x →
    ∃ p, declaredPoint v = some p ∧ (p, x) ∈ outcome.pointValues

/-- What a node is evaluated with: the map its reads leave, when nothing is missing. -/
def Evaluates (sv : Services σ) (node : RuleNode) (st : ExecState σ) (outcome : RuleReadOutcome)
    (values : Values) (world : σ) : Prop :=
  readRuleVariables sv (ownVars node) st.values st.world = (.ok outcome, values, world) ∧
    outcome.missing = []

/-- Every use of a declared point variable is a use of the node's own reading. -/
def UsesOwnReads (sv : Services σ) (node : RuleNode) (st : ExecState σ) : Prop :=
  ∀ outcome values world, Evaluates sv node st outcome values world →
    ∀ v ∈ ownVars node, v.formula = [] →
      match node with
      | .switch vars branches _ => ∀ b ∈ branches, ∀ c ∈ b.rule, c.OnVariable → c.Uses v.name →
          OwnReading sv vars st.world outcome values v ∧
            (ownReads sv vars st.world v.name = none →
              evaluateFlowCondition sv.parse c values = false)
      | .changeValue vars assignments _ => ∀ a ∈ assignments, a.value = .string v.name →
          OwnReading sv vars st.world outcome values v ∧
            assignmentValue sv values a.value = ownReads sv vars st.world v.name ∧
            (ownReads sv vars st.world v.name = none →
              ∀ w target, executeRuleChange sv w target a values = (actionSkipped target, w))
      | _ => True

/-- The names of a node's variables are distinct and no numerals, and a point variable for which the
reads find nothing, although nothing is missing, has no value under its name. -/
structure NamesClear (sv : Services σ) (node : RuleNode) (st : ExecState σ) : Prop where
  distinct : ((ownVars node).map RuleVariable.name).Nodup
  noNumeral : ∀ v ∈ ownVars node, sv.parse v.name = none
  unset : ∀ outcome values world, Evaluates sv node st outcome values world →
    ∀ v ∈ ownVars node, v.formula = [] → ownReads sv (ownVars node) st.world v.name = none →
      st.values v.name = none

theorem eq_of_name_eq {vars : List RuleVariable} (h : (vars.map RuleVariable.name).Nodup)
    {u v : RuleVariable} (hu : u ∈ vars) (hv : v ∈ vars) (hname : u.name = v.name) : u = v :=
  inj_on_of_nodup_map h hu hv hname

variable {st : ExecState σ} {sv : Services σ} {outcome : RuleReadOutcome} {node : RuleNode}
  {values : Values}

variable {world : σ}

theorem ownReading_of_clear (hclear : NamesClear sv node st)
    (heval : Evaluates sv node st outcome values world) {v : RuleVariable} (hv : v ∈ ownVars node)
    (hformula : v.formula = []) : OwnReading sv (ownVars node) st.world outcome values v := by
  obtain ⟨houtcome, hvalues, -⟩ := readRuleVariables_ok heval.1
  have hover := readPoints_over sv (ownVars node) st.world st.values
  -- no formula of the list has the name
  obtain ⟨hname, hpoints⟩ := foldl_readFormula_of_name sv v.name (ownVars node)
    (readPoints sv (ownVars node) { world := st.world, values := st.values })
    (fun u hu hf heq => hf (eq_of_name_eq hclear.distinct hu hv heq ▸ hformula))
  constructor
  · rw [hvalues, hname, hover.values]
    cases hown : ownReads sv (ownVars node) st.world v.name with
    | none =>
      rw [ownReads] at hown
      rw [hown, hclear.unset outcome values world heval v hv hformula hown]
      rfl
    | some x =>
      rw [ownReads] at hown
      rw [hown]
      rfl
  intro x hx
  obtain ⟨u, hu, -, huname, p, hp, hmem⟩ :=
    (attributed_readPoints sv (ownVars node) st.world).values v.name x hx
  rw [eq_of_name_eq hclear.distinct hu hv huname] at hp
  rw [houtcome, hpoints, hover.pointValues]
  exact ⟨p, hp, hmem⟩

theorem evaluateFlowCondition_of_unset {parse : ParseF64} {c : FlowCondition} {name : String}
    (huses : c.Uses name) (hunset : values name = none) (hparse : parse name = none) :
    evaluateFlowCondition parse c values = false := by
  unfold evaluateFlowCondition
  rcases huses with hleft | hright
  · simp [hleft, hunset]
  · simp [hright, conditionOperand, hunset, hparse]

/-- **One node** with clear names uses its own reads. -/
theorem usesOwnReads_of_clear (hclear : NamesClear sv node st) : UsesOwnReads sv node st := by
  intro outcome values world heval v hv hformula
  have hown := ownReading_of_clear hclear heval hv hformula
  have hparse := hclear.noNumeral v hv
  cases node with
  | switch vars branches wires =>
    intro b _ c _ _ huses
    exact ⟨hown, fun hnone => evaluateFlowCondition_of_unset huses (hown.value.trans hnone) hparse⟩
  | changeValue vars assignments wires =>
    intro a _ ha
    have hvalue : assignmentValue sv values a.value = ownReads sv vars st.world v.name := by
      rw [ha, assignmentValue, hparse]
      exact hown.value
    refine ⟨hown, hvalue, fun hnone w target => ?_⟩
    rw [executeRuleChange, hvalue, hnone]
  | start | finish | calculation | periodDelta => trivial

/-! ## Visits -/

/-- The results of the assignments. -/
def performAll (sv : Services σ) (vars : List RuleVariable) (values : Values) :
    List RuleValueAssignment → σ → List ActionResult
  | [], _ => []
  | a :: assignments, w =>
    match vars.find? fun v => v.name = a.variableName with
    | none => performAll sv vars values assignments w
    | some v =>
      let r := executeRuleChange sv w v a values
      r.1 :: performAll sv vars values assignments r.2

theorem actions_assignAll (sv : Services σ) (vars : List RuleVariable) :
    ∀ (assignments : List RuleValueAssignment) (st : ExecState σ),
      (st.assignAll sv vars assignments).2 = performAll sv vars st.values assignments st.world
  | [], _ => rfl
  | a :: assignments, st => by
    rw [ExecState.assignAll, performAll]
    cases vars.find? fun v => v.name = a.variableName with
    | none => exact actions_assignAll sv vars assignments st
    | some v =>
      dsimp only
      rw [actions_assignAll sv vars assignments (st.act _)]
      rfl

/-- A visit evaluates its node in the map that its reads leave: the results it records and, for a
switch, the targets it queues. -/
def EvaluatedIn (sv : Services σ) (rule : FlowRule) (st : ExecState σ) (id : String) (values : Values)
    (world : σ) : RuleNode → Prop
  | .switch _ branches wires =>
    (visit sv rule st id).2 = (evaluateRuleSwitchWithDetails sv.parse branches wires values).1 ∧
      ∃ d, (visit sv rule st id).1.details = st.details ++ [(id, d)] ∧
        d.conditionResults = some (evaluateAllConditions sv.parse branches values)
  | .changeValue vars assignments _ =>
    ∃ d, (visit sv rule st id).1.details = st.details ++ [(id, d)] ∧
      d.actions = some (performAll sv vars values assignments world)
  | _ => True

theorem readNode_of_evaluates (heval : Evaluates sv node st outcome values world)
    (id readFailed unavailable : String) :
    ∃ st' snapshot, st.readNode sv readFailed unavailable (ownVars node) id = (st', some snapshot) ∧
      st'.values = values ∧ st'.world = world ∧ st'.details = st.details := by
  obtain ⟨st', hend, hvalues, hworld, hdetails⟩ :=
    ExecState.readNode_ends sv st id readFailed unavailable (ownVars node)
  rw [heval.1] at hend hvalues hworld
  rcases hend with ⟨-, -, hcut⟩ | ⟨_, snapshot, heq, -⟩
  · exact absurd heval.2 (hcut outcome rfl)
  · exact ⟨st', snapshot, heq, hvalues, hworld, hdetails⟩

theorem visit_evaluatedIn {rule : FlowRule} {id : String} (hnode : rule.flow.nodes id = some node)
    (heval : Evaluates sv node st outcome values world) :
    EvaluatedIn sv rule st id values world node := by
  -- the reads do not look at the graph
  have hpushed : Evaluates sv node { st with graph := st.graph.pushNode id (.ofNode node) } outcome
      values world := heval
  cases node with
  | switch vars branches wires =>
    obtain ⟨st', snapshot, heq, rfl, -, hdetails⟩ := readNode_of_evaluates hpushed id
      "Failed to read variables: " "Rule cycle skipped: variables unavailable: "
    have hvisit : visit sv rule st id = ExecState.visitSwitch sv id vars branches wires
        { st with graph := st.graph.pushNode id (.ofNode (.switch vars branches wires)) } := by
      rw [visit, hnode]
    rw [ownVars] at heq
    simp only [EvaluatedIn, hvisit, ExecState.visitSwitch, heq]
    split
    · rename_i hempty
      refine ⟨(List.isEmpty_iff.mp hempty).symm, _, congrArg (· ++ [_]) hdetails, ?_⟩
      rfl
    refine ⟨rfl, _, congrArg (· ++ [_]) hdetails, ?_⟩
    rfl
  | changeValue vars assignments wires =>
    obtain ⟨st', snapshot, heq, rfl, rfl, hdetails⟩ := readNode_of_evaluates hpushed id
      "Failed to read variables: " "Rule cycle skipped: variables unavailable: "
    have hvisit : visit sv rule st id = ExecState.visitChangeValue sv id vars assignments wires
        { st with graph := st.graph.pushNode id (.ofNode (.changeValue vars assignments wires)) } := by
      rw [visit, hnode]
    rw [ownVars] at heq
    obtain ⟨-, -, hsame⟩ := ExecState.sameData_assignAll sv vars assignments st'
    simp only [EvaluatedIn, hvisit, ExecState.visitChangeValue, heq, ExecState.leave]
    split
    · refine ⟨_, congrArg (· ++ [_]) (hsame.trans hdetails), ?_⟩
      exact congrArg some (actions_assignAll sv vars assignments st')
    refine ⟨_, congrArg (· ++ [_]) (hsame.trans hdetails), ?_⟩
    exact congrArg some (actions_assignAll sv vars assignments st')
  | start | finish | calculation | periodDelta => trivial

/-- It has conditions or assignments. -/
def looksUpNames : RuleNode → Bool
  | .switch .. | .changeValue .. => true
  | _ => false

/-- **Whole executions**: if the names of every visited switch and change of values are clear, these
nodes are evaluated with their own reads. -/
theorem uses_own_reads (sv : Services σ) (rule : FlowRule) (world : σ)
    (h : ∀ before id after, (execute sv rule world).1.executionPath = before ++ id :: after →
      ∀ node ∈ rule.flow.nodes id, looksUpNames node = true →
        NamesClear sv node (stateBefore sv rule world before)) :
    ∀ before id after, (execute sv rule world).1.executionPath = before ++ id :: after →
      ∀ node ∈ rule.flow.nodes id,
        UsesOwnReads sv node (stateBefore sv rule world before) ∧
          ∀ outcome values world',
            Evaluates sv node (stateBefore sv rule world before) outcome values world' →
            EvaluatedIn sv rule (stateBefore sv rule world before) id values world' node := by
  intro before id after hpath node hnode
  refine ⟨?_, fun outcome values world' heval => visit_evaluatedIn hnode heval⟩
  cases node with
  | switch vars branches wires => exact usesOwnReads_of_clear (h before id after hpath _ hnode rfl)
  | changeValue vars assignments wires =>
    exact usesOwnReads_of_clear (h before id after hpath _ hnode rfl)
  | start | finish | calculation | periodDelta => exact fun _ _ _ _ _ _ _ => trivial

/-! ## A setpoint and a trip command -/

def oneSetpoint : Services Unit :=
  tableServices fun inst isAction _ =>
    match inst, isAction with
    | 1, true => some 10
    | _, _ => none

def overFive (v : RuleVariable) (target : List String) : RuleNode :=
  .switch [v] [⟨"over", [⟨"variable", some "X", some ">", some (.number 5 "5")⟩]⟩] fun _ => some target

def setpointsRule (other : Nat) : FlowRule where
  id := 3
  flow := {
    startNode := "start"
    nodes
      | "start" => some (.start ["first"])
      | "first" => some (overFive (varX 1 "action") ["second"])
      | "second" => some (overFive (varX other "action") ["trip"])
      | "trip" => some .finish
      | _ => none }

theorem uses_own_reads_setpoint :
    (execute oneSetpoint (setpointsRule 1) ()).1.executionPath =
        ["start", "first", "second", "trip"] ∧
      UsesOwnReads oneSetpoint (overFive (varX 1 "action") ["trip"])
        (stateBefore oneSetpoint (setpointsRule 1) () ["start", "first"]) := by
  have hpath : (execute oneSetpoint (setpointsRule 1) ()).1.executionPath =
      ["start", "first", "second", "trip"] :=
    traverse_of_fuel oneSetpoint (setpointsRule 1) () Search.path 9 (by decide +kernel)
  have hread : ownReads oneSetpoint [varX 1 "action"] () "X" ≠ none := by decide +kernel
  have hclear : ∀ target st, NamesClear oneSetpoint (overFive (varX 1 "action") target) st := by
    intro target st
    refine ⟨nodup_singleton _, fun _ _ => rfl, fun _ _ _ _ v hv _ hnone => ?_⟩
    rw [mem_singleton.mp hv] at hnone
    exact absurd hnone hread
  refine ⟨hpath, (uses_own_reads oneSetpoint (setpointsRule 1) () ?_ ["start", "first"] "second"
    ["trip"] hpath _ rfl).1⟩
  intro before id after hsplit node hnode hlooks
  have hid : id ∈ ["start", "first", "second", "trip"] := by
    rw [← hpath, hsplit]
    simp
  simp only [mem_cons, not_mem_nil, or_false] at hid
  obtain rfl | rfl | rfl | rfl := hid <;> cases hnode
  · cases hlooks
  · exact hclear ["second"] _
  · exact hclear ["trip"] _
  · cases hlooks

/-- `X` of the second switch is on instance 2, never written, but its condition holds with the value
read on instance 1. -/
theorem trips_on_other_point :
    (execute oneSetpoint (setpointsRule 2) ()).1.executionPath =
        ["start", "first", "second", "trip"] ∧
      ownReads oneSetpoint [varX 2 "action"] () "X" = none ∧
      ((execute oneSetpoint (setpointsRule 2) ()).1.nodeDetails "second").map
          NodeExecutionDetail.conditionResults = some (some [⟨"X>5", true, "over"⟩]) ∧
      ¬ UsesOwnReads oneSetpoint (overFive (varX 2 "action") ["trip"])
        (stateBefore oneSetpoint (setpointsRule 2) () ["start", "first"]) := by
  refine ⟨traverse_of_fuel oneSetpoint (setpointsRule 2) () Search.path 9 (by decide +kernel),
    by decide +kernel, ?_, ?_⟩
  · exact traverse_of_fuel oneSetpoint (setpointsRule 2) () (fun t =>
      (insertAll (fun _ => none) t.data.details "second").map NodeExecutionDetail.conditionResults) 9
      (by decide +kernel)
  intro h
  have huse := h {} _ () ⟨rfl, rfl⟩ (varX 2 "action") (mem_singleton_self _) rfl _
    (mem_singleton_self _) _ (mem_singleton_self _) (by decide) (.inl rfl)
  have hfalse := huse.2 (by decide +kernel)
  exact absurd hfalse (by decide +kernel)

end VoltageEMS.Rules.Executor
