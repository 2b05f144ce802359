import VoltageEMS.Lib.Basic

/-!
# Rule flows

The flow types of `voltage-rules/src/types.rs`, the condition evaluation of `executor.rs` and
`format_conditions` (`logger.rs`).
-/

namespace VoltageEMS.Rules

open List

/-- `HashMap<String, f64>`. -/
abbrev Values := String → Option Float

/-- `str::parse::<f64>`. -/
abbrev ParseF64 := String → Option Float

/-! ## JSON scalars -/

/-- `serde_json::Value` as rules use it; `text` is what `to_string` gives. -/
inductive JsonValue
  | number (value : Float) (text : String)
  | string (s : String)
  | other (text : String)
deriving DecidableEq

namespace JsonValue

/-- `as_str`. -/
def asStr : JsonValue → Option String
  | string s => some s
  | _ => none

/-- A digit of an escape. -/
def hexDigit (n : Nat) : Char := Nat.digitChar n

/-- A character in quotes. -/
def escapeChar (c : Char) : List Char :=
  if c = '"' then ['\\', '"']
  else if c = '\\' then ['\\', '\\']
  else if c.toNat = 8 then ['\\', 'b']
  else if c.toNat = 9 then ['\\', 't']
  else if c.toNat = 10 then ['\\', 'n']
  else if c.toNat = 12 then ['\\', 'f']
  else if c.toNat = 13 then ['\\', 'r']
  else if c.toNat < 32 then
    ['\\', 'u', '0', '0', hexDigit (c.toNat / 16), hexDigit (c.toNat % 16)]
  else [c]

/-- `to_string`: strings are quoted and escaped. -/
def display : JsonValue → String
  | number _ text => text
  | string s => String.ofList ('"' :: s.toList.flatMap escapeChar ++ ['"'])
  | other text => text

end JsonValue

/-- `trim_matches('"')`. -/
def trimQuotes (s : String) : String :=
  let front := s.toList.dropWhile (· = '"')
  String.ofList (front.reverse.dropWhile (· = '"')).reverse

/-! ## Nodes -/

/-- `RuleVariable`. -/
structure RuleVariable where
  name : String
  inst : Option Nat
  pointType : Option String
  point : Option Nat
  formula : List JsonValue := []
deriving DecidableEq

/-- `FlowCondition`; `variableName` is the field `variables`. -/
structure FlowCondition where
  condType : String
  variableName : Option String
  operator : Option String
  value : Option JsonValue
deriving DecidableEq

/-- `RuleSwitchBranch`; the branch type is not read. -/
structure RuleSwitchBranch where
  name : String
  rule : List FlowCondition
deriving DecidableEq

/-- `RuleValueAssignment`; `variableName` is the field `variables`. -/
structure RuleValueAssignment where
  variableName : String
  value : JsonValue
deriving DecidableEq

/-- `CalculationRule`. -/
structure CalculationRule where
  output : String
  formula : String
deriving DecidableEq

/-- `RuleNode` (`finish` is `End`); the wires of all nodes but a switch are those of the one default port. -/
inductive RuleNode
  | start (wires : List String)
  | finish
  | switch (vars : List RuleVariable) (rule : List RuleSwitchBranch)
      (wires : String → Option (List String))
  | changeValue (vars : List RuleVariable) (rule : List RuleValueAssignment)
      (wires : List String)
  | calculation (vars : List RuleVariable) (rule : List CalculationRule)
      (wires : List String)
  | periodDelta (input output : RuleVariable) (period : String) (wires : List String)

/-- `RuleFlow`. -/
structure RuleFlow where
  startNode : String
  nodes : String → Option RuleNode

/-! ## Conditions -/

/-- `f64::EPSILON`. -/
def epsilon : Float := Float.ofBits 0x3CB0000000000000

variable (parse : ParseF64)

/-- The right side of a condition. -/
def conditionOperand (values : Values) : Option JsonValue → Option Float
  | none => some 0
  | some (.number value _) => some value
  | some (.string s) => (values s).or (parse s)
  | some (.other _) => some 0

/-- The operators. -/
def compareValues (operator : String) (left right : Float) : Bool :=
  match operator with
  | "==" | "eq" => (left - right).abs < epsilon
  | "!=" | "ne" => (left - right).abs ≥ epsilon
  | ">" | "gt" => left > right
  | "<" | "lt" => left < right
  | ">=" | "gte" => left ≥ right
  | "<=" | "lte" => left ≤ right
  | _ => false

/-- `evaluate_flow_condition`: a condition on an unknown variable fails. -/
def evaluateFlowCondition (cond : FlowCondition) (values : Values) : Bool :=
  match cond.variableName.bind values, conditionOperand parse values cond.value with
  | some left, some right => compareValues (cond.operator.getD "==") left right
  | _, _ => false

/-- A relation that means "or". -/
def isOr (relation : Option String) : Bool :=
  relation = some "||" || relation = some "or" || relation = some "OR"

/-- The loop of `evaluate_flow_conditions`, with the relation waiting for its second operand. -/
def foldConditions (parse : ParseF64) (values : Values) :
    List FlowCondition → Bool → Option String → Bool
  | [], result, _ => result
  | cond :: conds, result, pending =>
    if cond.condType = "relation" then
      foldConditions parse values conds result (cond.value.bind JsonValue.asStr)
    else
      let holds := evaluateFlowCondition parse cond values
      foldConditions parse values conds
        (if isOr pending then result || holds else result && holds) none

/-- `evaluate_flow_conditions`: no condition always holds. -/
def evaluateFlowConditions (conditions : List FlowCondition) (values : Values) :
    Bool :=
  if conditions.isEmpty then true else foldConditions parse values conditions true none

/-- The loop of `format_conditions`. -/
def conditionParts : List FlowCondition → Option String → List String
  | [], _ => []
  | cond :: conds, pending =>
    if cond.condType = "relation" then conditionParts conds (cond.value.bind JsonValue.asStr)
    else
      match cond.variableName with
      | none => conditionParts conds pending
      | some name =>
        let text := (cond.value.map fun v => trimQuotes v.display).getD ""
        let relation := match pending with
          | none => []
          | some _ => [if isOr pending then " || " else " && "]
        relation ++ [name ++ cond.operator.getD "==" ++ text] ++ conditionParts conds none

/-- `format_conditions`. -/
def formatConditions (conditions : List FlowCondition) : String :=
  String.join (conditionParts conditions none)

/-- `evaluate_rule_switch_with_details`: the targets of the first branch that holds, its port and
its text. -/
def evaluateRuleSwitchWithDetails (rules : List RuleSwitchBranch)
    (wires : String → Option (List String)) (values : Values) :
    List String × Option String × Option String :=
  match rules.find? fun r => evaluateFlowConditions parse r.rule values with
  | some r => ((wires r.name).getD [], some r.name, some (formatConditions r.rule))
  | none => ([], none, none)

/-- `ConditionResult`. -/
structure ConditionResult where
  expression : String
  result : Bool
  port : String
deriving DecidableEq

/-- `evaluate_all_conditions`. -/
def evaluateAllConditions (rules : List RuleSwitchBranch) (values : Values) :
    List ConditionResult :=
  rules.map fun r => ⟨formatConditions r.rule, evaluateFlowConditions parse r.rule values, r.name⟩

/-! ## Branches of which no condition holds -/

/-- It is no relation. -/
def FlowCondition.OnVariable (c : FlowCondition) : Prop := c.condType ≠ "relation"

instance (c : FlowCondition) : Decidable c.OnVariable := inferInstanceAs (Decidable (_ ≠ _))

/-- Some condition on a variable is joined by "and": no relation that means "or" waits for it. -/
def someJoinedByAnd : List FlowCondition → Option String → Bool
  | [], _ => false
  | cond :: conds, pending =>
    if cond.condType = "relation" then someJoinedByAnd conds (cond.value.bind JsonValue.asStr)
    else !isOr pending || someJoinedByAnd conds none

theorem foldConditions_of_failing {parse : ParseF64} {values : Values} :
    ∀ {conds : List FlowCondition} (result : Bool) (pending : Option String),
      (∀ c ∈ conds, c.OnVariable → evaluateFlowCondition parse c values = false) →
      foldConditions parse values conds result pending =
        (result && !someJoinedByAnd conds pending)
  | [], result, _, _ => by simp [foldConditions, someJoinedByAnd]
  | cond :: conds, result, pending, hfail => by
    have hrest := fun c hc => hfail c (mem_cons_of_mem _ hc)
    by_cases hrel : cond.condType = "relation"
    · rw [foldConditions, if_pos hrel, someJoinedByAnd, if_pos hrel]
      exact foldConditions_of_failing result _ hrest
    rw [foldConditions, if_neg hrel, someJoinedByAnd, if_neg hrel]
    simp only [hfail cond mem_cons_self hrel]
    rw [foldConditions_of_failing _ none hrest]
    cases isOr pending <;> cases result <;> simp

/-- **A branch of which no condition holds** is not taken exactly when one of its conditions is
joined by "and": the loop starts from `true`. -/
theorem failing_branch_not_taken_iff (parse : ParseF64) (conditions : List FlowCondition)
    (values : Values) (hvar : ∃ c ∈ conditions, c.OnVariable)
    (hfail : ∀ c ∈ conditions, c.OnVariable → evaluateFlowCondition parse c values = false) :
    (evaluateFlowConditions parse conditions values = false ∧
      ∀ (rules : List RuleSwitchBranch) (name : String),
        rules.find? (fun r => evaluateFlowConditions parse r.rule values) ≠
          some ⟨name, conditions⟩) ↔
      someJoinedByAnd conditions none = true := by
  have heval : evaluateFlowConditions parse conditions values = !someJoinedByAnd conditions none := by
    obtain ⟨c, hc, -⟩ := hvar
    rw [evaluateFlowConditions, if_neg (by simpa using ne_nil_of_mem hc),
      foldConditions_of_failing true none hfail, Bool.true_and]
  rw [heval, Bool.not_eq_false', and_iff_left_iff_imp]
  intro hand rules name hfound
  have hholds := find?_some hfound
  rw [heval, hand] at hholds
  cases hholds

/-- `T > 80`. -/
def overTemperature : FlowCondition := ⟨"variable", some "T", some ">", some (.number 80 "80")⟩

def orRelation : FlowCondition := ⟨"relation", none, none, some (.string "||")⟩

theorem failing_branch_not_taken_cold :
    evaluateFlowConditions (fun _ => none) [overTemperature, orRelation, overTemperature]
      (fun _ => some 20) = false :=
  ((failing_branch_not_taken_iff (fun _ => none) [overTemperature, orRelation, overTemperature]
    (fun _ => some 20) ⟨overTemperature, by decide, by decide⟩ (by decide +kernel)).mpr
      (by decide)).1

/-- A relation before the first condition has the initial `true` as its other side. -/
theorem leading_or_taken :
    overTemperature.OnVariable ∧
      (∀ c ∈ [orRelation, overTemperature], c.OnVariable →
        evaluateFlowCondition (fun _ => none) c (fun _ => some 20) = false) ∧
      evaluateFlowConditions (fun _ => none) [orRelation, overTemperature] (fun _ => some 20) =
        true ∧
      evaluateRuleSwitchWithDetails (fun _ => none) [⟨"trip", [orRelation, overTemperature]⟩]
        (fun _ => some ["open breaker"]) (fun _ => some 20) =
          (["open breaker"], some "trip", some " || T>80") := by
  decide +kernel

end VoltageEMS.Rules
