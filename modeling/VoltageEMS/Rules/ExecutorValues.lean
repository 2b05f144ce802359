import VoltageEMS.Rules.ExecutorTrace
import VoltageEMS.Rules.ReadPass

/-!
# The values an execution works with

All nodes of an execution share one map of values.  A node first reads its own variables into it;
the copy that goes into its details is kept from node to node while no read reports a change.
-/

namespace VoltageEMS.Rules.Executor

open Lib List Option

variable {σ : Type}

/-! ## Visits and their states -/

/-- The variables a node reads. -/
def ownVars : RuleNode → List RuleVariable
  | .start _ | .finish => []
  | .switch vars .. | .changeValue vars .. | .calculation vars .. => vars
  | .periodDelta input .. => [input]

variable (sv : Services σ)

/-- The state before a visit. -/
def stateBefore (rule : FlowRule) (world : σ) (before : List String) :
    ExecState σ :=
  (walker sv rule).visitAll { world } before

/-- The map after its reads. -/
def valuesRead (node : RuleNode) (st : ExecState σ) : Values :=
  (readRuleVariables sv (ownVars node) st.values st.world).2.1

/-- The reads of a node end its visit: one of them fails, or a variable is missing. -/
def CutShort (node : RuleNode) (st : ExecState σ) : Prop :=
  match (readRuleVariables sv (ownVars node) st.values st.world).1 with
  | .error _ => True
  | .ok outcome => outcome.missing ≠ []

/-- The visit does not change the map behind the back of the copy: reads that cut it short store
nothing new, a formula does not change the sign of a zero, and a calculation that fails has not
changed an output. -/
structure Settled (sv : Services σ) (rule : FlowRule) (st : ExecState σ) (id : String) : Prop where
  cutShort : ∀ node ∈ rule.flow.nodes id, CutShort sv node st → valuesRead sv node st = st.values
  zeros : ∀ node ∈ rule.flow.nodes id, KeepsZeroSigns sv (ownVars node) st.values
  calculation : ∀ vars calculations wires,
    rule.flow.nodes id = some (.calculation vars calculations wires) →
    ∀ (st₁ st₂ : ExecState σ) (reason : String),
      (readRuleVariables sv vars st.values st.world).2 = (st₁.values, st₁.world) →
      st₁.calculateAll sv rule.id vars calculations = (.error reason, st₂) → st₂.values = st₁.values

/-- The copy is the map. -/
def Fresh (st : ExecState σ) : Prop := ∀ snapshot, st.snapshot = some snapshot → snapshot = st.values

/-- A visit that started in `st` and read the map `input`. -/
structure Accounts (st : ExecState σ) (id : String) (input : Values) (st' : ExecState σ) : Prop where
  fresh : Fresh st'
  details : st'.details = st.details ∨
    ∃ d, st'.details = st.details ++ [(id, d)] ∧ d.inputValues = input

/-- Map, copy and details stay. -/
def SameData (st st' : ExecState σ) : Prop :=
  st'.values = st.values ∧ st'.snapshot = st.snapshot ∧ st'.details = st.details

theorem SameData.trans {st st' st'' : ExecState σ} (h : SameData st st') (h' : SameData st' st'') :
    SameData st st'' :=
  ⟨h'.1.trans h.1, h'.2.1.trans h.2.1, h'.2.2.trans h.2.2⟩

theorem Fresh.of_same {st st' : ExecState σ} (h : Fresh st) (hsame : SameData st st') : Fresh st' := by
  intro snapshot hs
  rw [hsame.1]
  exact h snapshot (hsame.2.1 ▸ hs)

theorem Accounts.unrecorded {st st' : ExecState σ} {id : String} {input : Values} (hf : Fresh st')
    (hd : st'.details = st.details) : Accounts st id input st' := ⟨hf, .inl hd⟩

theorem Accounts.recorded {st st' : ExecState σ} {id : String} {input : Values}
    {d : NodeExecutionDetail} (hf : Fresh st') (hd : st'.details = st.details)
    (hin : d.inputValues = input) : Accounts st id input (st'.detail id d) :=
  ⟨hf, .inr ⟨d, by rw [ExecState.detail, hd], hin⟩⟩

theorem Accounts.of_same {st st' st'' : ExecState σ} {id : String} {input : Values}
    (h : Accounts st id input st') (hsame : SameData st' st'') : Accounts st id input st'' :=
  ⟨h.fresh.of_same hsame, by rw [hsame.2.2]; exact h.details⟩

section Ending

variable {st st' : ExecState σ} {id node : String} {input : Values}

theorem Accounts.terminate {kind : TerminalKind} {reason : String} (h : Accounts st id input st') :
    Accounts st id input (st'.terminate node kind reason) := h.of_same ⟨rfl, rfl, rfl⟩

theorem Accounts.follow {port : Option String} {targets : List String}
    (h : Accounts st id input st') : Accounts st id input (st'.follow node port targets).1 :=
  h.of_same ⟨rfl, rfl, rfl⟩

theorem Accounts.leave {wires : List String} (h : Accounts st id input st') :
    Accounts st id input (st'.leave node wires).1 := by
  unfold ExecState.leave
  split
  · exact h.terminate
  · exact h.follow

end Ending

namespace ExecState

variable (sv : Services σ) {id : String} {st : ExecState σ}

theorem sameData_assignAll (vars : List RuleVariable) :
    ∀ (assignments : List RuleValueAssignment) (st : ExecState σ),
      SameData st (st.assignAll sv vars assignments).1
  | [], _ => ⟨rfl, rfl, rfl⟩
  | a :: assignments, st => by
    rw [assignAll]
    split
    · exact sameData_assignAll vars assignments st
    · exact .trans ⟨rfl, rfl, rfl⟩ (sameData_assignAll vars assignments (st.act _))

theorem snapshot_calculateAll (ruleId : Int) (vars : List RuleVariable) :
    ∀ (calculations : List CalculationRule) (st : ExecState σ),
      (st.calculateAll sv ruleId vars calculations).2.snapshot = st.snapshot ∧
        (st.calculateAll sv ruleId vars calculations).2.details = st.details
  | [], _ => ⟨rfl, rfl⟩
  | c :: calculations, st => by
    rw [calculateAll]
    split
    · exact ⟨rfl, rfl⟩
    dsimp only
    split <;> exact snapshot_calculateAll ruleId vars calculations _

theorem readNode_ends (st : ExecState σ) (id readFailed unavailable : String)
    (vars : List RuleVariable) :
    let read := readRuleVariables sv vars st.values st.world
    ∃ st', ((st.readNode sv readFailed unavailable vars id = (st', none) ∧
          st'.snapshot = st.snapshot ∧ ∀ outcome, read.1 = .ok outcome → outcome.missing ≠ []) ∨
        ∃ outcome snapshot, st.readNode sv readFailed unavailable vars id = (st', some snapshot) ∧
          st'.snapshot = some snapshot ∧ read.1 = .ok outcome ∧ outcome.missing = [] ∧
          (outcome.valuesChanged = false ∧ st.snapshot = some snapshot ∨ snapshot = st'.values)) ∧
      st'.values = read.2.1 ∧ st'.world = read.2.2 ∧ st'.details = st.details := by
  unfold readNode
  dsimp only
  rcases readRuleVariables sv vars st.values st.world with ⟨e | outcome, values, world⟩
  · exact ⟨_, .inl ⟨rfl, rfl, fun _ h => by cases h⟩, rfl, rfl, rfl⟩
  dsimp only
  by_cases hmissing : outcome.missing = []
  · rw [if_neg (by simp [hmissing])]
    unfold snapshotOrReuse
    dsimp only
    split
    · rename_i snapshot hchanged hsnap
      exact ⟨_, .inr ⟨outcome, snapshot, rfl, hsnap, rfl, hmissing, .inl ⟨hchanged, hsnap⟩⟩,
        rfl, rfl, rfl⟩
    · exact ⟨_, .inr ⟨outcome, values, rfl, rfl, rfl, hmissing, .inr rfl⟩, rfl, rfl, rfl⟩
  rw [if_pos (by simp [hmissing])]
  refine ⟨_, .inl ⟨rfl, rfl, fun o ho => ?_⟩, rfl, rfl, rfl⟩
  cases ho
  exact hmissing

variable {node : RuleNode}

/-- **The reads of a settled visit**: the copy is the map they leave, also where they cut the visit
short. -/
theorem readNode_settled {rule : FlowRule} (hnode : rule.flow.nodes id = some node)
    (hsettled : Settled sv rule st id) (hfresh : Fresh st) (readFailed unavailable : String) :
    ∃ st', ((st.readNode sv readFailed unavailable (ownVars node) id = (st', none) ∧ Fresh st') ∨
        st.readNode sv readFailed unavailable (ownVars node) id = (st', some (valuesRead sv node st)) ∧
          st'.snapshot = some st'.values) ∧
      (readRuleVariables sv (ownVars node) st.values st.world).2 = (st'.values, st'.world) ∧
      st'.details = st.details := by
  obtain ⟨st', hend, hvalues, hworld, hdetails⟩ :=
    readNode_ends sv st id readFailed unavailable (ownVars node)
  refine ⟨st', ?_, Prod.ext hvalues.symm hworld.symm, hdetails⟩
  rcases hend with ⟨heq, hsnap, hcut⟩ | ⟨outcome, snapshot, heq, hsnap, hread, -, hcopy⟩
  · refine .inl ⟨heq, fun snapshot hs => ?_⟩
    have hkept : valuesRead sv node st = st.values := by
      refine hsettled.cutShort node hnode ?_
      unfold CutShort
      split
      · trivial
      rename_i outcome houtcome
      exact hcut outcome houtcome
    rw [hvalues]
    exact (hfresh snapshot (hsnap ▸ hs)).trans hkept.symm
  have hcurrent : snapshot = st'.values := by
    rcases hcopy with ⟨hsame, hold⟩ | hnew
    · have hpass : readRuleVariables sv (ownVars node) st.values st.world =
          (.ok outcome, st'.values, st'.world) := Prod.ext hread (Prod.ext hvalues.symm hworld.symm)
      rw [readRuleVariables_unchanged (hsettled.zeros node hnode) hpass hsame]
      exact hfresh snapshot hold
    · exact hnew
  refine .inr ⟨?_, by rw [hsnap, hcurrent]⟩
  rw [heq, hcurrent, hvalues]
  rfl

theorem fresh_of_snapshot (h : st.snapshot = some st.values) : Fresh st :=
  fun _ hs => some.inj (hs.symm.trans h)

section Nodes

variable {rule : FlowRule} (hsettled : Settled sv rule st id) (hfresh : Fresh st)
include hsettled hfresh

/-- A settled visit that reads its variables first accounts for them if what follows the reads does. -/
theorem accounts_readNode (hnode : rule.flow.nodes id = some node) {readFailed unavailable : String}
    {rest : ExecState σ → Values → ExecState σ × List String}
    (h : ∀ st', st'.snapshot = some st'.values → st'.details = st.details →
      (readRuleVariables sv (ownVars node) st.values st.world).2 = (st'.values, st'.world) →
      Accounts st id (valuesRead sv node st) (rest st' (valuesRead sv node st)).1) :
    Accounts st id (valuesRead sv node st)
      (match st.readNode sv readFailed unavailable (ownVars node) id with
      | (st', none) => (st', [])
      | (st', some snapshot) => rest st' snapshot).1 := by
  obtain ⟨st', ⟨heq, hf⟩ | ⟨heq, hsnap⟩, hread, hdetails⟩ :=
    readNode_settled sv hnode hsettled hfresh readFailed unavailable
  · rw [heq]
    exact .unrecorded hf hdetails
  rw [heq]
  exact h st' hsnap hdetails hread

variable {vars : List RuleVariable}

theorem accounts_visitSwitch {branches : List RuleSwitchBranch}
    {wires : String → Option (List String)}
    (hnode : rule.flow.nodes id = some (.switch vars branches wires)) :
    Accounts st id (valuesRead sv (.switch vars branches wires) st)
      (st.visitSwitch sv id vars branches wires).1 := by
  refine accounts_readNode sv hsettled hfresh hnode fun st' hsnap hdetails _ => ?_
  have hcurrent := fresh_of_snapshot hsnap
  dsimp only
  split
  · exact Accounts.terminate (.recorded hcurrent hdetails rfl)
  · exact Accounts.follow (.recorded hcurrent hdetails rfl)

theorem accounts_visitChangeValue {assignments : List RuleValueAssignment} {wires : List String}
    (hnode : rule.flow.nodes id = some (.changeValue vars assignments wires)) :
    Accounts st id (valuesRead sv (.changeValue vars assignments wires) st)
      (st.visitChangeValue sv id vars assignments wires).1 := by
  refine accounts_readNode sv hsettled hfresh hnode fun st' hsnap hdetails _ => ?_
  have hsame := sameData_assignAll sv vars assignments st'
  exact Accounts.leave
    (.recorded ((fresh_of_snapshot hsnap).of_same hsame) (hsame.2.2.trans hdetails) rfl)

theorem accounts_visitCalculation {calculations : List CalculationRule} {wires : List String}
    (hnode : rule.flow.nodes id = some (.calculation vars calculations wires)) :
    Accounts st id (valuesRead sv (.calculation vars calculations wires) st)
      (st.visitCalculation sv rule.id id vars calculations wires).1 := by
  refine accounts_readNode sv hsettled hfresh hnode fun st' hsnap hdetails hread => ?_
  obtain ⟨hsnap', hdetails'⟩ := snapshot_calculateAll sv rule.id vars calculations st'
  rcases hrun : st'.calculateAll sv rule.id vars calculations with ⟨reason | actions, st''⟩
  · rw [hrun] at hsnap' hdetails'
    have hvalues := hsettled.calculation vars calculations wires hnode st' st'' reason hread hrun
    refine .unrecorded (fun s hs => ?_) (hdetails'.trans hdetails)
    exact (some.inj (hs.symm.trans (hsnap'.trans hsnap))).trans hvalues.symm
  rw [hrun] at hdetails'
  exact Accounts.leave (.recorded (fun s hs => by cases hs) (hdetails'.trans hdetails) rfl)

theorem accounts_visitPeriodDelta {input output : RuleVariable} {period : String}
    {wires : List String}
    (hnode : rule.flow.nodes id = some (.periodDelta input output period wires)) :
    Accounts st id (valuesRead sv (.periodDelta input output period wires) st)
      (st.visitPeriodDelta sv rule.id id input output period wires).1 := by
  refine accounts_readNode sv hsettled hfresh hnode fun st' hsnap hdetails _ => ?_
  have hkept := fresh_of_snapshot hsnap
  dsimp only
  split
  · exact .unrecorded hkept hdetails
  split
  · split
    · exact .unrecorded hkept hdetails
    · exact Accounts.leave (.recorded (fun s hs => by cases hs) hdetails rfl)
  · exact .unrecorded hkept hdetails

end Nodes

end ExecState

/-- **One settled visit**: the copy is the map or is gone, and recorded details hold the map as its
reads left it. -/
theorem settled_visit {sv : Services σ} {rule : FlowRule} {st : ExecState σ} {id : String}
    {node : RuleNode} (hnode : rule.flow.nodes id = some node) (hsettled : Settled sv rule st id)
    (hfresh : Fresh st) : Accounts st id (valuesRead sv node st) (visit sv rule st id).1 := by
  -- the graph plays no part in the reads
  have hpushed : Settled sv rule { st with graph := st.graph.pushNode id (.ofNode node) } id :=
    ⟨hsettled.cutShort, hsettled.zeros, hsettled.calculation⟩
  have hback : ∀ {g : ExecutionGraph} {st' : ExecState σ},
      Accounts { st with graph := g } id (valuesRead sv node st) st' →
      Accounts st id (valuesRead sv node st) st' := fun h => ⟨h.fresh, h.details⟩
  unfold visit
  rw [hnode]
  cases node with
  | finish => exact .unrecorded hfresh rfl
  | start wires =>
    simp only [ExecState.visitStart]
    split <;> exact .unrecorded hfresh rfl
  | switch vars branches wires =>
    exact hback (ExecState.accounts_visitSwitch sv hpushed hfresh hnode)
  | changeValue vars assignments wires =>
    exact hback (ExecState.accounts_visitChangeValue sv hpushed hfresh hnode)
  | calculation vars calculations wires =>
    exact hback (ExecState.accounts_visitCalculation sv hpushed hfresh hnode)
  | periodDelta input output period wires =>
    exact hback (ExecState.accounts_visitPeriodDelta sv hpushed hfresh hnode)

/-! ## Whole executions -/

/-- Every detail holds the map as it stood right after the reads of its node. -/
def InputValuesRead (rule : FlowRule) (world : σ) : Prop :=
  ∀ id d, (execute sv rule world).1.nodeDetails id = some d →
    ∃ before after node, (execute sv rule world).1.executionPath = before ++ id :: after ∧
      rule.flow.nodes id = some node ∧
      d.inputValues = valuesRead sv node (stateBefore sv rule world before)

/-- Every visit of the path is settled. -/
def SettledAlong (rule : FlowRule) (world : σ) (path : List String) : Prop :=
  ∀ before id after, path = before ++ id :: after →
    Settled sv rule (stateBefore sv rule world before) id

theorem details_stateBefore {sv : Services σ} {rule : FlowRule} {world : σ} {path : List String}
    (h : SettledAlong sv rule world path) :
    Fresh (stateBefore sv rule world path) ∧
      ∀ e ∈ (stateBefore sv rule world path).details, ∃ before after node,
        path = before ++ e.1 :: after ∧ rule.flow.nodes e.1 = some node ∧
          e.2.inputValues = valuesRead sv node (stateBefore sv rule world before) := by
  induction path using reverseRecOn with
  | nil => exact ⟨fun s hs => (by cases hs), fun e he => absurd he not_mem_nil⟩
  | append_singleton path id ih =>
    obtain ⟨hfresh, hdetails⟩ := ih fun before x after hpath =>
      h before x (after ++ [id]) (by rw [hpath, append_assoc, cons_append])
    have hold : ∀ e ∈ (stateBefore sv rule world path).details, ∃ before after node,
        path ++ [id] = before ++ e.1 :: after ∧ rule.flow.nodes e.1 = some node ∧
          e.2.inputValues = valuesRead sv node (stateBefore sv rule world before) := by
      intro e he
      obtain ⟨before, after, node, hpath, hrest⟩ := hdetails e he
      exact ⟨before, after ++ [id], node, by rw [hpath, append_assoc, cons_append], hrest⟩
    have hstep : stateBefore sv rule world (path ++ [id]) =
        (visit sv rule (stateBefore sv rule world path) id).1 :=
      (walker sv rule).visitAll_concat _ path id
    rw [hstep]
    cases hnode : rule.flow.nodes id with
    | none =>
      simp only [visit, hnode]
      exact ⟨hfresh, hold⟩
    | some node =>
      have hvisit := settled_visit hnode (h path id [] rfl) hfresh
      refine ⟨hvisit.fresh, fun e he => ?_⟩
      rcases hvisit.details with hsame | ⟨d, hnew, hin⟩
      · exact hold e (hsame ▸ he)
      rw [hnew, mem_append, mem_singleton] at he
      rcases he with he | rfl
      · exact hold e he
      · exact ⟨path, [], node, rfl, hnode, hin⟩

/-- **The recorded input values**, in every execution whose visits are all settled. -/
theorem inputValues_of_settled (sv : Services σ) (rule : FlowRule) (world : σ)
    (h : SettledAlong sv rule world (execute sv rule world).1.executionPath) :
    InputValuesRead sv rule world := by
  intro id d hd
  have hmem : (id, d) ∈ (traverse sv rule world).data.details := by
    exact (mem_of_insertAll hd).resolve_right (by simp)
  have hdata : (traverse sv rule world).data.details =
      (stateBefore sv rule world (execute sv rule world).1.executionPath).details := by
    rcases (walker sv rule).drain_visitAll { world } rule.flow.startNode with heq | heq
    · exact congrArg ExecState.details heq
    · exact (congrArg ExecState.details heq).trans rfl
  exact (details_stateBefore h).2 (id, d) (hdata ▸ hmem)

/-! ## Executions over a table of points -/

/-- Shared memory answers from a table. -/
def tableServices (points : Nat → Bool → Nat → Option Float) : Services Unit where
  getInstance _ inst isAction point := (points inst isAction point, ())
  hashMget _ _ fields := (.ok (fields.map fun _ => none), ())
  requestOrder := id
  requestOrder_perm _ := .refl _
  parse _ := none
  evaluateFormula _ _ := none
  evaluate _ _ _ _ := (.error "unavailable", ())
  periodDelta _ _ _ _ _ := (.error "unavailable", ())
  writeMeasurementPoint _ _ _ _ := (false, ())
  writeActionPoint _ _ _ _ := (false, ())

def varX (inst : Nat) (pointType : String) : RuleVariable := ⟨"X", some inst, some pointType, some 1, []⟩

def twoMeters : Services Unit :=
  tableServices fun inst isAction _ =>
    match inst, isAction with
    | 1, false => some 10
    | 2, false => some 20
    | _, _ => none

/-- A node that only reads. -/
def probe (vars : List RuleVariable) : RuleNode := .switch vars [] fun _ => none

/-- The start node leads to two probes, which read `X` on two instances. -/
def probeRule : FlowRule where
  id := 2
  flow := {
    startNode := "start"
    nodes
      | "start" => some (.start ["first", "second"])
      | "first" => some (probe [varX 1 "measurement"])
      | "second" => some (probe [varX 2 "measurement"])
      | _ => none }

/-- Three probes: one reads `X` on instance 1; one reads `X` on instance 2 and is skipped for the
lack of `Y`; one reads nothing. -/
def probesRule : FlowRule where
  id := 1
  flow := {
    startNode := "start"
    nodes
      | "start" => some (.start ["first", "second", "third"])
      | "first" => some (probe [varX 1 "measurement"])
      | "second" => some (probe [varX 2 "measurement", ⟨"Y", some 9, none, some 1, []⟩])
      | "third" => some (probe [])
      | _ => none }

theorem traverse_of_fuel (rule : FlowRule) (world : σ) {β : Type}
    (f : Search String (ExecState σ) → β) (n : Nat) {b : β}
    (h : ((walker sv rule).drainFuel n ⟨[rule.flow.startNode], ∅, [], { world }⟩).map f = some b) :
    f (traverse sv rule world) = b :=
  (walker sv rule).drain_of_fuel f h

theorem settled_probe {st : ExecState Unit} {id : String} {inst : Nat} (hinst : inst = 1 ∨ inst = 2)
    (hnode : probeRule.flow.nodes id = some (probe [varX inst "measurement"])) :
    Settled twoMeters probeRule st id := by
  refine ⟨?_, ?_, ?_⟩
  · rintro node hmem hcut
    cases hmem.symm.trans hnode
    rcases hinst with rfl | rfl <;> exact absurd rfl hcut
  · rintro node hmem v hv hformula
    cases hmem.symm.trans hnode
    exact absurd (mem_singleton.mp hv ▸ rfl) hformula
  · rintro vars calculations wires hcalc
    cases hcalc.symm.trans hnode

theorem inputValues_of_settled_probes :
    InputValuesRead twoMeters probeRule () ∧
      ["first", "second"].map (fun id =>
        ((execute twoMeters probeRule ()).1.nodeDetails id).map fun d => d.inputValues "X") =
        [some (some 10), some (some 20)] := by
  refine ⟨inputValues_of_settled twoMeters probeRule () ?_,
    traverse_of_fuel twoMeters probeRule () (fun t => ["first", "second"].map fun id =>
      (insertAll (fun _ => none) t.data.details id).map fun d => d.inputValues "X") 9
      (by decide +kernel)⟩
  have hpath : (execute twoMeters probeRule ()).1.executionPath = ["start", "first", "second"] :=
    traverse_of_fuel twoMeters probeRule () Search.path 9 (by decide +kernel)
  intro before id after hsplit
  have hid : id ∈ ["start", "first", "second"] := by
    rw [← hpath, hsplit]
    simp
  simp only [mem_cons, not_mem_nil, or_false] at hid
  rcases hid with rfl | rfl | rfl
  · refine ⟨?_, ?_, ?_⟩
    · rintro node ⟨⟩ hcut
      exact absurd rfl hcut
    · rintro node ⟨⟩ v hv
      exact absurd hv not_mem_nil
    · rintro vars calculations wires ⟨⟩
  · exact settled_probe (.inl rfl) rfl
  · exact settled_probe (.inr rfl) rfl

/-- The skipped probe changes `X` to 20; the third still records 10. -/
theorem stale_input_values :
    (execute twoMeters probesRule ()).1.executionPath = ["start", "first", "second", "third"] ∧
      ((execute twoMeters probesRule ()).1.nodeDetails "third").map (fun d => d.inputValues "X") =
        some (some 10) ∧
      valuesRead twoMeters (probe [])
        (stateBefore twoMeters probesRule () ["start", "first", "second"]) "X" = some 20 ∧
      ¬ InputValuesRead twoMeters probesRule () := by
  have hpath : (execute twoMeters probesRule ()).1.executionPath =
      ["start", "first", "second", "third"] :=
    traverse_of_fuel twoMeters probesRule () Search.path 9 (by decide +kernel)
  have hdetail : ((execute twoMeters probesRule ()).1.nodeDetails "third").map
      (fun d => d.inputValues "X") = some (some 10) :=
    traverse_of_fuel twoMeters probesRule () (fun t =>
      (insertAll (fun _ => none) t.data.details "third").map fun d => d.inputValues "X") 9
      (by decide +kernel)
  have hread : valuesRead twoMeters (probe [])
      (stateBefore twoMeters probesRule () ["start", "first", "second"]) "X" = some 20 := by
    decide +kernel
  refine ⟨hpath, hdetail, hread, fun h => ?_⟩
  obtain ⟨d, hd, hx⟩ := map_eq_some_iff.mp hdetail
  obtain ⟨before, after, node, hsplit, hnode, hin⟩ := h "third" d hd
  obtain ⟨hbefore, -⟩ : before = ["start", "first", "second"] ∧ after = [] := by
    rw [hpath] at hsplit
    simpa [cons_eq_append_iff] using hsplit
  have hprobe : node = probe [] := by
    cases hnode
    rfl
  rw [hbefore, hprobe] at hin
  have hstale := congrFun hin "X"
  rw [hx, hread] at hstale
  exact absurd hstale (by decide +kernel)

end VoltageEMS.Rules.Executor
