import VoltageEMS.Rules.Executor

/-!
# What an execution leaves behind

The trace of `execute`: the path of visited nodes, the graph of nodes and activated edges, the
errors that were collected.
-/

namespace VoltageEMS.Rules.Executor

open Lib List

variable {σ : Type}

/-! ## One visit -/

/-- How a visit of `id` ends, from the state in which its node is the last of the graph. -/
inductive Ends (id : String) (st : ExecState σ) : ExecState σ × List String → Prop
  | failed {st' : ExecState σ} (status : ExecutionNodeStatus) (kind : TerminalKind)
      (reason : String) (hstatus : status ≠ .executed)
      (hgraph : st'.graph = st.graph.finishNode id status (some kind) (some reason))
      (herrors : st'.errors = st.errors ++ [reason]) : Ends id st (st', [])
  | terminated {st' : ExecState σ} (kind : TerminalKind) (reason : String)
      (hgraph : st'.graph = st.graph.finishNode id .executed (some kind) (some reason))
      (herrors : st'.errors = st.errors) : Ends id st (st', [])
  | followed {st' : ExecState σ} {targets : List String} (port : Option String)
      (hgraph : st'.graph = st.graph.activateEdges id port targets)
      (herrors : st'.errors = st.errors) : Ends id st (st', targets)

/-- Graph and errors stay. -/
def SameTrace (st st' : ExecState σ) : Prop := st'.graph = st.graph ∧ st'.errors = st.errors

theorem SameTrace.trans {st st' st'' : ExecState σ} (h : SameTrace st st')
    (h' : SameTrace st' st'') : SameTrace st st'' :=
  ⟨h'.1.trans h.1, h'.2.trans h.2⟩

namespace Ends

variable {id : String} {st st' : ExecState σ} {r : ExecState σ × List String}

theorem of_same (hsame : SameTrace st st') (h : Ends id st' r) : Ends id st r := by
  obtain ⟨hg, he⟩ := hsame
  cases h with
  | failed status kind reason hstatus hgraph herrors =>
    exact .failed status kind reason hstatus (hg ▸ hgraph) (he ▸ herrors)
  | terminated kind reason hgraph herrors => exact .terminated kind reason (hg ▸ hgraph) (he ▸ herrors)
  | followed port hgraph herrors => exact .followed port (hg ▸ hgraph) (he ▸ herrors)

variable {kind : TerminalKind} {reason : String}

theorem fail {status : ExecutionNodeStatus} (hstatus : status ≠ .executed)
    (hsame : SameTrace st st') : Ends id st (st'.fail id status kind reason, []) :=
  .of_same hsame (.failed status kind reason hstatus rfl rfl)

theorem terminate (hsame : SameTrace st st') : Ends id st (st'.terminate id kind reason, []) :=
  .of_same hsame (.terminated kind reason rfl rfl)

theorem follow {port : Option String} {targets : List String} (hsame : SameTrace st st') :
    Ends id st (st'.follow id port targets) :=
  .of_same hsame (.followed port rfl rfl)

theorem leave {wires : List String} (hsame : SameTrace st st') : Ends id st (st'.leave id wires) := by
  unfold ExecState.leave
  split
  · exact terminate hsame
  · exact follow hsame

end Ends

namespace ExecState

variable (sv : Services σ) {id : String} {st : ExecState σ}

theorem sameTrace_snapshotOrReuse (st : ExecState σ) (changed : Bool) :
    SameTrace st (st.snapshotOrReuse changed).2 := by
  unfold snapshotOrReuse
  split <;> exact ⟨rfl, rfl⟩

theorem readNode_cases (id readFailed unavailable : String) (vars : List RuleVariable) :
    ∃ st', (∃ snapshot, st.readNode sv readFailed unavailable vars id = (st', some snapshot) ∧
        SameTrace st st') ∨
      (st.readNode sv readFailed unavailable vars id = (st', none) ∧ Ends id st (st', [])) := by
  unfold readNode
  split
  · exact ⟨_, .inr ⟨rfl, .fail (by decide) ⟨rfl, rfl⟩⟩⟩
  dsimp only
  split
  · exact ⟨_, .inr ⟨rfl, .fail (by decide) ⟨rfl, rfl⟩⟩⟩
  · exact ⟨_, .inl ⟨_, rfl, .trans ⟨rfl, rfl⟩ (sameTrace_snapshotOrReuse _ _)⟩⟩

/-- A visit that reads its variables first ends as what follows the reads does. -/
theorem ends_readNode {readFailed unavailable : String} {vars : List RuleVariable}
    {rest : ExecState σ → Values → ExecState σ × List String}
    (h : ∀ st' snapshot, SameTrace st st' → Ends id st (rest st' snapshot)) :
    Ends id st (match st.readNode sv readFailed unavailable vars id with
      | (st', none) => (st', [])
      | (st', some snapshot) => rest st' snapshot) := by
  obtain ⟨st', ⟨snapshot, heq, hsame⟩ | ⟨heq, hends⟩⟩ :=
    st.readNode_cases sv id readFailed unavailable vars
  · rw [heq]
    exact h st' snapshot hsame
  rw [heq]
  exact hends

theorem sameTrace_assignAll (vars : List RuleVariable) :
    ∀ (assignments : List RuleValueAssignment) (st : ExecState σ),
      SameTrace st (st.assignAll sv vars assignments).1
  | [], _ => ⟨rfl, rfl⟩
  | a :: assignments, st => by
    rw [assignAll]
    split
    · exact sameTrace_assignAll vars assignments st
    · exact .trans ⟨rfl, rfl⟩ (sameTrace_assignAll vars assignments (st.act _))

theorem sameTrace_calculateAll (ruleId : Int) (vars : List RuleVariable) :
    ∀ (calculations : List CalculationRule) (st : ExecState σ),
      SameTrace st (st.calculateAll sv ruleId vars calculations).2
  | [], _ => ⟨rfl, rfl⟩
  | c :: calculations, st => by
    rw [calculateAll]
    split
    · exact ⟨rfl, rfl⟩
    dsimp only
    split <;> exact .trans ⟨rfl, rfl⟩ (sameTrace_calculateAll ruleId vars calculations _)

theorem ends_visitStart (wires : List String) : Ends id st (st.visitStart id wires) := by
  unfold visitStart
  split
  · exact .fail (by decide) ⟨rfl, rfl⟩
  · exact .follow ⟨rfl, rfl⟩

theorem ends_visitSwitch (vars : List RuleVariable) (rule : List RuleSwitchBranch)
    (wires : String → Option (List String)) : Ends id st (st.visitSwitch sv id vars rule wires) := by
  refine ends_readNode sv fun st' snapshot hsame => ?_
  dsimp only
  split
  · exact .terminate hsame
  · exact .follow hsame

theorem ends_visitChangeValue (vars : List RuleVariable) (rule : List RuleValueAssignment)
    (wires : List String) : Ends id st (st.visitChangeValue sv id vars rule wires) :=
  ends_readNode sv fun st' _ hsame => .leave (hsame.trans (sameTrace_assignAll sv vars rule st'))

theorem ends_visitCalculation (ruleId : Int) (vars : List RuleVariable)
    (rule : List CalculationRule) (wires : List String) :
    Ends id st (st.visitCalculation sv ruleId id vars rule wires) := by
  refine ends_readNode sv fun st' snapshot hsame => ?_
  have hcalc := sameTrace_calculateAll sv ruleId vars rule st'
  split
  · rename_i reason st'' hrun
    rw [hrun] at hcalc
    exact .fail (by decide) (hsame.trans hcalc)
  rename_i actions st'' hrun
  rw [hrun] at hcalc
  exact .leave (hsame.trans hcalc)

theorem ends_visitPeriodDelta (ruleId : Int) (input output : RuleVariable) (period : String)
    (wires : List String) :
    Ends id st (st.visitPeriodDelta sv ruleId id input output period wires) := by
  refine ends_readNode sv fun st' snapshot hsame => .of_same hsame ?_
  dsimp only
  split
  · exact .fail (by decide) ⟨rfl, rfl⟩
  split
  · split
    · exact .fail (by decide) ⟨rfl, rfl⟩
    · exact .leave ⟨rfl, rfl⟩
  · exact .fail (by decide) ⟨rfl, rfl⟩

end ExecState

/-- The node is added to the graph. -/
def pushed (rule : FlowRule) (st : ExecState σ) (id : String) : ExecState σ :=
  { st with graph := st.graph.pushNode id ((rule.flow.nodes id).elim .unknown .ofNode) }

theorem ends_visit (sv : Services σ) (rule : FlowRule) (st : ExecState σ) (id : String) :
    Ends id (pushed rule st id) (visit sv rule st id) := by
  unfold visit pushed
  cases hnode : rule.flow.nodes id with
  | none => exact .fail (by decide) ⟨rfl, rfl⟩
  | some node =>
    cases node with
    | finish => exact .terminate ⟨rfl, rfl⟩
    | start wires => exact ExecState.ends_visitStart wires
    | switch vars branches wires => exact ExecState.ends_visitSwitch sv vars branches wires
    | changeValue vars assignments wires =>
      exact ExecState.ends_visitChangeValue sv vars assignments wires
    | calculation vars calculations wires =>
      exact ExecState.ends_visitCalculation sv rule.id vars calculations wires
    | periodDelta input output period wires =>
      exact ExecState.ends_visitPeriodDelta sv rule.id input output period wires

theorem finishNode_pushNode (g : ExecutionGraph) (id : String) (t : NodeType)
    (status : ExecutionNodeStatus) (kind : TerminalKind) (reason : String) :
    (g.pushNode id t).finishNode id status (some kind) (some reason) =
      { g with nodes := g.nodes ++ [⟨id, t, status, true, some kind, some reason⟩] } := by
  simp [ExecutionGraph.finishNode, ExecutionGraph.pushNode, ExecutionGraph.finishFirst]

/-- Why a node failed. -/
def ExecutionGraphNode.failure (n : ExecutionGraphNode) : Option String :=
  if n.status = .executed then none else n.terminalReason

/-- **One visit**: one node more in the graph, edges to exactly the targets that are queued, the
reason of the node, if it failed, as an error. -/
theorem visit_spec (sv : Services σ) (rule : FlowRule) (st : ExecState σ) (id : String) :
    let r := visit sv rule st id
    ∃ (n : ExecutionGraphNode) (port : Option String), n.id = id ∧
      r.1.graph.nodes = st.graph.nodes ++ [n] ∧
      r.1.graph.edges = st.graph.edges ++ r.2.map (fun target => ⟨id, target, port, port⟩) ∧
      r.1.errors = st.errors ++ n.failure.toList ∧
      (n.status ≠ .executed → n.terminalReason.isSome = true) := by
  have h := ends_visit sv rule st id
  generalize visit sv rule st id = r at h
  dsimp only
  cases h with
  | failed status kind reason hstatus hgraph herrors =>
    rw [pushed, finishNode_pushNode] at hgraph
    exact ⟨_, none, rfl, by rw [hgraph], by simp [hgraph],
      by simp [herrors, pushed, ExecutionGraphNode.failure, hstatus], fun _ => rfl⟩
  | terminated kind reason hgraph herrors =>
    rw [pushed, finishNode_pushNode] at hgraph
    exact ⟨_, none, rfl, by rw [hgraph], by simp [hgraph],
      by simp [herrors, pushed, ExecutionGraphNode.failure], fun h => absurd rfl h⟩
  | followed port hgraph herrors =>
    exact ⟨_, port, rfl, by rw [hgraph]; rfl, by rw [hgraph]; rfl,
      by simp [herrors, pushed, ExecutionGraphNode.failure], fun h => absurd rfl h⟩

/-! ## Whole executions -/

/-- The activated edges. -/
def edgePairs (st : ExecState σ) : List (String × String) :=
  st.graph.edges.map fun e => (e.source, e.target)

theorem walker_records (sv : Services σ) (rule : FlowRule) : (walker sv rule).Records edgePairs where
  visit st id := by
    obtain ⟨n, port, -, -, hedges, -, -⟩ := visit_spec sv rule st id
    simp only [walker, edgePairs, hedges, map_append, map_map]
    rfl
  overflow _ := rfl

/-- The graph has the nodes of a path, and the errors are the reasons of those that failed. -/
theorem visitAll_trace (sv : Services σ) (rule : FlowRule) (world : σ) (path : List String) :
    let st := (walker sv rule).visitAll { world } path
    st.graph.nodes.map ExecutionGraphNode.id = path ∧
      st.errors = st.graph.nodes.filterMap ExecutionGraphNode.failure := by
  induction path using List.reverseRecOn with
  | nil => exact ⟨rfl, rfl⟩
  | append_singleton path id ih =>
    obtain ⟨n, port, hid, hnodes, -, herrors, -⟩ :=
      visit_spec sv rule ((walker sv rule).visitAll { world } path) id
    rw [Walker.visitAll_concat]
    dsimp only [walker] at hnodes herrors ih ⊢
    rw [hnodes, herrors, map_append, filterMap_append, ih.1, ih.2, map_singleton, hid]
    refine ⟨rfl, ?_⟩
    cases hfailure : n.failure <;> simp [hfailure]

theorem traverse_trace (sv : Services σ) (rule : FlowRule) (world : σ) :
    let t := traverse sv rule world
    let failures := t.data.graph.nodes.filterMap ExecutionGraphNode.failure
    t.data.graph.nodes.map ExecutionGraphNode.id = t.path ∧
      (t.data.errors = failures ∨ t.data.errors = failures ++ [tooManyVisits]) := by
  obtain ⟨hids, hfailures⟩ := visitAll_trace sv rule world (traverse sv rule world).path
  rcases (walker sv rule).drain_visitAll { world } rule.flow.startNode with hdata | hdata
  · dsimp only [traverse]
    rw [hdata]
    exact ⟨hids, .inl hfailures⟩
  · dsimp only [traverse]
    rw [hdata]
    exact ⟨hids, .inr (congrArg (· ++ [tooManyVisits]) hfailures)⟩

/-- **Executions of any flow.**  The loop ends; the path holds the start node, has no node twice and
at most 1000 nodes; each of them, the start node apart, is the target of an edge activated by one
before it; every target of an activated edge is on the path unless the cap was met; the errors are
the reasons of the nodes that failed and the cap; the execution succeeds when there is none. -/
theorem execute_traversal (sv : Services σ) (rule : FlowRule) (world : σ) :
    let r := (execute sv rule world).1
    let errors := (traverse sv rule world).data.errors
    let failures := r.executionGraph.nodes.filterMap ExecutionGraphNode.failure
    r.executionPath.Nodup ∧ r.executionPath.length ≤ 1000 ∧
      rule.flow.startNode ∈ r.executionPath ∧
      r.executionGraph.nodes.map ExecutionGraphNode.id = r.executionPath ∧
      (errors = failures ∨ errors = failures ++ [tooManyVisits]) ∧
      (∀ before id after, r.executionPath = before ++ id :: after → id = rule.flow.startNode ∨
        ∃ e ∈ r.executionGraph.edges, e.source ∈ before ∧ e.target = id) ∧
      (∀ e ∈ r.executionGraph.edges, e.source ∈ r.executionPath ∧ (e.target ∈ r.executionPath ∨
        r.executionPath.length = 1000 ∧ errors.getLast? = some tooManyVisits)) ∧
      (r.success = true ↔ errors = []) ∧ (r.success = true ↔ r.error = none) := by
  obtain ⟨hnodup, hlength, hreached, hedges⟩ :=
    Walker.walk_drain (walker_records sv rule) { world } rfl rule.flow.startNode
  obtain ⟨hnodes, herrors⟩ := traverse_trace sv rule world
  have hstart := (walker sv rule).start_mem_drain (by decide : 0 < maxVisits) { world }
    rule.flow.startNode
  refine ⟨hnodup, hlength, hstart, hnodes, herrors, ?_, ?_, ?_, ?_⟩
  · intro before id after hpath
    refine (hreached before id after hpath).imp_right ?_
    rintro ⟨src, hsrc, hmem⟩
    obtain ⟨e, he, heq⟩ := mem_map.mp hmem
    cases heq
    exact ⟨e, he, hsrc, rfl⟩
  · intro e he
    obtain ⟨hsrc, htgt⟩ := hedges (e.source, e.target) (mem_map_of_mem he)
    refine ⟨hsrc, htgt.imp_right ?_⟩
    rintro ⟨hlen, d, hd⟩
    refine ⟨hlen, ?_⟩
    rw [traverse, hd]
    exact getLast?_concat
  · exact List.isEmpty_iff
  simp only [execute]
  split <;> simp_all

end VoltageEMS.Rules.Executor
