import VoltageEMS.Rules.ExecutorValues
import VoltageEMS.Rules.HotReload

/-!
# What starts a cooldown

A tick records the start of a cooldown after an execution that succeeded and has actions in its
result.  The result lists skipped, rejected and undelivered actions too.
-/

namespace VoltageEMS.Rules

open Lib Option

/-- An action succeeded. -/
def Outcome.carriedOut : Outcome → Bool
  | .ok r => r.actionsExecuted.any ActionResult.success
  | .error _ => false

/-- The execution succeeds and has actions, and all of them failed. -/
def Outcome.AllFailed (o : Outcome) : Prop := o.acted = true ∧ o.carriedOut = false

instance (o : Outcome) : Decidable o.AllFailed := inferInstanceAs (Decidable (_ ∧ _))

/-- The rule at position `i` gets a start of its cooldown that it did not have. -/
def CooldownSet (rules rules' : List ScheduledRule) (i : Nat) : Prop :=
  ∃ s s' t, rules[i]? = some s ∧ rules'[i]? = some s' ∧ s'.lastCooldownStart = some t ∧
    s.lastCooldownStart ≠ some t

theorem carriedOut_of_acted {o : Outcome} (hacted : o.acted = true) (h : ¬ o.AllFailed) :
    o.carriedOut = true := by
  by_contra hnot
  exact h ⟨hacted, by simpa using hnot⟩

/-! ## Ticks and events -/

/-- What a tick executes. -/
def executedBy (st : State) : Input → Nat → Option Outcome
  | .tick env source, i =>
    let snapshot := fetchPointSnapshot source (subscriptions st.rules)
    ((st.rules[i]?).filter (dueOnTick snapshot (st.clock + env.wait))).map fun _ => env.outcome i
  | .watch .., _ => none

/-- No tick executes a rule all of whose actions fail. -/
def SomeActionSucceeds (st : State) (x : Input) : Prop :=
  ∀ i o, executedBy st x i = some o → ¬ o.AllFailed

/-- The cooldown starts are set by executions of which an action was carried out. -/
def Earned (index : SubIndex) (st : State) (x : Input) : Prop :=
  ∀ i, CooldownSet st.rules (step index st x).1.rules i →
    ∃ o, executedBy st x i = some o ∧ o.carriedOut = true

theorem cooldownSet_executeAll (path : Path) (now : Nat) {due : ScheduledRule → Bool}
    {finish : ScheduledRule → Outcome → ScheduledRule × Bool} {env : StepEnv}
    {rules : List ScheduledRule} {i : Nat}
    (h : CooldownSet rules (executeAll path now due finish env rules).1 i) :
    ∃ s, rules[i]? = some s ∧ due s = true ∧
      (finish s (env.outcome i)).1.lastCooldownStart ≠ s.lastCooldownStart := by
  obtain ⟨s, s', t, hs, hs', hstart, hne⟩ := h
  rw [executeAll_getElem hs, some.injEq] at hs'
  cases hdue : due s with
  | false =>
    rw [hdue] at hs'
    subst hs'
    exact absurd hstart hne
  | true =>
    rw [hdue] at hs'
    subst hs'
    refine ⟨s, hs, hdue, fun heq => hne ?_⟩
    rw [← heq]
    exact hstart

/-- **One tick or event.** -/
theorem earned_step (index : SubIndex) {st : State} {x : Input} (h : SomeActionSucceeds st x) :
    Earned index st x := by
  intro i hset
  cases x with
  | tick env source =>
    obtain ⟨s, hs, hdue, hstart⟩ := cooldownSet_executeAll .tick (st.clock + env.wait) hset
    have hexecuted : executedBy st (.tick env source) i = some (env.outcome i) := by
      simp [executedBy, hs, hdue]
    rw [(finishTick_spec _ _ _ s (env.outcome i)).2.2.1] at hstart
    cases hacted : (env.outcome i).acted with
    | false => simp [hacted] at hstart
    | true => exact ⟨_, hexecuted, carriedOut_of_acted hacted (h i _ hexecuted)⟩
  | watch env ev =>
    exfalso
    cases hwe : dispatch index ev with
    | none =>
      rw [step_watch_none hwe] at hset
      obtain ⟨s, s', t, hs, hs', hstart, hne⟩ := hset
      rw [hs] at hs'
      cases hs'
      exact hne hstart
    | some we =>
      rw [step_watch_some hwe] at hset
      obtain ⟨s, hs, hdue, hstart⟩ := cooldownSet_executeAll .watch (st.clock + env.wait) hset
      exact hstart (finishWatch_spec _ _ _ s _).2.2.1

/-! ## Ticks cut at their locks, and reloads -/

namespace Hot

/-- What the end of a tick records. -/
def executedBy (st : Hot) : HotInput → Nat → Option Outcome
  | .finish outcome _, i =>
    match st.phase with
    | .executing _ _ due => if i ∈ due.map DueRule.idx then some (outcome i) else none
    | .idle | .sampled .. => none
  | _, _ => none

/-- The same for ticks cut at their locks. -/
def SomeActionSucceeds (st : Hot) (x : HotInput) : Prop :=
  ∀ i o, executedBy st x i = some o → ¬ o.AllFailed

/-- The same for these. -/
def Earned (st : Hot) (x : HotInput) : Prop :=
  ∀ i, CooldownSet st.rules (step st x).1.rules i →
    ∃ o, executedBy st x i = some o ∧ o.carriedOut = true

section Updates

variable (snapshot : Snapshot) (now clock : Nat) (outcome : Nat → Outcome) {i : Nat}

theorem start_applyUpdate {acc : List ScheduledRule × List HotEvent} (u : DueRule)
    {s : ScheduledRule} (hs : acc.1[i]? = some s) :
    ∃ s', (applyUpdate snapshot now clock outcome acc u).1[i]? = some s' ∧
      (s'.lastCooldownStart = s.lastCooldownStart ∨ u.idx = i ∧ (outcome i).acted = true) := by
  unfold applyUpdate
  cases hu : acc.1[u.idx]? with
  | none => exact ⟨s, hs, .inl rfl⟩
  | some s₀ =>
    dsimp only
    split
    · exact ⟨s, hs, .inl rfl⟩
    by_cases hidx : u.idx = i
    · subst hidx
      rw [hs, some.injEq] at hu
      subst hu
      have hlt := (List.getElem?_eq_some_iff.mp hs).1
      refine ⟨_, List.getElem?_set_self hlt, ?_⟩
      have hstart : (finishUpdate snapshot now clock u.isOnchange s (outcome u.idx)).lastCooldownStart =
          if (outcome u.idx).acted then some now else s.lastCooldownStart := by
        rw [← (finishTick_spec snapshot now clock s (outcome u.idx)).2.2.1]
        unfold finishUpdate
        cases u.isOnchange <;> rfl
      rw [hstart]
      cases hacted : (outcome u.idx).acted with
      | false => exact .inl rfl
      | true => exact .inr ⟨rfl, rfl⟩
    · exact ⟨s, by rw [List.getElem?_set_ne hidx, hs], .inl rfl⟩

theorem start_foldl_applyUpdate {snapshot : Snapshot} {now clock : Nat} {outcome : Nat → Outcome} :
    ∀ (us : List DueRule) {acc : List ScheduledRule × List HotEvent} {s s' : ScheduledRule},
      acc.1[i]? = some s →
      (us.foldl (applyUpdate snapshot now clock outcome) acc).1[i]? = some s' →
      s'.lastCooldownStart = s.lastCooldownStart ∨
        i ∈ us.map DueRule.idx ∧ (outcome i).acted = true
  | [], acc, s, s', hs, hs' => by
    rw [List.foldl_nil, hs] at hs'
    cases hs'
    exact .inl rfl
  | u :: us, acc, s, s', hs, hs' => by
    obtain ⟨s₁, hs₁, hfirst⟩ := start_applyUpdate snapshot now clock outcome u hs
    rw [List.foldl_cons] at hs'
    rcases start_foldl_applyUpdate us hs₁ hs' with heq | ⟨hmem, hacted⟩
    · rcases hfirst with hsame | ⟨hidx, hacted⟩
      · exact .inl (heq.trans hsame)
      · exact .inr ⟨by simp [hidx], hacted⟩
    · exact .inr ⟨List.mem_cons_of_mem _ hmem, hacted⟩

end Updates

/-- **One part of a tick, or a reload.** -/
theorem earned_step {st : Hot} {x : HotInput} (h : SomeActionSucceeds st x) : Earned st x := by
  intro i hset
  obtain ⟨s, s', t, hs, hs', hstart, hne⟩ := hset
  have hkept : s'.lastCooldownStart ≠ s.lastCooldownStart := fun heq => hne (heq ▸ hstart)
  have hsame : ∀ {rules : List ScheduledRule}, rules = st.rules → rules[i]? = some s' → False := by
    intro rules heq hget
    rw [heq, hs] at hget
    cases hget
    exact hkept rfl
  cases x with
  | wait d => exact (hsame rfl hs').elim
  | sample | filter =>
    cases hphase : st.phase <;> simp only [step, hphase] at hs' <;> exact (hsame rfl hs').elim
  | reload loaded =>
    cases loaded with
    | none => exact (hsame rfl hs').elim
    | some table =>
      -- a reload clears every start
      simp only [step, loadRules, List.getElem?_map, map_eq_some_iff] at hs'
      obtain ⟨r, -, rfl⟩ := hs'
      cases hstart
  | finish outcome completion =>
    cases hphase : st.phase with
    | idle | sampled =>
      simp only [step, hphase] at hs'
      exact (hsame rfl hs').elim
    | executing now snapshot due =>
      simp only [step, hphase] at hs'
      rcases start_foldl_applyUpdate (updates completion due) hs hs' with heq | ⟨hmem, hacted⟩
      · exact absurd heq hkept
      rw [map_idx_updates, (completion.perm _).mem_iff] at hmem
      have hexecuted : executedBy st (.finish outcome completion) i = some (outcome i) := by
        simp only [executedBy, hphase, if_pos hmem]
      exact ⟨_, hexecuted, carriedOut_of_acted hacted (h i _ hexecuted)⟩

end Hot

/-! ## Runs -/

/-- **Every start of a cooldown is earned**, in runs of ticks and events and in runs of ticks cut at
their locks with reloads, if no tick records an execution all of whose actions failed. -/
theorem cooldown_start_earned (routing : RoutingCache) (rules : List Rule) (table : RuleTable) :
    (∀ inputs, (machine routing rules).Along SomeActionSucceeds (init rules) inputs →
      (machine routing rules).Along (Earned (rebuildFromRules routing (loadRules rules)))
        (init rules) inputs) ∧
    ∀ inputs, Hot.machine.Along Hot.SomeActionSucceeds (Hot.init table) inputs →
      Hot.machine.Along Hot.Earned (Hot.init table) inputs :=
  ⟨fun _ h => Machine.along_mono _ (fun _ _ => earned_step _) h,
    fun _ h => Machine.along_mono _ (fun _ _ => Hot.earned_step) h⟩

/-! ## A rule that sets a point to an unknown value -/

def setpointRule : Rule := ⟨4, "set point", true, 5000, some (.interval 1000)⟩

def unknownValueFlow : Executor.FlowRule where
  id := 4
  flow := {
    startNode := "start"
    nodes
      | "start" => some (.start ["set"])
      | "set" => some (.changeValue [Executor.varX 1 "action"] [⟨"X", .string "Z"⟩] [])
      | _ => none }

def tickWith (o : Outcome) : Input :=
  .tick ⟨0, 0, fun _ => o, .inOrder⟩ (.redis fun _ => none)

theorem cooldown_start_earned_shed :
    (machine feederRouting [setpointRule]).Along
        (Earned (rebuildFromRules feederRouting (loadRules [setpointRule])))
        (init [setpointRule]) [tickWith (shed 1)] ∧
      ((machine feederRouting [setpointRule]).run (init [setpointRule])
        [tickWith (shed 1)]).rules.map ScheduledRule.lastCooldownStart = [some 0] := by
  refine ⟨(cooldown_start_earned feederRouting [setpointRule] ⟨[], .nil⟩).1 _ ⟨?_, trivial⟩,
    by decide +kernel⟩
  intro i o ho
  obtain ⟨s, -, rfl⟩ := map_eq_some_iff.mp ho
  simp [Outcome.AllFailed, shed, Outcome.carriedOut]

/-- **The only action is skipped**, the value being unknown; the execution succeeds and its cooldown
starts. -/
theorem cooldown_for_skipped_action :
    let r := (Executor.execute Executor.twoMeters unknownValueFlow ()).1.report
    r.success = true ∧ r.actionsExecuted = [⟨1, 1, false⟩] ∧
      ((machine feederRouting [setpointRule]).run (init [setpointRule])
        [tickWith (.ok r)]).rules.map ScheduledRule.lastCooldownStart = [some 0] := by
  have herrors := Executor.traverse_of_fuel Executor.twoMeters unknownValueFlow ()
    (fun t => t.data.errors) 9 (b := []) (by decide +kernel)
  have hactions := Executor.traverse_of_fuel Executor.twoMeters unknownValueFlow ()
    (fun t => t.data.actions.map fun a => (⟨a.targetId, a.pointId, a.success⟩ : ActionResult)) 9
    (b := [⟨1, 1, false⟩]) (by decide +kernel)
  have hreads := Executor.traverse_of_fuel Executor.twoMeters unknownValueFlow ()
    (fun t => t.data.pointValues) 9 (b := []) (by decide +kernel)
  have hreport : (Executor.execute Executor.twoMeters unknownValueFlow ()).1.report =
      ⟨true, [⟨1, 1, false⟩], none, []⟩ := by
    simp only [Executor.execute, Executor.RuleExecutionResult.report, herrors, hactions, hreads]
    rfl
  rw [hreport]
  decide +kernel

end VoltageEMS.Rules
