import VoltageEMS.Rules.Scheduler

/-!
# The cooldown over both paths

A rule with `cooldown_ms > 0` that executed with success and performed an action should rest for
its cooldown, whichever path would start it next.
-/

namespace VoltageEMS.Rules

open Lib List

/-- No execution starts within the cooldown of an earlier execution of its rule that acted. -/
def CooldownRespected (rules : List Rule) (events : List Event) : Prop :=
  (executions events).Pairwise fun e f => e.idx = f.idx → e.acted = true →
    ∀ r ∈ rules[e.idx]?, 0 < r.cooldownMs →
      ¬ (e.start ≤ f.start ∧ f.start < e.start + r.cooldownMs * 10 ^ 6)

instance (rules : List Rule) (events : List Event) : Decidable (CooldownRespected rules events) :=
  inferInstanceAs (Decidable (List.Pairwise _ _))

/-- The step starts an execution of a rule with a cooldown through the event path only when it is
out of its cooldown, and performs no action. -/
def WatchSparesCooldown (index : SubIndex) (st : State) : Input → Prop
  | .tick .. => True
  | .watch env ev => ∀ we ∈ dispatch index ev, ∀ i < st.rules.length, ∀ s ∈ st.rules[i]?,
      0 < s.rule.cooldownMs → dueOnWatch we (st.clock + env.wait) s = true →
        s.rule.cooldownOk s.lastCooldownStart (st.clock + env.wait) = true ∧
          (env.outcome i).acted = false

instance (index : SubIndex) (st : State) : ∀ x, Decidable (WatchSparesCooldown index st x)
  | .tick .. => inferInstanceAs (Decidable True)
  | .watch .. => inferInstanceAs (Decidable (∀ we ∈ dispatch _ _, _))

/-- What ties the rules' state to the executions so far. -/
structure CooldownInv (rules : List Rule) (st : State) (events : List Event) : Prop where
  loaded : ∀ (i : Nat) (s : ScheduledRule), st.rules[i]? = some s → rules[i]? = some s.rule
  past : ∀ e ∈ executions events, e.start ≤ st.clock
  started : ∀ e ∈ executions events, e.acted = true → ∀ s, st.rules[e.idx]? = some s →
    0 < s.rule.cooldownMs → ∃ t, s.lastCooldownStart = some t ∧ e.start ≤ t
  respected : CooldownRespected rules events

section Step

variable {rules : List Rule} {st : State} {events : List Event} {path : Path} {now clock : Nat}
  {due : ScheduledRule → Bool} {finish : ScheduledRule → Outcome → ScheduledRule × Bool}
  {env : StepEnv}

variable (hinv : CooldownInv rules st events)
include hinv

theorem CooldownInv.respected_append {more : List Event}
    (hne : (executions more).Pairwise fun e f => e.idx ≠ f.idx)
    (hmore : ∀ f ∈ executions more, ∃ s, st.rules[f.idx]? = some s ∧
      (0 < s.rule.cooldownMs → s.rule.cooldownOk s.lastCooldownStart f.start = true)) :
    CooldownRespected rules (events ++ more) := by
  unfold CooldownRespected
  rw [executions_append, pairwise_append]
  refine ⟨hinv.respected, hne.imp fun hne heq => absurd heq hne, ?_⟩
  intro e he f hf hidx hact r hr hpos
  obtain ⟨s, hs, hok⟩ := hmore f hf
  rw [← hidx] at hs
  rw [Option.mem_def, hinv.loaded _ s hs] at hr
  cases hr
  obtain ⟨t, ht, hle⟩ := hinv.started e he hact s hs hpos
  have hok := hok hpos
  rw [ht] at hok
  have hrested := Rule.cooldownOk_some hpos hok
  rintro ⟨-, hlt⟩
  omega

theorem executeAll_cooldownInv (hnow : st.clock ≤ now)
    (hclock : now ≤ clock) (hrule : ∀ s o, (finish s o).1.rule = s.rule)
    (hdue : ∀ (i : Nat) (s : ScheduledRule), st.rules[i]? = some s → due s = true →
      0 < s.rule.cooldownMs →
      s.rule.cooldownOk s.lastCooldownStart now = true ∧
        (finish s (env.outcome i)).1.lastCooldownStart =
          if (env.outcome i).acted then some now else s.lastCooldownStart)
    (seen : List Event) (hseen : executions seen = []) :
    CooldownInv rules
      { clock := clock, rules := (executeAll path now due finish env st.rules).1 }
      (events ++ (seen ++ (executeAll path now due finish env st.rules).2)) := by
  have hstep : executions (seen ++ (executeAll path now due finish env st.rules).2) =
      executions (executeAll path now due finish env st.rules).2 := by
    rw [executions_append, hseen, nil_append]
  have hkeep : ∀ s i, (if due s then (finish s (env.outcome i)).1 else s).rule = s.rule := by
    intro s i
    split
    · exact hrule s _
    · rfl
  have hpast : ∀ e, e ∈ executions events ∨
      e ∈ executions (executeAll path now due finish env st.rules).2 → e.start ≤ now := by
    rintro e (he | he)
    · exact (hinv.past e he).trans hnow
    obtain ⟨-, -, -, hstart, -⟩ := mem_executions_executeAll he
    omega
  refine ⟨?_, ?_, ?_, ?_⟩
  · intro i s' h
    change (executeAll path now due finish env st.rules).1[i]? = some s' at h
    obtain ⟨s, hs, rfl⟩ := of_executeAll_getElem h
    rw [hkeep]
    exact hinv.loaded i s hs
  · intro e he
    rw [executions_append, hstep, mem_append] at he
    exact (hpast e he).trans hclock
  · intro e he hact s' hs' hpos
    change (executeAll path now due finish env st.rules).1[e.idx]? = some s' at hs'
    obtain ⟨s, hs, rfl⟩ := of_executeAll_getElem hs'
    rw [hkeep] at hpos
    rw [executions_append, hstep, mem_append] at he
    by_cases hd : due s = true
    · rw [if_pos hd, (hdue _ s hs hd hpos).2]
      by_cases hacts : (env.outcome e.idx).acted = true
      · exact ⟨now, if_pos hacts, hpast e he⟩
      rw [if_neg hacts]
      rcases he with he | he
      · exact hinv.started e he hact s hs hpos
      obtain ⟨-, -, -, -, hacted⟩ := mem_executions_executeAll he
      exact absurd (hacted.symm.trans hact) hacts
    -- the rule was not due, so the execution is an earlier one
    rw [if_neg hd]
    rcases he with he | he
    · exact hinv.started e he hact s hs hpos
    obtain ⟨s₂, hs₂, hd₂, -⟩ := mem_executions_executeAll he
    cases hs.symm.trans hs₂
    exact absurd hd₂ hd
  · refine hinv.respected_append (hstep ▸ executions_executeAll_ne) fun f hf => ?_
    obtain ⟨s, hs, hd, hstart, -⟩ := mem_executions_executeAll (hstep ▸ hf)
    exact ⟨s, hs, fun hpos => hstart ▸ (hdue _ s hs hd hpos).1⟩

theorem CooldownInv.wait (h : st.clock ≤ clock) :
    CooldownInv rules { st with clock := clock } events :=
  ⟨hinv.loaded, fun e he => (hinv.past e he).trans h, hinv.started, hinv.respected⟩

theorem step_cooldownInv {index : SubIndex} (x : Input) (hx : WatchSparesCooldown index st x) :
    CooldownInv rules (step index st x).1 (events ++ (step index st x).2) := by
  cases x with
  | tick env source =>
    refine executeAll_cooldownInv hinv (Nat.le_add_right _ _) (Nat.le_add_right _ _)
      (fun s o => (finishTick_spec _ _ _ s o).1) (fun i s _ hd _ => ⟨?_, ?_⟩) _
      (executions_snapshotReads _ source)
    · simp only [dueOnTick, Bool.and_eq_true] at hd
      exact hd.2
    · exact (finishTick_spec _ _ _ s _).2.2.1
  | watch env ev =>
    cases hwe : dispatch index ev with
    | none =>
      rw [step_watch_none hwe, append_nil]
      exact hinv.wait (Nat.le_add_right _ _)
    | some we =>
      rw [step_watch_some hwe]
      refine executeAll_cooldownInv hinv (Nat.le_add_right _ _) (Nat.le_add_right _ _)
        (fun s o => (finishWatch_spec _ _ _ s o).1) (fun i s hs hd hpos => ?_)
        [.watchEvent ev.source ev.value] rfl
      have hlt := (List.getElem?_eq_some_iff.mp hs).1
      obtain ⟨hok, hact⟩ := hx we hwe i hlt s hs hpos hd
      exact ⟨hok, by rw [hact]; exact (finishWatch_spec _ _ _ s _).2.2.1⟩

end Step

theorem init_cooldownInv (rules : List Rule) : CooldownInv rules (init rules) [] where
  loaded := by
    intro i s h
    simp only [init, loadRules, List.getElem?_map, Option.map_eq_some_iff] at h
    obtain ⟨r, hr, rfl⟩ := h
    exact hr
  past := by simp [executions]
  started := by simp [executions]
  respected := .nil

/-- **The cooldown holds over both paths**, in every run whose events start no execution of a rule
inside its cooldown and no acting execution of a rule with a cooldown. -/
theorem cooldown_respected (routing : RoutingCache) (rules : List Rule) (inputs : List Input)
    (h : (machine routing rules).Along
      (WatchSparesCooldown (rebuildFromRules routing (loadRules rules))) (init rules) inputs) :
    CooldownRespected rules ((machine routing rules).trace (init rules) inputs) :=
  ((machine routing rules).invariant (CooldownInv rules)
    (fun _ _ x hinv hx => step_cooldownInv hinv x hx) (init_cooldownInv rules) h).respected

/-! ## A rule on one telemetry point -/

def feederVoltage : PointRef := ⟨5, .measurement, 10⟩

def feederRouting : RoutingCache := ⟨[(⟨1001, .telemetry, 0⟩, ⟨5, 10⟩)], by decide⟩

def sheddingRule : Rule := ⟨1, "shed load", true, 5000, some (.onChange [feederVoltage] none none)⟩

/-- It sheds load. -/
def shed (v : Float) : Outcome := .ok ⟨true, [⟨7, 1, true⟩], none, [(feederVoltage, v)]⟩

/-- It does not act. -/
def quiet (v : Float) : Outcome := .ok ⟨true, [], none, [(feederVoltage, v)]⟩

def feederTick (wait : Nat) (o : Outcome) (v : Float) : Input :=
  .tick ⟨wait, 0, fun _ => o, .inOrder⟩ (.shm fun _ _ _ => some v)

def feederWatch (wait : Nat) (o : Outcome) (v : Float) : Input :=
  .watch ⟨wait, 0, fun _ => o, .inOrder⟩ ⟨1001, 0, .telemetry, v, v, 0, 0, 1⟩

/-- The tick at one second finds the rule resting; the event at six seconds does not act. -/
theorem cooldown_respected_feeder :
    CooldownRespected [sheddingRule] ((machine feederRouting [sheddingRule]).trace
      (init [sheddingRule])
      [feederTick 0 (shed 220) 220, feederTick (10 ^ 9) (shed 221) 221,
        feederWatch (5 * 10 ^ 9) (quiet 222) 222, feederTick (10 ^ 9) (shed 223) 223]) :=
  cooldown_respected feederRouting [sheddingRule] _ (by decide)

/-- **The event path ignores the cooldown**: one second after a tick executed the rule with an
action, an event executes it again. -/
theorem cooldown_violated_by_watch :
    ¬ CooldownRespected [sheddingRule] ((machine feederRouting [sheddingRule]).trace
      (init [sheddingRule])
      [feederTick 0 (shed 220) 220, feederWatch (10 ^ 9) (shed 221) 221]) := by
  decide

end VoltageEMS.Rules
