import VoltageEMS.Rules.Cooldown

/-!
# Reloading rules between and during ticks

`reload_rules` runs in an HTTP handler, next to the scheduler loop.  A tick takes the lock on the
rules three times (subscriptions, due rules, updates), and a reload may come between any two of them;
its write replaces every `ScheduledRule` by one with fresh runtime state.
-/

namespace VoltageEMS.Rules

open Lib List Option

/-! ## Steps -/

/-- What `load_enabled_rules` returns; `id` is the primary key. -/
structure RuleTable where
  rules : List Rule
  nodup : (rules.map Rule.id).Nodup

/-- A rule found due. -/
structure DueRule where
  idx : Nat
  ruleId : Int
  isOnchange : Bool
deriving DecidableEq

/-- Where a tick is. -/
inductive TickPhase
  | idle
  | sampled (now : Nat) (snapshot : Snapshot)
  | executing (now : Nat) (snapshot : Snapshot) (due : List DueRule)

/-- The scheduler with the tick under way. -/
structure Hot where
  clock : Nat
  rules : List ScheduledRule
  phase : TickPhase

/-- The parts of a tick, and what is between. -/
inductive HotInput
  | wait (d : Nat)
  /-- a tick starts: subscriptions and snapshot -/
  | sample (source : SnapshotSource)
  | filter
  /-- the executions are done and the tick updates the rules -/
  | finish (outcome : Nat → Outcome) (completion : Completion)
  /-- `reload_rules`; nothing happens when the database fails -/
  | reload (loaded : Option RuleTable)

/-- What is observed. -/
inductive HotEvent
  | executed (ruleId : Int) (cooldownMs start : Nat)
  /-- `last_cooldown_start` was set -/
  | cooldownStarted (ruleId : Int) (t : Nat)
  | reloaded
deriving DecidableEq

variable (snapshot : Snapshot) (now : Nat)

/-- The rules found due. -/
def dueRules (rules : List ScheduledRule) : List DueRule :=
  rules.zipIdx.filterMap fun e =>
    if dueOnTick snapshot now e.1 then some ⟨e.2, e.1.rule.id, e.1.trigger.isOnChange⟩ else none

/-- The update of one rule; the OnChange state advances only if it was an OnChange rule when found
due. -/
def finishUpdate (clock : Nat) (isOnchange : Bool) (s : ScheduledRule) (o : Outcome) :
    ScheduledRule :=
  let s' := (finishTick snapshot now clock s o).1
  if isOnchange then s' else { s' with onchangeState := s.onchangeState }

/-- The loop body of phase 3: the position must still hold the rule. -/
def applyUpdate (clock : Nat) (outcome : Nat → Outcome) (acc : List ScheduledRule × List HotEvent)
    (u : DueRule) : List ScheduledRule × List HotEvent :=
  match acc.1[u.idx]? with
  | none => acc
  | some s =>
    if s.rule.id ≠ u.ruleId then acc
    else (acc.1.set u.idx (finishUpdate snapshot now clock u.isOnchange s (outcome u.idx)),
      acc.2 ++ if (outcome u.idx).acted then [.cooldownStarted u.ruleId now] else [])

/-- The updates as they come. -/
def updates (completion : Completion) (due : List DueRule) : List DueRule :=
  (completion.order (due.map DueRule.idx)).filterMap fun i => due.find? fun u => u.idx == i

namespace Hot

/-- One part. -/
def step (st : Hot) : HotInput → Hot × List HotEvent
  | .wait d => ({ st with clock := st.clock + d }, [])
  | .sample source =>
    match st.phase with
    | .idle =>
      let snapshot := fetchPointSnapshot source (subscriptions st.rules)
      ({ st with phase := .sampled st.clock snapshot }, [])
    | .sampled .. | .executing .. => (st, [])
  | .filter =>
    match st.phase with
    | .sampled now snapshot =>
      let due := dueRules snapshot now st.rules
      ({ st with phase := if due.isEmpty then .idle else .executing now snapshot due },
        (st.rules.filter (dueOnTick snapshot now)).map fun s =>
          .executed s.rule.id s.rule.cooldownMs now)
    | .idle | .executing .. => (st, [])
  | .finish outcome completion =>
    match st.phase with
    | .executing now snapshot due =>
      let r := (updates completion due).foldl (applyUpdate snapshot now st.clock outcome)
        (st.rules, [])
      ({ st with rules := r.1, phase := .idle }, r.2)
    | .idle | .sampled .. => (st, [])
  | .reload none => (st, [])
  | .reload (some table) => ({ st with rules := loadRules table.rules }, [.reloaded])

/-- The scheduler as a machine. -/
def machine : Machine Hot HotInput HotEvent := ⟨step⟩

/-- No tick is under way. -/
def init (table : RuleTable) : Hot := ⟨0, loadRules table.rules, .idle⟩

end Hot

/-! ## A tick without a reload inside -/

section Uninterrupted

variable {rules : List ScheduledRule} {snapshot : Snapshot} {now clock : Nat}

theorem mem_dueRules {u : DueRule} (h : u ∈ dueRules snapshot now rules) :
    ∃ s, rules[u.idx]? = some s ∧ dueOnTick snapshot now s = true ∧ u.ruleId = s.rule.id ∧
      u.isOnchange = s.trigger.isOnChange := by
  obtain ⟨⟨s, i⟩, hmem, hu⟩ := mem_filterMap.mp h
  split at hu
  · rename_i hdue
    cases hu
    exact ⟨s, mem_zipIdx_iff_getElem?.mp hmem, hdue, rfl, rfl⟩
  · cases hu

variable {s : ScheduledRule}

theorem dueRules_of_due {i : Nat} (hs : rules[i]? = some s) (hdue : dueOnTick snapshot now s = true) :
    i ∈ (dueRules snapshot now rules).map DueRule.idx :=
  List.mem_map.mpr ⟨⟨i, s.rule.id, s.trigger.isOnChange⟩, mem_filterMap.mpr
    ⟨(s, i), mem_zipIdx_iff_getElem?.mpr hs, by simp [hdue]⟩, rfl⟩

theorem nodup_dueRules : ((dueRules snapshot now rules).map DueRule.idx).Nodup := by
  have hpos : rules.zipIdx.Pairwise fun a b => a.2 ≠ b.2 := by
    refine pairwise_map.mp ?_
    rw [zipIdx_map_snd]
    exact nodup_range'
  refine pairwise_map.mpr (List.pairwise_filterMap.mpr (hpos.imp fun hne u hu v hv => ?_))
  split at hu <;> split at hv <;> cases hu <;> cases hv
  exact hne

theorem map_idx_updates (completion : Completion) (due : List DueRule) :
    (updates completion due).map DueRule.idx = completion.order (due.map DueRule.idx) := by
  have hfind : ∀ i ∈ completion.order (due.map DueRule.idx),
      (due.find? fun u => u.idx == i).map DueRule.idx = some i := by
    intro i hi
    obtain ⟨u, hu, rfl⟩ := List.mem_map.mp ((completion.perm _).mem_iff.mp hi)
    cases hf : due.find? fun v => v.idx == u.idx with
    | none => simpa using find?_eq_none.mp hf u hu
    | some v => simpa using find?_some hf
  unfold updates
  rw [map_filterMap, filterMap_congr hfind, filterMap_some]

theorem finishUpdate_eq {o : Outcome} {isOnchange : Bool} (h : isOnchange = s.trigger.isOnChange) :
    finishUpdate snapshot now clock isOnchange s o = (finishTick snapshot now clock s o).1 := by
  obtain ⟨-, -, -, hstate⟩ := finishTick_spec snapshot now clock s o
  unfold finishUpdate
  cases isOnchange with
  | true => rfl
  | false =>
    rw [← h] at hstate
    simp only [Bool.false_eq_true, if_false] at hstate ⊢
    rw [← hstate]

theorem foldl_applyUpdate {outcome : Nat → Outcome} (j : Nat) :
    ∀ (us : List DueRule) {rules : List ScheduledRule} {events : List HotEvent},
      (us.map DueRule.idx).Nodup →
      (∀ u ∈ us, ∃ s, rules[u.idx]? = some s ∧ u.ruleId = s.rule.id ∧
        u.isOnchange = s.trigger.isOnChange) →
      (us.foldl (applyUpdate snapshot now clock outcome) (rules, events)).1[j]? =
        if j ∈ us.map DueRule.idx then
          (rules[j]?).map fun s => (finishTick snapshot now clock s (outcome j)).1
        else rules[j]?
  | [], _, _, _, _ => by simp
  | u :: us, rules, events, hnodup, hus => by
    obtain ⟨hnotMem, hnodup⟩ := nodup_cons.mp hnodup
    obtain ⟨s, hs, hid, hkind⟩ := hus u (.head _)
    have happly : (applyUpdate snapshot now clock outcome (rules, events) u).1 =
        rules.set u.idx (finishTick snapshot now clock s (outcome u.idx)).1 := by
      unfold applyUpdate
      simp only [hs, hid, finishUpdate_eq hkind, ne_eq, not_true_eq_false, if_false]
    have hrest : ∀ v ∈ us, ∃ x,
        (rules.set u.idx (finishTick snapshot now clock s (outcome u.idx)).1)[v.idx]? = some x ∧
          v.ruleId = x.rule.id ∧ v.isOnchange = x.trigger.isOnChange := by
      intro v hv
      have hne : u.idx ≠ v.idx := fun h => hnotMem (h ▸ List.mem_map_of_mem hv)
      obtain ⟨x, hx, hrest⟩ := hus v (.tail _ hv)
      exact ⟨x, by rw [List.getElem?_set_ne hne]; exact hx, hrest⟩
    rw [← happly] at hrest
    rw [foldl_cons, foldl_applyUpdate j us hnodup hrest, happly]
    by_cases hj : j = u.idx
    · subst hj
      rw [if_neg hnotMem, if_pos (.head _), List.getElem?_set_self', hs]
      rfl
    rw [List.getElem?_set_ne (Ne.symm hj)]
    simp only [map_cons, mem_cons, hj, false_or]

theorem updates_dueRules (env : StepEnv) :
    ((updates env.completion (dueRules snapshot now rules)).foldl
        (applyUpdate snapshot now clock env.outcome) (rules, [])).1 =
      (executeAll .tick now (dueOnTick snapshot now) (finishTick snapshot now clock) env rules).1 := by
  have hidx := map_idx_updates env.completion (dueRules snapshot now rules)
  have hperm := env.completion.perm ((dueRules snapshot now rules).map DueRule.idx)
  have hus : ∀ u ∈ updates env.completion (dueRules snapshot now rules), ∃ s,
      rules[u.idx]? = some s ∧ u.ruleId = s.rule.id ∧ u.isOnchange = s.trigger.isOnChange := by
    intro u hu
    obtain ⟨i, -, hfind⟩ := mem_filterMap.mp hu
    obtain ⟨s, hs, -, hid, hkind⟩ := mem_dueRules (List.mem_of_find?_eq_some hfind)
    exact ⟨s, hs, hid, hkind⟩
  refine ext_getElem? fun j => ?_
  rw [foldl_applyUpdate j _ (hidx ▸ hperm.nodup_iff.mpr nodup_dueRules) hus, hidx]
  simp only [hperm.mem_iff, executeAll, List.getElem?_mapIdx]
  cases hs : rules[j]? with
  | none => simp
  | some s =>
    by_cases hdue : dueOnTick snapshot now s = true
    · simp [hdue, dueRules_of_due hs hdue]
    have hnot : j ∉ (dueRules snapshot now rules).map DueRule.idx := by
      intro hj
      obtain ⟨u, hu, rfl⟩ := List.mem_map.mp hj
      obtain ⟨s', hs', hdue', -⟩ := mem_dueRules hu
      rw [hs] at hs'
      exact hdue (some.inj hs' ▸ hdue')
    rw [if_neg hnot, map_some, if_neg hdue]

end Uninterrupted

/-- **A tick without a reload inside is an atomic tick.** -/
theorem tick_uninterrupted (clock : Nat) (rules : List ScheduledRule) (env : StepEnv)
    (source : SnapshotSource) :
    Hot.machine.run ⟨clock, rules, .idle⟩ [.wait env.wait, .sample source, .filter, .wait env.busy,
        .finish env.outcome env.completion] =
      ⟨(tick env source ⟨clock, rules⟩).1.clock, (tick env source ⟨clock, rules⟩).1.rules,
        .idle⟩ := by
  simp only [tick, ← updates_dueRules, Machine.run_cons, Machine.run_nil, Hot.machine, Hot.step]
  cases hdue : dueRules (fetchPointSnapshot source (subscriptions rules)) (clock + env.wait) rules with
  | nil =>
    have hnone : updates env.completion [] = [] := by simp [updates]
    simp [hnone]
  | cons u us => simp

/-! ## The property -/

variable (log : List HotEvent) (id : Int)

/-- The cooldowns recorded. -/
def starts : List (Int × Nat) :=
  log.filterMap fun
    | .cooldownStarted id t => some (id, t)
    | .executed .. | .reloaded => none

/-- Those since the last reload. -/
def startsSinceReload : List (Int × Nat) :=
  starts (log.reverse.takeWhile (· ≠ .reloaded))

/-- An execution does not fall into one of the cooldowns. -/
def OutsideCooldowns (cooldowns : List HotEvent → List (Int × Nat)) (log : List HotEvent)
    (e : HotEvent) : Prop :=
  ∀ id cooldownMs start, e = .executed id cooldownMs start → 0 < cooldownMs →
    ∀ t, (id, t) ∈ cooldowns log → ¬ (t ≤ start ∧ start < t + cooldownMs * 10 ^ 6)

@[simp] theorem startsSinceReload_executed (ms start : Nat) :
    startsSinceReload (log ++ [.executed id ms start]) = startsSinceReload log := by
  simp [startsSinceReload, starts]

@[simp] theorem startsSinceReload_started (t : Nat) :
    startsSinceReload (log ++ [.cooldownStarted id t]) = (id, t) :: startsSinceReload log := by
  simp [startsSinceReload, starts]

@[simp] theorem startsSinceReload_reloaded : startsSinceReload (log ++ [.reloaded]) = [] := by
  simp [startsSinceReload, starts]

/-! ## The invariant -/

/-- Every cooldown recorded since the last reload is remembered by its rule, and no execution fell
into one; `now` is the instant of the tick. -/
structure Resting (rules : List ScheduledRule) (now : Nat) (log : List HotEvent) : Prop where
  ids : (rules.map fun s => s.rule.id).Nodup
  past : ∀ e ∈ startsSinceReload log, e.2 ≤ now
  remembered : ∀ e ∈ startsSinceReload log, ∀ s ∈ rules, s.rule.id = e.1 →
    ∃ t, s.lastCooldownStart = some t ∧ e.2 ≤ t
  outside : EachAt (OutsideCooldowns startsSinceReload) log

section Steps

variable {rules : List ScheduledRule} {now clock : Nat} {log : List HotEvent} {snapshot : Snapshot}

theorem Resting.mono {now' : Nat} (h : Resting rules now log) (hle : now ≤ now') :
    Resting rules now' log :=
  ⟨h.ids, fun e he => (h.past e he).trans hle, h.remembered, h.outside⟩

variable {i : Nat} {outcome : Nat → Outcome} {s s' : ScheduledRule}

theorem Resting.executed (h : Resting rules now log) (hs : s ∈ rules)
    (hdue : dueOnTick snapshot now s = true) :
    Resting rules now (log ++ [.executed s.rule.id s.rule.cooldownMs now]) where
  ids := h.ids
  past := by
    rw [startsSinceReload_executed]
    exact h.past
  remembered := by
    rw [startsSinceReload_executed]
    exact h.remembered
  outside := by
    refine h.outside.snoc ?_
    intro id ms start heq hpos t ht
    cases heq
    obtain ⟨t', ht', hle⟩ := h.remembered _ ht s hs rfl
    have hok : s.rule.cooldownOk s.lastCooldownStart now = true := by
      simp only [dueOnTick, Bool.and_eq_true] at hdue
      exact hdue.2
    rw [ht'] at hok
    have hover := Rule.cooldownOk_some hpos hok
    rintro ⟨-, hlt⟩
    omega

theorem Resting.filter : ∀ (due : List ScheduledRule) {log : List HotEvent},
    (∀ s ∈ due, s ∈ rules ∧ dueOnTick snapshot now s = true) → Resting rules now log →
      Resting rules now (log ++ due.map fun s => .executed s.rule.id s.rule.cooldownMs now)
  | [], _, _, h => by simpa using h
  | s :: due, log, hmem, h => by
    obtain ⟨hs, hdue⟩ := hmem s (.head _)
    rw [map_cons, append_cons]
    exact Resting.filter due (fun s hs => hmem s (.tail _ hs)) (h.executed hs hdue)

theorem finishUpdate_spec (snapshot : Snapshot) (now clock : Nat) (isOnchange : Bool)
    (s : ScheduledRule) (o : Outcome) :
    (finishUpdate snapshot now clock isOnchange s o).rule = s.rule ∧
      (finishUpdate snapshot now clock isOnchange s o).lastCooldownStart =
        if o.acted then some now else s.lastCooldownStart := by
  obtain ⟨hrule, -, hcooldown, -⟩ := finishTick_spec snapshot now clock s o
  unfold finishUpdate
  cases isOnchange <;> exact ⟨hrule, hcooldown⟩

theorem mem_set_rule (h : s ∈ rules.set i s') : s = s' ∨ ∃ j, j ≠ i ∧ rules[j]? = some s := by
  obtain ⟨j, hj⟩ := mem_iff_getElem?.mp h
  by_cases hji : j = i
  · subst hji
    rw [List.getElem?_set_self'] at hj
    obtain ⟨-, -, rfl⟩ := map_eq_some_iff.mp hj
    exact .inl rfl
  rw [List.getElem?_set_ne (Ne.symm hji)] at hj
  exact .inr ⟨j, hji, hj⟩

theorem Resting.position_eq {j : Nat} {s s' : ScheduledRule} (h : Resting rules now log)
    (hi : rules[i]? = some s) (hj : rules[j]? = some s') (hid : s.rule.id = s'.rule.id) :
    i = j := by
  have hlen : i < (rules.map fun s => s.rule.id).length := by
    rw [length_map]
    exact (List.getElem?_eq_some_iff.mp hi).1
  refine (List.getElem?_inj hlen h.ids).mp ?_
  simp only [List.getElem?_map, hi, hj, map_some, hid]

theorem Resting.set {acted : Bool} (h : Resting rules now log) (hs : rules[i]? = some s)
    (hrule : s'.rule = s.rule)
    (hcooldown : s'.lastCooldownStart = if acted then some now else s.lastCooldownStart) :
    Resting (rules.set i s') now
      (log ++ if acted then [.cooldownStarted s.rule.id now] else []) := by
  have hids : (rules.set i s').map (fun s => s.rule.id) = rules.map fun s => s.rule.id := by
    refine ext_getElem? fun j => ?_
    by_cases hj : i = j
    · subst hj
      rw [List.getElem?_map, List.getElem?_map, List.getElem?_set_self', hs]
      simp [hrule]
    · rw [List.getElem?_map, List.getElem?_map, List.getElem?_set_ne hj]
  have hold : ∀ e ∈ startsSinceReload log, ∀ x ∈ rules.set i s', x.rule.id = e.1 →
      ∃ t, x.lastCooldownStart = some t ∧ e.2 ≤ t := by
    intro e he x hx hid
    rcases mem_set_rule hx with rfl | ⟨j, -, hj⟩
    · rw [hcooldown]
      split
      · exact ⟨now, rfl, h.past e he⟩
      · exact h.remembered e he s (mem_of_getElem? hs) (hrule ▸ hid)
    · exact h.remembered e he x (mem_of_getElem? hj) hid
  cases acted with
  | false =>
    simp only [Bool.false_eq_true, if_false, append_nil]
    exact ⟨hids ▸ h.ids, h.past, hold, h.outside⟩
  | true =>
    simp only [if_true] at hcooldown ⊢
    refine ⟨hids ▸ h.ids, ?_, ?_, h.outside.snoc (fun id ms start heq => by cases heq)⟩
    · rw [startsSinceReload_started]
      exact forall_mem_cons.mpr ⟨le_rfl, h.past⟩
    rw [startsSinceReload_started]
    refine forall_mem_cons.mpr ⟨fun x hx hid => ?_, hold⟩
    rcases mem_set_rule hx with rfl | ⟨j, hji, hj⟩
    · exact ⟨now, hcooldown, le_rfl⟩
    · exact absurd (h.position_eq hj hs hid) hji

theorem Resting.update {events : List HotEvent} {u : DueRule}
    (h : Resting rules now (log ++ events)) :
    Resting (applyUpdate snapshot now clock outcome (rules, events) u).1 now
      (log ++ (applyUpdate snapshot now clock outcome (rules, events) u).2) := by
  unfold applyUpdate
  cases hs : rules[u.idx]? with
  | none => exact h
  | some s =>
    dsimp only
    split
    case isTrue => exact h
    case isFalse hid =>
      obtain ⟨hrule, hcooldown⟩ := finishUpdate_spec snapshot now clock u.isOnchange s (outcome u.idx)
      rw [← Classical.not_not.mp hid, ← append_assoc]
      exact h.set hs hrule hcooldown

theorem Resting.updates :
    ∀ (us : List DueRule) {rules : List ScheduledRule} {events : List HotEvent},
      Resting rules now (log ++ events) →
      Resting (us.foldl (applyUpdate snapshot now clock outcome) (rules, events)).1 now
        (log ++ (us.foldl (applyUpdate snapshot now clock outcome) (rules, events)).2)
  | [], _, _, h => h
  | u :: us, _, _, h => Resting.updates us (h.update (u := u))

theorem Resting.reload (h : Resting rules now log) (table : RuleTable) :
    Resting (loadRules table.rules) now (log ++ [.reloaded]) where
  ids := by
    have hids : (loadRules table.rules).map (fun s => s.rule.id) = table.rules.map Rule.id := by
      simp [loadRules]
    exact hids ▸ table.nodup
  past := by simp
  remembered := by simp
  outside := h.outside.snoc fun id ms start heq => by cases heq

end Steps

/-- The instant of the tick. -/
def Hot.instant (st : Hot) : Nat :=
  match st.phase with
  | .idle => st.clock
  | .sampled now _ | .executing now _ _ => now

theorem resting_step {st : Hot} {log : List HotEvent} (h : Resting st.rules st.instant log)
    (hle : st.instant ≤ st.clock) (x : HotInput) :
    Resting (st.step x).1.rules (st.step x).1.instant (log ++ (st.step x).2) ∧
      (st.step x).1.instant ≤ (st.step x).1.clock := by
  have hstay : Resting st.rules st.instant (log ++ []) ∧ st.instant ≤ st.clock :=
    ⟨by simpa using h, hle⟩
  obtain ⟨clock, rules, phase⟩ := st
  cases x with
  | wait d =>
    cases phase with
    | idle =>
      exact ⟨(append_nil log).symm ▸ h.mono (Nat.le_add_right clock d), le_rfl⟩
    | sampled | executing => exact ⟨hstay.1, hle.trans (Nat.le_add_right _ _)⟩
  | sample source =>
    cases phase with
    | idle => exact ⟨hstay.1, le_rfl⟩
    | sampled | executing => exact hstay
  | filter =>
    cases phase with
    | idle | executing => exact hstay
    | sampled now snapshot =>
      have hfilter := Resting.filter (rules.filter (dueOnTick snapshot now))
        (fun s hs => mem_filter.mp hs) h
      simp only [Hot.step]
      split
      · exact ⟨hfilter.mono hle, le_rfl⟩
      · exact ⟨hfilter, hle⟩
  | finish outcome completion =>
    cases phase with
    | idle | sampled => exact hstay
    | executing now snapshot due =>
      exact ⟨(Resting.updates _ hstay.1).mono hle, le_rfl⟩
  | reload loaded =>
    cases loaded with
    | none => exact hstay
    | some table => exact ⟨h.reload table, hle⟩

/-- **A rule rests until a reload.**  In every interleaving of ticks, reloads and waiting, no tick
executes a rule inside a cooldown of it that was recorded since the last reload. -/
theorem rests_until_reload (table : RuleTable) (inputs : List HotInput) :
    EachAt (OutsideCooldowns startsSinceReload)
      (Hot.machine.trace (Hot.init table) inputs) := by
  have hinit : Resting (Hot.init table).rules (Hot.init table).instant [] := by
    refine ⟨?_, by simp [startsSinceReload, starts], by simp [startsSinceReload, starts], .nil⟩
    have hids : (Hot.init table).rules.map (fun s => s.rule.id) = table.rules.map Rule.id := by
      simp [Hot.init, loadRules]
    exact hids ▸ table.nodup
  have hrun := Hot.machine.invariant
    (fun st log => Resting st.rules st.instant log ∧ st.instant ≤ st.clock)
    (fun st log x h _ => resting_step h.1 h.2 x) ⟨hinit, le_rfl⟩
    (Hot.machine.along_true (Hot.init table) inputs)
  exact hrun.1.outside

private def sheddingTable : RuleTable := ⟨[sheddingRule], by decide⟩

private def sheddingTick (v : Float) : List HotInput :=
  [.sample (.shm fun _ _ _ => some v), .filter, .finish (fun _ => shed v) .inOrder]

/-- One second after it shed load, with a cooldown of five, the rule is reloaded unchanged and
executes again. -/
theorem reload_forgets_cooldown :
    ¬ EachAt (OutsideCooldowns starts) (Hot.machine.trace (Hot.init sheddingTable)
      (sheddingTick 220 ++ [.wait (10 ^ 9), .reload (some sheddingTable)] ++ sheddingTick 221)) := by
  intro h
  have htrace : Hot.machine.trace (Hot.init sheddingTable)
      (sheddingTick 220 ++ [.wait (10 ^ 9), .reload (some sheddingTable)] ++ sheddingTick 221) =
        [.executed 1 5000 0, .cooldownStarted 1 0, .reloaded, .executed 1 5000 (10 ^ 9),
          .cooldownStarted 1 (10 ^ 9)] := by
    decide
  have hout := h [.executed 1 5000 0, .cooldownStarted 1 0, .reloaded] (.executed 1 5000 (10 ^ 9))
    [.cooldownStarted 1 (10 ^ 9)] htrace
  exact hout 1 5000 (10 ^ 9) rfl (by decide) 0 (by decide) (by decide)

end VoltageEMS.Rules
