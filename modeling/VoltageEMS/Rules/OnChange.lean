import VoltageEMS.Rules.Scheduler

/-!
# Provenance of the OnChange values

`last_value[p]` of an OnChange rule is the deadband's memory of the point `p`.  It should hold a
value that was sampled for `p` itself.
-/

namespace VoltageEMS.Rules

open Lib List

variable (routing : RoutingCache)

/-- The C2M route of the channel point leads to the point; C2M feeds measurement points only. -/
def RoutesTo (source : ChannelPoint) (p : PointRef) : Prop :=
  p.pointType = .measurement ∧ routing.lookupC2m source = some ⟨p.inst, p.point⟩

instance (routing : RoutingCache) (source : ChannelPoint) (p : PointRef) :
    Decidable (RoutesTo routing source p) := inferInstanceAs (Decidable (_ ∧ _))

/-- The value was sampled for the point. -/
def SampledFor (events : List Event) (p : PointRef) (v : Float) : Prop :=
  .snapshotRead p v ∈ events ∨ (∃ idx, .executorRead idx p v ∈ events) ∨
    ∃ source, .watchEvent source v ∈ events ∧ RoutesTo routing source p

variable {p : PointRef} {v : Float}

theorem SampledFor.mono {routing : RoutingCache} {events events' : List Event}
    (h : SampledFor routing events p v) (hsub : events ⊆ events') :
    SampledFor routing events' p v := by
  rcases h with h | ⟨idx, h⟩ | ⟨source, h, hr⟩
  · exact .inl (hsub h)
  · exact .inr (.inl ⟨idx, hsub h⟩)
  · exact .inr (.inr ⟨source, hsub h, hr⟩)

/-- Every stored value of a subscribed point was sampled for that point. -/
def LastValuesSampled (st : State) (events : List Event) : Prop :=
  ∀ (i : Nat) (s : ScheduledRule), st.rules[i]? = some s → ∀ p ∈ s.trigger.pointRefs, ∀ v,
    s.onchangeState.lastValue p.cacheKey = some v → SampledFor routing events p v

/-- The step, if an event, leaves `last_value` of every point its source does not feed. -/
def LeavesOtherPoints (index : SubIndex) (st : State) : Input → Prop
  | .tick .. => True
  | .watch env ev => ∀ (i : Nat) (s s' : ScheduledRule), st.rules[i]? = some s →
      (step index st (.watch env ev)).1.rules[i]? = some s' →
      ∀ p, ¬ RoutesTo routing ev.source p →
        s'.onchangeState.lastValue p.cacheKey = s.onchangeState.lastValue p.cacheKey

/-- The step, if an event, triggers only rules all of whose points its source feeds. -/
def WatchFeedsTriggered (index : SubIndex) (st : State) : Input → Prop
  | .tick .. => True
  | .watch env ev => ∀ we ∈ dispatch index ev, ∀ i < st.rules.length, ∀ s ∈ st.rules[i]?,
      dueOnWatch we (st.clock + env.wait) s = true →
        ∀ p ∈ s.trigger.pointRefs, RoutesTo routing ev.source p

instance (routing : RoutingCache) (index : SubIndex) (st : State) :
    ∀ x, Decidable (WatchFeedsTriggered routing index st x)
  | .tick .. => inferInstanceAs (Decidable True)
  | .watch .. => inferInstanceAs (Decidable (∀ we ∈ dispatch _ _, _))

/-! ## Where a stored value comes from -/

variable {value : PointRef → Option Float} {pointRefs : List PointRef}

theorem advance_lastValue {st : OnChangeState} {now : Nat}
    (h : (st.advance pointRefs value now).lastValue p.cacheKey = some v) :
    (p ∈ pointRefs ∧ value p = some v) ∨ st.lastValue p.cacheKey = some v := by
  rcases mem_of_insertAll h with h | h
  · obtain ⟨q, hq, hv⟩ := mem_filterMap.mp h
    obtain ⟨w, hw, heq⟩ := Option.map_eq_some_iff.mp hv
    rw [Prod.mk.injEq] at heq
    obtain ⟨hkey, rfl⟩ := heq
    obtain rfl := PointRef.cacheKey_injective hkey
    exact .inl ⟨hq, (Option.filter_eq_some_iff.mp hw).1⟩
  · exact .inr h

theorem advance_lastValue_of_notMem {st : OnChangeState} {now : Nat} (h : p ∉ pointRefs) :
    (st.advance pointRefs value now).lastValue p.cacheKey = st.lastValue p.cacheKey := by
  refine insertAll_of_notMem fun hmem => h ?_
  obtain ⟨⟨key, v⟩, hkv, hkey⟩ := mem_map.mp hmem
  obtain ⟨q, hq, hv⟩ := mem_filterMap.mp hkv
  obtain ⟨w, -, heq⟩ := Option.map_eq_some_iff.mp hv
  rw [Prod.mk.injEq] at heq
  obtain rfl := PointRef.cacheKey_injective (heq.1.trans hkey)
  exact hq

variable {o : Outcome}

theorem mem_of_pointValues (h : o.pointValues p.cacheKey = some v) : (p, v) ∈ o.pointReads := by
  cases o with
  | error e => cases h
  | ok r =>
    rcases mem_of_insertAll h with h | h
    · obtain ⟨⟨q, w⟩, hmem, heq⟩ := mem_map.mp h
      rw [Prod.mk.injEq] at heq
      obtain ⟨hkey, rfl⟩ := heq
      obtain rfl := PointRef.cacheKey_injective hkey
      exact hmem
    · cases h

/-! ## One step -/

section Step

variable {routing : RoutingCache} {st : State} {events : List Event} {path : Path}
  {now clock : Nat} {due : ScheduledRule → Bool}
  {finish : ScheduledRule → Outcome → ScheduledRule × Bool} {env : StepEnv}

variable {s : ScheduledRule}

theorem executorRead_mem {rules : List ScheduledRule} {i : Nat} (hs : rules[i]? = some s)
    (hd : due s = true) (h : (p, v) ∈ (env.outcome i).pointReads) :
    Event.executorRead i p v ∈ (executeAll path now due finish env rules).2 := by
  have hi : i ∈ env.completion.order (duePositions due rules) :=
    (env.completion.perm _).mem_iff.mpr (mem_duePositions.mpr ⟨s, hs, hd⟩)
  refine mem_flatMap.mpr ⟨i, hi, ?_⟩
  rw [hs]
  simp only [executionEvents, mem_append, mem_map]
  exact .inl (.inl (.inl ⟨(p, v), h, rfl⟩))

theorem executeAll_sampled (hinv : LastValuesSampled routing st events)
    (htrigger : ∀ s o, (finish s o).1.trigger = s.trigger) (seen : List Event)
    (hval : ∀ (i : Nat) (s : ScheduledRule), st.rules[i]? = some s → due s = true →
      ∀ p ∈ s.trigger.pointRefs, ∀ v,
        (finish s (env.outcome i)).1.onchangeState.lastValue p.cacheKey = some v →
          SampledFor routing (seen ++ (executeAll path now due finish env st.rules).2) p v ∨
            s.onchangeState.lastValue p.cacheKey = some v) :
    LastValuesSampled routing
      { clock := clock, rules := (executeAll path now due finish env st.rules).1 }
      (events ++ (seen ++ (executeAll path now due finish env st.rules).2)) := by
  intro i s' hs' p hp v hv
  change (executeAll path now due finish env st.rules).1[i]? = some s' at hs'
  obtain ⟨s, hs, rfl⟩ := of_executeAll_getElem hs'
  have hold : s.onchangeState.lastValue p.cacheKey = some v → p ∈ s.trigger.pointRefs →
      SampledFor routing (events ++ (seen ++ (executeAll path now due finish env st.rules).2)) p v :=
    fun h hp => (hinv i s hs p hp v h).mono (subset_append_left _ _)
  by_cases hd : due s = true
  · simp only [if_pos hd] at hp hv
    rw [htrigger] at hp
    rcases hval i s hs hd p hp v hv with h | h
    · exact h.mono (subset_append_right _ _)
    · exact hold h hp
  simp only [if_neg hd] at hp hv
  exact hold hv hp

theorem finishTick_lastValue {source : SnapshotSource} {subs : List PointRef}
    (h : (finishTick (fetchPointSnapshot source subs) now clock s o).1.onchangeState.lastValue
      p.cacheKey = some v) :
    (p, v) ∈ o.pointReads ∨ (p ∈ subs ∧ source.read p = some v) ∨
      s.onchangeState.lastValue p.cacheKey = some v := by
  rw [(finishTick_spec _ _ _ s o).2.2.2] at h
  split at h
  · rcases advance_lastValue h with ⟨-, hv⟩ | h
    · rcases Option.or_eq_some_iff.mp hv with hv | ⟨-, hv⟩
      · exact .inl (mem_of_pointValues hv)
      · exact .inr (.inl (fetchPointSnapshot_eq_some.mp (Option.join_eq_some_iff.mp hv)))
    · exact .inr (.inr h)
  · exact .inr (.inr h)

theorem finishWatch_lastValue {value : Float}
    (h : (finishWatch value now clock s o).1.onchangeState.lastValue p.cacheKey = some v) :
    (p ∈ s.trigger.pointRefs ∧ v = value) ∨ s.onchangeState.lastValue p.cacheKey = some v := by
  rw [(finishWatch_spec _ _ _ s o).2.2.2] at h
  split at h
  · rcases advance_lastValue h with ⟨hp, hv⟩ | h
    · cases hv
      exact .inl ⟨hp, rfl⟩
    · exact .inr h
  · exact .inr h

theorem finishWatch_lastValue_of_notMem {value : Float} (hp : p ∉ s.trigger.pointRefs) :
    (finishWatch value now clock s o).1.onchangeState.lastValue p.cacheKey =
      s.onchangeState.lastValue p.cacheKey := by
  rw [(finishWatch_spec _ _ _ s o).2.2.2]
  split
  · exact advance_lastValue_of_notMem hp
  · rfl

variable {index : SubIndex}

theorem dispatch_value {ev : PointWatchEvent} {we : WatchEvent} (h : dispatch index ev = some we) :
    we.value = ev.value := by
  unfold dispatch at h
  split at h
  · cases h
  cases h
  rfl

theorem step_sampled (hinv : LastValuesSampled routing st events) (x : Input)
    (hx : WatchFeedsTriggered routing index st x) :
    LastValuesSampled routing (step index st x).1 (events ++ (step index st x).2) := by
  cases x with
  | tick env source =>
    refine executeAll_sampled hinv (fun s o => (finishTick_spec _ _ _ s o).2.1) _
      (fun i s hs hd p hp v hv => ?_)
    rcases finishTick_lastValue hv with h | ⟨hsub, hread⟩ | h
    · exact .inl (.inr (.inl ⟨i, mem_append_right _ (executorRead_mem hs hd h)⟩))
    · refine .inl (.inl (mem_append_left _ (mem_filterMap.mpr ⟨p, hsub, ?_⟩)))
      rw [hread]
      rfl
    · exact .inr h
  | watch env ev =>
    cases hwe : dispatch index ev with
    | none =>
      rw [step_watch_none hwe, append_nil]
      exact hinv
    | some we =>
      rw [step_watch_some hwe]
      refine executeAll_sampled hinv (fun s o => (finishWatch_spec _ _ _ s o).2.1)
        [.watchEvent ev.source ev.value] (fun i s hs hd p hp v hv => ?_)
      rcases finishWatch_lastValue hv with ⟨-, rfl⟩ | h
      · have hroute := hx we hwe i (List.getElem?_eq_some_iff.mp hs).1 s hs hd p hp
        rw [dispatch_value hwe]
        exact .inl (.inr (.inr ⟨ev.source, .head _, hroute⟩))
      · exact .inr h

theorem step_leavesOthers (x : Input) (hx : WatchFeedsTriggered routing index st x) :
    LeavesOtherPoints routing index st x := by
  cases x with
  | tick env source => trivial
  | watch env ev =>
    intro i s s' hs hs' p hp
    cases hwe : dispatch index ev with
    | none =>
      rw [step_watch_none hwe, hs] at hs'
      cases hs'
      rfl
    | some we =>
      rw [step_watch_some hwe] at hs'
      simp only [executeWatchTriggered] at hs'
      rw [executeAll_getElem hs, Option.some.injEq] at hs'
      subst hs'
      split
      · rename_i hd
        refine finishWatch_lastValue_of_notMem fun hmem => hp ?_
        exact hx we hwe i (List.getElem?_eq_some_iff.mp hs).1 s hs hd p hmem
      · rfl

end Step

/-! ## Whole runs -/

/-- **Provenance of `last_value`** in every run whose events trigger only rules all of whose points
they feed: stored values were sampled for their own point, and an event changes no other. -/
theorem lastValue_sampled (routing : RoutingCache) (rules : List Rule) (inputs : List Input)
    (h : (machine routing rules).Along
      (WatchFeedsTriggered routing (rebuildFromRules routing (loadRules rules))) (init rules)
      inputs) :
    LastValuesSampled routing ((machine routing rules).run (init rules) inputs)
        ((machine routing rules).trace (init rules) inputs) ∧
      (machine routing rules).Along
        (LeavesOtherPoints routing (rebuildFromRules routing (loadRules rules))) (init rules)
        inputs := by
  have hinit : LastValuesSampled routing (init rules) [] := by
    intro i s hs p _ v hv
    simp only [init, loadRules, List.getElem?_map, Option.map_eq_some_iff] at hs
    obtain ⟨r, -, rfl⟩ := hs
    cases hv
  exact ⟨(machine routing rules).invariant (LastValuesSampled routing)
      (fun _ _ x hinv hx => step_sampled hinv x hx) hinit h,
    (machine routing rules).along_mono (fun _ x hx => step_leavesOthers x hx) h⟩

/-! ## A rule on two telemetry points -/

def busVoltage : PointRef := ⟨5, .measurement, 10⟩

def busCurrent : PointRef := ⟨5, .measurement, 11⟩

def busRouting : RoutingCache :=
  ⟨[(⟨1001, .telemetry, 0⟩, ⟨5, 10⟩), (⟨1001, .telemetry, 1⟩, ⟨5, 11⟩)], by decide⟩

def busRule : Rule := ⟨1, "bus", true, 0, some (.onChange [busVoltage, busCurrent] none none)⟩

def voltageRule : Rule := ⟨2, "voltage", true, 0, some (.onChange [busVoltage] none none)⟩

/-- Nothing is done. -/
def idle : Nat → Outcome := fun _ => .ok ⟨true, [], none, []⟩

def voltageEvent (v : Float) : Input :=
  .watch ⟨10 ^ 9, 0, idle, .inOrder⟩ ⟨1001, 0, .telemetry, v, v, 0, 0, 1⟩

/-- A tick samples 219 and an event carries 220 for the one point of the rule. -/
theorem lastValue_sampled_voltage :
    let inputs := [.tick ⟨0, 0, idle, .inOrder⟩ (.shm fun _ _ _ => some 219), voltageEvent 220]
    LastValuesSampled busRouting ((machine busRouting [voltageRule]).run (init [voltageRule]) inputs)
        ((machine busRouting [voltageRule]).trace (init [voltageRule]) inputs) ∧
      (machine busRouting [voltageRule]).Along
        (LeavesOtherPoints busRouting (rebuildFromRules busRouting (loadRules [voltageRule])))
        (init [voltageRule]) inputs :=
  lastValue_sampled busRouting [voltageRule] _ (by decide)

/-- **A foreign value**: the first event of the run, for the voltage, also becomes the last value of
the current, for which nothing was ever sampled. -/
theorem lastValue_foreign :
    ¬ LastValuesSampled busRouting ((machine busRouting [busRule]).run (init [busRule])
        [voltageEvent 220])
      ((machine busRouting [busRule]).trace (init [busRule]) [voltageEvent 220]) := by
  have htrace : (machine busRouting [busRule]).trace (init [busRule]) [voltageEvent 220] =
      [.watchEvent ⟨1001, .telemetry, 0⟩ 220, .executed ⟨0, .watch, 10 ^ 9, false⟩,
        .execToRedis 1] := by decide
  intro h
  have hs := h 0 _ rfl busCurrent (by decide) 220 (by decide)
  rw [htrace] at hs
  rcases hs with hs | ⟨idx, hs⟩ | ⟨source, hs, hr⟩
  · simp at hs
  · simp at hs
  simp only [mem_cons, Event.watchEvent.injEq, reduceCtorEq, not_mem_nil, or_self,
    or_false] at hs
  rw [hs.1] at hr
  exact absurd hr (by decide)

end VoltageEMS.Rules
