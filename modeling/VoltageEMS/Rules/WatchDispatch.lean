import VoltageEMS.Rules.Scheduler

/-!
# Which rules a PointWatch event reaches

The event channel of `PointWatchDispatcher` (`point_watch_dispatcher.rs`) over the subscription index
of `rebuild_from_rules`.
-/

namespace VoltageEMS.Rules

open Lib List

/-- A C2M route leads from a telemetry or signal point with the ids `key` to the referenced point.
-/
def Feeds (routing : RoutingCache) (key : Nat × Nat) (p : PointRef) : Prop :=
  ∃ t : PointType, t.isMeasurement = true ∧
    routing.lookupC2m ⟨key.1, t, key.2⟩ = some ⟨p.inst, p.point⟩

/-- The rule is enabled and triggered by changes of the point. -/
def Watches (s : ScheduledRule) (p : PointRef) : Prop :=
  s.rule.enabled = true ∧ p ∈ s.trigger.pointRefs

theorem mem_rebuildFromRules {routing : RoutingCache} {rules : List ScheduledRule} {key : Nat × Nat}
    {ruleId : Int} : ruleId ∈ rebuildFromRules routing rules key ↔
      ∃ s ∈ rules, s.rule.id = ruleId ∧ ∃ p, Watches s p ∧ Feeds routing key p := by
  unfold rebuildFromRules Watches Feeds
  simp only [mem_flatMap, mem_map, mem_filter, Bool.and_eq_true, beq_iff_eq,
    RoutingCache.lookupC2m_eq_some_iff]
  constructor
  · rintro ⟨s, ⟨hs, henabled⟩, p, hp, ⟨source, target⟩, ⟨hroute, ⟨rfl, htype⟩, rfl⟩, rfl⟩
    exact ⟨s, hs, rfl, p, ⟨henabled, hp⟩, source.pointType, htype, hroute⟩
  rintro ⟨s, hs, rfl, p, ⟨henabled, hp⟩, t, htype, hroute⟩
  exact ⟨s, ⟨hs, henabled⟩, p, hp, _, ⟨hroute, ⟨rfl, htype⟩, rfl⟩, rfl⟩

/-! ## The event channel -/

/-- `EVENT_CHANNEL_CAPACITY`. -/
def eventChannelCapacity : Nat := 1024

/-- The events the scheduler has not taken yet, and the number of those dropped. -/
structure EventChannel where
  queue : List WatchEvent := []
  droppedCount : Nat := 0

/-- `dispatch`, with `try_send` on the channel. -/
def dispatchTo (index : SubIndex) (ch : EventChannel) (ev : PointWatchEvent) : EventChannel :=
  match dispatch index ev with
  | none => ch
  | some we =>
    if ch.queue.length < eventChannelCapacity then { ch with queue := ch.queue ++ [we] }
    else { ch with droppedCount := (ch.droppedCount + 1) % 2 ^ 64 }

/-- The event is forwarded to the rule. -/
def ForwardedTo (index : SubIndex) (ch : EventChannel) (ev : PointWatchEvent) (ruleId : Int) : Prop :=
  ∃ we, (dispatchTo index ch ev).queue = ch.queue ++ [we] ∧ ruleId ∈ we.ruleIds

variable {ev : PointWatchEvent} {index : SubIndex}

theorem dispatch_eq_none (h : index (ev.channelId, ev.pointId) = []) :
    dispatch index ev = none := by
  rw [dispatch, h]

theorem dispatch_eq_some (h : index (ev.channelId, ev.pointId) ≠ []) :
    dispatch index ev = some ⟨index (ev.channelId, ev.pointId), ev.channelId, ev.pointId, ev.value,
      ev.raw, ev.timestampMs⟩ := by
  unfold dispatch
  split
  · rename_i hnil
    exact absurd hnil h
  · rfl

theorem forwardedTo_iff {ch : EventChannel} {ruleId : Int} :
    ForwardedTo index ch ev ruleId ↔
      ch.queue.length < eventChannelCapacity ∧ ruleId ∈ index (ev.channelId, ev.pointId) := by
  unfold ForwardedTo dispatchTo
  by_cases hnil : index (ev.channelId, ev.pointId) = []
  · rw [dispatch_eq_none hnil, hnil]
    simp
  rw [dispatch_eq_some hnil]
  by_cases hroom : ch.queue.length < eventChannelCapacity <;> simp [hroom]

/-- **What is forwarded**, over every rule set, routing cache and event.  While the channel has room
the event reaches every enabled rule that is triggered by a measurement which a telemetry or signal
point with the ids of the event feeds.  A rule it reaches is enabled and has a point with such a
route.  When the channel is full the event is counted as dropped. -/
theorem forwarded_rules (routing : RoutingCache) (rules : List ScheduledRule) (ch : EventChannel)
    (ev : PointWatchEvent) :
    let index := rebuildFromRules routing rules
    (ch.queue.length < eventChannelCapacity →
      (∀ s ∈ rules, ∀ p, Watches s p → p.pointType = .measurement →
        Feeds routing (ev.channelId, ev.pointId) p → ForwardedTo index ch ev s.rule.id) ∧
      (∀ ruleId, ForwardedTo index ch ev ruleId → ∃ s ∈ rules, s.rule.id = ruleId ∧
        ∃ p, Watches s p ∧ Feeds routing (ev.channelId, ev.pointId) p)) ∧
    (¬ ch.queue.length < eventChannelCapacity →
      (dispatchTo index ch ev).queue = ch.queue ∧
        ((∃ s ∈ rules, ∃ p, Watches s p ∧ p.pointType = .measurement ∧
            Feeds routing (ev.channelId, ev.pointId) p) →
          (dispatchTo index ch ev).droppedCount = (ch.droppedCount + 1) % 2 ^ 64)) := by
  intro index
  refine ⟨fun hroom => ⟨fun s hs p hwatches _ hfeeds => ?_, fun ruleId hforwarded => ?_⟩,
    fun hfull => ⟨?_, ?_⟩⟩
  · exact forwardedTo_iff.mpr ⟨hroom, mem_rebuildFromRules.mpr ⟨s, hs, rfl, p, hwatches, hfeeds⟩⟩
  · exact mem_rebuildFromRules.mp (forwardedTo_iff.mp hforwarded).2
  · unfold dispatchTo
    cases dispatch index ev with
    | none => rfl
    | some we => simp only [hfull, if_false]
  rintro ⟨s, hs, p, hwatches, -, hfeeds⟩
  have hmem : s.rule.id ∈ index (ev.channelId, ev.pointId) :=
    mem_rebuildFromRules.mpr ⟨s, hs, rfl, p, hwatches, hfeeds⟩
  rw [dispatchTo, dispatch_eq_some (ne_nil_of_mem hmem)]
  simp only [hfull, if_false]

/-- Signal 7 of channel 1 feeds the point; the event is of telemetry 7. -/
theorem forwarded_to_other_type :
    let routing : RoutingCache := ⟨[(⟨1, .signal, 7⟩, ⟨5, 10⟩)], by decide⟩
    let rule : Rule := ⟨3, "breaker", true, 0, some (.onChange [⟨5, .measurement, 10⟩] none none)⟩
    let ev : PointWatchEvent := ⟨1, 7, .telemetry, 1.0, 1.0, 0, 0, 1⟩
    routing.lookupC2m ev.source = none ∧
      ForwardedTo (rebuildFromRules routing (loadRules [rule])) {} ev 3 := by
  refine ⟨by decide, forwardedTo_iff.mpr ⟨by decide, by decide⟩⟩

end VoltageEMS.Rules
