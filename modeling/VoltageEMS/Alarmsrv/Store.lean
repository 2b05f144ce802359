import VoltageEMS.Lib.Basic
import VoltageEMS.Lib.Text

/-!
# The tables of the alarm service

The tables `alert_rule`, `alert` and `alert_event`, and the statements and transactions on them
(`alarmsrv/src/db.rs`).
-/

namespace VoltageEMS.Alarmsrv

open Lib List

/-! ## Rows -/

/-- A row of `alert_rule`. -/
structure AlertRule where
  id : Nat
  serviceType : String
  channelId : Int
  dataType : String
  pointId : Int
  ruleName : String
  warningLevel : Int
  operator : String
  value : Float
  enabled : Bool
  description : Option String
deriving DecidableEq

namespace AlertRule

/-- `evaluate`. -/
def evaluate (r : AlertRule) (currentValue : Float) : Bool :=
  match r.operator with
  | ">" => currentValue > r.value
  | "<" => currentValue < r.value
  | ">=" => currentValue ≥ r.value
  | "<=" => currentValue ≤ r.value
  | "==" => (currentValue - r.value).abs < 1 / 1000000
  | "!=" => (currentValue - r.value).abs ≥ 1 / 1000000
  | _ => false

end AlertRule

/-- The names of a device and a point, as far as they are found. -/
structure DeviceNames where
  deviceName : Option String
  pointName : Option String
  unit : Option String
deriving DecidableEq

/-- A row of `alert`; it copies its rule. -/
structure Alert where
  id : Nat
  rule : AlertRule
  currentValue : Float
  names : DeviceNames
  triggeredAt : Int
deriving DecidableEq

namespace Alert

/-- The rule it is of. -/
def ruleId (a : Alert) : Nat := a.rule.id

end Alert

/-- A row of `alert_event`; the id of the alert is no column, and says which alert the row is about.
-/
structure AlertEvent where
  alert : Alert
  recoveryValue : Option Float
  recoveredAt : Int
deriving DecidableEq

/-- `CreateRuleRequest`. -/
structure CreateRuleRequest where
  serviceType : String
  channelId : Int
  dataType : String
  pointId : Int
  ruleName : String
  warningLevel : Int := 2
  operator : String
  value : Float
  enabled : Bool := true
  description : Option String := none

/-- The rule it asks for. -/
def CreateRuleRequest.rule (req : CreateRuleRequest) (id : Nat) : AlertRule :=
  ⟨id, req.serviceType, req.channelId, req.dataType, req.pointId, req.ruleName, req.warningLevel,
    req.operator, req.value, req.enabled, req.description⟩

/-- `UpdateRuleRequest`. -/
structure UpdateRuleRequest where
  serviceType : Option String := none
  channelId : Option Int := none
  dataType : Option String := none
  pointId : Option Int := none
  ruleName : Option String := none
  warningLevel : Option Int := none
  operator : Option String := none
  value : Option Float := none
  enabled : Option Bool := none
  description : Option String := none

namespace UpdateRuleRequest

/-- `is_empty`. -/
def isEmpty (req : UpdateRuleRequest) : Bool :=
  req.serviceType.isNone && req.channelId.isNone && req.dataType.isNone && req.pointId.isNone &&
    req.ruleName.isNone && req.warningLevel.isNone && req.operator.isNone && req.value.isNone &&
    req.enabled.isNone && req.description.isNone

/-- The rule after it. -/
def apply (req : UpdateRuleRequest) (r : AlertRule) : AlertRule where
  id := r.id
  serviceType := req.serviceType.getD r.serviceType
  channelId := req.channelId.getD r.channelId
  dataType := req.dataType.getD r.dataType
  pointId := req.pointId.getD r.pointId
  ruleName := req.ruleName.getD r.ruleName
  warningLevel := req.warningLevel.getD r.warningLevel
  operator := req.operator.getD r.operator
  value := req.value.getD r.value
  enabled := req.enabled.getD r.enabled
  description := req.description.orElse fun _ => r.description

end UpdateRuleRequest

/-! ## Tables -/

/-- The tables, and the largest ids assigned so far. -/
structure Db where
  rules : List AlertRule
  alerts : List Alert
  events : List AlertEvent
  lastRule : Nat
  lastAlert : Nat
  ruleIds : (rules.map AlertRule.id).Nodup
  alertIds : (alerts.map Alert.id).Nodup
  ruleIds_le : ∀ r ∈ rules, r.id ≤ lastRule
  alertIds_le : ∀ a ∈ alerts, a.id ≤ lastAlert
  foreign : ∀ a ∈ alerts, ∃ r ∈ rules, r.id = a.ruleId

namespace Db

/-- No rows. -/
def empty : Db where
  rules := []
  alerts := []
  events := []
  lastRule := 0
  lastAlert := 0
  ruleIds := nodup_nil
  alertIds := nodup_nil
  ruleIds_le := by simp
  alertIds_le := by simp
  foreign := by simp

variable (db : Db)

/-! ### Queries -/

/-- `get_rule_by_id`. -/
def getRuleById (id : Nat) : Option AlertRule := db.rules.find? fun r => r.id == id

/-- `get_all_enabled_rules`. -/
def getAllEnabledRules : List AlertRule := db.rules.filter AlertRule.enabled

/-- `find_rule_by_name`; the case of ASCII letters does not count. -/
def findRuleByName (name : String) : Option AlertRule :=
  db.rules.find? fun r => eqIgnoreAsciiCase r.ruleName name

/-- `find_rule_by_point`. -/
def findRuleByPoint (serviceType : String) (channelId : Int) (dataType : String) (pointId : Int)
    (excludeId : Option Nat) : Option AlertRule :=
  db.rules.find? fun r => r.serviceType == serviceType && r.channelId == channelId &&
    r.dataType == dataType && r.pointId == pointId && !(excludeId == some r.id)

/-- `get_alert_by_id`. -/
def getAlertById (id : Nat) : Option Alert := db.alerts.find? fun a => a.id == id

/-- `SELECT … WHERE rule_id = ? LIMIT 1`. -/
def getAlertByRuleId (ruleId : Nat) : Option Alert := db.alerts.find? fun a => a.ruleId == ruleId

/-! ### Rules -/

/-- `insert_rule`, with the id of the new rule. -/
def insertRule (req : CreateRuleRequest) : Db × Nat :=
  ({ db with
      rules := db.rules ++ [req.rule (db.lastRule + 1)]
      lastRule := db.lastRule + 1
      ruleIds := by
        rw [map_append, map_singleton]
        refine db.ruleIds.append (nodup_singleton _) (List.disjoint_singleton.mpr fun hmem => ?_)
        obtain ⟨r, hr, hid⟩ := mem_map.mp hmem
        have hle := db.ruleIds_le r hr
        have hid : r.id = db.lastRule + 1 := hid
        omega
      ruleIds_le := by
        intro r hr
        rcases mem_append.mp hr with hr | hr
        · exact (db.ruleIds_le r hr).trans (Nat.le_succ _)
        rw [mem_singleton.mp hr]
        exact le_refl _
      foreign := by
        intro a ha
        obtain ⟨r, hr, hid⟩ := db.foreign a ha
        exact ⟨r, mem_append_left _ hr, hid⟩ }, db.lastRule + 1)

/-- `UPDATE alert_rule SET … WHERE id = ?`. -/
def mapRule (id : Nat) (f : AlertRule → AlertRule) (hf : ∀ r, (f r).id = r.id) : Db × Bool :=
  ({ db with
      rules := db.rules.map fun r => if r.id = id then f r else r
      ruleIds := by
        rw [map_map, show AlertRule.id ∘ (fun r => if r.id = id then f r else r) = AlertRule.id
          from funext fun r => by dsimp only [Function.comp]; split <;> simp [hf]]
        exact db.ruleIds
      ruleIds_le := by
        intro r' hr'
        obtain ⟨r, hr, rfl⟩ := mem_map.mp hr'
        split
        · rw [hf]
          exact db.ruleIds_le r hr
        · exact db.ruleIds_le r hr
      foreign := by
        intro a ha
        obtain ⟨r, hr, hid⟩ := db.foreign a ha
        refine ⟨_, mem_map.mpr ⟨r, hr, rfl⟩, ?_⟩
        split
        · rw [hf, hid]
        · exact hid }, (db.getRuleById id).isSome)

/-- `update_rule`. -/
def updateRule (id : Nat) (req : UpdateRuleRequest) : Db × Bool :=
  if req.isEmpty then (db, false) else db.mapRule id req.apply fun _ => rfl

/-- `set_rule_enabled`. -/
def setRuleEnabled (id : Nat) (enabled : Bool) : Db × Bool :=
  db.mapRule id (fun r => { r with enabled := enabled }) fun _ => rfl

/-! ### Alerts -/

/-- `insert_alert`, with the id of the new alert; it fails if the rule is gone. -/
def insertAlert (rule : AlertRule) (currentValue : Float) (names : DeviceNames) (now : Int) :
    Option (Db × Nat) :=
  if h : (db.getRuleById rule.id).isSome then
    some ({ db with
      alerts := db.alerts ++ [⟨db.lastAlert + 1, rule, currentValue, names, now⟩]
      lastAlert := db.lastAlert + 1
      alertIds := by
        rw [map_append, map_singleton]
        refine db.alertIds.append (nodup_singleton _)
          (List.disjoint_singleton.mpr fun hmem => ?_)
        obtain ⟨a, ha, hid⟩ := mem_map.mp hmem
        have hle := db.alertIds_le a ha
        have hid : a.id = db.lastAlert + 1 := hid
        omega
      alertIds_le := by
        intro a ha
        rcases mem_append.mp ha with ha | ha
        · exact (db.alertIds_le a ha).trans (Nat.le_succ _)
        · rw [mem_singleton.mp ha]
      foreign := by
        intro a ha
        rcases mem_append.mp ha with ha | ha
        · exact db.foreign a ha
        obtain ⟨r, hr⟩ := Option.isSome_iff_exists.mp h
        rw [mem_singleton.mp ha]
        exact ⟨r, (find?_key_eq_some_iff db.ruleIds).mp hr⟩ }, db.lastAlert + 1)
  else none

/-- `update_alert_value`. -/
def updateAlertValue (id : Nat) (currentValue : Float) : Db :=
  { db with
    alerts := db.alerts.map fun a => if a.id = id then { a with currentValue := currentValue } else a
    alertIds := by
      rw [map_map, show Alert.id ∘
          (fun a => if a.id = id then { a with currentValue := currentValue } else a) = Alert.id
        from funext fun a => by dsimp only [Function.comp]; split <;> rfl]
      exact db.alertIds
    alertIds_le := by
      intro a' ha'
      obtain ⟨a, ha, rfl⟩ := mem_map.mp ha'
      split <;> exact db.alertIds_le a ha
    foreign := by
      intro a' ha'
      obtain ⟨a, ha, rfl⟩ := mem_map.mp ha'
      split <;> exact db.foreign a ha }

/-- Alerts leave their table, rows enter the history. -/
def moveAlerts (p : Alert → Bool) (events : List AlertEvent) : Db :=
  { db with
    alerts := db.alerts.filter fun a => !p a
    events := db.events ++ events
    alertIds := db.alertIds.sublist (filter_sublist.map _)
    alertIds_le := fun a ha => db.alertIds_le a (mem_of_mem_filter ha)
    foreign := fun a ha => db.foreign a (mem_of_mem_filter ha) }

/-- `resolve_alert`: a history row, then the deletion by id. -/
def resolveAlert (alert : Alert) (recoveryValue : Float) (now : Int) : Db :=
  db.moveAlerts (fun a => a.id == alert.id) [⟨alert, some recoveryValue, now⟩]

/-- The alerts of a rule. -/
def alertsOf (ruleId : Nat) : List Alert := db.alerts.filter fun a => a.ruleId == ruleId

/-- `resolve_alerts_by_rule_id`, with the alerts, read inside the transaction. -/
def resolveAlertsByRuleId (ruleId : Nat) (now : Int) : Db × List Alert :=
  (db.moveAlerts (fun a => a.ruleId == ruleId) ((db.alertsOf ruleId).map fun a => ⟨a, none, now⟩),
    db.alertsOf ruleId)

/-- `delete_rule`, with the alerts resolved if there was such a rule. -/
def deleteRule (id : Nat) (now : Int) : Db × Option (List Alert) :=
  let resolved := db.moveAlerts (fun a => a.ruleId == id)
    ((db.alertsOf id).map fun a => ⟨a, none, now⟩)
  ({ resolved with
      rules := db.rules.filter fun r => r.id ≠ id
      ruleIds := db.ruleIds.sublist (filter_sublist.map _)
      ruleIds_le := fun r hr => db.ruleIds_le r (mem_of_mem_filter hr)
      foreign := by
        intro a ha
        obtain ⟨hmem, hother⟩ := mem_filter.mp ha
        obtain ⟨r, hr, hid⟩ := db.foreign a hmem
        refine ⟨r, mem_filter.mpr ⟨hr, ?_⟩, hid⟩
        rw [hid]
        simpa using hother },
    if (db.getRuleById id).isSome then some (db.alertsOf id) else none)

variable {db} {id : Nat}

theorem getRuleById_eq_some_iff {r : AlertRule} :
    db.getRuleById id = some r ↔ r ∈ db.rules ∧ r.id = id :=
  find?_key_eq_some_iff db.ruleIds

theorem getRuleById_isSome_iff : (db.getRuleById id).isSome ↔ ∃ r ∈ db.rules, r.id = id := by
  simp only [Option.isSome_iff_exists, getRuleById_eq_some_iff]

theorem getAlertById_eq_some_iff {a : Alert} :
    db.getAlertById id = some a ↔ a ∈ db.alerts ∧ a.id = id :=
  find?_key_eq_some_iff db.alertIds

end Db

end VoltageEMS.Alarmsrv
