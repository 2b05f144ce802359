import VoltageEMS.Lib.Tables
import VoltageEMS.Comsrv.PointMapping
import VoltageEMS.Modsrv.RoutingApi

/-!
# The configuration database

The tables that `monarch` writes, with the constraints of their declarations
(`libs/common/src/test_utils/schema.rs`). `Db` carries the constraints, so every statement below
either keeps them or is refused.
-/

namespace VoltageEMS.Monarch

open Lib Comsrv.Mapping List Function
open VoltageEMS.Modsrv.RoutingApi (PointRole)

/-! ## Rows -/

/-- A row of `channels`. -/
structure Channel where
  channelId : Nat
  name : String
  protocol : Option String
  enabled : Bool
  config : Option String
deriving DecidableEq

/-- A row of a point table. -/
structure PointRow where
  pointType : PointType
  channelId : Nat
  pointId : Nat
  signalName : String
  scale : Float
  offset : Float
  unit : Option String
  reverse : Bool
  dataType : Option String
  description : Option String
  protocolMappings : Option MappingText

/-- A row of `instances`. -/
structure Instance where
  instanceId : Nat
  instanceName : String
  productName : String
  parentId : Option Nat
deriving DecidableEq

/-- A row of `instance_properties`. -/
structure Property where
  instanceId : Nat
  propertyId : Int
  valueJson : MappingText

/-- A row of `measurement_routing` or `action_routing`. -/
structure Routing where
  role : PointRole
  routingId : Nat
  instanceId : Nat
  instanceName : String
  channelId : Option Nat
  channelType : Option String
  channelPointId : Option Nat
  pointId : Nat
  description : Option String
  enabled : Bool
deriving DecidableEq

/-- `flow_json` and `nodes_json` are kept as the values their texts read as. -/
structure Rule where
  id : Nat
  name : String
  description : Option String
  enabled : Bool
  priority : Int
  cooldownMs : Int
  triggerConfig : Option String
  flowJson : Json
  nodesJson : Json

namespace Channel

/-- The row is displaced. -/
def clash (c r : Channel) : Bool := r.channelId == c.channelId || r.name == c.name

theorem clash_iff {c r : Channel} :
    c.clash r = true ↔ r.channelId = c.channelId ∨ r.name = c.name := by
  simp [clash]

end Channel

variable (gone : List Nat)

namespace Instance

/-- The row is displaced. -/
def clash (i r : Instance) : Bool := r.instanceId == i.instanceId || r.instanceName == i.instanceName

theorem clash_iff {i r : Instance} :
    i.clash r = true ↔ r.instanceId = i.instanceId ∨ r.instanceName = i.instanceName := by
  simp [clash]

/-- `ON DELETE SET NULL` of the parent reference. -/
def orphan (gone : List Nat) (i : Instance) : Instance :=
  if i.parentId.any (gone.contains ·) then { i with parentId := none } else i

@[simp] theorem orphan_instanceId (i : Instance) :
    (i.orphan gone).instanceId = i.instanceId := by
  unfold orphan
  split <;> rfl

@[simp] theorem orphan_instanceName (i : Instance) :
    (i.orphan gone).instanceName = i.instanceName := by
  unfold orphan
  split <;> rfl

@[simp] theorem clash_orphan (i r : Instance) :
    i.clash (r.orphan gone) = i.clash r := by
  simp [clash]

variable {gone : List Nat}

theorem orphan_of_notMem {i : Instance} (h : ∀ p, i.parentId = some p → p ∉ gone) :
    i.orphan gone = i := by
  unfold orphan
  cases hp : i.parentId with
  | none => rfl
  | some p =>
    rw [if_neg]
    simpa using h p hp

theorem orphan_parentId {i : Instance} {p : Nat} (h : (i.orphan gone).parentId = some p) :
    i.parentId = some p ∧ p ∉ gone := by
  unfold orphan at h
  split at h
  · cases h
  rename_i hnot
  refine ⟨h, ?_⟩
  rw [h] at hnot
  simpa using hnot

end Instance

namespace PointRow

/-- The unique key. -/
def key (p : PointRow) : PointType × Nat × Nat := (p.pointType, p.channelId, p.pointId)

/-- The row is displaced. -/
def clash (p r : PointRow) : Bool := r.key == p.key

end PointRow

namespace Property

/-- The unique key. -/
def key (p : Property) : Nat × Int := (p.instanceId, p.propertyId)

/-- The row is displaced. -/
def clash (p r : Property) : Bool := r.key == p.key

end Property

namespace Routing

/-- The unique key. -/
def key (r : Routing) : PointRole × Nat × Nat := (r.role, r.instanceId, r.pointId)

/-- The row is displaced. -/
def clash (r s : Routing) : Bool := s.key == r.key

/-- `ON DELETE SET NULL` of the channel reference. -/
def unbind (gone : List Nat) (r : Routing) : Routing :=
  if r.channelId.any (gone.contains ·) then { r with channelId := none } else r

@[simp] theorem unbind_key (r : Routing) : (r.unbind gone).key = r.key := by
  unfold unbind
  split <;> rfl

@[simp] theorem unbind_instanceId (r : Routing) :
    (r.unbind gone).instanceId = r.instanceId := by
  unfold unbind
  split <;> rfl

@[simp] theorem unbind_role (r : Routing) : (r.unbind gone).role = r.role := by
  unfold unbind
  split <;> rfl

@[simp] theorem unbind_routingId (r : Routing) :
    (r.unbind gone).routingId = r.routingId := by
  unfold unbind
  split <;> rfl

theorem unbind_of_notMem {gone : List Nat} {r : Routing}
    (h : ∀ c, r.channelId = some c → c ∉ gone) : r.unbind gone = r := by
  unfold unbind
  cases hc : r.channelId with
  | none => rfl
  | some c =>
    rw [if_neg]
    simpa using h c hc

theorem unbind_channelId {gone : List Nat} {r : Routing} {c : Nat}
    (h : (r.unbind gone).channelId = some c) : r.channelId = some c ∧ c ∉ gone := by
  unfold unbind at h
  split at h
  · cases h
  rename_i hnot
  refine ⟨h, ?_⟩
  rw [h] at hnot
  simpa using hnot

end Routing

/-! ## Tables -/

/-- A statement is refused by a foreign key, a `NOT NULL` column or a `CHECK`. -/
inductive SqlError
  | foreignKey
  | notNull
  | check
deriving DecidableEq

/-- The tables. -/
structure Db where
  channels : List Channel
  points : List PointRow
  instances : List Instance
  properties : List Property
  routings : List Routing
  nextRouting : PointRole → Nat
  rules : List Rule
  nextRule : Nat
  channelIds : (channels.map Channel.channelId).Nodup := by decide
  channelNames : (channels.map Channel.name).Nodup := by decide
  pointKeys : (points.map PointRow.key).Nodup := by decide
  pointChannels : ∀ p ∈ points, p.channelId ∈ channels.map Channel.channelId := by decide
  instanceIds : (instances.map Instance.instanceId).Nodup := by decide
  instanceNames : (instances.map Instance.instanceName).Nodup := by decide
  parents : ∀ i ∈ instances, ∀ p ∈ i.parentId, p ∈ instances.map Instance.instanceId := by decide
  propertyKeys : (properties.map Property.key).Nodup := by decide
  propertyInstances :
    ∀ p ∈ properties, p.instanceId ∈ instances.map Instance.instanceId := by decide
  routingKeys : (routings.map Routing.key).Nodup := by decide
  routingInstances : ∀ r ∈ routings, r.instanceId ∈ instances.map Instance.instanceId := by decide
  routingChannels :
    ∀ r ∈ routings, ∀ c ∈ r.channelId, c ∈ channels.map Channel.channelId := by decide
  routingIds : ∀ r ∈ routings, r.routingId < nextRouting r.role := by decide
  ruleIds : ∀ r ∈ rules, r.id < nextRule := by decide

namespace Db

/-- New tables. -/
def empty : Db where
  channels := []
  points := []
  instances := []
  properties := []
  routings := []
  nextRouting := fun _ => 1
  rules := []
  nextRule := 1

variable (db : Db)

/-- The channels displaced. -/
def goneChannels (c : Channel) : List Nat :=
  displaced Channel.clash Channel.channelId c db.channels

/-- The instances displaced. -/
def goneInstances (i : Instance) : List Nat :=
  displaced Instance.clash Instance.instanceId i db.instances

variable {db} {k : Nat}

theorem mem_goneChannels {c : Channel} :
    k ∈ db.goneChannels c ↔
      ∃ r ∈ db.channels, (r.channelId = c.channelId ∨ r.name = c.name) ∧ r.channelId = k := by
  simp only [goneChannels, mem_displaced, Channel.clash_iff]

theorem mem_goneInstances {i : Instance} :
    k ∈ db.goneInstances i ↔ ∃ r ∈ db.instances,
      (r.instanceId = i.instanceId ∨ r.instanceName = i.instanceName) ∧ r.instanceId = k := by
  simp only [goneInstances, mem_displaced, Instance.clash_iff]

variable (db)

/-! ## Statements -/

/-- `INSERT OR REPLACE INTO channels`, refused if points keep a reference to a channel that is gone.
-/
def replaceChannel (c : Channel) : Except SqlError Db :=
  if h : ∀ p ∈ db.points, p.channelId ∈ db.goneChannels c → p.channelId = c.channelId then
    .ok { db with
      channels := replaceRow Channel.clash c db.channels
      routings := db.routings.map (Routing.unbind (db.goneChannels c))
      channelIds := nodup_replaceRow (fun _ hr => Channel.clash_iff.mpr (.inl hr)) db.channelIds
      channelNames := nodup_replaceRow (fun _ hr => Channel.clash_iff.mpr (.inr hr)) db.channelNames
      pointChannels := fun p hp => mem_keys_replaceRow (db.pointChannels p hp)
        ((em (p.channelId = c.channelId)).imp_right fun hne hgone => hne (h p hp hgone))
      routingKeys := by simpa [map_map, comp_def] using db.routingKeys
      routingInstances := by simpa using db.routingInstances
      routingChannels := by
        intro r hr k hk
        obtain ⟨old, hold, rfl⟩ := mem_map.mp hr
        obtain ⟨hk, hgone⟩ := Routing.unbind_channelId hk
        exact mem_keys_replaceRow (db.routingChannels old hold k hk) (.inr hgone)
      routingIds := by simpa using db.routingIds }
  else .error .foreignKey

/-- `INSERT OR REPLACE` of a point. -/
def replacePoint (p : PointRow) : Except SqlError Db :=
  if h : p.channelId ∈ db.channels.map Channel.channelId then
    .ok { db with
      points := replaceRow PointRow.clash p db.points
      pointKeys := nodup_replaceRow (fun r hr => by simp [PointRow.clash, hr]) db.pointKeys
      pointChannels := by
        intro r hr
        rcases mem_replaceRow.mp hr with ⟨hr, -⟩ | rfl
        · exact db.pointChannels r hr
        · exact h }
  else .error .foreignKey

/-- The instances after `INSERT OR REPLACE INTO instances`: the children of the deleted rows have
lost their parent, also where it is put in again. -/
def instancesAfter (i : Instance) : List Instance :=
  replaceRow Instance.clash i (db.instances.map (Instance.orphan (db.goneInstances i)))

theorem displaced_orphan (i : Instance) :
    displaced Instance.clash Instance.instanceId i (db.instances.map (Instance.orphan gone)) =
      db.goneInstances i := by
  simp only [displaced, goneInstances, filter_map, map_map, comp_def,
    Instance.clash_orphan, Instance.orphan_instanceId]

theorem mem_ids_instancesAfter {i : Instance} (hk : k ∈ db.instances.map Instance.instanceId)
    (hgone : k ∉ db.goneInstances i) : k ∈ (db.instancesAfter i).map Instance.instanceId := by
  refine mem_keys_replaceRow ?_ (.inr (by rwa [displaced_orphan]))
  simpa [map_map, comp_def] using hk

/-- `INSERT OR REPLACE INTO instances`. The properties and routings of the deleted rows go with
them. -/
def replaceInstance (i : Instance) : Except SqlError Db :=
  if h : ∀ p ∈ i.parentId, p ∈ (db.instancesAfter i).map Instance.instanceId then
    .ok { db with
      instances := db.instancesAfter i
      properties := db.properties.filter fun p => p.instanceId ∉ db.goneInstances i
      routings := db.routings.filter fun r => r.instanceId ∉ db.goneInstances i
      instanceIds := nodup_replaceRow (fun _ hr => Instance.clash_iff.mpr (.inl hr))
        (by simpa [map_map, comp_def] using db.instanceIds)
      instanceNames := nodup_replaceRow (fun _ hr => Instance.clash_iff.mpr (.inr hr))
        (by simpa [map_map, comp_def] using db.instanceNames)
      parents := by
        intro r hr p hp
        rcases mem_replaceRow.mp hr with ⟨hr, -⟩ | rfl
        · obtain ⟨old, hold, rfl⟩ := mem_map.mp hr
          obtain ⟨hp, hgone⟩ := Instance.orphan_parentId hp
          exact db.mem_ids_instancesAfter (db.parents old hold p hp) hgone
        · exact h p hp
      propertyKeys := (filter_sublist.map _).nodup db.propertyKeys
      propertyInstances := by
        intro p hp
        obtain ⟨hp, hkept⟩ := mem_filter.mp hp
        exact db.mem_ids_instancesAfter (db.propertyInstances p hp) (of_decide_eq_true hkept)
      routingKeys := (filter_sublist.map _).nodup db.routingKeys
      routingInstances := by
        intro r hr
        obtain ⟨hr, hkept⟩ := mem_filter.mp hr
        exact db.mem_ids_instancesAfter (db.routingInstances r hr) (of_decide_eq_true hkept)
      routingChannels := fun r hr => db.routingChannels r (mem_filter.mp hr).1
      routingIds := fun r hr => db.routingIds r (mem_filter.mp hr).1 }
  else .error .foreignKey

/-- `INSERT OR REPLACE INTO instance_properties`. -/
def replaceProperty (p : Property) : Except SqlError Db :=
  if h : p.instanceId ∈ db.instances.map Instance.instanceId then
    .ok { db with
      properties := replaceRow Property.clash p db.properties
      propertyKeys := nodup_replaceRow (fun r hr => by simp [Property.clash, hr]) db.propertyKeys
      propertyInstances := by
        intro r hr
        rcases mem_replaceRow.mp hr with ⟨hr, -⟩ | rfl
        · exact db.propertyInstances r hr
        · exact h }
  else .error .foreignKey

/-- What a routing binds. -/
structure Binding where
  role : PointRole
  channelId : Nat
  channelType : String
  channelPointId : Nat
  pointId : Nat
deriving DecidableEq

/-- Its row. -/
def Binding.row (b : Binding) (routingId : Nat) (i : Instance) : Routing where
  role := b.role
  routingId := routingId
  instanceId := i.instanceId
  instanceName := i.instanceName
  channelId := some b.channelId
  channelType := some b.channelType
  channelPointId := some b.channelPointId
  pointId := b.pointId
  description := none
  enabled := true

/-- `SELECT … FROM instances WHERE instance_name = ?`. -/
def findInstance (name : String) : Option Instance :=
  db.instances.find? fun i => i.instanceName == name

theorem findInstance_eq_some_iff {name : String} {i : Instance} :
    db.findInstance name = some i ↔ i ∈ db.instances ∧ i.instanceName = name :=
  find?_key_eq_some_iff db.instanceNames

/-- `INSERT OR REPLACE` of a routing. -/
def replaceRouting (instanceName : String) (b : Binding) : Except SqlError Db :=
  match hfound : db.findInstance instanceName with
  | none => .error .notNull
  | some i =>
    if b.channelType ∉ b.role.checkTypes then .error .check
    else if h : b.channelId ∈ db.channels.map Channel.channelId then
      let row := b.row (db.nextRouting b.role) i
      .ok { db with
        routings := replaceRow Routing.clash row db.routings
        nextRouting := update db.nextRouting b.role (db.nextRouting b.role + 1)
        routingKeys := nodup_replaceRow (fun r hr => by simp [Routing.clash, hr]) db.routingKeys
        routingInstances := by
          intro r hr
          rcases mem_replaceRow.mp hr with ⟨hr, -⟩ | rfl
          · exact db.routingInstances r hr
          · exact mem_map_of_mem (db.findInstance_eq_some_iff.mp hfound).1
        routingChannels := by
          intro r hr k hk
          rcases mem_replaceRow.mp hr with ⟨hr, -⟩ | rfl
          · exact db.routingChannels r hr k hk
          cases hk
          exact h
        routingIds := by
          intro r hr
          rcases mem_replaceRow.mp hr with ⟨hr, -⟩ | rfl
          · have hlt := db.routingIds r hr
            by_cases hrole : r.role = b.role
            · rw [hrole] at hlt ⊢
              rw [update_self]
              omega
            · rwa [update_of_ne hrole]
          · exact (update_self b.role _ db.nextRouting) ▸ Nat.lt_succ_self _ }
    else .error .foreignKey

/-- What `INSERT INTO rules` names; the other columns take their defaults. -/
structure NewRule where
  name : String
  description : Option String
  flowJson : Json
  nodesJson : Json
  enabled : Bool
  priority : Int

/-- Its row. -/
def NewRule.row (r : NewRule) (id : Nat) : Rule where
  id := id
  name := r.name
  description := r.description
  enabled := r.enabled
  priority := r.priority
  cooldownMs := 0
  triggerConfig := none
  flowJson := r.flowJson
  nodesJson := r.nodesJson

/-- `INSERT INTO rules`. -/
def insertRule (r : NewRule) : Db :=
  { db with
    rules := db.rules ++ [r.row db.nextRule]
    nextRule := db.nextRule + 1
    ruleIds := by
      intro rule hrule
      rcases mem_append.mp hrule with hrule | hrule
      · exact Nat.lt_succ_of_lt (db.ruleIds rule hrule)
      · exact (mem_singleton.mp hrule) ▸ Nat.lt_succ_self _ }

/-- The deletions of a forced run. -/
def clearComsrv : Db :=
  { db with
    channels := []
    points := []
    routings := db.routings.map (Routing.unbind (db.channels.map Channel.channelId))
    channelIds := nodup_nil
    channelNames := nodup_nil
    pointKeys := nodup_nil
    pointChannels := fun _ h => nomatch h
    routingKeys := by simpa [map_map, comp_def] using db.routingKeys
    routingInstances := by simpa using db.routingInstances
    routingChannels := by
      intro r hr k hk
      obtain ⟨old, hold, rfl⟩ := mem_map.mp hr
      obtain ⟨hk, hgone⟩ := Routing.unbind_channelId hk
      exact absurd (db.routingChannels old hold k hk) hgone
    routingIds := by simpa using db.routingIds }

/-- The deletions of a forced run. -/
def clearModsrv : Db :=
  { db with
    instances := []
    properties := []
    routings := []
    instanceIds := nodup_nil
    instanceNames := nodup_nil
    parents := fun _ h => nomatch h
    propertyKeys := nodup_nil
    propertyInstances := fun _ h => nomatch h
    routingKeys := nodup_nil
    routingInstances := fun _ h => nomatch h
    routingChannels := fun _ h => nomatch h
    routingIds := fun _ h => nomatch h }

/-- `DELETE FROM rules`. -/
def clearRules : Db := { db with rules := [], ruleIds := fun _ h => nomatch h }

/-! ## What the statements change -/

variable {db} {db' : Db}

theorem replaceChannel_ok {c : Channel} (h : db.replaceChannel c = .ok db') :
    db'.channels = replaceRow Channel.clash c db.channels ∧
    db'.routings = db.routings.map (Routing.unbind (db.goneChannels c)) ∧
    db'.points = db.points ∧ db'.instances = db.instances ∧ db'.properties = db.properties ∧
    db'.rules = db.rules := by
  unfold replaceChannel at h
  split at h <;> cases h
  exact ⟨rfl, rfl, rfl, rfl, rfl, rfl⟩

theorem replacePoint_ok {p : PointRow} (h : db.replacePoint p = .ok db') :
    db'.points = replaceRow PointRow.clash p db.points ∧ db'.channels = db.channels ∧
    db'.instances = db.instances ∧ db'.properties = db.properties ∧
    db'.routings = db.routings ∧ db'.rules = db.rules := by
  unfold replacePoint at h
  split at h <;> cases h
  exact ⟨rfl, rfl, rfl, rfl, rfl, rfl⟩

theorem replaceInstance_ok {i : Instance} (h : db.replaceInstance i = .ok db') :
    db'.instances = db.instancesAfter i ∧
    db'.properties = db.properties.filter (fun p => p.instanceId ∉ db.goneInstances i) ∧
    db'.routings = db.routings.filter (fun r => r.instanceId ∉ db.goneInstances i) ∧
    db'.channels = db.channels ∧ db'.points = db.points ∧ db'.rules = db.rules := by
  unfold replaceInstance at h
  split at h <;> cases h
  exact ⟨rfl, rfl, rfl, rfl, rfl, rfl⟩

theorem replaceProperty_ok {p : Property} (h : db.replaceProperty p = .ok db') :
    db'.properties = replaceRow Property.clash p db.properties ∧ db'.channels = db.channels ∧
    db'.points = db.points ∧ db'.instances = db.instances ∧ db'.routings = db.routings ∧
    db'.rules = db.rules := by
  unfold replaceProperty at h
  split at h <;> cases h
  exact ⟨rfl, rfl, rfl, rfl, rfl, rfl⟩

theorem replaceRouting_ok {name : String} {b : Binding} (h : db.replaceRouting name b = .ok db') :
    ∃ i ∈ db.instances, i.instanceName = name ∧
      db'.routings = replaceRow Routing.clash (b.row (db.nextRouting b.role) i) db.routings ∧
      db'.channels = db.channels ∧ db'.points = db.points ∧ db'.instances = db.instances ∧
      db'.properties = db.properties ∧ db'.rules = db.rules := by
  unfold replaceRouting at h
  split at h
  · cases h
  rename_i i hfound
  obtain ⟨hmem, hname⟩ := db.findInstance_eq_some_iff.mp hfound
  split at h
  · cases h
  split at h <;> cases h
  exact ⟨i, hmem, hname, rfl, rfl, rfl, rfl, rfl, rfl⟩

end Db

end VoltageEMS.Monarch
