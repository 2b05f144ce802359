import VoltageEMS.Lib.Run
import VoltageEMS.Routing.Loader

/-!
# The routing tables and the calls that change them

The tables `measurement_routing` and `action_routing`, the routing calls of modsrv's API
(`api/routing_management_handlers.rs`, `api/single_point_handlers.rs`,
`api/global_routing_handlers.rs`, over `instance_routing.rs`) and the deletion of a channel by comsrv.
-/

namespace VoltageEMS.Modsrv.RoutingApi

open Lib Routing List

/-- The API's `PointType`, which names one of the two tables. -/
inductive PointRole
  | measurement
  | action
deriving DecidableEq

namespace PointRole

/-- Its name in texts. -/
def label : PointRole → String
  | measurement => "measurement"
  | action => "action"

/-- The types it may be bound to. -/
def accepts : PointRole → PointType → Bool
  | measurement => PointType.isMeasurement
  | action => PointType.isAction

/-- Their letters. -/
def directionLabel : PointRole → String
  | measurement => "T or S"
  | action => "C or A"

/-- `CHECK(channel_type IN …)`; a NULL passes. -/
def checkTypes : PointRole → List String
  | measurement => ["T", "S"]
  | action => ["C", "A"]

end PointRole

/-- A row of `instances`. -/
structure Instance where
  instanceId : UInt32
  instanceName : String
  productName : String

/-- The points of a product. -/
structure Product where
  measurements : List UInt32
  actions : List UInt32

/-- The product has the point. -/
def Product.has (p : Product) : PointRole → UInt32 → Bool
  | .measurement, id => p.measurements.contains id
  | .action, id => p.actions.contains id

/-! ## Tables -/

/-- `UNIQUE(instance_id, …)`. -/
def rowKey (r : RoutingRow) : UInt32 × UInt32 := (r.instanceId, r.pointId)

/-- The row is bound to the channel. -/
def refersTo (channelId : UInt32) (r : RoutingRow) : Bool :=
  r.channelId.any fun c => c.toInt == (channelId.toNat : Int)

/-- Foreign keys and checks. -/
def admits (channels : List UInt32) (instances : List Instance) (role : PointRole)
    (r : RoutingRow) : Bool :=
  (r.channelId.isNone || channels.any (refersTo · r)) &&
    instances.any (fun i => i.instanceId == r.instanceId) &&
    r.channelType.all role.checkTypes.contains

/-- The database, as far as routing is concerned; rows are listed in the order of their ids. -/
structure Db where
  channels : List UInt32
  instances : List Instance
  rows : PointRole → List RoutingRow
  unique : ∀ role, ((rows role).map rowKey).Nodup
  admitted : ∀ role, ∀ r ∈ rows role, admits channels instances role r = true

namespace Db

variable (db : Db)

/-- Other rows in a table. -/
def setRows (role : PointRole) (new : List RoutingRow) (hunique : (new.map rowKey).Nodup)
    (hadmitted : ∀ r ∈ new, admits db.channels db.instances role r = true) : Db where
  channels := db.channels
  instances := db.instances
  rows := Function.update db.rows role new
  unique := (Function.forall_update_iff db.rows fun _ rows => (rows.map rowKey).Nodup).mpr
    ⟨hunique, fun role' _ => db.unique role'⟩
  admitted := (Function.forall_update_iff db.rows fun role' rows =>
      ∀ r ∈ rows, admits db.channels db.instances role' r = true).mpr
    ⟨hadmitted, fun role' _ => db.admitted role'⟩

variable {r : RoutingRow} {l : List RoutingRow}

theorem nodup_append_row (h : (l.map rowKey).Nodup) (hr : rowKey r ∉ l.map rowKey) :
    ((l ++ [r]).map rowKey).Nodup := by
  rw [map_append, map_singleton]
  exact h.append (nodup_singleton _) (List.disjoint_singleton.mpr hr)

variable {instances : List Instance} {channels : List UInt32} {role : PointRole}

theorem admitted_append (h : ∀ e ∈ l, admits channels instances role e = true)
    (hr : admits channels instances role r = true) :
    ∀ e ∈ l ++ [r], admits channels instances role e = true := by
  intro e he
  rcases mem_append.mp he with he | he
  · exact h e he
  · rwa [mem_singleton.mp he]

/-- `INSERT`. -/
def insert (role : PointRole) (r : RoutingRow) : Option Db :=
  if h : admits db.channels db.instances role r = true ∧
      rowKey r ∉ (db.rows role).map rowKey then
    some (db.setRows role (db.rows role ++ [r]) (nodup_append_row (db.unique role) h.2)
      (admitted_append (db.admitted role) h.1))
  else none

/-- What `ON CONFLICT … DO UPDATE` leaves of a row: only the batch update sets the name too. -/
def merged (keepName : Bool) (r e : RoutingRow) : RoutingRow :=
  if rowKey e = rowKey r then
    { r with instanceName := if keepName then e.instanceName else r.instanceName }
  else e

theorem rowKey_merged (keepName : Bool) (r e : RoutingRow) :
    rowKey (merged keepName r e) = rowKey e := by
  unfold merged
  split
  · rename_i h
    exact h.symm
  · rfl

theorem admits_merged {keepName : Bool} {e : RoutingRow}
    (hr : admits channels instances role r = true) (he : admits channels instances role e = true) :
    admits channels instances role (merged keepName r e) = true := by
  unfold merged
  split
  · exact hr
  · exact he

/-- `INSERT … ON CONFLICT DO UPDATE`. -/
def upsert (role : PointRole) (keepName : Bool) (r : RoutingRow) : Option Db :=
  if h : admits db.channels db.instances role r = true then
    if hkey : rowKey r ∈ (db.rows role).map rowKey then
      some (db.setRows role ((db.rows role).map (merged keepName r))
        (by
          rw [map_map, show rowKey ∘ merged keepName r = rowKey from
            funext (rowKey_merged keepName r)]
          exact db.unique role)
        (by
          intro e' he'
          obtain ⟨e, he, rfl⟩ := mem_map.mp he'
          exact admits_merged h (db.admitted role e he)))
    else
      some (db.setRows role (db.rows role ++ [r]) (nodup_append_row (db.unique role) hkey)
        (admitted_append (db.admitted role) h))
  else none

/-- `DELETE … WHERE`, with the number of rows. -/
def delete (role : PointRole) (p : RoutingRow → Bool) : Db × Nat :=
  (db.setRows role ((db.rows role).filter fun r => !p r)
    ((db.unique role).sublist (filter_sublist.map rowKey))
    (fun r hr => db.admitted role r (mem_of_mem_filter hr)), (db.rows role).countP p)

/-- `UPDATE … SET enabled`, with the number of rows. -/
def toggle (role : PointRole) (key : UInt32 × UInt32) (enabled : Bool) : Db × Nat :=
  (db.setRows role
    ((db.rows role).map fun r => if rowKey r = key then { r with enabled := enabled } else r)
    (by
      rw [map_map]
      refine (map_congr_left fun r _ => ?_).symm ▸ db.unique role
      dsimp only [Function.comp]
      split <;> rfl)
    (by
      intro r hr
      obtain ⟨e, he, rfl⟩ := mem_map.mp hr
      split
      · exact db.admitted role e he
      · exact db.admitted role e he),
    (db.rows role).countP fun r => rowKey r = key)

/-- `ON DELETE SET NULL`. -/
def unbound (channelId : UInt32) (r : RoutingRow) : RoutingRow :=
  if refersTo channelId r then { r with channelId := none } else r

theorem rowKey_unbound (channelId : UInt32) (r : RoutingRow) :
    rowKey (unbound channelId r) = rowKey r := by
  unfold unbound
  split <;> rfl

theorem admits_unbound {channelId : UInt32} (h : admits channels instances role r = true) :
    admits (channels.filter (· != channelId)) instances role (unbound channelId r) = true := by
  simp only [admits, Bool.and_eq_true, Bool.or_eq_true] at h ⊢
  unfold unbound
  split
  · exact ⟨⟨.inl rfl, h.1.2⟩, h.2⟩
  rename_i hother
  refine ⟨⟨h.1.1.imp_right fun hchannel => ?_, h.1.2⟩, h.2⟩
  obtain ⟨c, hc, href⟩ := List.any_eq_true.mp hchannel
  refine List.any_eq_true.mpr ⟨c, mem_filter.mpr ⟨hc, bne_iff_ne.mpr ?_⟩, href⟩
  rintro rfl
  exact hother href

/-- The deletion of a channel: first the rows of its related tables, of which `removed` tells those
that were deleted (a statement that fails is skipped), then the channel itself, which sets the
channel of the remaining rows to NULL. -/
def deleteChannel (channelId : UInt32) (removed : PointRole → RoutingRow → Bool) : Option Db :=
  if channelId ∈ db.channels then
    some {
      channels := db.channels.filter (· != channelId)
      instances := db.instances
      rows := fun role =>
        ((db.rows role).filter fun r => !(refersTo channelId r && removed role r)).map
          (unbound channelId)
      unique := by
        intro role
        rw [map_map, show rowKey ∘ unbound channelId = rowKey from
          funext (rowKey_unbound channelId)]
        exact (db.unique role).sublist (filter_sublist.map rowKey)
      admitted := by
        intro role r' hr'
        obtain ⟨r, hr, rfl⟩ := mem_map.mp hr'
        exact admits_unbound (db.admitted role r (mem_of_mem_filter hr)) }
  else none

/-- `WHERE instance_id`. -/
def findInstance (id : UInt32) : Option Instance := db.instances.find? fun i => i.instanceId == id

/-- `WHERE instance_name`. -/
def findByName (name : String) : Option Instance :=
  db.instances.find? fun i => i.instanceName == name

end Db

/-! ## Requests and replies -/

/-- `RoutingRequest`. -/
structure RoutingRequest where
  pointType : PointRole
  pointId : UInt32
  channelId : Option Int32
  fourRemote : Option PointType
  channelPointId : Option UInt32

/-- The row it asks for. -/
def RoutingRequest.row (r : RoutingRequest) (i : Instance) : RoutingRow where
  instanceId := i.instanceId
  instanceName := i.instanceName
  pointId := r.pointId
  channelId := r.channelId
  channelType := r.fourRemote.map PointType.asStr
  channelPointId := r.channelPointId
  enabled := true

/-- `SinglePointRoutingRequest`. -/
structure SinglePointRoutingRequest where
  channelId : Option Int32
  fourRemote : Option PointType
  channelPointId : Option UInt32
  enabled : Bool := true

/-- The row it asks for. -/
def SinglePointRoutingRequest.row (r : SinglePointRoutingRequest) (i : Instance) (pointId : UInt32) :
    RoutingRow where
  instanceId := i.instanceId
  instanceName := i.instanceName
  pointId := pointId
  channelId := r.channelId
  channelType := r.fourRemote.map PointType.asStr
  channelPointId := r.channelPointId
  enabled := r.enabled

/-- Errors with their texts, without those of the database driver; the text ends with `details`. -/
inductive ApiError
  | internalError (text : String)
  | invalidData (text : String) (details : List String)
  | invalidRouting (text : String)
  | notFound (text : String)

/-- The replies. -/
inductive Reply
  | routing (instanceId : UInt32) (request : RoutingRequest)
  | message (text : String)
  | rowsAffected (text : String) (rows : Nat)
  | deleted (measurement action : Nat)

/-- What a call depends on besides the database. -/
structure Env where
  products : String → Option Product
  nulls : NullDecoding
  order : RowOrder

/-- The database and the cached routes. -/
structure State where
  db : Db
  cache : RoutingMaps

abbrev Outcome := State × Except ApiError Reply

section Handlers

variable (env : Env)

/-- The routes of the tables. -/
def load (db : Db) : Option RoutingMaps :=
  loadRoutingMaps env.nulls env.order (db.rows .measurement) (db.rows .action)

/-- `refresh_routing`, then the reply. -/
def respond (what : String) (reply : Reply) (s : State) : Outcome :=
  match load env s.db with
  | some maps => ({ s with cache := maps }, .ok reply)
  | none => (s, .error (.internalError ("Failed to refresh routing after " ++ what ++ ": ")))

/-- `validate_routing_impl`. -/
def validateRouting (db : Db) (role : PointRole) (instanceName : String) (pointId : UInt32)
    (channelType : Option PointType) : List String :=
  let found := db.findByName instanceName
  (if found.isSome then [] else ["Instance " ++ instanceName ++ " does not exist"]) ++
  (match channelType with
    | some t =>
      if role.accepts t then []
      else ["Invalid channel_type for " ++ role.label ++ ": " ++ t.asStr ++ ". Must be " ++
        role.directionLabel]
    | none => []) ++
  (if (found.bind fun i => env.products i.productName).any (Product.has · role pointId) then []
    else [role.label ++ " point " ++ toString pointId ++ " not found for instance " ++ instanceName])

variable (role : PointRole) (id pointId : UInt32) (s : State)

/-- `create_instance_routing`. -/
def createInstanceRouting (r : RoutingRequest) (s : State) : Outcome :=
  match s.db.findInstance id with
  | none =>
    (s, .error (.internalError ("Not found: Instance " ++ toString id ++ " does not exist")))
  | some i =>
    match validateRouting env s.db r.pointType i.instanceName r.pointId r.fourRemote with
    | [] =>
      match s.db.insert r.pointType (r.row i) with
      | some db => respond env "create" (.routing id r) { s with db := db }
      | none => (s, .error (.internalError "Failed to insert routing: "))
    | errors => (s, .error (.invalidData "Invalid routing: " errors))

/-- One request of `update_instance_routing`: without a channel it deletes the row. -/
def updateOne (i : Instance) (acc : Db × Nat × List String) (r : RoutingRequest) :
    Db × Nat × List String :=
  let (db, successes, errors) := acc
  if r.channelId.isNone then
    ((db.delete r.pointType fun e => rowKey e = (i.instanceId, r.pointId)).1, successes + 1, errors)
  else
    match validateRouting env db r.pointType i.instanceName r.pointId r.fourRemote with
    | [] =>
      match db.upsert r.pointType false (r.row i) with
      | some db => (db, successes + 1, errors)
      | none => (db, successes, errors ++ [""])
    | invalid => (db, successes, errors ++ invalid)

/-- `update_instance_routing`: all requests or none. -/
def updateInstanceRouting (rs : List RoutingRequest) (s : State) : Outcome :=
  match s.db.findInstance id with
  | none =>
    (s, .error (.internalError ("Failed to get instance: Instance not found: " ++ toString id)))
  | some i =>
    match rs.foldl (updateOne env i) (s.db, 0, []) with
    | (db, successes, []) =>
      respond env "update" (.message ("Updated " ++ toString successes ++ " routings"))
        { s with db := db }
    | (_, _, errors) => (s, .error (.invalidData "Update failed: " errors))

/-- `upsert_measurement_routing` and `upsert_action_routing`. -/
def upsertRouting (r : SinglePointRoutingRequest) (s : State) : Outcome :=
  match r.fourRemote.filter fun t => !role.accepts t with
  | some t =>
    (s, .error (.invalidData ("Failed to upsert routing: Invalid channel_type '" ++ t.asStr ++
      "' for " ++ role.label ++ " routing (must be " ++ role.directionLabel ++ ")") []))
  | none =>
    match s.db.findInstance id with
    | none =>
      (s, .error (.invalidData ("Failed to upsert routing: Instance " ++ toString id ++
        " not found: ") []))
    | some i =>
      match s.db.upsert role true (r.row i pointId) with
      | some db =>
        respond env ("upsert " ++ role.label ++ " routing")
          (.message ("Routing updated for " ++ role.label ++ " point " ++ toString pointId))
          { s with db := db }
      | none => (s, .error (.invalidData "Failed to upsert routing: " []))

/-- The reply of a single point. -/
def onPoint (what text : String) (result : Db × Nat) (s : State) : Outcome :=
  if result.2 = 0 then
    ({ s with db := result.1 }, .error (.internalError ("No routing found for " ++ role.label ++
      " point " ++ toString pointId ++ " in instance " ++ toString id)))
  else
    respond env (what ++ " " ++ role.label ++ " routing")
      (.rowsAffected ("Routing " ++ text ++ " for " ++ role.label ++ " point " ++ toString pointId)
        result.2) { s with db := result.1 }

/-- `delete_measurement_routing` and `delete_action_routing`. -/
def deleteRouting : Outcome :=
  onPoint env role id pointId "delete" "deleted"
    (s.db.delete role fun e => rowKey e = (id, pointId)) s

/-- `toggle_measurement_routing` and `toggle_action_routing`. -/
def toggleRouting (enabled : Bool) (s : State) : Outcome :=
  onPoint env role id pointId "toggle" (if enabled then "enabled" else "disabled")
    (s.db.toggle role (id, pointId) enabled) s

/-- From both tables. -/
def deleteBoth (p : RoutingRow → Bool) (what : String) (reply : Nat → Nat → Reply) (s : State) :
    Outcome :=
  let m := s.db.delete .measurement p
  let a := m.1.delete .action p
  respond env what (reply m.2 a.2) { s with db := a.1 }

/-- `delete_instance_routing`. -/
def deleteInstanceRouting : Outcome :=
  deleteBoth env (fun e => e.instanceId == id) "delete" (fun m a =>
    .message ("Deleted " ++ toString (m + a) ++ " routings (" ++ toString m ++ " measurement, " ++
      toString a ++ " action)")) s

/-- `delete_all_routing_handler`. -/
def deleteAllRouting (confirm : Option Bool) (s : State) : Outcome :=
  if confirm.getD false then deleteBoth env (fun _ => true) "delete_all" .deleted s
  else (s, .error (.invalidRouting
    "Confirmation required: add ?confirm=true to delete all routing"))

/-- `delete_instance_routing_handler`. -/
def deleteRoutingByName (name : String) (s : State) : Outcome :=
  deleteBoth env (fun e => e.instanceName == name) "delete instance routing" .deleted s

/-- `delete_channel_routing_handler`. -/
def deleteChannelRouting (channelId : UInt32) (s : State) : Outcome :=
  deleteBoth env (refersTo channelId) "delete channel routing" .deleted s

/-- comsrv's `delete_channel_handler`, which does not reload modsrv's routes. -/
def deleteChannelHandler (channelId : UInt32) (removed : PointRole → RoutingRow → Bool)
    (s : State) : Outcome :=
  match s.db.deleteChannel channelId removed with
  | some db =>
    ({ s with db := db }, .ok (.message ("Channel " ++ toString channelId ++
      " deleted successfully")))
  | none => (s, .error (.notFound ("Channel " ++ toString channelId ++ " not found in database")))

/-- The calls that change the tables. -/
inductive Call
  | create (id : UInt32) (r : RoutingRequest)
  | update (id : UInt32) (rs : List RoutingRequest)
  | upsert (role : PointRole) (id pointId : UInt32) (r : SinglePointRoutingRequest)
  | delete (role : PointRole) (id pointId : UInt32)
  | toggle (role : PointRole) (id pointId : UInt32) (enabled : Bool)
  | deleteInstance (id : UInt32)
  | deleteAll (confirm : Option Bool)
  | deleteByName (name : String)
  | deleteByChannel (channelId : UInt32)
  | deleteChannel (channelId : UInt32) (removed : PointRole → RoutingRow → Bool)

/-- One call. -/
def step : Call → Outcome
  | .create id r => createInstanceRouting env id r s
  | .update id rs => updateInstanceRouting env id rs s
  | .upsert role id pointId r => upsertRouting env role id pointId r s
  | .delete role id pointId => deleteRouting env role id pointId s
  | .toggle role id pointId enabled => toggleRouting env role id pointId enabled s
  | .deleteInstance id => deleteInstanceRouting env id s
  | .deleteAll confirm => deleteAllRouting env confirm s
  | .deleteByName name => deleteRoutingByName env name s
  | .deleteByChannel channelId => deleteChannelRouting env channelId s
  | .deleteChannel channelId removed => deleteChannelHandler channelId removed s

/-- modsrv under its calls. -/
def machine : Machine State Call (Except ApiError Reply) where
  step s call := ((step env s call).1, [(step env s call).2])

end Handlers

end VoltageEMS.Modsrv.RoutingApi
