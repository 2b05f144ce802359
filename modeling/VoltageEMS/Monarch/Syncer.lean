import VoltageEMS.Lib.Hashes
import VoltageEMS.Monarch.Database

/-!
# Configuration files into the database

`ConfigSyncer` (`tools/monarch/src/core/syncer.rs`) reads a configuration directory and writes what
it finds into the database, in one transaction per service. By default rows of the files replace those
that are there (`UPSERT`); a forced run deletes the rows first.
-/

namespace VoltageEMS.Monarch

open Lib Comsrv.Mapping
open VoltageEMS.Modsrv.RoutingApi (PointRole)
open Db (Binding NewRule)

/-! ## Errors -/

/-- What is noted of an item. -/
inductive Cause
  | text (s : String)
  /-- `Invalid or missing {field}: {value:?}` -/
  | invalid (field : String) (value : Option String)
  | invalidJson (field : String) (value : Option Json)
  | configuration (s : String)
  | csv
  | sql (e : SqlError)

/-- `SyncError`. -/
structure SyncError where
  item : String
  cause : Cause

/-- What ends a run. -/
inductive Failure
  | unreadable (file : String)
  | message (s : String)
  | instanceIds
  | sql (e : SqlError)

/-- `CsvRowError`. -/
structure CsvRowError where
  rowNumber : Nat
  error : String

/-- `from_csv_error`. -/
def SyncError.fromCsvError (e : CsvRowError) (context : String) : SyncError :=
  ⟨s!"{context}:row-{e.rowNumber}", .text e.error⟩

/-- The tables and the errors. -/
abbrev Progress := Db × List SyncError

/-- An error is noted. -/
def note (acc : Progress) (item : String) (cause : Cause) : Progress := (acc.1, acc.2 ++ [⟨item, cause⟩])

/-! ## Files -/

/-- A file that is looked for. -/
inductive FileState (α : Type)
  | missing
  | unreadable
  | read (content : α)

/-- A line by column. -/
abbrev CsvRow := Hash String String

/-- A record of a point file, as the type of its table reads it. -/
structure TypedPoint where
  pointId : Nat
  signalName : String
  unit : Option String
  description : Option String
  scale : Float
  offset : Float
  reverse : Bool
  dataType : String

/-- The point file of a type in a channel's directory, and its mapping file. -/
structure PointFile where
  points : List TypedPoint
  pointErrors : List CsvRowError
  mapping : FileState (List CsvRow × List CsvRowError)

/-- `ChannelConfig`; `config` is the text of its parameters, logging and description. -/
structure ChannelEntry where
  id : Nat
  name : String
  protocol : String
  enabled : Bool
  config : String

/-- The directory of a channel. -/
structure ChannelDir where
  name : String
  file : PointType → FileState PointFile

/-- The directory `comsrv`, its entries in the order they are read. -/
structure ComsrvDir where
  yaml : FileState (List ChannelEntry)
  dirs : List ChannelDir

/-- `instances/{name}`. -/
structure InstanceDir where
  properties : FileState (List CsvRow)
  routing : FileState (List CsvRow)

/-- The directory `modsrv`. Files that are neither JSON nor YAML are left out of `rules`. -/
structure ModsrvDir where
  yaml : FileState Unit
  instances : FileState Json
  instanceDir : String → InstanceDir
  rules : Option (List (FileState Json))

/-- `Value::get`. -/
def getField (v : Json) (key : String) : Option Json :=
  match v with
  | .obj o => JsonObject.get o key
  | _ => none

/-! ## Mappings -/

/-- An integer in JSON. -/
def clampI64 (i : Int) : JsonInt :=
  ⟨max (-2 ^ 63) (min i (2 ^ 63 - 1)), by omega⟩

/-- `f.round() as i64`: halves go away from zero. -/
def roundAsI64 (f : Float) : JsonInt :=
  match f.toModel.unpack with
  | .finite sign m e _ =>
    let magnitude : Nat :=
      if 0 ≤ e then m * 2 ^ e.toNat else (m + 2 ^ ((-e).toNat - 1)) / 2 ^ (-e).toNat
    match sign with
    | .positive => clampI64 magnitude
    | .negative => clampI64 (-magnitude)
  | .infinity .positive => clampI64 (2 ^ 63)
  | .infinity .negative => clampI64 (-2 ^ 63)
  | _ => clampI64 0

section Mapping

-- `str::parse` of an `f64`
variable (parseF64 : String → Option Float)

/-- `str_to_json_number`. -/
def strToJsonNumber (s : String) : Option Json :=
  let trimmed := trim s
  if trimmed = "" then some (.int (clampI64 0))
  else
    match parseI64 trimmed with
    | some n => some (.int n)
    | none => ((parseF64 trimmed).filter Float.isFinite).map Json.float

/-- A text, or a number. -/
def convertField (numericFields : List String) (field text : String) : Json :=
  if field ∈ numericFields then (strToJsonNumber parseF64 text).getD (.str text) else .str text

/-- `convert_fields`. -/
def convertFields (mapping : CsvRow) (numericFields : List String) : Hash String Json :=
  mapping.mapVals (convertField parseF64 numericFields)

/-- The bit position as an integer. -/
def roundBitPosition (normalized : Hash String Json) : Hash String Json :=
  match (normalized.lookup "bit_position").bind Json.f64 with
  | some f => normalized.insert "bit_position" (.int (roundAsI64 f))
  | none => normalized

/-- `normalize_protocol_mapping`. -/
def normalizeProtocolMapping (protocol : String) (row : CsvRow) : Hash String Json :=
  let mapping := row.erase "point_id"
  if protocol ∈ ["modbus_tcp", "modbus_rtu", "sunspec_tcp", "sunspec_rtu"] then
    roundBitPosition ((convertFields parseF64 mapping
      ["slave_id", "function_code", "register_address", "bit_position"]).orInsert
      "bit_position" (.int (clampI64 0)))
  else if protocol = "can" then
    (((convertFields parseF64 mapping ["can_id", "start_bit", "bit_length", "scale", "offset"]).orInsert
      "signed" (.bool false)).orInsert
      "scale" (.int (clampI64 1))).orInsert
      "offset" (.int (clampI64 0))
  else if protocol ∈ ["di_do", "gpio", "dido"] then convertFields parseF64 mapping ["gpio_number"]
  else convertFields parseF64 mapping []

/-- The mappings by point. -/
def mappingMap (protocol : String) (rows : List CsvRow) : Hash String (Hash String Json) :=
  rows.foldl (fun m row =>
    match row.lookup "point_id" with
    | some id => m.insert id (normalizeProtocolMapping parseF64 protocol row)
    | none => m) ∅

end Mapping

/-- `serde_json::to_string` of a map, as the value the text reads as. -/
def mapText (m : Hash String Json) : MappingText := some (.obj (m.entries.map fun e => (e.1, e.2)))

/-- `normalize_product_name`. -/
def normalizeProductName (name : String) : String :=
  match name with
  | "battery_pack" => "Battery"
  | "pcs" => "PCS"
  | "diesel_generator" => "Diesel"
  | "pv_inverter" => "PVInverter"
  | "pv_dcdc" | "PV_DCDC" => "PV DCDC"
  | _ => name

/-! ## Channels and points -/

/-- What the run takes from elsewhere: the reading of floats, what a NULL protocol is decoded as,
and the compact flow of a rule document, where it is one. -/
structure Env where
  parseF64 : String → Option Float
  nullProtocol : String
  extractRuleFlow : Json → Option Json

section Comsrv

variable (env : Env)

/-- `csv_filename`. -/
def csvFilename : PointType → String
  | .telemetry => "telemetry.csv"
  | .signal => "signal.csv"
  | .control => "control.csv"
  | .adjustment => "adjustment.csv"

/-- The mapping file of a type. -/
def mappingFilename : PointType → String
  | .telemetry => "mapping/telemetry_mapping.csv"
  | .signal => "mapping/signal_mapping.csv"
  | .control => "mapping/control_mapping.csv"
  | .adjustment => "mapping/adjustment_mapping.csv"

/-- The type in messages. -/
def typeLabel : PointType → String
  | .telemetry => "telemetry"
  | .signal => "signal"
  | .control => "control"
  | .adjustment => "adjustment"

/-- The row of a point. -/
def TypedPoint.row (pointType : PointType) (channelId : Nat) (mappings : MappingText)
    (p : TypedPoint) : PointRow where
  pointType := pointType
  channelId := channelId
  pointId := p.pointId
  signalName := p.signalName
  scale := match pointType with
    | .telemetry | .adjustment => p.scale
    | .signal | .control => 1
  offset := match pointType with
    | .telemetry | .adjustment => p.offset
    | .signal | .control => 0
  unit := p.unit
  reverse := match pointType with
    | .telemetry | .signal => p.reverse
    | .control | .adjustment => false
  dataType := some <| match pointType with
    | .telemetry | .adjustment => p.dataType
    | .signal => "int"
    | .control => "bool"
  description := p.description
  protocolMappings := some mappings

/-- The mapping of a point. -/
def mappingText (mappings : Option (Hash String (Hash String Json))) (pointId : Nat) : MappingText :=
  match mappings.bind (·.lookup (toString pointId)) with
  | some m => mapText m
  | none => some .null

/-- One point. -/
def syncPoint (channelId : Nat) (pointType : PointType)
    (mappings : Option (Hash String (Hash String Json))) (acc : Progress) (p : TypedPoint) :
    Progress :=
  match acc.1.replacePoint (p.row pointType channelId (mappingText mappings p.pointId)) with
  | .ok db => (db, acc.2)
  | .error e =>
    note acc s!"channel-{channelId}/{typeLabel pointType}/point-{p.pointId}" (.sql e)

/-- The mapping file. -/
def loadMappings (protocol context : String) :
    FileState (List CsvRow × List CsvRowError) →
      Except Failure (Option (Hash String (Hash String Json)) × List SyncError)
  | .missing => .ok (none, [])
  | .unreadable => .error (.unreadable context)
  | .read (rows, errors) =>
    .ok (some (mappingMap env.parseF64 protocol rows),
      errors.map fun e => SyncError.fromCsvError e context)

/-- `sync_point_type`. -/
def syncPointType (channelId : Nat) (protocol : String) (acc : Progress) (pointType : PointType)
    (file : FileState PointFile) : Except Failure Progress :=
  match file with
  | .missing => .ok acc
  | .unreadable => .error (.unreadable (csvFilename pointType))
  | .read content => do
    let pointErrors := content.pointErrors.map fun e =>
      SyncError.fromCsvError e s!"channel-{channelId}/{csvFilename pointType}"
    let (mappings, mappingErrors) ←
      loadMappings env protocol s!"channel-{channelId}/{mappingFilename pointType}" content.mapping
    return content.points.foldl (syncPoint channelId pointType mappings)
      (acc.1, acc.2 ++ pointErrors ++ mappingErrors)

/-- The channel a directory belongs to. Other numerals than the ASCII ones do not parse either. -/
def channelDirId (name : String) : Option Nat :=
  if name.toList.all Char.isDigit then parseUnsigned 10 (2 ^ 31) name else none

/-- `SELECT protocol FROM channels WHERE channel_id = ?`. -/
def channelProtocol (db : Db) (channelId : Nat) : String :=
  match db.channels.find? fun c => c.channelId == channelId with
  | some c => c.protocol.getD env.nullProtocol
  | none => "modbus_tcp"

/-- One directory. -/
def syncChannelDir (acc : Progress) (dir : ChannelDir) : Except Failure Progress :=
  match channelDirId dir.name with
  | none => .ok acc
  | some channelId =>
    let protocol := channelProtocol env acc.1 channelId
    [PointType.telemetry, .signal, .control, .adjustment].foldlM
      (fun acc pointType =>
        syncPointType env channelId protocol acc pointType (dir.file pointType)) acc

/-- Its row. -/
def ChannelEntry.row (c : ChannelEntry) : Channel where
  channelId := c.id
  name := c.name
  protocol := some c.protocol
  enabled := c.enabled
  config := some c.config

/-- The id fits. -/
def ChannelEntry.accepted (c : ChannelEntry) : Bool := 0 < c.id && c.id ≤ 65535

/-- One channel. -/
def insertChannel (db : Db) (c : ChannelEntry) : Except Failure Db :=
  if c.accepted then (db.replaceChannel c.row).mapError .sql else .ok db

/-- `insert_channels`. -/
def insertChannels (db : Db) (channels : List ChannelEntry) : Except Failure Db :=
  channels.foldlM insertChannel db

/-- The loop over the names. -/
def findDuplicate (seen : Hash String Nat) (idx : Nat) : List ChannelEntry → Option (String × Nat × Nat)
  | [] => none
  | c :: rest =>
    match seen.lookup c.name with
    | some existing => some (c.name, existing, idx)
    | none => findDuplicate (seen.insert c.name idx) (idx + 1) rest

/-- The text of the error. -/
def duplicateMessage (name : String) (existing idx : Nat) : String :=
  s!"Duplicate channel name '{name}' found at indices {existing} and {idx}. " ++
    "Channel names must be unique. Please rename one of the channels in comsrv.yaml."

/-- The transaction. -/
def writeComsrv (force : Bool) (channels : List ChannelEntry) (dirs : List ChannelDir) (db : Db) :
    Except Failure Progress := do
  let db ← insertChannels (if force then db.clearComsrv else db) channels
  dirs.foldlM (syncChannelDir env) (db, [])

/-- `sync_comsrv`. -/
def syncComsrv (force : Bool) (dir : ComsrvDir) (db : Db) : Except Failure Progress :=
  match dir.yaml with
  | .read channels =>
    match findDuplicate ∅ 0 channels with
    | some (name, existing, idx) => .error (.message (duplicateMessage name existing idx))
    | none => writeComsrv env force channels dir.dirs db
  | _ => .error (.unreadable "comsrv.yaml")

end Comsrv

/-- The database after a run: what a failed run wrote is rolled back. -/
def afterSync (run : Db → Except Failure Progress) (db : Db) : Db :=
  match run db with
  | .ok (db', _) => db'
  | .error _ => db

/-! ## Instances -/

/-- An entry of `instances.yaml`. -/
structure InstanceEntry where
  instanceId : Nat
  instanceName : String
  productName : String
  parentId : Option Nat
deriving DecidableEq

/-- An entry of the array. -/
def readInstance (v : Json) : Except SyncError InstanceEntry :=
  match ((getField v "instance_id").bind Json.asU64).filter (0 < ·) with
  | none => .error ⟨"Instance definition", .invalidJson "instance_id" (getField v "instance_id")⟩
  | some id =>
    let instanceId := id % 2 ^ 32
    let instanceName := ((getField v "instance_name").bind Json.asStr).getD ""
    let productName := ((getField v "product_name").bind Json.asStr).getD ""
    if instanceName = "" then
      .error ⟨s!"Instance with id {instanceId}", .text "Missing instance_name"⟩
    else if productName = "" then
      .error ⟨s!"Instance: {instanceName}", .text "Missing product_name"⟩
    else
      .ok ⟨instanceId, instanceName, productName,
        ((getField v "parent_id").bind Json.asU64).map (· % 2 ^ 32)⟩

/-- Its row. -/
def InstanceEntry.row (e : InstanceEntry) : Instance where
  instanceId := e.instanceId
  instanceName := e.instanceName
  productName := normalizeProductName e.productName
  parentId := e.parentId

/-- `load_instance_properties`, in key order. A file that cannot be read counts as empty. -/
def loadInstanceProperties : FileState (List CsvRow) → List (String × String)
  | .read rows =>
    let properties : Hash String String := rows.foldl (fun m row =>
      match row.lookup "point_index", row.lookup "value" with
      | some index, some value => m.insert index value
      | _, _ => m) ∅
    (properties.entries.map fun e => (e.1, e.2)).insertionSort fun a b => a.1 ≤ b.1
  | _ => []

/-- One property. -/
def insertProperty (instanceId : Nat) (db : Db) (kv : String × String) : Db :=
  match parseSigned 63 kv.1 with
  | none => db
  | some propertyId =>
    match db.replaceProperty ⟨instanceId, propertyId, some (.str kv.2)⟩ with
    | .ok db' => db'
    | .error _ => db

/-- An id in a column. -/
def parseId (row : CsvRow) (field : String) : Option Nat :=
  ((row.lookup field).bind (parseSigned 31)).bind fun i => if 0 < i then some i.toNat else none

/-- `instance_type`. -/
def roleOf : String → Option PointRole
  | "M" => some .measurement
  | "A" => some .action
  | _ => none

/-- The role in messages. -/
def roleKind : PointRole → String
  | .measurement => "Measurement"
  | .action => "Action"

/-- A line of `channel_routing.csv`; an error is given as the item and the cause to be noted. -/
def readBinding (instanceName : String) (row : CsvRow) : Except (String × Cause) Binding :=
  match parseId row "channel_id" with
  | none => .error (s!"Routing for {instanceName}", .invalid "channel_id" (row.lookup "channel_id"))
  | some channelId =>
    let channelType := (row.lookup "channel_type").getD ""
    let routeCtx := s!"{channelId}:{channelType} for {instanceName}"
    if channelType ∉ ["T", "S", "C", "A"] then
      .error (s!"Routing {routeCtx}",
        .text s!"Invalid channel_type '{channelType}': must be T, S, C, or A")
    else
      match parseId row "channel_point_id" with
      | none => .error (s!"Routing {routeCtx}",
          .invalid "channel_point_id" (row.lookup "channel_point_id"))
      | some channelPointId =>
        let instanceType := (row.lookup "instance_type").getD ""
        match parseId row "instance_point_id" with
        | none => .error (s!"Routing {routeCtx}",
            .invalid "instance_point_id" (row.lookup "instance_point_id"))
        | some pointId =>
          match roleOf instanceType with
          | some role => .ok ⟨role, channelId, channelType, channelPointId, pointId⟩
          | none => .error (s!"Action routing {routeCtx}:{channelPointId}",
              .configuration s!"Invalid instance_type: {instanceType}. Must be 'M' or 'A'")

/-- One line. -/
def insertInstanceMapping (instanceName : String) (acc : Progress) (row : CsvRow) : Progress :=
  match readBinding instanceName row with
  | .error (item, cause) => note acc item cause
  | .ok b =>
    match acc.1.replaceRouting instanceName b with
    | .ok db => (db, acc.2)
    | .error e =>
      note acc
        s!"{roleKind b.role} routing {b.channelId}:{b.channelType} for {instanceName}:{b.channelPointId}"
        (.sql e)

/-- `insert_instance_mappings`. -/
def insertInstanceMappings (instanceName : String) (acc : Progress) :
    FileState (List CsvRow) → Progress
  | .missing => acc
  -- the path is given below the directory `modsrv`
  | .unreadable => note acc s!"CSV file: instances/{instanceName}/channel_routing.csv" .csv
  | .read rows => rows.foldl (insertInstanceMapping instanceName) acc

variable (instanceDir : String → InstanceDir)

/-- `process_single_instance`: the properties and routings of an instance that is refused are not
read. -/
def processSingleInstance (acc : Progress) (e : InstanceEntry) :
    Progress :=
  let dir := instanceDir e.instanceName
  match acc.1.replaceInstance e.row with
  | .error err => note acc s!"Instance: {e.instanceName}" (.sql err)
  | .ok db =>
    let db := (loadInstanceProperties dir.properties).foldl (insertProperty e.instanceId) db
    insertInstanceMappings e.instanceName (db, acc.2) dir.routing

/-- An entry of the array. -/
def syncArrayEntry (acc : Progress) (v : Json) : Progress :=
  match readInstance v with
  | .error e => (acc.1, acc.2 ++ [e])
  | .ok e => processSingleInstance instanceDir acc e

/-- `SELECT MAX(instance_id)`; the NULL of an empty table reads as 0. -/
def maxInstanceId (db : Db) : Nat := (db.instances.map Instance.instanceId).foldr max 0

/-- The sum wraps around; an id that does not fit `u32` cannot be decoded. -/
def getNextInstanceId (db : Db) : Except Failure Nat :=
  if maxInstanceId db < 2 ^ 32 then .ok ((maxInstanceId db + 1) % 2 ^ 32) else .error .instanceIds

/-- An entry of the legacy format. -/
def legacyEntry (instanceId : Nat) (kv : String × Json) : InstanceEntry where
  instanceId := instanceId
  instanceName := kv.1
  productName := ((getField kv.2 "product_name").bind Json.asStr).getD ""
  parentId := none

/-- The same, with the next id. -/
def syncLegacyEntry (acc : Progress) (kv : String × Json) :
    Except Failure Progress := do
  let instanceId ← getNextInstanceId acc.1
  return processSingleInstance instanceDir acc (legacyEntry instanceId kv)

/-- `sync_instances`. -/
def syncInstances (acc : Progress) :
    FileState Json → Except Failure Progress
  | .missing => .ok acc
  | .unreadable => .error (.unreadable "instances.yaml")
  | .read data =>
    match getField data "instances" with
    | some (.arr entries) => .ok (entries.foldl (syncArrayEntry instanceDir) acc)
    | some (.obj entries) => entries.foldlM (syncLegacyEntry instanceDir) acc
    | _ => .ok acc

/-! ## Rules -/

section Modsrv

variable (env : Env)

/-- The rule of a document. -/
def readRule (v : Json) : Option NewRule :=
  let flow := (getField v "flow_json").getD v
  (env.extractRuleFlow flow).map fun nodes =>
    { name := ((getField v "name").bind Json.asStr).getD ""
      description := (getField v "description").bind Json.asStr
      flowJson := flow
      nodesJson := nodes
      enabled := match getField v "enabled" with
        | some (.bool b) => b
        | _ => true
      priority := ((getField v "priority").bind Json.asI64).getD 0 }

/-- One file. -/
def syncRule (db : Db) : FileState Json → Except Failure Db
  | .read v =>
    match readRule env v with
    | some rule => .ok (db.insertRule rule)
    | none => .ok db
  | _ => .error (.unreadable "rules")

/-- `sync_rules`. -/
def syncRules (db : Db) (files : List (FileState Json)) : Except Failure Db :=
  files.foldlM (syncRule env) db

/-- The rules of a run. -/
def writeRules (force : Bool) (db : Db) : Option (List (FileState Json)) → Except Failure Db
  | none => .ok db
  | some files => syncRules env (if force then db.clearRules else db) files

/-- One run for `modsrv`. The product files are only checked and leave no trace in the database. -/
def syncModsrv (force : Bool) (dir : ModsrvDir) (db : Db) : Except Failure Progress :=
  match dir.yaml with
  | .read () => do
    let acc ← syncInstances dir.instanceDir (if force then db.clearModsrv else db, []) dir.instances
    let db ← writeRules env force acc.1 dir.rules
    return (db, acc.2)
  | _ => .error (.unreadable "modsrv.yaml")

end Modsrv

end VoltageEMS.Monarch
