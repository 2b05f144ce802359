import VoltageEMS.Monarch.Syncer

/-!
# The database into configuration files

`ConfigExporter` (`tools/monarch/src/core/exporter.rs`) writes what the database holds back into
files, in the layout that `ConfigSyncer` reads. A directory is given as its files read, so the two
compose; that the texts read as what was written is not part of the model.
-/

namespace VoltageEMS.Monarch

open Lib Comsrv.Mapping
open VoltageEMS.Modsrv.RoutingApi (PointRole)

/-- What the export takes from elsewhere: texts of floats (as `f64` and as JSON numbers), the
parameters of a channel, Unicode lower case, the typed reading of a point record, and the order of a
directory. -/
structure ExportEnv where
  displayF64 : Float → String
  numberText : Float → String
  channelConfig : Option String → String
  lowercase : String → String
  readPoint : PointType → CsvRow → Except String TypedPoint
  readDir : {α : Type} → List α → List α
  readPoint_id : ∀ {t row p}, readPoint t row = .ok p →
    (row.lookup "point_id").bind (parseUnsigned 10 (2 ^ 32)) = some p.pointId
  readDir_perm : ∀ {α : Type} (l : List α), (readDir l).Perm l

section Comsrv

variable (env : ExportEnv)

/-! ## Channels and points -/

/-- The fields of a channel. -/
def exportChannel (c : Channel) : ChannelEntry where
  id := c.channelId
  name := c.name
  protocol := c.protocol.getD "virtual"
  enabled := c.enabled
  config := env.channelConfig c.config

/-- `write_csv`, and the record as it is read: a column that the row does not have is empty. -/
def csvRecord (headers : List String) (row : CsvRow) : CsvRow :=
  headers.foldl (fun m h => m.insert h ((row.lookup h).getD "")) ∅

/-- `POINT_CSV_HEADERS`. -/
def pointCsvHeaders : List String :=
  ["point_id", "signal_name", "scale", "offset", "unit", "reverse", "data_type", "description"]

/-- A line of a point file. -/
def exportPoint (p : PointRow) : CsvRow :=
  (∅ : CsvRow).insertFields ([("point_id", toString p.pointId), ("signal_name", p.signalName),
      ("scale", env.displayF64 p.scale), ("offset", env.displayF64 p.offset)] ++
    (p.unit.map fun u => ("unit", u)).toList ++ [("reverse", toString p.reverse)] ++
    (p.dataType.map fun t => ("data_type", t)).toList ++
    (p.description.map fun d => ("description", d)).toList)

/-- The text of a plain value. -/
def valueText : Json → Option String
  | .int i => some (toString i.val)
  | .float f => some (env.numberText f)
  | .str s => some s
  | .bool b => some (toString b)
  | _ => none

/-- The mapping of a point, if it is an object; values of other kinds are left out. -/
def exportMapping (p : PointRow) : Option CsvRow :=
  match p.protocolMappings with
  | some (some (.obj o)) =>
    some ((∅ : CsvRow).insertFields (("point_id", toString p.pointId) ::
      o.filterMap fun kv => (valueText env kv.2).map fun s => (kv.1, s)))
  | _ => none

/-- The columns of a mapping file. -/
def mappingHeaders (first : CsvRow) : List String :=
  "point_id" :: (first.keys.filter (· ≠ "point_id")).insertionSort (· ≤ ·)

/-- The points of a channel, by id. -/
def channelPoints (db : Db) (channelId : Nat) (pointType : PointType) : List PointRow :=
  (db.points.filter fun p => p.pointType = pointType ∧ p.channelId = channelId).insertionSort
    fun p q => p.pointId ≤ q.pointId

/-- The records that cannot be read. -/
def recordErrors (records : List (Except String TypedPoint)) : List CsvRowError :=
  records.zipIdx.filterMap fun r =>
    match r.1 with
    | .ok _ => none
    | .error e => some ⟨r.2 + 1, e⟩

/-- The mapping file, if there are any. -/
def exportMappingFile (mappings : List CsvRow) : FileState (List CsvRow × List CsvRowError) :=
  match mappings with
  | [] => .missing
  | first :: _ => .read (mappings.map (csvRecord (mappingHeaders first)), [])

/-- The point file, if there are any. -/
def exportPointFile (points : List PointRow) (pointType : PointType) : FileState PointFile :=
  if points.isEmpty then .missing
  else
    let records := points.map fun p =>
      env.readPoint pointType (csvRecord pointCsvHeaders (exportPoint env p))
    .read ⟨records.filterMap Except.toOption, recordErrors records,
      exportMappingFile (points.filterMap (exportMapping env))⟩

/-- The directory of a channel. -/
def exportChannelDir (db : Db) (c : Channel) : ChannelDir where
  name := toString c.channelId
  file := fun t => exportPointFile env (channelPoints db c.channelId t) t

/-- `export_comsrv`. -/
def exportComsrv (db : Db) : ComsrvDir where
  yaml := .read (db.channels.map (exportChannel env))
  dirs := env.readDir (db.channels.map (exportChannelDir env db))

end Comsrv

/-! ## Instances -/

/-- `instance_type`. -/
def roleLetter : PointRole → String
  | .measurement => "M"
  | .action => "A"

/-- A line of `channel_routing.csv`, without the description; the channel's columns must not be
NULL. -/
def exportRouting (r : Routing) : Option CsvRow := do
  let channelId ← r.channelId
  let channelType ← r.channelType
  let channelPointId ← r.channelPointId
  return (∅ : CsvRow).insertFields [("channel_id", toString channelId),
    ("channel_type", channelType), ("channel_point_id", toString channelPointId),
    ("instance_type", roleLetter r.role), ("instance_point_id", toString r.pointId)]

/-- The columns of the file. -/
def routingCsvHeaders : List String :=
  ["channel_id", "channel_type", "channel_point_id", "instance_type", "instance_point_id",
    "description"]

/-- `ORDER BY`. -/
def routingOrder (r s : Routing) : Bool :=
  match r.role, s.role with
  | .measurement, .action => true
  | .action, .measurement => false
  | _, _ =>
    r.channelId.getD 0 < s.channelId.getD 0 || r.channelId == s.channelId &&
      (r.channelType.getD "" < s.channelType.getD "" || r.channelType == s.channelType &&
        r.channelPointId.getD 0 ≤ s.channelPointId.getD 0)

/-- The routings of an instance. -/
def instanceRoutings (db : Db) (instanceId : Nat) : List Routing :=
  (db.routings.filter fun r => r.instanceId = instanceId).insertionSort fun r s => routingOrder r s

/-- `export_instance_mappings`. -/
def exportInstanceMappings (db : Db) (name : String) : FileState (List CsvRow) :=
  match db.findInstance name with
  | none => .missing
  | some i =>
    let rows := (instanceRoutings db i.instanceId).filterMap exportRouting
    if rows.isEmpty then .missing else .read (rows.map (csvRecord routingCsvHeaders))

/-- The properties of an instance. -/
def exportProperties (db : Db) (instanceId : Nat) : JsonObject :=
  (db.properties.filter fun p => p.instanceId = instanceId).filterMap fun p =>
    p.valueJson.map fun v => (toString p.propertyId, v)

/-- The fields of an instance. Its id and its parent are not among them. -/
def exportInstance (db : Db) (i : Instance) : String × Json :=
  (i.instanceName, .obj (("product_name", .str i.productName) ::
    if db.properties.any (·.instanceId = i.instanceId) then
      [("properties", .obj (exportProperties db i.instanceId))]
    else []))

/-- `ORDER BY instance_name`. -/
def instancesByName (db : Db) : List Instance :=
  db.instances.insertionSort fun i j => i.instanceName ≤ j.instanceName

/-- `export_instances`. -/
def exportInstances (db : Db) : FileState Json :=
  if db.instances.isEmpty then .missing
  else .read (.obj [("instances", .obj ((instancesByName db).map (exportInstance db)))])

/-! ## Rules -/

section Rules

variable (env : ExportEnv)

/-- The file of a rule. -/
def ruleFile (r : Rule) : Json :=
  .obj [("name", .str r.name), ("description", .str (r.description.getD "")),
    ("enabled", .bool r.enabled), ("priority", .int (clampI64 r.priority)),
    ("cooldown_ms", .int (clampI64 r.cooldownMs)), ("flow_json", r.flowJson),
    ("format", .str "vue-flow"), ("id", .str (toString r.id))]

/-- Replaced by `_`. -/
def reservedChars : List Char := "/\\ .".toList

/-- The name of the file. -/
def safeName (r : Rule) : String :=
  if r.name = "" then s!"rule_{r.id}"
  else env.lowercase (r.name.map fun c => if c ∈ reservedChars then '_' else c)

/-- The files by name. A rule with the file name of an earlier one overwrites its file. -/
def ruleFiles (rules : List Rule) : Hash String Json :=
  (rules.insertionSort fun r s => r.id ≤ s.id).foldl
    (fun files r => files.insert (safeName env r) (ruleFile r)) ∅

/-- `export_rules`. -/
def exportRules (rules : List Rule) : Option (List (FileState Json)) :=
  if rules.isEmpty then none
  else some (env.readDir ((ruleFiles env rules).entries.map fun e => FileState.read e.2))

/-- `export_modsrv`. -/
def exportModsrv (db : Db) : Option ModsrvDir :=
  if db.routings.all fun r => (exportRouting r).isSome then
    some {
      yaml := .read ()
      instances := exportInstances db
      instanceDir := fun name => ⟨.missing, exportInstanceMappings db name⟩
      rules := exportRules env db.rules }
  else none

end Rules

/-- Export both services, then read the files with forced runs into an empty database. -/
def reimport (env : Env) (xenv : ExportEnv) (db : Db) : Option Db :=
  (exportModsrv xenv db).map fun modsrv =>
    afterSync (syncModsrv env true modsrv)
      (afterSync (syncComsrv env true (exportComsrv xenv db)) Db.empty)

end VoltageEMS.Monarch
