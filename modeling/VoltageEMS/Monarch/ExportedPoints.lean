import VoltageEMS.Monarch.SyncEffects
import VoltageEMS.Monarch.Exporter

/-!
# Points that are exported and read again

What a forced run makes of exported channels and points.
-/

namespace VoltageEMS.Monarch

open Lib Comsrv.Mapping List Option AList

variable {env : Env} {xenv : ExportEnv} {db db' : Db}

/-! ## Channels -/

theorem findDuplicate_eq_none :
    ∀ (cs : List ChannelEntry) (seen : Hash String Nat) (idx : Nat),
      (cs.map ChannelEntry.name).Nodup → (∀ c ∈ cs, seen.lookup c.name = none) →
      findDuplicate seen idx cs = none
  | [], _, _, _, _ => rfl
  | c :: cs, seen, idx, hnames, hseen => by
    rw [map_cons, nodup_cons] at hnames
    rw [findDuplicate, hseen c (.head _)]
    refine findDuplicate_eq_none cs _ _ hnames.2 fun d hd => ?_
    rw [Hash.lookup_insert_eq, if_neg, hseen d (.tail _ hd)]
    exact fun heq => hnames.1 (heq ▸ List.mem_map_of_mem hd)

theorem insertChannels_of_no_points :
    ∀ (cs : List ChannelEntry) {db : Db}, db.points = [] →
      ∃ db', insertChannels db cs = .ok db' ∧ db'.points = [] ∧ db'.rules = db.rules ∧
        db'.channels = replaceAll Channel.clash ((cs.filter ChannelEntry.accepted).map ChannelEntry.row)
          db.channels
  | [], db, hpoints => ⟨db, rfl, hpoints, rfl, rfl⟩
  | c :: cs, db, hpoints => by
    obtain ⟨mid, hone, hmid, hrules, hchannels⟩ : ∃ mid, insertChannel db c = .ok mid ∧
        mid.points = [] ∧ mid.rules = db.rules ∧ mid.channels =
          replaceAll Channel.clash (([c].filter ChannelEntry.accepted).map ChannelEntry.row)
            db.channels := by
      cases hc : c.accepted with
      | false => exact ⟨db, by rw [insertChannel, hc]; rfl, hpoints, rfl, by simp [hc, replaceAll]⟩
      | true =>
        have hfree : ∀ p ∈ db.points, p.channelId ∈ db.goneChannels c.row →
            p.channelId = c.row.channelId := fun p hp => absurd hp (hpoints ▸ not_mem_nil)
        have hput : ∃ mid, db.replaceChannel c.row = .ok mid := ⟨_, dif_pos hfree⟩
        obtain ⟨mid, hput⟩ := hput
        obtain ⟨hchannels, -, hp, -, -, hrules⟩ := Db.replaceChannel_ok hput
        refine ⟨mid, by rw [insertChannel, hc, if_pos rfl, hput]; rfl, hp.trans hpoints, hrules, ?_⟩
        rw [hchannels]
        simp [hc, replaceAll]
    obtain ⟨db', hrest, hp, hrules', hchannels'⟩ := insertChannels_of_no_points cs hmid
    refine ⟨db', ?_, hp, hrules'.trans hrules, ?_⟩
    · rw [insertChannels, foldlM_cons, hone]
      exact hrest
    rw [hchannels', hchannels]
    simp only [replaceAll, ← foldl_append, ← map_append, ← filter_append,
      singleton_append]

/-! ## Points -/

/-- The rows were put in, as far as their channel is there. -/
structure PointsPut (rows : List PointRow) (db db' : Db) : Prop where
  channels : db'.channels = db.channels
  rules : db'.rules = db.rules
  kept : ∀ k ∈ db.points.map PointRow.key, k ∈ db'.points.map PointRow.key
  put : ∀ r ∈ rows, r.channelId ∈ db.channels.map Channel.channelId →
    r.key ∈ db'.points.map PointRow.key
  written : ∀ r ∈ db'.points, r ∈ db.points ∨ r ∈ rows

namespace PointsPut

variable {rows rows' : List PointRow}

theorem refl (db : Db) : PointsPut [] db db := ⟨rfl, rfl, fun _ h => h, nofun, fun _ => .inl⟩

theorem trans {db₁ db₂ db₃ : Db} (h : PointsPut rows db₁ db₂) (h' : PointsPut rows' db₂ db₃) :
    PointsPut (rows ++ rows') db₁ db₃ where
  channels := h'.channels.trans h.channels
  rules := h'.rules.trans h.rules
  kept := fun k hk => h'.kept k (h.kept k hk)
  put := fun r hr hchannel => (mem_append.mp hr).elim
    (fun hr => h'.kept _ (h.put r hr hchannel))
    fun hr => h'.put r hr (h.channels ▸ hchannel)
  written := fun r hr => (h'.written r hr).elim
    (fun hr => (h.written r hr).imp_right (mem_append_left _))
    fun hr => .inr (mem_append_right _ hr)

end PointsPut

theorem pointsPut_syncPoint (channelId : Nat) (t : PointType)
    (table : Option (Hash String (Hash String Json))) (acc : Progress) (p : TypedPoint) :
    PointsPut [p.row t channelId (mappingText table p.pointId)] acc.1
      (syncPoint channelId t table acc p).1 := by
  unfold syncPoint
  cases hput : acc.1.replacePoint (p.row t channelId (mappingText table p.pointId)) with
  | ok db =>
    obtain ⟨hpoints, hchannels, -, -, -, hrules⟩ := Db.replacePoint_ok hput
    refine ⟨hchannels, hrules, fun k hk => ?_, fun r hr _ => ?_, fun r hr => ?_⟩
    · rw [hpoints]
      refine mem_keys_replaceRow hk ((em _).imp_right fun hne hgone => hne ?_)
      obtain ⟨r, -, hclash, rfl⟩ := mem_displaced.mp hgone
      exact eq_of_beq hclash
    · rw [mem_singleton.mp hr, hpoints]
      exact List.mem_map_of_mem (mem_replaceRow.mpr (.inr rfl))
    rw [hpoints] at hr
    exact (mem_replaceRow.mp hr).imp And.left mem_singleton.mpr
  | error e =>
    refine ⟨rfl, rfl, fun _ hk => hk, fun r hr hchannel => ?_, fun _ => .inl⟩
    rw [mem_singleton.mp hr] at hchannel
    rw [Db.replacePoint, dif_pos hchannel] at hput
    cases hput

theorem pointsPut_foldl (channelId : Nat) (t : PointType)
    (table : Option (Hash String (Hash String Json))) :
    ∀ (ps : List TypedPoint) (acc : Progress),
      PointsPut (ps.map fun p => p.row t channelId (mappingText table p.pointId)) acc.1
        (ps.foldl (syncPoint channelId t table) acc).1
  | [], _ => .refl _
  | p :: ps, acc =>
    (pointsPut_syncPoint channelId t table acc p).trans (pointsPut_foldl channelId t table ps _)

/-- The mappings of a file. -/
def fileTable (env : Env) (protocol : String) :
    FileState (List CsvRow × List CsvRowError) → Option (Hash String (Hash String Json))
  | .read (rows, _) => some (mappingMap env.parseF64 protocol rows)
  | _ => none

/-- The rows of a point file. -/
def fileRows (env : Env) (protocol : String) (channelId : Nat) (t : PointType) :
    FileState PointFile → List PointRow
  | .read f => f.points.map fun p =>
    p.row t channelId (mappingText (fileTable env protocol f.mapping) p.pointId)
  | _ => []

/-- Neither the point file nor its mapping file is unreadable. -/
def FileState.Readable : FileState PointFile → Prop
  | .missing => True
  | .unreadable => False
  | .read f => f.mapping ≠ .unreadable

variable {t : PointType} {channelId : Nat}

theorem pointsPut_syncPointType {protocol : String} {file : FileState PointFile} (h : file.Readable)
    (acc : Progress) :
    ∃ acc', syncPointType env channelId protocol acc t file = .ok acc' ∧
      PointsPut (fileRows env protocol channelId t file) acc.1 acc'.1 := by
  cases file with
  | missing => exact ⟨acc, rfl, .refl _⟩
  | unreadable => exact h.elim
  | read f =>
    have hload : ∃ errors, loadMappings env protocol
        s!"channel-{channelId}/{mappingFilename t}" f.mapping =
          .ok (fileTable env protocol f.mapping, errors) := by
      cases hm : f.mapping with
      | missing | read => exact ⟨_, rfl⟩
      | unreadable => exact absurd hm h
    obtain ⟨errors, hload⟩ := hload
    refine ⟨_, ?_, pointsPut_foldl channelId t (fileTable env protocol f.mapping) f.points
      (acc.1, acc.2 ++ (f.pointErrors.map fun e =>
        SyncError.fromCsvError e s!"channel-{channelId}/{csvFilename t}") ++ errors)⟩
    rw [syncPointType, hload]
    rfl

theorem channelProtocol_congr (h : db'.channels = db.channels) (channelId : Nat) :
    channelProtocol env db' channelId = channelProtocol env db channelId := by
  rw [channelProtocol, channelProtocol, h]

/-- The rows of a directory. -/
def dirRows (env : Env) (db : Db) (dir : ChannelDir) : List PointRow :=
  match channelDirId dir.name with
  | none => []
  | some channelId => [PointType.telemetry, .signal, .control, .adjustment].flatMap fun t =>
    fileRows env (channelProtocol env db channelId) channelId t (dir.file t)

variable {dir : ChannelDir} {r : PointRow}

theorem mem_dirRows :
    r ∈ dirRows env db dir ↔ ∃ channelId, channelDirId dir.name = some channelId ∧ ∃ t,
      r ∈ fileRows env (channelProtocol env db channelId) channelId t (dir.file t) := by
  unfold dirRows
  cases channelDirId dir.name with
  | none => simp
  | some channelId =>
    simp only [mem_flatMap, some.injEq, exists_eq_left']
    refine exists_congr fun t => and_iff_right ?_
    cases t <;> simp

theorem pointsPut_foldlM_types {protocol : String} (h : ∀ t, (dir.file t).Readable) :
    ∀ (ts : List PointType) (acc : Progress),
      ∃ acc', ts.foldlM (fun acc t => syncPointType env channelId protocol acc t (dir.file t)) acc =
          .ok acc' ∧
        PointsPut (ts.flatMap fun t => fileRows env protocol channelId t (dir.file t)) acc.1 acc'.1
  | [], acc => ⟨acc, rfl, .refl _⟩
  | t :: ts, acc => by
    obtain ⟨mid, hone, hput⟩ : ∃ mid,
        syncPointType env channelId protocol acc t (dir.file t) = .ok mid ∧
          PointsPut (fileRows env protocol channelId t (dir.file t)) acc.1 mid.1 :=
      pointsPut_syncPointType (h t) acc
    obtain ⟨acc', hrest, hput'⟩ := pointsPut_foldlM_types h ts mid
    refine ⟨acc', ?_, hput.trans hput'⟩
    rw [foldlM_cons, hone]
    exact hrest

theorem pointsPut_syncChannelDir (h : ∀ t, (dir.file t).Readable) (acc : Progress) :
    ∃ acc', syncChannelDir env acc dir = .ok acc' ∧
      PointsPut (dirRows env acc.1 dir) acc.1 acc'.1 := by
  unfold syncChannelDir dirRows
  cases channelDirId dir.name with
  | none => exact ⟨acc, rfl, .refl _⟩
  | some channelId => exact pointsPut_foldlM_types h _ acc

theorem pointsPut_syncDirs :
    ∀ {dirs : List ChannelDir}, (∀ d ∈ dirs, ∀ t, (d.file t).Readable) → ∀ acc : Progress,
      ∃ acc', dirs.foldlM (syncChannelDir env) acc = .ok acc' ∧
        PointsPut (dirs.flatMap (dirRows env acc.1)) acc.1 acc'.1
  | [], _, acc => ⟨acc, rfl, .refl _⟩
  | d :: dirs, h, acc => by
    obtain ⟨mid, hone, hput⟩ := pointsPut_syncChannelDir (h d (.head _)) acc
    obtain ⟨acc', hrest, hput'⟩ := pointsPut_syncDirs (fun e he => h e (.tail _ he)) mid
    refine ⟨acc', ?_, ?_⟩
    · rw [foldlM_cons, hone]
      exact hrest
    have hrows : dirs.flatMap (dirRows env mid.1) = dirs.flatMap (dirRows env acc.1) := by
      refine flatMap_congr fun d _ => ?_
      simp only [dirRows, channelProtocol_congr hput.channels]
    rw [flatMap_cons, ← hrows]
    exact hput.trans hput'

/-! ## Exported files -/

theorem readable_exportPointFile (points : List PointRow) (t : PointType) :
    (exportPointFile xenv points t).Readable := by
  unfold exportPointFile
  split
  · trivial
  unfold exportMappingFile
  split <;> exact nofun

theorem channelDirId_toString_iff {n m : Nat} :
    channelDirId (toString n) = some m ↔ n < 2 ^ 31 ∧ n = m := by
  have hdigits : (toString n).toList.all Char.isDigit = true := by
    rw [Nat.toString_eq_repr, Nat.toList_repr, List.all_eq_true]
    exact fun c hc => Nat.isDigit_of_mem_toDigits (by decide) (by decide) hc
  rw [channelDirId, if_pos hdigits]
  constructor
  · intro h
    obtain rfl : n = m := parseUnsigned_unique (parseUnsigned_toString (Nat.lt_succ_self n)) h
    exact ⟨parseUnsigned_lt h, rfl⟩
  rintro ⟨hbound, rfl⟩
  exact parseUnsigned_toString hbound

theorem mem_channelPoints {c : Nat} {p : PointRow} :
    p ∈ channelPoints db c t ↔ p ∈ db.points ∧ p.pointType = t ∧ p.channelId = c := by
  rw [channelPoints, mem_insertionSort, mem_filter, decide_eq_true_eq]

theorem lookup_csvRecord (headers : List String) (row : CsvRow) (k : String) :
    (csvRecord headers row).lookup k =
      if k ∈ headers then some ((row.lookup k).getD "") else none := by
  have hfold : ∀ (hs : List String) (m : CsvRow),
      (hs.foldl (fun m h => m.insert h ((row.lookup h).getD "")) m).lookup k =
        if k ∈ hs then some ((row.lookup k).getD "") else m.lookup k := by
    intro hs
    induction hs with
    | nil => intro m; rfl
    | cons h hs ih =>
      intro m
      rw [foldl_cons, ih, Hash.lookup_insert_eq]
      by_cases hk : k ∈ hs
      · rw [if_pos hk, if_pos (mem_cons_of_mem _ hk)]
      rw [if_neg hk]
      by_cases hkh : k = h
      · rw [if_pos hkh, if_pos (hkh ▸ mem_cons_self), hkh]
      · rw [if_neg hkh, if_neg (by simp [hkh, hk])]
  exact hfold headers ∅

theorem pointId_of_readPoint {p : PointRow} {tp : TypedPoint}
    (h : xenv.readPoint t (csvRecord pointCsvHeaders (exportPoint xenv p)) = .ok tp) :
    tp.pointId = p.pointId := by
  have hid := xenv.readPoint_id h
  have hlookup : (exportPoint xenv p).lookup "point_id" = some (toString p.pointId) := by
    rw [exportPoint, Hash.lookup_insertFields]
    refine insertAll_of_unique (by simp) fun w hw => ?_
    simpa using hw
  rw [lookup_csvRecord, if_pos (by decide), hlookup, getD_some, bind_some] at hid
  exact parseUnsigned_unique hid (parseUnsigned_toString (Nat.lt_succ_self p.pointId))

/-! ## A line of a mapping file -/

section Mapping

variable {parseF64 : String → Option Float}

/-- What a text is stored as. -/
def storedValue (parseF64 : String → Option Float) (protocol field text : String) : Json :=
  if protocol ∈ ["modbus_tcp", "modbus_rtu", "sunspec_tcp", "sunspec_rtu"] then
    let v := convertField parseF64
      ["slave_id", "function_code", "register_address", "bit_position"] field text
    if field = "bit_position" then (v.f64.map fun f => Json.int (roundAsI64 f)).getD v else v
  else if protocol = "can" then
    convertField parseF64 ["can_id", "start_bit", "bit_length", "scale", "offset"] field text
  else if protocol ∈ ["di_do", "gpio", "dido"] then
    convertField parseF64 ["gpio_number"] field text
  else .str text

/-- What a missing field is stored as. -/
def defaultValue (protocol field : String) : Option Json :=
  if protocol ∈ ["modbus_tcp", "modbus_rtu", "sunspec_tcp", "sunspec_rtu"] then
    if field = "bit_position" then some (.int (clampI64 0)) else none
  else if protocol = "can" then
    if field = "signed" then some (.bool false)
    else if field = "scale" then some (.int (clampI64 1))
    else if field = "offset" then some (.int (clampI64 0))
    else none
  else none

theorem lookup_roundBitPosition (m : Hash String Json) (k : String) :
    (roundBitPosition m).lookup k = (m.lookup k).map fun v =>
      if k = "bit_position" then (v.f64.map fun f => Json.int (roundAsI64 f)).getD v else v := by
  unfold roundBitPosition
  by_cases hk : k = "bit_position"
  · subst hk
    cases hv : m.lookup "bit_position" with
    | none => simp [hv]
    | some v => cases hf : v.f64 <;> simp [hv, hf, lookup_insert]
  cases (m.lookup "bit_position").bind Json.f64 with
  | none | some => simp [hk]

theorem lookup_normalizeProtocolMapping (protocol : String) (row : CsvRow) (k : String) :
    (normalizeProtocolMapping parseF64 protocol row).lookup k =
      (((row.erase "point_id").lookup k).map (storedValue parseF64 protocol k)).or
        (defaultValue protocol k) := by
  unfold normalizeProtocolMapping storedValue defaultValue
  generalize row.erase "point_id" = m
  have hconvert : ∀ fields, (convertFields parseF64 m fields).lookup k =
      (m.lookup k).map (convertField parseF64 fields k) := fun _ => Hash.lookup_mapVals _ _ _
  split
  · -- the default of the bit position is rounded with it
    have hround : (Json.int (clampI64 0)).f64.map roundAsI64 = some (clampI64 0) := by
      decide +kernel
    have hzero : (Json.int (clampI64 0)).f64.map (fun f => Json.int (roundAsI64 f)) =
        some (.int (clampI64 0)) := by
      rw [← map_some, ← hround, Option.map_map]
      rfl
    rw [lookup_roundBitPosition, Hash.lookup_orInsert, hconvert]
    by_cases hk : k = "bit_position"
    · cases m.lookup k <;> simp [hk, hzero]
    · cases m.lookup k <;> simp [hk]
  split
  · simp only [Hash.lookup_orInsert, hconvert]
    cases m.lookup k with
    | some s => simp
    | none =>
      by_cases h₁ : k = "signed"
      · simp [h₁]
      by_cases h₂ : k = "scale"
      · simp [h₂]
      · simp [h₁, h₂]
  split
  · rw [hconvert, or_none]
  rw [hconvert, or_none]
  rfl

theorem mappingMap_eq (protocol : String) (rows : List CsvRow) :
    mappingMap parseF64 protocol rows = (∅ : Hash String (Hash String Json)).insertFields
      (rows.filterMap fun row => (row.lookup "point_id").map fun id =>
        (id, normalizeProtocolMapping parseF64 protocol row)) := by
  unfold mappingMap
  generalize (∅ : Hash String (Hash String Json)) = m
  induction rows generalizing m with
  | nil => rfl
  | cons row rows ih =>
    rw [foldl_cons, ih, filterMap_cons]
    cases row.lookup "point_id" <;> rfl

theorem get_entries (m : Hash String Json) (k : String) :
    JsonObject.get (m.entries.map fun e => (e.1, e.2)) k = m.lookup k := by
  obtain ⟨entries, hentries⟩ := m
  change JsonObject.get (entries.map fun e => (e.1, e.2)) k = entries.dlookup k
  clear hentries
  induction entries with
  | nil => rfl
  | cons e entries ih =>
    obtain ⟨field, v⟩ := e
    rw [map_cons, JsonObject.get]
    by_cases hk : field = k
    · rw [if_pos hk, ← hk, dlookup_cons_eq]
    rw [if_neg hk, ih]
    exact (dlookup_cons_ne entries (⟨field, v⟩ : Sigma fun _ : String => Json)
      (Ne.symm hk)).symm

end Mapping

/-! ## The mapping of a point -/

/-- The mapping, if an object. -/
def PointRow.mapping (p : PointRow) : Option JsonObject :=
  match p.protocolMappings with
  | some (some (.obj o)) => some o
  | _ => none

/-- A value of the mapping. -/
def PointRow.value (p : PointRow) (k : String) : Option Json :=
  p.protocolMappings.join.bind (getField · k)

/-- Its text in the file. -/
def PointRow.field (xenv : ExportEnv) (p : PointRow) (k : String) : Option String :=
  (p.value k).bind (valueText xenv)

theorem value_eq (p : PointRow) (k : String) : p.value k = p.mapping.bind (·.get k) := by
  unfold PointRow.value PointRow.mapping
  rcases p.protocolMappings with _ | _ | _ | _ | _ | _ | _ | _ | _ <;> rfl

theorem exportMapping_eq (p : PointRow) : exportMapping xenv p = p.mapping.map fun o =>
    (∅ : CsvRow).insertFields (("point_id", toString p.pointId) ::
      o.filterMap fun kv => (valueText xenv kv.2).map fun s => (kv.1, s)) := by
  unfold exportMapping PointRow.mapping
  rcases p.protocolMappings with _ | _ | _ | _ | _ | _ | _ | _ | _ <;> rfl

/-- The mapping has no `point_id`. -/
def PointRow.Anonymous (p : PointRow) : Prop :=
  ∀ o, p.mapping = some o → "point_id" ∉ o.map Prod.fst

variable {k : String}

theorem get_eq_some_of_mem {o : JsonObject} (hkeys : (o.map Prod.fst).Nodup) {v : Json} :
    o.get k = some v ↔ (k, v) ∈ o := by
  induction o with
  | nil => simp [JsonObject.get]
  | cons e o ih =>
    obtain ⟨k', v'⟩ := e
    rw [map_cons, nodup_cons] at hkeys
    rw [JsonObject.get, mem_cons]
    by_cases hk : k' = k
    · subst hk
      rw [if_pos rfl]
      constructor
      · rintro ⟨⟩
        exact .inl rfl
      rintro (heq | hmem)
      · cases heq
        rfl
      · exact absurd (List.mem_map_of_mem hmem) hkeys.1
    rw [if_neg hk, ih hkeys.2]
    refine ⟨.inr, fun h => h.resolve_left fun heq => hk ?_⟩
    cases heq
    rfl

variable {row : CsvRow}

theorem mapping_isSome {p : PointRow} (h : exportMapping xenv p = some row) : p.mapping.isSome = true := by
  rw [exportMapping_eq] at h
  rw [← isSome_map, h]
  rfl

theorem pointId_exportMapping {p : PointRow} (hp : p.Anonymous)
    (h : exportMapping xenv p = some row) : row.lookup "point_id" = some (toString p.pointId) := by
  rw [exportMapping_eq] at h
  obtain ⟨o, ho, rfl⟩ := map_eq_some_iff.mp h
  rw [Hash.lookup_insertFields]
  refine insertAll_of_unique (mem_cons_self ..) fun w hw => ?_
  rcases mem_cons.mp hw with heq | hmem
  · cases heq
    rfl
  obtain ⟨kv, hkv, htext⟩ := mem_filterMap.mp hmem
  obtain ⟨s, -, heq⟩ := map_eq_some_iff.mp htext
  exact absurd (List.mem_map.mpr ⟨kv, hkv, (Prod.mk.inj heq).1⟩) (hp o ho)

theorem lookup_exportMapping {p : PointRow}
    (hkeys : ∀ o, p.mapping = some o → (o.map Prod.fst).Nodup) (h : exportMapping xenv p = some row)
    (hk : k ≠ "point_id") : row.lookup k = p.field xenv k := by
  rw [exportMapping_eq] at h
  obtain ⟨o, ho, rfl⟩ := map_eq_some_iff.mp h
  rw [Hash.lookup_insertFields, PointRow.field, value_eq, ho, bind_some]
  have hmem : ∀ s, (k, s) ∈ ("point_id", toString p.pointId) :: (o.filterMap fun kv =>
      (valueText xenv kv.2).map fun s => (kv.1, s)) ↔ (o.get k).bind (valueText xenv) = some s := by
    intro s
    rw [mem_cons, or_iff_right fun heq => hk (Prod.mk.inj heq).1, mem_filterMap,
      bind_eq_some_iff]
    constructor
    · rintro ⟨kv, hkv, htext⟩
      obtain ⟨s', hs, heq⟩ := map_eq_some_iff.mp htext
      cases heq
      exact ⟨kv.2, (get_eq_some_of_mem (hkeys o ho)).mpr hkv, hs⟩
    rintro ⟨v, hv, hs⟩
    exact ⟨(k, v), (get_eq_some_of_mem (hkeys o ho)).mp hv, by rw [hs]; rfl⟩
  cases hs : (o.get k).bind (valueText xenv) with
  | some s => exact insertAll_of_unique ((hmem s).mpr hs) fun w hw =>
      some.inj (((hmem w).mp hw).symm.trans hs)
  | none =>
    refine insertAll_of_notMem fun hin => ?_
    obtain ⟨⟨k', s⟩, hs', rfl⟩ := List.mem_map.mp hin
    rw [(hmem s).mp hs'] at hs
    cases hs

theorem mem_exportMapping {p : PointRow} (hp : p.Anonymous)
    (hkeys : ∀ o, p.mapping = some o → (o.map Prod.fst).Nodup) (h : exportMapping xenv p = some row)
    (k : String) : k ∈ row ↔ k = "point_id" ∨ (p.field xenv k).isSome = true := by
  rw [← lookup_isSome]
  by_cases hk : k = "point_id"
  · rw [hk, pointId_exportMapping hp h]
    simp
  · rw [lookup_exportMapping hkeys h hk, or_iff_right hk]

section File

variable {protocol : String} {points : List PointRow} {p : PointRow}

theorem mem_lines (hplain : ∀ q ∈ points, q.Anonymous) {headers : List String}
    (hid : "point_id" ∈ headers) {m : Hash String Json} :
    (k, m) ∈ ((points.filterMap (exportMapping xenv)).map (csvRecord headers)).filterMap (fun row =>
        (row.lookup "point_id").map fun id =>
          (id, normalizeProtocolMapping env.parseF64 protocol row)) ↔
      ∃ q ∈ points, ∃ row, exportMapping xenv q = some row ∧ toString q.pointId = k ∧
        normalizeProtocolMapping env.parseF64 protocol (csvRecord headers row) = m := by
  have hline : ∀ q ∈ points, ∀ row, exportMapping xenv q = some row →
      (csvRecord headers row).lookup "point_id" = some (toString q.pointId) := by
    intro q hq row hrow
    rw [lookup_csvRecord, if_pos hid, pointId_exportMapping (hplain q hq) hrow, getD_some]
  simp only [mem_filterMap, List.mem_map, exists_exists_and_eq_and]
  constructor
  · rintro ⟨row, ⟨q, hq, hrow⟩, heq⟩
    rw [hline q hq row hrow] at heq
    cases heq
    exact ⟨q, hq, row, hrow, rfl, rfl⟩
  rintro ⟨q, hq, row, hrow, rfl, rfl⟩
  exact ⟨row, ⟨q, hq, hrow⟩, by rw [hline q hq row hrow]; rfl⟩

theorem lookup_fileTable (hids : (points.map PointRow.pointId).Nodup)
    (hplain : ∀ q ∈ points, q.Anonymous) (hp : p ∈ points) :
    (fileTable env protocol (exportMappingFile (points.filterMap (exportMapping xenv)))).bind
        (·.lookup (toString p.pointId)) =
      (exportMapping xenv p).bind fun row => (points.findSome? (exportMapping xenv)).map fun first =>
        normalizeProtocolMapping env.parseF64 protocol (csvRecord (mappingHeaders first) row) := by
  rw [← head?_filterMap]
  cases hrows : points.filterMap (exportMapping xenv) with
  | nil =>
    rw [filterMap_eq_nil_iff.mp hrows p hp]
    rfl
  | cons first rest =>
    rw [head?_cons, exportMappingFile, fileTable, bind_some, mappingMap_eq, ← hrows,
      Hash.lookup_insertFields]
    -- ids are distinct, so the line is the one of the point itself
    have hself : ∀ q ∈ points, toString q.pointId = toString p.pointId → q = p := fun q hq heq =>
      inj_on_of_nodup_map hids hq hp (Nat.repr_injective heq)
    cases hrow : exportMapping xenv p with
    | some row =>
      refine insertAll_of_unique ((mem_lines hplain (mem_cons_self ..)).mpr
        ⟨p, hp, row, hrow, rfl, rfl⟩) fun m hm => ?_
      obtain ⟨q, hq, row', hrow', hid, rfl⟩ := (mem_lines hplain (mem_cons_self ..)).mp hm
      rw [hself q hq hid, hrow] at hrow'
      cases hrow'
      rfl
    | none =>
      refine insertAll_of_notMem fun hin => ?_
      obtain ⟨⟨k, m⟩, hm, rfl⟩ := List.mem_map.mp hin
      obtain ⟨q, hq, row', hrow', hid, -⟩ := (mem_lines hplain (mem_cons_self ..)).mp hm
      rw [hself q hq hid, hrow] at hrow'
      cases hrow'

end File

/-! ## Mappings that come back -/

/-- The protocol a channel is read with. -/
def exportedProtocol (db : Db) (channelId : Nat) : String :=
  match db.channels.find? fun c => c.channelId == channelId with
  | some c => c.protocol.getD "virtual"
  | none => "modbus_tcp"

/-- The point is read again: the id of its channel fits, and its record reads as a point. If it has
a mapping, this is an object of strings, numbers and booleans with the columns of the first mapping
of its file; no field is added to it, and the values that its texts are stored as have the same
texts. -/
structure PointKept (env : Env) (xenv : ExportEnv) (db : Db) (p : PointRow) : Prop where
  channel : 0 < p.channelId ∧ p.channelId ≤ 65535
  readable : (xenv.readPoint p.pointType (csvRecord pointCsvHeaders (exportPoint xenv p))).isOk = true
  flat : ∀ o, p.mapping = some o →
    (o.map Prod.fst).Nodup ∧ ∀ kv ∈ o, (valueText xenv kv.2).isSome = true
  anonymous : ∀ q ∈ channelPoints db p.channelId p.pointType, q.Anonymous
  columns : p.mapping.isSome = true →
    ∀ first ∈ (channelPoints db p.channelId p.pointType).findSome? (exportMapping xenv),
      ∀ k, k ∈ first ↔ k = "point_id" ∨ (p.field xenv k).isSome = true
  defaults : p.mapping.isSome = true →
    ∀ k, (p.field xenv k).isSome = true ∨ defaultValue (exportedProtocol db p.channelId) k = none
  texts : ∀ k s, p.field xenv k = some s →
    valueText xenv (storedValue env.parseF64 (exportedProtocol db p.channelId) k s) = some s

theorem nodup_channelPoints (db : Db) (channelId : Nat) (t : PointType) :
    ((channelPoints db channelId t).map PointRow.pointId).Nodup := by
  have hkeys : ((channelPoints db channelId t).map PointRow.key).Nodup := by
    rw [channelPoints, ((perm_insertionSort _ _).map _).nodup_iff]
    exact (filter_sublist.map _).nodup db.pointKeys
  have heq : (channelPoints db channelId t).map PointRow.key =
      ((channelPoints db channelId t).map PointRow.pointId).map fun id => (t, channelId, id) := by
    rw [List.map_map]
    refine map_congr_left fun q hq => ?_
    obtain ⟨-, rfl, rfl⟩ := mem_channelPoints.mp hq
    rfl
  rw [heq] at hkeys
  exact hkeys.of_map _

namespace PointKept

variable {p : PointRow}

theorem mem_points (hp : p ∈ db.points) : p ∈ channelPoints db p.channelId p.pointType :=
  mem_channelPoints.mpr ⟨hp, rfl, rfl⟩

variable (h : PointKept env xenv db p)
include h

theorem map_value (k : String) : (p.value k).map (valueText xenv) = (p.field xenv k).map some := by
  rw [PointRow.field, value_eq]
  cases ho : p.mapping with
  | none => rfl
  | some o =>
    rw [bind_some]
    cases hv : o.get k with
    | none => rfl
    | some v =>
      obtain ⟨hkeys, hflat⟩ := h.flat o ho
      obtain ⟨s, hs⟩ := isSome_iff_exists.mp (hflat _ ((get_eq_some_of_mem hkeys).mp hv))
      simp only [map_some, bind_some, hs]

theorem field_pointId (hp : p ∈ db.points) : p.field xenv "point_id" = none := by
  rw [PointRow.field, value_eq]
  cases ho : p.mapping with
  | none => rfl
  | some o =>
    rw [bind_some]
    cases hv : o.get "point_id" with
    | none => rfl
    | some v =>
      have hmem := (get_eq_some_of_mem (h.flat o ho).1).mp hv
      exact absurd (List.mem_map_of_mem hmem) (h.anonymous p (mem_points hp) o ho)

theorem lookup_record (hp : p ∈ db.points) {first : CsvRow} (hrow : exportMapping xenv p = some row)
    (hfirst : (channelPoints db p.channelId p.pointType).findSome? (exportMapping xenv) = some first)
    (k : String) :
    ((csvRecord (mappingHeaders first) row).erase "point_id").lookup k = p.field xenv k := by
  by_cases hk : k = "point_id"
  · rw [hk, lookup_erase, h.field_pointId hp]
  have hcolumn : k ∈ mappingHeaders first ↔ (p.field xenv k).isSome = true := by
    rw [mappingHeaders, mem_cons, or_iff_right hk, mem_insertionSort, mem_filter,
      decide_eq_true_eq, and_iff_left hk, ← AList.mem_keys, h.columns (mapping_isSome hrow) first hfirst k,
      or_iff_right hk]
  rw [lookup_erase_ne hk, lookup_csvRecord,
    lookup_exportMapping (fun o ho => (h.flat o ho).1) hrow hk]
  cases hfield : p.field xenv k with
  | none => rw [if_neg (by rw [hcolumn, hfield]; exact nofun)]
  | some s => rw [if_pos (by rw [hcolumn, hfield]; rfl), getD_some]

theorem mappingText_reimported (hp : p ∈ db.points) (k : String) :
    ((mappingText (fileTable env (exportedProtocol db p.channelId) (exportMappingFile
        ((channelPoints db p.channelId p.pointType).filterMap (exportMapping xenv)))) p.pointId).bind
          (getField · k)).map (valueText xenv) = (p.value k).map (valueText xenv) := by
  rw [h.map_value, mappingText,
    lookup_fileTable (nodup_channelPoints _ _ _) h.anonymous (mem_points hp)]
  cases hrow : exportMapping xenv p with
  | none =>
    rw [exportMapping_eq, map_eq_none_iff] at hrow
    rw [PointRow.field, value_eq, hrow]
    rfl
  | some row =>
    cases hfirst : (channelPoints db p.channelId p.pointType).findSome? (exportMapping xenv) with
    | none =>
      rw [findSome?_eq_none_iff.mp hfirst p (mem_points hp)] at hrow
      cases hrow
    | some first =>
      change ((getField (.obj _) k).map (valueText xenv)) = _
      rw [getField, get_entries, lookup_normalizeProtocolMapping, h.lookup_record hp hrow hfirst]
      cases hfield : p.field xenv k with
      | none =>
        have hdefault := (h.defaults (mapping_isSome hrow) k).resolve_left (by rw [hfield]; exact nofun)
        rw [hdefault]
        rfl
      | some s =>
        simp only [map_some, some_or]
        rw [h.texts k s hfield]

end PointKept

/-! ## The whole run -/

/-- The channels put in. -/
def exportedChannels (xenv : ExportEnv) (db : Db) : List Channel :=
  ((db.channels.map (exportChannel xenv)).filter ChannelEntry.accepted).map ChannelEntry.row

theorem exportedChannels_separate (xenv : ExportEnv) (db : Db) :
    (exportedChannels xenv db).Pairwise fun c d => Channel.clash d c = false := by
  have hids := pairwise_map.mp db.channelIds
  have hnames := pairwise_map.mp db.channelNames
  refine pairwise_map.mpr (List.Pairwise.sublist filter_sublist (pairwise_map.mpr ?_))
  refine (hids.and hnames).imp fun {c d} hne => ?_
  rw [← Bool.not_eq_true, Channel.clash_iff]
  exact fun hclash => hclash.elim hne.1 hne.2

theorem mem_exportedChannels {c : Channel} (hc : c ∈ db.channels)
    (hid : 0 < c.channelId ∧ c.channelId ≤ 65535) :
    (exportChannel xenv c).row ∈ exportedChannels xenv db := by
  refine List.mem_map_of_mem (mem_filter.mpr ⟨List.mem_map_of_mem hc, ?_⟩)
  exact Bool.and_eq_true_iff.mpr ⟨decide_eq_true hid.1, decide_eq_true hid.2⟩

theorem syncComsrv_exported (env : Env) (xenv : ExportEnv) (db : Db) :
    ∃ mid acc, syncComsrv env true (exportComsrv xenv db) Db.empty = .ok acc ∧ mid.points = [] ∧
      mid.channels = replaceAll Channel.clash (exportedChannels xenv db) [] ∧
      PointsPut ((exportComsrv xenv db).dirs.flatMap (dirRows env mid)) mid acc.1 := by
  have hnames : ((db.channels.map (exportChannel xenv)).map ChannelEntry.name).Nodup := by
    rw [List.map_map]
    exact db.channelNames
  have hunique : findDuplicate ∅ 0 (db.channels.map (exportChannel xenv)) = none :=
    findDuplicate_eq_none _ ∅ 0 hnames fun _ _ => rfl
  have hcleared : Db.empty.clearComsrv.points = [] := rfl
  obtain ⟨mid, hinsert, hpoints, -, hchannels⟩ :=
    insertChannels_of_no_points (db.channels.map (exportChannel xenv)) hcleared
  have hreadable : ∀ d ∈ (exportComsrv xenv db).dirs, ∀ t, (d.file t).Readable := by
    intro d hd t
    obtain ⟨c, -, rfl⟩ := List.mem_map.mp ((xenv.readDir_perm _).mem_iff.mp hd)
    exact readable_exportPointFile _ _
  obtain ⟨acc, hdirs, hput⟩ := pointsPut_syncDirs hreadable (mid, [])
  refine ⟨mid, acc, ?_, hpoints, hchannels, hput⟩
  have hyaml : (exportComsrv xenv db).yaml = .read (db.channels.map (exportChannel xenv)) := rfl
  rw [syncComsrv, hyaml]
  simp only [hunique]
  rw [writeComsrv, if_pos rfl, hinsert]
  exact hdirs

variable {mid : Db}

theorem channelProtocol_exported (env : Env)
    (hmid : mid.channels = replaceAll Channel.clash (exportedChannels xenv db) []) {c : Channel}
    (hc : c ∈ db.channels) (hid : 0 < c.channelId ∧ c.channelId ≤ 65535) :
    c.channelId ∈ mid.channels.map Channel.channelId ∧
      channelProtocol env mid c.channelId = exportedProtocol db c.channelId := by
  have hrow : (exportChannel xenv c).row ∈ mid.channels :=
    hmid ▸ mem_replaceAll_of_pairwise (exportedChannels_separate xenv db) (mem_exportedChannels hc hid)
  refine ⟨List.mem_map.mpr ⟨_, hrow, rfl⟩, ?_⟩
  have hfound := (find?_key_eq_some_iff mid.channelIds).mpr ⟨hrow, rfl⟩
  have hfound' := (find?_key_eq_some_iff db.channelIds).mpr ⟨hc, rfl⟩
  have hsame : (exportChannel xenv c).row.channelId = c.channelId := rfl
  rw [hsame] at hfound
  rw [channelProtocol, exportedProtocol, hfound, hfound']
  rfl

theorem mem_fileRows_exported {protocol : String} :
    r ∈ fileRows env protocol channelId t
        (exportPointFile xenv (channelPoints db channelId t) t) ↔
      ∃ p ∈ channelPoints db channelId t, ∃ tp,
        xenv.readPoint t (csvRecord pointCsvHeaders (exportPoint xenv p)) = .ok tp ∧
        r = tp.row t channelId (mappingText (fileTable env protocol (exportMappingFile
          ((channelPoints db channelId t).filterMap (exportMapping xenv)))) p.pointId) := by
  unfold exportPointFile
  split
  · rename_i hempty
    rw [List.isEmpty_iff.mp hempty]
    simp [fileRows]
  simp only [fileRows, List.mem_map, mem_filterMap, exists_exists_and_eq_and]
  constructor
  · rintro ⟨tp, ⟨p, hp, hread⟩, rfl⟩
    cases hrecord : xenv.readPoint t (csvRecord pointCsvHeaders (exportPoint xenv p)) with
    | error e =>
      rw [hrecord] at hread
      cases hread
    | ok tp' =>
      rw [hrecord] at hread
      cases hread
      exact ⟨p, hp, tp, hrecord, by rw [pointId_of_readPoint hrecord]⟩
  rintro ⟨p, hp, tp, hread, rfl⟩
  exact ⟨tp, ⟨p, hp, by rw [hread]; rfl⟩, by rw [pointId_of_readPoint hread]⟩

/-- The row put in. -/
def exportedRow (env : Env) (xenv : ExportEnv) (db mid : Db) (channelId : Nat) (t : PointType)
    (tp : TypedPoint) (pointId : Nat) : PointRow :=
  tp.row t channelId (mappingText (fileTable env (channelProtocol env mid channelId)
    (exportMappingFile ((channelPoints db channelId t).filterMap (exportMapping xenv)))) pointId)

theorem mem_exportedRows :
    r ∈ (exportComsrv xenv db).dirs.flatMap (dirRows env mid) ↔
      ∃ c ∈ db.channels, c.channelId < 2 ^ 31 ∧ ∃ t, ∃ p ∈ channelPoints db c.channelId t, ∃ tp,
        xenv.readPoint t (csvRecord pointCsvHeaders (exportPoint xenv p)) = .ok tp ∧
        r = exportedRow env xenv db mid c.channelId t tp p.pointId := by
  have hdirs : ∀ d, d ∈ (exportComsrv xenv db).dirs ↔
      ∃ c ∈ db.channels, exportChannelDir xenv db c = d := fun d =>
    (xenv.readDir_perm _).mem_iff.trans List.mem_map
  simp only [mem_flatMap, hdirs, exists_exists_and_eq_and, mem_dirRows]
  refine exists_congr fun c => and_congr_right fun _ => ?_
  constructor
  · rintro ⟨channelId, hname, t, hr⟩
    obtain ⟨hbound, rfl⟩ := channelDirId_toString_iff.mp hname
    exact ⟨hbound, t, mem_fileRows_exported.mp hr⟩
  rintro ⟨hbound, t, hr⟩
  exact ⟨c.channelId, channelDirId_toString_iff.mpr ⟨hbound, rfl⟩, t, mem_fileRows_exported.mpr hr⟩

/-- **A point that is kept** is there again, and its mapping has the same keys and texts. -/
theorem point_reimported {p : PointRow} (hp : p ∈ db.points) (h : PointKept env xenv db p)
    (hmid : mid.channels = replaceAll Channel.clash (exportedChannels xenv db) [])
    (hnone : mid.points = [])
    (hput : PointsPut ((exportComsrv xenv db).dirs.flatMap (dirRows env mid)) mid db') :
    ∃ p' ∈ db'.points, p'.key = p.key ∧
      ∀ k, (p'.value k).map (valueText xenv) = (p.value k).map (valueText xenv) := by
  obtain ⟨c, hc, hid⟩ := List.mem_map.mp (db.pointChannels p hp)
  obtain ⟨hchannel, hprotocol⟩ := channelProtocol_exported env hmid hc (hid ▸ h.channel)
  rw [hid] at hchannel hprotocol
  have hthere : p.key ∈ db'.points.map PointRow.key := by
    have hok := h.readable
    cases hread : xenv.readPoint p.pointType (csvRecord pointCsvHeaders (exportPoint xenv p)) with
    | error e =>
      rw [hread] at hok
      cases hok
    | ok tp =>
      have hbound : c.channelId < 2 ^ 31 := by
        have := h.channel.2
        omega
      have hkey : (exportedRow env xenv db mid c.channelId p.pointType tp p.pointId).key = p.key :=
        congrArg (p.pointType, ·) (Prod.ext hid (pointId_of_readPoint hread))
      refine hkey ▸ hput.put _ (mem_exportedRows.mpr ?_) (hid ▸ hchannel)
      exact ⟨c, hc, hbound, p.pointType, p, hid ▸ PointKept.mem_points hp, tp, hread, rfl⟩
  obtain ⟨p', hp', hkey⟩ := List.mem_map.mp hthere
  refine ⟨p', hp', hkey, fun k => ?_⟩
  rcases hput.written p' hp' with hold | hnew
  · exact absurd (hnone ▸ hold) not_mem_nil
  -- the row is one of the same point
  obtain ⟨c', -, -, t, q, -, tp, hread, rfl⟩ := mem_exportedRows.mp hnew
  obtain ⟨rfl, hrest⟩ := Prod.mk.inj hkey
  obtain ⟨hid', hpoint⟩ := Prod.mk.inj hrest
  have hpoint : q.pointId = p.pointId := (pointId_of_readPoint hread).symm.trans hpoint
  have hid' : c'.channelId = p.channelId := hid'
  rw [← h.mappingText_reimported hp k, ← hprotocol, ← hpoint, ← hid']
  rfl

end VoltageEMS.Monarch
