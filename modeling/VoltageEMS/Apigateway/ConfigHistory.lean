import VoltageEMS.Lib.Text
import VoltageEMS.Apigateway.ConfigArchive

/-!
# The history of configuration versions

The metadata database has a row for each version and a pointer to the current one; the archives are
files beside it.  `createVersion` makes a version of the data directory in several steps that may
fail; `deleteVersion` marks a version and removes its archive.
-/

namespace VoltageEMS.Apigateway

open Lib List AList

/-! ## Rows and files -/

/-- `config_versions`. -/
structure VersionRow where
  id : String
  revision : Nat
  version : String
  origin : String
  sourceVersionId : Option String
  sourceFilename : Option String
  description : Option String
  contentHash : String
  archivePath : String
  archiveSize : Nat
  operatorId : Int
  operatorName : String
  createdAt : String
  activatedAt : String
  deletedAt : Option String := none

/-- A file that should be an archive; `none` when the ZIP library cannot read it. -/
structure ArchiveFile where
  size : Nat
  archive : Option Archive

/-- The metadata and the archives. -/
structure History where
  rows : List VersionRow
  ids : (rows.map VersionRow.id).Nodup
  revisions : (rows.map VersionRow.revision).Nodup
  current : Option String
  archives : Hash String ArchiveFile

namespace History

/-- `current_version`. -/
def currentVersion (h : History) : Option VersionRow :=
  h.rows.find? fun r => some r.id == h.current && r.deletedAt.isNone

/-- `MAX(revision) + 1`, over deleted rows as well. -/
def nextRevision (h : History) : Nat := (h.rows.map VersionRow.revision).foldr max 0 + 1

theorem revision_lt_nextRevision {h : History} {r : VersionRow} (hr : r ∈ h.rows) :
    r.revision < h.nextRevision :=
  Nat.lt_succ_of_le (le_max_of_le (mem_map_of_mem hr) le_rfl)

/-- `extension` is `zip`. -/
def isZipName (name : String) : Bool :=
  match name.toList.splitOn '.' with
  | [] | [_] | [[], _] => false
  | parts => (parts.getLast?.map String.ofList).any (eqIgnoreAsciiCase · "zip")

/-- The bytes of all archives. -/
def usedBytes (h : History) : Nat :=
  (h.archives.entries.filter fun f => isZipName f.1).foldl
    (fun used f => min (used + f.2.size) (2 ^ 64 - 1)) 0

end History

/-- The capacity for archives. -/
def archiveCapacityBytes : Nat := 500 * 1024 * 1024

/-! ## Creating a version -/

/-- The steps of `create_version` that may fail by themselves. -/
inductive CreateStep
  | collect
  | current
  | revision
  | archive
  | capacity
  | write
  | insert
  | state
  | row
deriving DecidableEq

/-- What a creation gets from its environment. -/
structure CreateEnv where
  id : String
  now : String
  stamp : String
  fails : Option CreateStep := none
  /-- The bytes that a failed write leaves of the archive, if it creates the file. -/
  left : Option Nat := none

/-- What a creation is asked for. -/
structure CreateRequest where
  origin : String
  sourceVersionId : Option String := none
  sourceFilename : Option String := none
  description : Option String := none
  operatorId : Int
  operatorName : String
  deduplicate : Bool := false
  reservedBytes : Nat := 0

/-- Why no version is made. -/
inductive CreateError
  | step (s : CreateStep)
  /-- The ZIP library refuses a name that comes twice. -/
  | duplicateName
  | storageInsufficient (usedBytes requestedBytes : Nat)

/-- The name of a revision. -/
def versionName (revision : Nat) : String := "V" ++ toString revision

/-- The file of a version. -/
def archiveFilename (version stamp : String) : String :=
  "Config_" ++ version ++ "_" ++ stamp ++ ".zip"

theorem archiveFilename_inj {m n : Nat} {s t : String}
    (h : archiveFilename (versionName m) s = archiveFilename (versionName n) t) : m = n := by
  have hlist := congrArg String.toList h
  simp only [archiveFilename, versionName, String.toList_append, Nat.toString_eq_repr, Nat.toList_repr,
    append_assoc, append_cancel_left_eq] at hlist
  have hscore : ∀ k, '_' ∉ Nat.toDigits 10 k := notMem_toDigits (by decide)
  exact toDigits_inj (append_cons_inj (hscore m) (hscore n) hlist).1

section Create

variable (fmt : Formats) (env : CreateEnv) (req : CreateRequest) (d : Dir) (h : History)

/-- Its manifest. -/
def newManifest : PackageManifest where
  packageType := "voltageems-config"
  formatVersion := 1
  configVersion := versionName h.nextRevision
  createdAt := env.now
  createdBy := req.operatorName
  contentHash := hashContentEntries fmt (collectArchiveEntries d)

/-- Its row. -/
def newRow (archive : Archive) : VersionRow where
  id := env.id
  revision := h.nextRevision
  version := versionName h.nextRevision
  origin := req.origin
  sourceVersionId := req.sourceVersionId
  sourceFilename := req.sourceFilename
  description := req.description
  contentHash := hashContentEntries fmt (collectArchiveEntries d)
  archivePath := archiveFilename (versionName h.nextRevision) env.stamp
  archiveSize := fmt.packedSize archive
  operatorId := req.operatorId
  operatorName := req.operatorName
  createdAt := env.now
  activatedAt := env.now

/-- The steps from the write of the archive on. -/
def recordVersion (archive : Archive) : History × Except CreateError (VersionRow × Bool) :=
  let row := newRow fmt env req d h archive
  let stored := h.archives.insert row.archivePath ⟨row.archiveSize, some archive⟩
  if env.fails = some .write then
    let archives := match env.left with
      | none => h.archives
      | some size => h.archives.insert row.archivePath ⟨min size row.archiveSize, none⟩
    ({ h with archives }, .error (.step .write))
  else if hid : env.fails = some .insert ∨ env.id ∈ h.rows.map VersionRow.id then
    ({ h with archives := stored }, .error (.step .insert))
  else
    have ids : ((h.rows ++ [row]).map VersionRow.id).Nodup := by
      rw [map_append]
      exact List.nodup_append_comm.mp (nodup_cons.mpr ⟨(not_or.mp hid).2, h.ids⟩)
    have revisions : ((h.rows ++ [row]).map VersionRow.revision).Nodup := by
      rw [map_append]
      refine List.nodup_append_comm.mp (nodup_cons.mpr ⟨fun hmem => ?_, h.revisions⟩)
      obtain ⟨r, hr, heq⟩ := mem_map.mp hmem
      exact absurd heq (History.revision_lt_nextRevision hr).ne
    let inserted : History := { h with rows := h.rows ++ [row], ids, revisions, archives := stored }
    if env.fails = some .state then (inserted, .error (.step .state))
    else if env.fails = some .row then
      ({ inserted with current := some env.id }, .error (.step .row))
    else ({ inserted with current := some env.id }, .ok (row, true))

/-- `create_version`. -/
def createVersion : History × Except CreateError (VersionRow × Bool) :=
  let contentHash := hashContentEntries fmt (collectArchiveEntries d)
  if env.fails = some .collect then (h, .error (.step .collect))
  else if req.deduplicate ∧ env.fails = some .current then (h, .error (.step .current))
  else match h.currentVersion.filter fun r => req.deduplicate && r.contentHash == contentHash with
    | some current => (h, .ok (current, false))
    | none =>
      if env.fails = some .revision then (h, .error (.step .revision))
      else if env.fails = some .archive then (h, .error (.step .archive))
      else match createArchive fmt (collectArchiveEntries d) (newManifest fmt env req d h) with
        | none => (h, .error .duplicateName)
        | some archive =>
          let requested := min (fmt.packedSize archive + req.reservedBytes) (2 ^ 64 - 1)
          if env.fails = some .capacity then (h, .error (.step .capacity))
          else if archiveCapacityBytes < min (h.usedBytes + requested) (2 ^ 64 - 1) then
            (h, .error (.storageInsufficient h.usedBytes requested))
          else recordVersion fmt env req d h archive

end Create

/-! ## Deleting a version -/

/-- What a deletion gets from its environment: the time, and the steps that fail. -/
structure DeleteEnv where
  now : String
  moveFails : Bool := false
  updateFails : Bool := false
  moveBackFails : Bool := false
  removeFails : Bool := false
  undoFails : Bool := false

/-- Why nothing is deleted. -/
inductive DeleteError
  | versionCurrent
  | versionNotFound
  | archiveDeleteFailed
  | versionDeleteFailed

namespace History

/-- The version, unless deleted. -/
def liveVersion (h : History) (id : String) : Option VersionRow :=
  h.rows.find? fun r => r.id == id && r.deletedAt.isNone

/-- `UPDATE` of `deleted_at`. -/
def setDeletedAt (h : History) (hit : VersionRow → Bool) (deletedAt : Option String) : History :=
  let set (r : VersionRow) : VersionRow := if hit r then { r with deletedAt } else r
  have keeps {α : Type} (column : VersionRow → α) (hset : ∀ r, column (set r) = column r) :
      (h.rows.map set).map column = h.rows.map column := by
    rw [map_map]
    exact map_congr_left fun r _ => hset r
  { h with
    rows := h.rows.map set
    ids := by
      rw [keeps VersionRow.id fun r => by unfold set; split <;> rfl]
      exact h.ids
    revisions := by
      rw [keeps VersionRow.revision fun r => by unfold set; split <;> rfl]
      exact h.revisions }

end History

/-- `delete_version_data`. -/
def deleteVersionData (env : DeleteEnv) (version : VersionRow) (h : History) :
    History × Except DeleteError (String × Bool) :=
  let moved := (h.archives.lookup version.archivePath).isSome
  let away := { h with archives := h.archives.erase version.archivePath }
  if env.moveFails then (h, .error .archiveDeleteFailed)
  else if env.updateFails then
    (if env.moveBackFails then away else h, .error .versionDeleteFailed)
  else
    let deleted := away.setDeletedAt (fun r => r.id == version.id && r.deletedAt.isNone) (some env.now)
    if moved && env.removeFails then
      let undone :=
        if env.undoFails then deleted else deleted.setDeletedAt (fun r => r.id == version.id) none
      (if env.moveBackFails then undone else { undone with archives := h.archives },
        .error .archiveDeleteFailed)
    else (deleted, .ok (env.now, moved))

/-- `delete_version`. -/
def deleteVersion (env : DeleteEnv) (id : String) (h : History) :
    History × Except DeleteError (String × Bool) :=
  if h.current = some id then (h, .error .versionCurrent)
  else match h.liveVersion id with
    | none => (h, .error .versionNotFound)
    | some version => deleteVersionData env version h

/-! ## What a creation leaves behind -/

section Created

variable {fmt : Formats} {env : CreateEnv} {req : CreateRequest} {d : Dir} {h h' : History}
  {row : VersionRow}

/-- What a version that was created leaves behind. -/
structure Created (fmt : Formats) (env : CreateEnv) (req : CreateRequest) (d : Dir) (h h' : History)
    (row : VersionRow) (archive : Archive) : Prop where
  packed : createArchive fmt (collectArchiveEntries d) (newManifest fmt env req d h) = some archive
  row_eq : row = newRow fmt env req d h archive
  rows_eq : h'.rows = h.rows ++ [row]
  current_eq : h'.current = some row.id
  archives_eq : h'.archives = h.archives.insert row.archivePath ⟨row.archiveSize, some archive⟩

variable {archive : Archive}

theorem recordVersion_ok {created : Bool}
    (harchive : createArchive fmt (collectArchiveEntries d) (newManifest fmt env req d h) = some archive)
    (hc : recordVersion fmt env req d h archive = (h', .ok (row, created))) :
    created = true ∧ Created fmt env req d h h' row archive := by
  unfold recordVersion at hc
  dsimp only at hc
  split at hc
  · cases hc
  split at hc
  · cases hc
  split at hc
  · cases hc
  split at hc
  · cases hc
  cases hc
  exact ⟨rfl, harchive, rfl, rfl, rfl, rfl⟩

theorem createVersion_cases (fmt : Formats) (env : CreateEnv) (req : CreateRequest) (d : Dir)
    (h : History) :
    (∃ result, createVersion fmt env req d h = (h, result) ∧
      ∀ row created, result = .ok (row, created) → created = false ∧ req.deduplicate = true ∧
        h.currentVersion = some row ∧
        row.contentHash = hashContentEntries fmt (collectArchiveEntries d)) ∨
    ∃ archive, createArchive fmt (collectArchiveEntries d) (newManifest fmt env req d h) =
        some archive ∧
      h.usedBytes + fmt.packedSize archive ≤ archiveCapacityBytes ∧
      createVersion fmt env req d h = recordVersion fmt env req d h archive := by
  have hmax : archiveCapacityBytes < 2 ^ 64 - 1 := by decide
  unfold createVersion
  dsimp only
  split
  · exact .inl ⟨_, rfl, by simp⟩
  split
  · exact .inl ⟨_, rfl, by simp⟩
  split
  · rename_i current hcurrent
    obtain ⟨hrow, hfound⟩ := Option.filter_eq_some_iff.mp hcurrent
    obtain ⟨hdedup, hhash⟩ := Bool.and_eq_true_iff.mp hfound
    refine .inl ⟨_, rfl, fun row created heq => ?_⟩
    cases heq
    exact ⟨rfl, hdedup, hrow, eq_of_beq hhash⟩
  split
  · exact .inl ⟨_, rfl, by simp⟩
  split
  · exact .inl ⟨_, rfl, by simp⟩
  split
  · exact .inl ⟨_, rfl, by simp⟩
  rename_i archive harchive
  split
  · exact .inl ⟨_, rfl, by simp⟩
  split
  · exact .inl ⟨_, rfl, by simp⟩
  rename_i hfits
  exact .inr ⟨archive, harchive, by omega, rfl⟩

theorem createVersion_ok {created : Bool}
    (hc : createVersion fmt env req d h = (h', .ok (row, created)))
    (hnew : created = true ∨ req.deduplicate = false) :
    ∃ archive, Created fmt env req d h h' row archive := by
  rcases createVersion_cases fmt env req d h with ⟨result, heq, hold⟩ | ⟨archive, harchive, -, heq⟩
  · obtain ⟨hfalse, hdedup, -⟩ := hold row created (congrArg Prod.snd (heq.symm.trans hc))
    rcases hnew with hnew | hnew
    · exact absurd (hfalse.symm.trans hnew) Bool.false_ne_true
    · exact absurd (hnew.symm.trans hdedup) Bool.false_ne_true
  · exact ⟨archive, (recordVersion_ok harchive (heq.symm.trans hc)).2⟩

theorem createVersion_kept (hc : createVersion fmt env req d h = (h', .ok (row, false))) :
    h.currentVersion = some row ∧
      row.contentHash = hashContentEntries fmt (collectArchiveEntries d) := by
  rcases createVersion_cases fmt env req d h with ⟨result, heq, hold⟩ | ⟨archive, harchive, -, heq⟩
  · exact (hold row false (congrArg Prod.snd (heq.symm.trans hc))).2.2
  · exact absurd (recordVersion_ok harchive (heq.symm.trans hc)).1 Bool.false_ne_true

theorem createVersion_rows (fmt : Formats) (env : CreateEnv) (req : CreateRequest) (d : Dir)
    (h : History) :
    (createVersion fmt env req d h).1.rows = h.rows ∨
      ∃ archive, (createVersion fmt env req d h).1.rows = h.rows ++ [newRow fmt env req d h archive] := by
  rcases createVersion_cases fmt env req d h with ⟨result, heq, -⟩ | ⟨archive, -, -, heq⟩
  · exact .inl (by rw [heq])
  rw [heq]
  unfold recordVersion
  dsimp only
  split
  · exact .inl rfl
  split
  · exact .inl rfl
  split
  · exact .inr ⟨archive, rfl⟩
  split <;> exact .inr ⟨archive, rfl⟩

theorem createVersion_created (hc : createVersion fmt env req d h = (h', .ok (row, true))) :
    ∃ archive, Created fmt env req d h h' row archive := createVersion_ok hc (.inl rfl)

theorem lookup_of_created (hc : Created fmt env req d h h' row archive) :
    h'.archives.lookup row.archivePath = some ⟨row.archiveSize, some archive⟩ := by
  rw [hc.archives_eq, lookup_insert]

/-- **Which versions pass the validation** that a restore begins with. -/
theorem valid_version_iff (fmt : Formats) (env : CreateEnv) (req : CreateRequest) (d : Dir)
    (h h' : History) (row : VersionRow) (db : Bytes) (hdb : d.lookup voltageDb = some db)
    (hmagic : sqliteMagic.isPrefixOf db)
    (hsha : fmt.TellsApart (contentStream (collectArchiveEntries d)) (contentStream (keptEntries d)))
    (hcreated : createVersion fmt env req d h = (h', .ok (row, true))) :
    ∃ archive, h'.archives.lookup row.archivePath = some ⟨row.archiveSize, some archive⟩ ∧
      ((validateArchive fmt archive).valid ↔ Restorable fmt (newManifest fmt env req d h) d) := by
  obtain ⟨archive, hc⟩ := createVersion_created hcreated
  exact ⟨archive, lookup_of_created hc,
    valid_createArchive_iff hsha hc.packed rfl rfl hdb hmagic⟩

end Created

theorem exists_of_created {r : History × Except CreateError (VersionRow × Bool)} (created : Bool)
    (hr : r.2.toOption.map Prod.snd = some created) : ∃ h' row, r = (h', .ok (row, created)) := by
  obtain ⟨h', e | ⟨row, created⟩⟩ := r
  · cases hr
  cases hr
  exact ⟨h', row, rfl⟩

namespace Sample

/-- No step fails. -/
def createEnv : CreateEnv where
  id := "id-1"
  now := "2026-09-18T10:30:00Z"
  stamp := "20260918-103000"

def backup : CreateRequest where
  origin := "manual_backup"
  operatorId := 1
  operatorName := "admin"

def noVersions : History where
  rows := []
  ids := nodup_nil
  revisions := nodup_nil
  current := none
  archives := ∅

/-- A database and one more file. -/
def dir (db : Bytes) (extra : RelPath) (content : Bytes) : Dir :=
  (singleton voltageDb db).insert extra content

def pointsFile : RelPath := ⟨"config/points.csv", by decide⟩

theorem lookup_pointsFile (db : Bytes) :
    (singleton voltageDb db : Dir).lookup pointsFile = none := by
  rw [lookup_eq_none, AList.mem_keys, keys_singleton, mem_singleton]
  intro h
  exact absurd (congrArg RelPath.text h) (by decide)

def backslashFile : RelPath := ⟨"notes\\", by decide⟩

end Sample

open SampleFormats Sample in
theorem valid_version_of_points :
    (∃ h' row, createVersion formats createEnv backup (dir sqliteMagic pointsFile [1]) noVersions =
      (h', .ok (row, true)) ∧
    ∃ archive, h'.archives.lookup row.archivePath = some ⟨row.archiveSize, some archive⟩ ∧
      ((validateArchive formats archive).valid ↔
        Restorable formats (newManifest formats createEnv backup (dir sqliteMagic pointsFile [1])
          noVersions) (dir sqliteMagic pointsFile [1]))) ∧
    Restorable formats (newManifest formats createEnv backup (dir sqliteMagic pointsFile [1])
      noVersions) (dir sqliteMagic pointsFile [1]) := by
  refine ⟨?_, by decide +kernel, by decide +kernel, by decide +kernel⟩
  obtain ⟨h', row, hcreated⟩ := exists_of_created true
    (r := createVersion formats createEnv backup (dir sqliteMagic pointsFile [1]) noVersions)
    (by decide +kernel)
  exact ⟨h', row, hcreated, valid_version_iff formats createEnv backup _ noVersions h' row sqliteMagic
    (by decide +kernel) (by decide +kernel) (fun h => sha256_injective h) hcreated⟩

theorem not_restorable_of_large {fmt : Formats} {manifest : PackageManifest} {d : Dir} {p : RelPath}
    {b : Bytes} (hb : d.lookup p = some b) (hside : isSidecar p = false)
    (hlarge : maxExtractedBytes < b.length) : ¬ Restorable fmt manifest d := by
  intro h
  have hmem := mem_map_of_mem (f := fun f : RelPath × Bytes => f.2.length)
    (mem_collectPaths.mpr ⟨hb, hside⟩)
  have hle := single_le_sum (fun _ _ => Nat.zero_le _) _ hmem
  exact absurd (hlarge.trans_le (hle.trans (le_of_add_le_right h.size))) (lt_irrefl _)

/-- A version of the directory can be created and does not pass the validation. -/
def Unrestorable (fmt : Formats) (env : CreateEnv) (req : CreateRequest) (d : Dir) (h : History) :
    Prop :=
  (∃ db, d.lookup voltageDb = some db ∧ sqliteMagic.isPrefixOf db) ∧
    ∃ h' row archive, createVersion fmt env req d h = (h', .ok (row, true)) ∧
      h'.archives.lookup row.archivePath = some ⟨row.archiveSize, some archive⟩ ∧
      ¬ (validateArchive fmt archive).valid

open SampleFormats Sample in
theorem unrestorable_of_not {d : Dir} (db : Bytes) (hdb : d.lookup voltageDb = some db)
    (hmagic : sqliteMagic.isPrefixOf db)
    (hcreated : (createVersion formats createEnv backup d noVersions).2.toOption.map Prod.snd = some true)
    (h : ¬ Restorable formats (newManifest formats createEnv backup d noVersions) d) :
    Unrestorable formats createEnv backup d noVersions := by
  obtain ⟨h', row, hc⟩ := exists_of_created _ hcreated
  obtain ⟨archive, hrow⟩ := createVersion_created hc
  refine ⟨⟨db, hdb, hmagic⟩, h', row, archive, hc, lookup_of_created hrow, fun hvalid => h ?_⟩
  exact (valid_createArchive_iff (fun h => sha256_injective h) hrow.packed rfl rfl hdb hmagic).mp hvalid

open SampleFormats Sample in
/-- Too many bytes for the validation, and a name it takes for a directory. -/
theorem unrestorable_versions :
    Unrestorable formats createEnv backup
      (dir sqliteMagic pointsFile (replicate (maxExtractedBytes + 1) 0)) noVersions ∧
    Unrestorable formats createEnv backup (dir sqliteMagic backslashFile [1]) noVersions := by
  constructor
  · have hlarge : maxExtractedBytes < (replicate (maxExtractedBytes + 1) (0 : UInt8)).length := by
      rw [length_replicate]
      exact Nat.lt_succ_self _
    refine unrestorable_of_not sqliteMagic (by decide +kernel) (by decide +kernel)
      (by decide +kernel) (not_restorable_of_large (p := pointsFile) ?_ (by decide) hlarge)
    exact lookup_insert _
  refine unrestorable_of_not sqliteMagic (by decide +kernel) (by decide +kernel)
    (by decide +kernel) fun h => ?_
  exact absurd h.names (by decide +kernel)

end VoltageEMS.Apigateway
