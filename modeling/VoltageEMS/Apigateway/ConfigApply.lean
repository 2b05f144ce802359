import VoltageEMS.Apigateway.ConfigHistory
import VoltageEMS.Apigateway.ConfigPackage

/-!
# Applying a configuration package

An import and a restore are one procedure.  The package is validated, the data directory is archived
as a snapshot, the package is unpacked beside the directory and gets the local accounts; then its
files are copied over the directory, the services are restarted and a version of the result is
created.  A failure of the copy or of the restart extracts the snapshot over the directory.
-/

namespace VoltageEMS.Apigateway

open Lib Option AList

/-! ## The procedure -/

/-- Where a sequence of writes breaks off: after `done` files, with `left` in the next one. -/
structure Break where
  done : Nat
  left : Option Bytes := none

/-- The writes before the break. -/
def writtenUpTo (writes : List (RelPath × Bytes)) : Option Break → List (RelPath × Bytes)
  | none => writes
  | some b =>
    writes.take b.done ++
      (writes[b.done]?.bind fun f => b.left.map fun left => (f.1, left)).toList

/-- How a service came back. -/
structure RestartResult where
  service : String
  success : Bool

/-- What an application gets from its environment. -/
structure ApplyEnv where
  localDatabase : Bytes
  snapshot : CreateEnv
  stageFails : Bool := false
  extractFails : Bool := false
  /-- The order in which the staging directory is read. -/
  order : List (RelPath × Bytes) → List (RelPath × Bytes) := id
  order_perm : ∀ files, (order files).Perm files := by exact fun _ => .refl _
  copyBreak : Option Break := none
  restarts : List RestartResult := []
  rollbackReads : Bool := true
  rollbackBreak : Option Break := none
  rollbackRestarts : List RestartResult := []
  final : CreateEnv

namespace ApplyEnv

/-- Every service is back. -/
def allRestarted (env : ApplyEnv) : Bool := env.restarts.all RestartResult.success

/-- The files copied. -/
def copied (env : ApplyEnv) (staged : Dir) : List (RelPath × Bytes) :=
  writtenUpTo (env.order (collectPaths staged)) env.copyBreak

end ApplyEnv

/-- What is applied. -/
inductive ApplyOrigin
  | package
  | restore

/-- Its name in the history. -/
def ApplyOrigin.text : ApplyOrigin → String
  | .package => "import"
  | .restore => "restore"

/-- What an application is asked for. -/
structure ApplyRequest where
  origin : ApplyOrigin
  sourceVersionId : Option String := none
  sourceFilename : Option String := none
  description : Option String := none
  operatorId : Int
  operatorName : String

/-- The version made before. -/
def ApplyRequest.snapshotRequest (req : ApplyRequest) (packageBytes : Nat) : CreateRequest where
  origin := match req.origin with
    | .package => "pre_import_snapshot"
    | .restore => "pre_restore_snapshot"
  description := match req.origin with
    | .package => some "Automatic snapshot before configuration import"
    | .restore => some "Automatic snapshot before configuration restore"
  operatorId := req.operatorId
  operatorName := req.operatorName
  reservedBytes := packageBytes

/-- The version made at the end. -/
def ApplyRequest.finalRequest (req : ApplyRequest) : CreateRequest where
  origin := req.origin.text
  sourceVersionId := req.sourceVersionId
  sourceFilename := req.sourceFilename
  description := req.description
  operatorId := req.operatorId
  operatorName := req.operatorName

/-- What a rollback reports. -/
structure Rollback where
  succeeded : Bool
  restartResults : Option (List RestartResult)

/-- Why an application fails. -/
inductive ApplyError
  | packageStructureInvalid
  | packageValidationFailed
  | snapshotFailed (e : CreateError)
  | importStageFailed
  | authPreservationFailed
  | applyFailed (rollback : Rollback)
  | serviceRestartFailed (failedServices : List String) (rollback : Rollback)
  | versionCreateFailed (e : CreateError)

/-- The data directory and the history. -/
structure Site where
  dir : Dir
  history : History

/-- Ready to be copied. -/
structure Ready where
  snapshot : VersionRow
  staged : Dir
  filesExtracted : Nat

/-- What an application reports. -/
structure Applied where
  version : VersionRow
  filesExtracted : Nat
  restartResults : List RestartResult

section Apply

variable (fmt : Formats) (sq : Sqlite) (env : ApplyEnv) (req : ApplyRequest)

/-- The unpacking. -/
def stage (archive : Archive) : Except ApplyError (Dir × Nat) :=
  if env.stageFails then .error .importStageFailed
  else
    let (extracted, count) := extractArchive archive ∅
    match if env.extractFails then none else count with
    | none => .error .packageStructureInvalid
    | some count =>
      match (extracted.lookup voltageDb).bind fun db => sq.preserve db env.localDatabase with
      | none => .error .authPreservationFailed
      | some db => .ok (extracted.insert voltageDb db, count)

/-- The steps before the copy. -/
def prepare (package : ArchiveFile) (site : Site) : History × Except ApplyError Ready :=
  match package.archive with
  | none => (site.history, .error .packageStructureInvalid)
  | some archive =>
    if !(validatePackage fmt sq archive).valid then (site.history, .error .packageValidationFailed)
    else
      match createVersion fmt env.snapshot (req.snapshotRequest package.size) site.dir site.history with
      | (history, .error e) => (history, .error (.snapshotFailed e))
      | (history, .ok (snapshot, _)) =>
        match stage sq env archive with
        | .error e => (history, .error e)
        | .ok (staged, filesExtracted) => (history, .ok { snapshot, staged, filesExtracted })

/-- `rollback_snapshot`. -/
def rollbackSnapshot (snapshot : VersionRow) (history : History) (dir : Dir) : Dir × Rollback :=
  let file := if env.rollbackReads then history.archives.lookup snapshot.archivePath else none
  match file.bind ArchiveFile.archive with
  | none => (dir, ⟨false, none⟩)
  | some archive =>
    let (writes, ok) := extractWrites archive
    let dir := dir.insertFields (writtenUpTo writes env.rollbackBreak)
    if ok && env.rollbackBreak.isNone then
      (dir, ⟨env.rollbackRestarts.all RestartResult.success, some env.rollbackRestarts⟩)
    else (dir, ⟨false, none⟩)

/-- The copy and what follows it. -/
def install (site : Site) (history : History) (ready : Ready) : Site × Except ApplyError Applied :=
  let dir := site.dir.insertFields (env.copied ready.staged)
  if env.copyBreak.isSome then
    let (dir, rollback) := rollbackSnapshot env ready.snapshot history dir
    ({ dir, history }, .error (.applyFailed rollback))
  else if !env.allRestarted then
    let (dir, rollback) := rollbackSnapshot env ready.snapshot history dir
    let failed := (env.restarts.filter fun r => !r.success).map RestartResult.service
    ({ dir, history }, .error (.serviceRestartFailed failed rollback))
  else
    match createVersion fmt env.final req.finalRequest dir history with
    | (history, .error e) => ({ dir, history }, .error (.versionCreateFailed e))
    | (history, .ok (version, _)) =>
      ({ dir, history }, .ok ⟨version, ready.filesExtracted, env.restarts⟩)

/-- `apply_archive`. -/
def applyArchive (package : ArchiveFile) (site : Site) : Site × Except ApplyError Applied :=
  match prepare fmt sq env req package site with
  | (history, .error e) => ({ site with history }, .error e)
  | (history, .ok ready) => install fmt env req site history ready

end Apply

/-! ## What is written over the data directory -/

section Written

variable {fmt : Formats} {sq : Sqlite} {env : ApplyEnv} {req : ApplyRequest} {package : ArchiveFile}
  {site : Site} {history : History} {ready : Ready}

/-- What has to have gone well before the first write. -/
structure Prepared (fmt : Formats) (sq : Sqlite) (env : ApplyEnv) (req : ApplyRequest)
    (package : ArchiveFile) (site : Site) (history : History) (ready : Ready)
    (archive snapshotArchive : Archive) : Prop where
  readable : package.archive = some archive
  valid : (validatePackage fmt sq archive).valid = true
  created : Created fmt env.snapshot (req.snapshotRequest package.size) site.dir site.history history
    ready.snapshot snapshotArchive
  staged : stage sq env archive = .ok (ready.staged, ready.filesExtracted)

theorem prepare_ok (h : prepare fmt sq env req package site = (history, .ok ready)) :
    ∃ archive snapshotArchive,
      Prepared fmt sq env req package site history ready archive snapshotArchive := by
  unfold prepare at h
  split at h
  · cases h
  rename_i archive hreadable
  split at h
  · cases h
  rename_i hvalid
  split at h
  · cases h
  rename_i history' snapshot created hcreate
  split at h
  · cases h
  rename_i staged filesExtracted hstage
  cases h
  obtain ⟨snapshotArchive, hcreated⟩ := createVersion_ok hcreate (.inr rfl)
  exact ⟨archive, snapshotArchive, hreadable, by simpa using hvalid, hcreated, hstage⟩

/-- The snapshot is extracted. -/
def ApplyEnv.rollsBack (env : ApplyEnv) : Bool := env.copyBreak.isSome || !env.allRestarted

/-- All that is written. -/
def overwritten (env : ApplyEnv) (staged d : Dir) : List (RelPath × Bytes) :=
  env.copied staged ++ if env.rollsBack then (extractWrites (collectArchiveEntries d)).1 else []

section Rollback

variable {snapshotArchive : Archive} (hreads : env.rollbackReads = true)
  (hwrites : env.rollbackBreak = none)
  (hc : Created fmt env.snapshot (req.snapshotRequest package.size) site.dir site.history history
    ready.snapshot snapshotArchive)

include hreads hwrites hc

theorem rollbackSnapshot_dir {d : Dir} :
    (rollbackSnapshot env ready.snapshot history d).1 =
      d.insertFields (extractWrites (collectArchiveEntries site.dir)).1 := by
  unfold rollbackSnapshot
  dsimp only
  rw [if_pos hreads, lookup_of_created hc, bind_some]
  dsimp only
  rw [extractWrites_createArchive hc.packed, hwrites]
  split <;> rfl

/-- **What an application writes over the data directory** once it has begun to. -/
theorem install_dir :
    (install fmt env req site history ready).1.dir =
      site.dir.insertFields (overwritten env ready.staged site.dir) := by
  have hrollback := rollbackSnapshot_dir (d := site.dir.insertFields (env.copied ready.staged))
    hreads hwrites hc
  rw [Hash.insertFields_append] at hrollback
  unfold install overwritten ApplyEnv.rollsBack
  dsimp only
  cases hcopy : env.copyBreak.isSome
  · cases hrestarted : env.allRestarted
    · simpa using hrollback
    simp only [Bool.false_eq_true, if_false, Bool.not_true, Bool.or_self, List.append_nil]
    split <;> rfl
  · simpa using hrollback

end Rollback

theorem install_error {site' : Site} {e : ApplyError}
    (h : install fmt env req site history ready = (site', .error e)) :
    (∀ failed rollback, e = .serviceRestartFailed failed rollback → env.copyBreak = none) ∧
      (env.rollsBack = false → ∃ c, e = .versionCreateFailed c) := by
  unfold install at h
  unfold ApplyEnv.rollsBack
  dsimp only at h
  cases hcopy : env.copyBreak with
  | some b =>
    rw [hcopy, isSome_some, if_pos rfl] at h
    cases h
    exact ⟨fun _ _ he => (by cases he), fun he => (by cases he)⟩
  | none =>
    refine ⟨fun _ _ _ => rfl, fun hrestarted => ?_⟩
    rw [isSome_none, Bool.false_or] at hrestarted
    rw [hcopy, isSome_none, if_neg Bool.false_ne_true, hrestarted, if_neg Bool.false_ne_true] at h
    split at h
    · cases h
      exact ⟨_, rfl⟩
    · cases h

/-! ## What is staged -/

variable {archive : Archive} {staged : Dir} {count : Nat}

theorem lookup_stage (h : stage sq env archive = .ok (staged, count)) :
    (extractWrites archive).2 = true ∧
    (∀ p, p ≠ voltageDb →
      staged.lookup p = insertAll (fun _ => none) (extractWrites archive).1 p) ∧
    ∃ db db', insertAll (fun _ => none) (extractWrites archive).1 voltageDb = some db ∧
      staged.lookup voltageDb = some db' ∧ sq.preserve db env.localDatabase = some db' := by
  have hextracted : ∀ p, (extractArchive archive ∅).1.lookup p =
      insertAll (fun _ => none) (extractWrites archive).1 p := by
    intro p
    change ((∅ : Dir).insertFields (extractWrites archive).1).lookup p = _
    rw [Hash.lookup_insertFields_or]
    exact or_none
  unfold stage at h
  split at h
  · cases h
  dsimp only at h
  split at h
  · cases h
  rename_i count' hcount
  split at h
  · cases h
  rename_i db' hpreserve
  cases h
  obtain ⟨db, hdb, hdb'⟩ := bind_eq_some_iff.mp hpreserve
  refine ⟨?_, fun p hp => ?_, db, db', ?_, lookup_insert _, hdb'⟩
  · by_contra hfalse
    simp [extractArchive, hfalse] at hcount
  · rw [lookup_insert_ne hp, hextracted]
  · rw [← hextracted, hdb]

theorem mem_extractWrites_iff (hok : (extractWrites archive).2 = true) {p : RelPath} :
    p ∈ (extractWrites archive).1.map Prod.fst ↔ ∃ e ∈ archive, e.placed = .file p := by
  induction archive with
  | nil => simp [extractWrites]
  | cons e archive ih =>
    unfold extractWrites at hok ⊢
    cases hplaced : e.placed with
    | refused =>
      rw [hplaced] at hok
      cases hok
    | skipped =>
      rw [hplaced] at hok
      simpa [hplaced] using ih hok
    | file q =>
      rw [hplaced] at hok
      simp [hplaced, ← ih hok, eq_comm]

theorem isSome_staged (h : stage sq env archive = .ok (staged, count)) {p : RelPath} :
    (staged.lookup p).isSome ↔ ∃ e ∈ archive, e.placed = .file p := by
  obtain ⟨hok, hfiles, db, db', hdb, hdb', -⟩ := lookup_stage h
  rw [← mem_extractWrites_iff hok, ← isSome_insertAll]
  by_cases hp : p = voltageDb
  · rw [hp, hdb, hdb']
    simp
  · rw [hfiles p hp]

/-! ## Whether the directory is as it was -/

/-- The two directories agree, except in files that SQLite keeps beside a database. -/
def SameFiles (d d' : Dir) : Prop := ∀ p, isSidecar p = false → d'.lookup p = d.lookup p

/-- Putting a snapshot of plainly named files over other writes takes them back, unless one made a
new file. -/
theorem sameFiles_rollback_iff {d : Dir} (hplain : PlainNames d) (writes : List (RelPath × Bytes)) :
    SameFiles d (d.insertFields (writes ++ (extractWrites (collectArchiveEntries d)).1)) ↔
      ∀ p ∈ writes.map Prod.fst, isSidecar p = false → (d.lookup p).isSome := by
  have hlookup : ∀ p, isSidecar p = false →
      (d.insertFields (writes ++ (extractWrites (collectArchiveEntries d)).1)).lookup p =
        (d.lookup p).or (insertAll (fun _ => none) writes p) := by
    intro p hside
    have harchived := archived_of_plain hplain p
    rw [if_neg (by simp [hside]), archived] at harchived
    rw [← Hash.insertFields_append, Hash.lookup_insertFields_or, harchived,
      Hash.lookup_insertFields_or]
    cases d.lookup p <;> simp
  constructor
  · intro h p hp hside
    have hp := isSome_insertAll.mpr hp
    rw [← h p hside, hlookup p hside, isSome_or, hp, Bool.or_true]
  intro h p hside
  rw [hlookup p hside]
  cases hd : d.lookup p with
  | some b => rfl
  | none =>
    rw [none_or, ← isNone_iff_eq_none, ← not_isSome_iff_eq_none.trans isNone_iff_eq_none.symm,
      isSome_insertAll]
    exact fun hp => by simpa [hd] using h p hp hside

theorem insertAll_collectPaths (env : ApplyEnv) (d : Dir) (p : RelPath) (b : Bytes) :
    insertAll (fun _ => none) (env.order (collectPaths d)) p = some b ↔ (p, b) ∈ collectPaths d := by
  have hmem : ∀ f, f ∈ env.order (collectPaths d) ↔ f ∈ collectPaths d :=
    fun f => (env.order_perm _).mem_iff
  constructor
  · intro h
    exact (hmem _).mp ((mem_of_insertAll h).resolve_right (by simp))
  intro h
  refine insertAll_of_unique ((hmem _).mpr h) fun c hc => ?_
  have hb := (mem_collectPaths.mp h).1
  have hcb := (mem_collectPaths.mp ((hmem _).mp hc)).1
  exact some.inj (hcb.symm.trans hb)

theorem mem_writtenUpTo {writes : List (RelPath × Bytes)} {b : Option Break} {p : RelPath}
    (h : p ∈ (writtenUpTo writes b).map Prod.fst) : p ∈ writes.map Prod.fst := by
  cases b with
  | none => exact h
  | some b =>
    rw [writtenUpTo, List.map_append, List.mem_append] at h
    rcases h with h | h
    · exact List.map_subset _ (List.take_subset _ _) h
    -- the file the copy broke off in
    obtain ⟨f, hf, rfl⟩ := List.mem_map.mp h
    obtain ⟨g, hg, hleft⟩ := bind_eq_some_iff.mp (mem_toList.mp hf)
    obtain ⟨left, -, rfl⟩ := map_eq_some_iff.mp hleft
    exact List.mem_map.mpr ⟨g, List.mem_of_getElem? hg, rfl⟩

theorem mem_copied {env : ApplyEnv} {staged : Dir} {p : RelPath}
    (h : p ∈ (env.copied staged).map Prod.fst) : (staged.lookup p).isSome := by
  obtain ⟨f, hf, rfl⟩ := List.mem_map.mp (mem_writtenUpTo h)
  rw [(mem_collectPaths.mp ((env.order_perm _).mem_iff.mp hf)).1]
  rfl

theorem mem_copied_all {env : ApplyEnv} (hall : env.copyBreak = none) {staged : Dir} {p : RelPath}
    (hside : isSidecar p = false) (h : (staged.lookup p).isSome) :
    p ∈ (env.copied staged).map Prod.fst := by
  obtain ⟨b, hb⟩ := isSome_iff_exists.mp h
  rw [ApplyEnv.copied, hall, writtenUpTo]
  exact List.mem_map.mpr ⟨(p, b), (env.order_perm _).mem_iff.mpr (mem_collectPaths.mpr ⟨hb, hside⟩), rfl⟩

/-- Every file of the package is one the directory has. -/
def overwrites (package : ArchiveFile) (d : Dir) : Bool :=
  package.archive.all fun archive => archive.all fun e =>
    match e.placed with
    | .file p => isSidecar p || (d.lookup p).isSome
    | .refused | .skipped => true

theorem overwrites_iff {package : ArchiveFile} {archive : Archive} {d : Dir}
    (h : package.archive = some archive) : overwrites package d ↔
      ∀ p, (∃ e ∈ archive, e.placed = .file p) → isSidecar p = false → (d.lookup p).isSome := by
  rw [overwrites, h, all_some, List.all_eq_true]
  constructor
  · rintro hall p ⟨e, he, hplaced⟩ hside
    simpa [hplaced, hside] using hall e he
  intro hall e he
  cases hplaced : e.placed with
  | refused | skipped => rfl
  | file p =>
    cases hside : isSidecar p
    · simpa [hside] using hall p ⟨e, he, hplaced⟩ hside
    · simp [hside]

theorem prepare_ne_restartFailed {failed : List String} {rollback : Rollback} :
    prepare fmt sq env req package site ≠
      (history, .error (.serviceRestartFailed failed rollback)) := by
  intro h
  unfold prepare at h
  split at h
  · cases h
  split at h
  · cases h
  split at h
  · cases h
  split at h
  · rename_i e hstage
    cases h
    unfold stage at hstage
    repeat' split at hstage
    all_goals cases hstage
  · cases h

namespace Sample

/-- An archive of the directory. -/
def packageOf (d : Dir) : ArchiveFile where
  size := 300
  archive := createArchive SampleFormats.formats (collectArchiveEntries d)
    (newManifest SampleFormats.formats createEnv backup d noVersions)

def applyEnv : ApplyEnv where
  localDatabase := sqliteMagic
  snapshot := createEnv
  final := { createEnv with id := "id-2" }

def restartFails : ApplyEnv := { applyEnv with restarts := [⟨"voltageems-comsrv", false⟩] }

def finalFails : ApplyEnv := { applyEnv with final := { createEnv with fails := some .write } }

def importRequest : ApplyRequest where
  origin := .package
  operatorId := 1
  operatorName := "admin"

def onlyDatabase : Site := ⟨singleton voltageDb sqliteMagic, noVersions⟩

def withPoints : Site := ⟨dir sqliteMagic pointsFile [1], noVersions⟩

end Sample

variable {r : Site × Except ApplyError Applied}

theorem exists_of_failed (hr : r.2.toOption.isNone) : ∃ site' e, r = (site', .error e) := by
  obtain ⟨site', e | applied⟩ := r
  · exact ⟨site', e, rfl⟩
  · cases hr

theorem exists_of_restartFailed
    (hr : (match r.2 with | .error (.serviceRestartFailed _ _) => true | _ => false) = true) :
    ∃ site' failed rollback, r = (site', .error (.serviceRestartFailed failed rollback)) := by
  obtain ⟨site', result⟩ := r
  split at hr
  · rename_i failed rollback heq
    exact ⟨site', failed, rollback, congrArg (Prod.mk site') heq⟩
  · cases hr

end Written

end VoltageEMS.Apigateway
