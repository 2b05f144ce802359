import VoltageEMS.Lib.Run
import VoltageEMS.Apigateway.ConfigApply

/-!
# Runs of the configuration service

Backups, imports, restores and deletions come one at a time.  Whatever they are and wherever they fail,
the history changes only through `createVersion` and `deleteVersion`, so that what holds over a run is
shown for these two.
-/

namespace VoltageEMS.Apigateway

open Lib List Option AList

/-! ## What a call does to the history -/

/-- What a creation may do: add a row of the next revision, then make it the current one, and before
that write a file of its name that fits. -/
structure CreateEffect (h h' : History) : Prop where
  rows : h'.rows = h.rows ∨ ∃ row, h'.rows = h.rows ++ [row] ∧ row.revision = h.nextRevision
  current : h'.current = h.current ∨
    ∃ row, h'.current = some row.id ∧ h'.rows = h.rows ++ [row] ∧ row.deletedAt = none
  archives : h'.archives = h.archives ∨ ∃ stamp f,
    h'.archives = h.archives.insert (archiveFilename (versionName h.nextRevision) stamp) f ∧
      h.usedBytes + f.size ≤ archiveCapacityBytes

variable {archive : Archive} {req : CreateRequest}

theorem recordVersion_effect {fmt : Formats} {env : CreateEnv} {d : Dir} {h : History}
    (hfits : h.usedBytes + fmt.packedSize archive ≤ archiveCapacityBytes) :
    CreateEffect h (recordVersion fmt env req d h archive).1 := by
  have hstored : ∀ size, size ≤ fmt.packedSize archive →
      h.usedBytes + size ≤ archiveCapacityBytes := fun size hsize => by omega
  unfold recordVersion
  dsimp only
  split
  · refine ⟨.inl rfl, .inl rfl, ?_⟩
    dsimp only
    split
    · exact .inl rfl
    · exact .inr ⟨env.stamp, _, rfl, hstored _ (min_le_right _ _)⟩
  have hfile := hstored _ le_rfl
  split
  · exact ⟨.inl rfl, .inl rfl, .inr ⟨env.stamp, _, rfl, hfile⟩⟩
  split
  · exact ⟨.inr ⟨_, rfl, rfl⟩, .inl rfl, .inr ⟨env.stamp, _, rfl, hfile⟩⟩
  split <;> exact ⟨.inr ⟨_, rfl, rfl⟩, .inr ⟨_, rfl, rfl, rfl⟩, .inr ⟨env.stamp, _, rfl, hfile⟩⟩

theorem createVersion_effect (fmt : Formats) (env : CreateEnv) (req : CreateRequest) (d : Dir)
    (h : History) : CreateEffect h (createVersion fmt env req d h).1 := by
  rcases createVersion_cases fmt env req d h with ⟨result, heq, -⟩ | ⟨archive, -, hfits, heq⟩
  · rw [heq]
    exact ⟨.inl rfl, .inl rfl, .inl rfl⟩
  rw [heq]
  exact recordVersion_effect hfits

/-- What a deletion may do: mark rows of the version, and take away its file. -/
structure DeleteEffect (version : VersionRow) (h h' : History) : Prop where
  rows : ∃ set : VersionRow → VersionRow, h'.rows = h.rows.map set ∧
    ∀ r, set r = r ∨ r.id = version.id ∧ ∃ deletedAt, set r = { r with deletedAt }
  current : h'.current = h.current
  archives : h'.archives = h.archives ∨ h'.archives = h.archives.erase version.archivePath

namespace DeleteEffect

variable {version : VersionRow} {h h' : History}

theorem refl (version : VersionRow) (h : History) : DeleteEffect version h h :=
  ⟨⟨id, by simp, fun _ => .inl rfl⟩, rfl, .inl rfl⟩

theorem setDeletedAt (he : DeleteEffect version h h') {hit : VersionRow → Bool}
    (hhit : ∀ r, hit r = true → r.id = version.id) (deletedAt : Option String) :
    DeleteEffect version h (h'.setDeletedAt hit deletedAt) := by
  obtain ⟨set, hrows, hset⟩ := he.rows
  refine ⟨⟨fun r => if hit (set r) then { set r with deletedAt } else set r, ?_, fun r => ?_⟩,
    he.current, he.archives⟩
  · change h'.rows.map (fun r => if hit r then { r with deletedAt } else r) = _
    rw [hrows, List.map_map]
    rfl
  dsimp only
  by_cases hr : hit (set r)
  · rw [if_pos hr]
    rcases hset r with hsame | ⟨hid, deletedAt', hmarked⟩
    · rw [hsame] at hr ⊢
      exact .inr ⟨hhit r hr, deletedAt, rfl⟩
    rw [hmarked]
    exact .inr ⟨hid, deletedAt, rfl⟩
  rw [if_neg hr]
  exact hset r

end DeleteEffect

theorem deleteVersionData_effect (env : DeleteEnv) (version : VersionRow) (h : History) :
    DeleteEffect version h (deleteVersionData env version h).1 := by
  have hlive : ∀ r : VersionRow, (r.id == version.id && r.deletedAt.isNone) = true →
      r.id = version.id := fun r hr => beq_iff_eq.mp (Bool.and_eq_true_iff.mp hr).1
  have haway : DeleteEffect version h { h with archives := h.archives.erase version.archivePath } :=
    ⟨(DeleteEffect.refl version h).rows, rfl, .inr rfl⟩
  have hdeleted := haway.setDeletedAt hlive (some env.now)
  have hundone := hdeleted.setDeletedAt (fun _ => beq_iff_eq.mp) none
  unfold deleteVersionData
  dsimp only
  split
  · exact .refl version h
  split
  · dsimp only
    split
    · exact haway
    · exact .refl version h
  split
  · dsimp only
    split
    · split
      · exact hdeleted
      · exact hundone
    split
    · exact ⟨hdeleted.rows, hdeleted.current, .inl rfl⟩
    · exact ⟨hundone.rows, hundone.current, .inl rfl⟩
  · exact hdeleted

theorem mem_of_liveVersion {h : History} {id : String} {r : VersionRow}
    (hr : h.liveVersion id = some r) : r ∈ h.rows ∧ r.id = id := by
  unfold History.liveVersion at hr
  have hfound := find?_some hr
  rw [Bool.and_eq_true] at hfound
  exact ⟨List.mem_of_find?_eq_some hr, beq_iff_eq.mp hfound.1⟩

theorem deleteVersion_effect (env : DeleteEnv) (id : String) (h : History) :
    (deleteVersion env id h).1 = h ∨ ∃ version, version.id = id ∧ h.current ≠ some id ∧
      DeleteEffect version h (deleteVersion env id h).1 := by
  unfold deleteVersion
  split
  · exact .inl rfl
  rename_i hcurrent
  split
  · exact .inl rfl
  rename_i version hversion
  exact .inr ⟨version, (mem_of_liveVersion hversion).2, hcurrent,
    deleteVersionData_effect env version h⟩

/-- What changes the history. -/
inductive HistoryOp
  | create (env : CreateEnv) (req : CreateRequest) (d : Dir)
  | delete (env : DeleteEnv) (id : String)

/-- The history under them. -/
def historyMachine (fmt : Formats) : Machine History HistoryOp Unit where
  step h
    | .create env req d => ((createVersion fmt env req d h).1, [])
    | .delete env id => ((deleteVersion env id h).1, [])

theorem history_invariant (fmt : Formats) {P : History → Prop}
    (hcreate : ∀ h h', P h → CreateEffect h h' → P h')
    (hdelete : ∀ h h' version, P h → h.current ≠ some version.id → DeleteEffect version h h' → P h')
    {h : History} (hP : P h) (ops : List HistoryOp) : P ((historyMachine fmt).run h ops) := by
  refine (historyMachine fmt).invariant (fun h (_ : List Unit) => P h) (l := [])
    (fun h _ op hP _ => ?_) hP ((historyMachine fmt).along_true h ops)
  cases op with
  | create env req d => exact hcreate h _ hP (createVersion_effect fmt env req d h)
  | delete env id =>
    rcases deleteVersion_effect env id h with heq | ⟨version, hid, hcurrent, heffect⟩
    · change P (deleteVersion env id h).1
      rw [heq]
      exact hP
    · exact hdelete h _ version hP (hid ▸ hcurrent) heffect

/-! ## Sound histories -/

namespace History

/-- A new service. -/
def empty : History where
  rows := []
  ids := nodup_nil
  revisions := nodup_nil
  current := none
  archives := ∅

/-- The bytes of all files. -/
def storedBytes (h : History) : Nat := (h.archives.entries.map fun f => f.2.size).sum

theorem isZipName_archiveFilename (version stamp : String) :
    isZipName (archiveFilename version stamp) = true := by
  have hlist : (archiveFilename version stamp).toList =
      ('C' :: ("onfig_" ++ version ++ "_" ++ stamp).toList) ++ '.' :: "zip".toList := by
    simp [archiveFilename, String.toList_append]
  have hzip : ("zip".toList).splitOn '.' = ["zip".toList] := splitOn_eq_singleton (by decide)
  rw [isZipName, hlist, splitOn_append_cons_self, hzip, splitOn_cons_eq_if_modifyHead,
    if_neg (by decide)]
  cases hsplit : ("onfig_" ++ version ++ "_" ++ stamp).toList.splitOn '.' with
  | nil => exact absurd hsplit (splitOn_ne_nil _ _)
  | cons first rest =>
    have hlast : ∀ front : List (List Char), (front ++ ["zip".toList]).getLast? = some "zip".toList :=
      fun front => getLast?_concat
    have hequal : eqIgnoreAsciiCase (String.ofList "zip".toList) "zip" = true := by decide
    cases rest with
    | nil => exact hequal
    | cons second rest =>
      cases rest with
      | nil => exact hequal
      | cons third rest =>
        change Option.any _ (Option.map String.ofList
          ((('C' :: first) :: second :: third :: rest) ++ ["zip".toList]).getLast?) = true
        rw [hlast]
        exact hequal

theorem foldl_saturating (files : List (Sigma fun _ : String => ArchiveFile)) (used : Nat)
    (hused : used ≤ 2 ^ 64 - 1) :
    files.foldl (fun used f => min (used + f.2.size) (2 ^ 64 - 1)) used =
      min (used + (files.map fun f => f.2.size).sum) (2 ^ 64 - 1) := by
  induction files generalizing used with
  | nil => simpa using hused
  | cons f files ih =>
    rw [foldl_cons, ih _ (min_le_right _ _), map_cons, sum_cons]
    omega

variable {h h' : History}

theorem usedBytes_eq (hzip : ∀ name ∈ h.archives, isZipName name = true) :
    h.usedBytes = min h.storedBytes (2 ^ 64 - 1) := by
  have hall : (h.archives.entries.filter fun f => isZipName f.1) = h.archives.entries := by
    refine List.filter_eq_self.mpr fun f hf => hzip f.1 ?_
    exact AList.mem_keys.mpr (List.mem_map_of_mem hf)
  rw [usedBytes, hall, foldl_saturating _ 0 (by decide), Nat.zero_add]
  rfl

theorem storedBytes_insert_le (h : History) (name : String) (f : ArchiveFile) :
    ((h.archives.insert name f).entries.map fun f => f.2.size).sum ≤ h.storedBytes + f.size := by
  have hsub : ((h.archives.entries.kerase name).map fun f => f.2.size).sum ≤ h.storedBytes :=
    ((kerase_sublist name _).map _).sum_le_sum fun _ _ => Nat.zero_le _
  rw [entries_insert, map_cons, sum_cons]
  dsimp only
  omega

theorem storedBytes_erase_le (h : History) (name : String) :
    ((h.archives.erase name).entries.map fun f => f.2.size).sum ≤ h.storedBytes :=
  ((kerase_sublist name _).map _).sum_le_sum fun _ _ => Nat.zero_le _

/-- What every operation of the service keeps. -/
structure Sound (h : History) : Prop where
  current : ∀ id, h.current = some id → ∃ r ∈ h.rows, r.id = id ∧ r.deletedAt = none
  increasing : (h.rows.map VersionRow.revision).Pairwise (· < ·)
  zipNames : ∀ name ∈ h.archives, isZipName name = true
  capacity : h.storedBytes ≤ archiveCapacityBytes

theorem sound_empty : Sound empty where
  current := fun _ h => by cases h
  increasing := .nil
  zipNames := fun _ h => absurd h (notMem_empty _)
  capacity := Nat.zero_le _

theorem Sound.create (hs : Sound h) (he : CreateEffect h h') : Sound h' := by
  have hmax : archiveCapacityBytes < 2 ^ 64 - 1 := by decide
  refine ⟨fun id hid => ?_, ?_, ?_, ?_⟩
  · rcases he.current with hsame | ⟨row, hcurrent, hrows, hlive⟩
    · obtain ⟨r, hr, hrid, hlive⟩ := hs.current id (hsame ▸ hid)
      refine ⟨r, ?_, hrid, hlive⟩
      rcases he.rows with hrows | ⟨row, hrows, -⟩
      · exact hrows ▸ hr
      · exact hrows ▸ mem_append_left _ hr
    refine ⟨row, hrows ▸ mem_append_right _ (.head _), ?_, hlive⟩
    exact some.inj (hcurrent.symm.trans hid)
  · rcases he.rows with hrows | ⟨row, hrows, hrevision⟩
    · exact hrows ▸ hs.increasing
    rw [hrows, map_append, pairwise_append]
    refine ⟨hs.increasing, pairwise_singleton _ _, fun n hn m hm => ?_⟩
    obtain ⟨r, hr, rfl⟩ := List.mem_map.mp hn
    obtain rfl : m = row.revision := by simpa using hm
    exact hrevision ▸ revision_lt_nextRevision hr
  · rcases he.archives with hsame | ⟨stamp, f, hinsert, -⟩
    · exact hsame ▸ hs.zipNames
    intro name hname
    rw [hinsert, mem_insert] at hname
    rcases hname with rfl | hname
    · exact isZipName_archiveFilename _ _
    · exact hs.zipNames name hname
  rcases he.archives with hsame | ⟨stamp, f, hinsert, hfits⟩
  · rw [storedBytes, hsame]
    exact hs.capacity
  have hused := usedBytes_eq hs.zipNames
  have hstored := storedBytes_insert_le h (archiveFilename (versionName h.nextRevision) stamp) f
  have hcapacity := hs.capacity
  rw [storedBytes, hinsert]
  omega

theorem Sound.delete {version : VersionRow} (hs : Sound h) (hcurrent : h.current ≠ some version.id)
    (he : DeleteEffect version h h') : Sound h' := by
  obtain ⟨set, hrows, hset⟩ := he.rows
  refine ⟨fun id hid => ?_, ?_, ?_, ?_⟩
  · rw [he.current] at hid
    obtain ⟨r, hr, hrid, hlive⟩ := hs.current id hid
    refine ⟨r, ?_, hrid, hlive⟩
    -- the marked rows are not the current one
    rcases hset r with hsame | ⟨hversion, -⟩
    · rw [hrows]
      exact List.mem_map.mpr ⟨r, hr, hsame⟩
    · exact absurd (hid.trans (congrArg some (hrid.symm.trans hversion))) hcurrent
  · have hrevisions : h'.rows.map VersionRow.revision = h.rows.map VersionRow.revision := by
      rw [hrows, List.map_map]
      refine map_congr_left fun r _ => ?_
      change (set r).revision = r.revision
      rcases hset r with hsame | ⟨-, deletedAt, hmarked⟩
      · rw [hsame]
      · rw [hmarked]
    exact hrevisions ▸ hs.increasing
  · rcases he.archives with hsame | herase
    · exact hsame ▸ hs.zipNames
    intro name hname
    rw [herase, mem_erase] at hname
    exact hs.zipNames name hname.2
  rcases he.archives with hsame | herase
  · rw [storedBytes, hsame]
    exact hs.capacity
  rw [storedBytes, herase]
  exact (storedBytes_erase_le h _).trans hs.capacity

theorem Sound.run (hs : Sound h) (fmt : Formats) (ops : List HistoryOp) :
    Sound ((historyMachine fmt).run h ops) :=
  history_invariant fmt (fun _ _ hs he => hs.create he)
    (fun _ _ _ hs hcurrent he => hs.delete hcurrent he) hs ops

end History

/-! ## The operations of the service -/

/-- At most 100 characters. -/
def validDescription (description : Option String) : Bool := (description.getD "").length ≤ 100

/-- `BackupRequest`. -/
structure BackupRequest where
  description : Option String := none
  operatorId : Int
  operatorName : String

/-- Why no backup is made. -/
inductive BackupError
  | descriptionTooLong
  | create (e : CreateError)

/-- `backup_current`. -/
def backupCurrent (fmt : Formats) (env : CreateEnv) (req : BackupRequest) (site : Site) :
    Site × Except BackupError (VersionRow × Bool) :=
  if !validDescription req.description then (site, .error .descriptionTooLong)
  else
    let (history, result) := createVersion fmt env {
      origin := "manual_backup"
      description := req.description
      operatorId := req.operatorId
      operatorName := req.operatorName
      deduplicate := true } site.dir site.history
    ({ site with history }, result.mapError .create)

/-- `RestoreRequest`. -/
structure RestoreRequest where
  versionId : String
  description : Option String := none
  operatorId : Int
  operatorName : String

/-- What a restore gets from its environment, before the application of the archive. -/
structure RestoreEnv where
  readsCurrent : Bool := true
  readsRow : Bool := true
  readsArchive : Bool := true
  apply : ApplyEnv

/-- Why nothing is restored. -/
inductive RestoreError
  | descriptionTooLong
  | versionAlreadyCurrent
  | historyReadFailed
  | versionNotFound
  | archiveMissing
  | apply (e : ApplyError)

/-- The request it makes. -/
def RestoreRequest.applyRequest (req : RestoreRequest) (source : VersionRow) : ApplyRequest where
  origin := .restore
  sourceVersionId := some source.id
  description := req.description
  operatorId := req.operatorId
  operatorName := req.operatorName

/-- `restore_version`. -/
def restoreVersion (fmt : Formats) (sq : Sqlite) (env : RestoreEnv) (req : RestoreRequest)
    (site : Site) : Site × Except RestoreError Applied :=
  if !validDescription req.description then (site, .error .descriptionTooLong)
  else if env.readsCurrent && site.history.currentVersion.any fun r => r.id == req.versionId then
    (site, .error .versionAlreadyCurrent)
  else if !env.readsRow then (site, .error .historyReadFailed)
  else match site.history.liveVersion req.versionId with
    | none => (site, .error .versionNotFound)
    | some source =>
      match if env.readsArchive then site.history.archives.lookup source.archivePath else none with
      | none => (site, .error .archiveMissing)
      | some file =>
        let (site, result) := applyArchive fmt sq env.apply (req.applyRequest source) file site
        (site, result.mapError .apply)

/-- One operation of the service, or a change of the data directory by someone else. -/
inductive ServiceOp
  | backup (env : CreateEnv) (req : BackupRequest)
  | importPackage (env : ApplyEnv) (req : ApplyRequest) (package : ArchiveFile)
  | restore (env : RestoreEnv) (req : RestoreRequest)
  | delete (env : DeleteEnv) (id : String)
  | edit (d : Dir)

/-- The site under them. -/
def serviceMachine (fmt : Formats) (sq : Sqlite) : Machine Site ServiceOp Unit where
  step site
    | .backup env req => ((backupCurrent fmt env req site).1, [])
    | .importPackage env req package => ((applyArchive fmt sq env req package site).1, [])
    | .restore env req => ((restoreVersion fmt sq env req site).1, [])
    | .delete env id => ({ site with history := (deleteVersion env id site.history).1 }, [])
    | .edit dir => ({ site with dir }, [])

section Decomposed

variable (fmt : Formats) (sq : Sqlite)

/-- The history is that of a run of creations and deletions. -/
def Reaches (h h' : History) : Prop := ∃ ops, h' = (historyMachine fmt).run h ops

variable {fmt}

theorem Reaches.refl (h : History) : Reaches fmt h h := ⟨[], rfl⟩

theorem Reaches.trans {h h' h'' : History} (hr : Reaches fmt h h') (hr' : Reaches fmt h' h'') :
    Reaches fmt h h'' := by
  obtain ⟨ops, rfl⟩ := hr
  obtain ⟨ops', rfl⟩ := hr'
  exact ⟨ops ++ ops', ((historyMachine fmt).run_append h ops ops').symm⟩

theorem Reaches.create (fmt : Formats) (env : CreateEnv) (req : CreateRequest) (d : Dir) (h : History) :
    Reaches fmt h (createVersion fmt env req d h).1 := ⟨[.create env req d], rfl⟩

theorem reaches_prepare (fmt : Formats) (env : ApplyEnv) (req : ApplyRequest) (package : ArchiveFile)
    (site : Site) :
    Reaches fmt site.history (prepare fmt sq env req package site).1 := by
  have hcreate := Reaches.create fmt env.snapshot (req.snapshotRequest package.size)
    site.dir site.history
  unfold prepare
  split
  · exact .refl _
  split
  · exact .refl _
  split
  · rename_i heq
    rw [heq] at hcreate
    exact hcreate
  rename_i heq
  rw [heq] at hcreate
  split <;> exact hcreate

theorem reaches_install (env : ApplyEnv) (req : ApplyRequest) (site : Site) (h : History)
    (ready : Ready) : Reaches fmt h (install fmt env req site h ready).1.history := by
  have hcreate := Reaches.create fmt env.final req.finalRequest
    (site.dir.insertFields (env.copied ready.staged)) h
  unfold install
  dsimp only
  split
  · exact .refl h
  split
  · exact .refl h
  split
  · rename_i heq
    rw [heq] at hcreate
    exact hcreate
  rename_i heq
  rw [heq] at hcreate
  exact hcreate

theorem reaches_apply (env : ApplyEnv) (req : ApplyRequest) (package : ArchiveFile) (site : Site) :
    Reaches fmt site.history (applyArchive fmt sq env req package site).1.history := by
  have hprepare := reaches_prepare sq fmt env req package site
  unfold applyArchive
  split
  · rename_i heq
    rw [heq] at hprepare
    exact hprepare
  rename_i heq
  rw [heq] at hprepare
  exact hprepare.trans (reaches_install env req site _ _)

theorem reaches_restore (env : RestoreEnv) (req : RestoreRequest) (site : Site) :
    Reaches fmt site.history (restoreVersion fmt sq env req site).1.history := by
  unfold restoreVersion
  split
  · exact .refl _
  split
  · exact .refl _
  split
  · exact .refl _
  split
  · exact .refl _
  split
  · exact .refl _
  · exact reaches_apply sq env.apply _ _ site

theorem reaches_step (site : Site) (op : ServiceOp) :
    Reaches fmt site.history ((serviceMachine fmt sq).step site op).1.history := by
  cases op with
  | backup env req =>
    change Reaches fmt site.history (backupCurrent fmt env req site).1.history
    unfold backupCurrent
    split
    · exact .refl _
    · exact .create _ _ _ _ _
  | importPackage env req package => exact reaches_apply sq env req package site
  | restore env req => exact reaches_restore sq env req site
  | delete env id => exact ⟨[.delete env id], rfl⟩
  | edit d => exact .refl _

theorem reaches_run (fmt : Formats) (site : Site) (ops : List ServiceOp) :
    Reaches fmt site.history ((serviceMachine fmt sq).run site ops).history := by
  induction ops generalizing site with
  | nil => exact .refl _
  | cons op ops ih => exact (reaches_step sq site op).trans (ih _)

end Decomposed

/-- **Whatever the operations and wherever they fail**: the current version is not deleted,
revisions grow, and the archives stay within their capacity. -/
theorem sound_run (fmt : Formats) (sq : Sqlite) (d : Dir) (ops : List ServiceOp) :
    ((serviceMachine fmt sq).run ⟨d, History.empty⟩ ops).history.Sound := by
  obtain ⟨ops', hrun⟩ := reaches_run sq fmt ⟨d, History.empty⟩ ops
  rw [hrun]
  exact History.sound_empty.run fmt ops'

/-! ## What happens to an archive -/

section Filed

variable {v : VersionRow} {f : ArchiveFile} {h h' : History}

/-- A row of the version is there, and the file of its archive is `f` or gone. -/
structure Filed (v : VersionRow) (f : ArchiveFile) (h : History) : Prop where
  row : ∃ r ∈ h.rows, r.id = v.id ∧ r.revision = v.revision ∧ r.archivePath = v.archivePath
  file : ∀ g, h.archives.lookup v.archivePath = some g → g = f

theorem Filed.create {stamp : String}
    (hpath : v.archivePath = archiveFilename (versionName v.revision) stamp) (hf : Filed v f h)
    (he : CreateEffect h h') : Filed v f h' := by
  obtain ⟨r, hr, hid, hrevision, hrpath⟩ := hf.row
  refine ⟨⟨r, ?_, hid, hrevision, hrpath⟩, fun g hg => hf.file g ?_⟩
  · rcases he.rows with hrows | ⟨row, hrows, -⟩
    · exact hrows ▸ hr
    · exact hrows ▸ mem_append_left _ hr
  rcases he.archives with hsame | ⟨stamp', g', hinsert, -⟩
  · exact hsame ▸ hg
  -- a new archive has the name of a revision that no row has
  have hne : v.archivePath ≠ archiveFilename (versionName h.nextRevision) stamp' := by
    intro hsame
    have hnew := archiveFilename_inj (hpath.symm.trans hsame)
    exact absurd (hrevision.trans hnew) (History.revision_lt_nextRevision hr).ne
  rwa [hinsert, lookup_insert_ne hne] at hg

theorem Filed.delete {version : VersionRow} (hf : Filed v f h) (he : DeleteEffect version h h') :
    Filed v f h' := by
  obtain ⟨r, hr, hid, hrevision, hpath⟩ := hf.row
  obtain ⟨set, hrows, hset⟩ := he.rows
  refine ⟨⟨set r, hrows ▸ List.mem_map_of_mem hr, ?_⟩, fun g hg => hf.file g ?_⟩
  · rcases hset r with hsame | ⟨-, deletedAt, hmarked⟩
    · rw [hsame]
      exact ⟨hid, hrevision, hpath⟩
    rw [hmarked]
    exact ⟨hid, hrevision, hpath⟩
  rcases he.archives with hsame | herase
  · exact hsame ▸ hg
  by_cases hgone : v.archivePath = version.archivePath
  · rw [herase, hgone, lookup_erase] at hg
    cases hg
  · rwa [herase, lookup_erase_ne hgone] at hg

theorem filed_run (fmt : Formats) {stamp : String}
    (hpath : v.archivePath = archiveFilename (versionName v.revision) stamp) (hf : Filed v f h)
    (ops : List HistoryOp) : Filed v f ((historyMachine fmt).run h ops) :=
  history_invariant fmt (fun _ _ hf he => hf.create hpath he) (fun _ _ _ hf _ he => hf.delete he) hf
    ops

theorem filed_of_created {fmt : Formats} {env : CreateEnv} {d : Dir}
    (hc : Created fmt env req d h h' v archive) : Filed v ⟨v.archiveSize, some archive⟩ h' := by
  refine ⟨⟨v, ?_, rfl, rfl, rfl⟩, fun g hg => ?_⟩
  · rw [hc.rows_eq]
    exact mem_append_right _ (.head _)
  rw [lookup_of_created hc] at hg
  exact (some.inj hg).symm

theorem Filed.liveVersion {r : VersionRow} (hf : Filed v f h) (hr : h.liveVersion v.id = some r) :
    r.archivePath = v.archivePath := by
  obtain ⟨r', hr', hid, -, hpath⟩ := hf.row
  obtain ⟨hmem, hrid⟩ := mem_of_liveVersion hr
  have hsame : r = r' := inj_on_of_nodup_map h.ids hmem hr' (hrid.trans hid.symm)
  rw [hsame, hpath]

end Filed

/-! ## Versions that are returned again -/

/-- The row was made from the directory by a creation of the run. -/
def MadeFrom (fmt : Formats) (ops : List HistoryOp) (row : VersionRow) (d : Dir) : Prop :=
  ∃ before env req after archive, ops = before ++ .create env req d :: after ∧
    { row with deletedAt := none } =
      newRow fmt env req d ((historyMachine fmt).run History.empty before) archive

theorem MadeFrom.snoc {fmt : Formats} {ops : List HistoryOp} {row : VersionRow} {d : Dir}
    (h : MadeFrom fmt ops row d) (op : HistoryOp) : MadeFrom fmt (ops ++ [op]) row d := by
  obtain ⟨before, env, req, after, archive, rfl, hrow⟩ := h
  exact ⟨before, env, req, after ++ [op], archive, by simp, hrow⟩

theorem madeFrom_of_mem (fmt : Formats) (ops : List HistoryOp) :
    ∀ row ∈ ((historyMachine fmt).run History.empty ops).rows, ∃ d, MadeFrom fmt ops row d := by
  induction ops using reverseRecOn with
  | nil => exact fun row hrow => nomatch hrow
  | append_singleton ops op ih =>
    rw [(historyMachine fmt).run_append]
    set h := (historyMachine fmt).run History.empty ops with hh
    intro row hrow
    have hold : row ∈ h.rows → ∃ d, MadeFrom fmt (ops ++ [op]) row d := fun hrow =>
      (ih row hrow).imp fun d hmade => hmade.snoc op
    cases op with
    | create env req d =>
      change row ∈ (createVersion fmt env req d h).1.rows at hrow
      rcases createVersion_rows fmt env req d h with hrows | ⟨archive, hrows⟩
      · exact hold (hrows ▸ hrow)
      rw [hrows, mem_append, mem_singleton] at hrow
      rcases hrow with hrow | rfl
      · exact hold hrow
      · exact ⟨d, ops, env, req, [], archive, rfl, by rw [← hh]; rfl⟩
    | delete env id =>
      change row ∈ (deleteVersion env id h).1.rows at hrow
      rcases deleteVersion_effect env id h with heq | ⟨version, -, -, heffect⟩
      · exact hold (heq ▸ hrow)
      obtain ⟨set, hrows, hset⟩ := heffect.rows
      rw [hrows] at hrow
      obtain ⟨r, hr, rfl⟩ := List.mem_map.mp hrow
      obtain ⟨d, before, env', req, after, archive, hops, hmade⟩ := ih r hr
      refine ⟨d, MadeFrom.snoc ⟨before, env', req, after, archive, hops, ?_⟩ _⟩
      rcases hset r with hsame | ⟨-, deletedAt, hmarked⟩
      · rw [hsame, hmade]
      · rw [hmarked, ← hmade]

/-- **Changed files make a new version**, if names are plain and directories comparable; a version
that is returned again was made from the same files. -/
theorem changed_files_versioned (fmt : Formats) (hsha : Function.Injective fmt.sha256) :
    (∀ d d', PlainNames d → PlainNames d' → Comparable d d' → ¬ SameFiles d d' →
      hashContentEntries fmt (collectArchiveEntries d) ≠
        hashContentEntries fmt (collectArchiveEntries d')) ∧
    ∀ ops env req d' h' row,
      createVersion fmt env req d' ((historyMachine fmt).run History.empty ops) =
        (h', .ok (row, false)) →
      ∃ d, MadeFrom fmt ops row d ∧
        (PlainNames d → PlainNames d' → Comparable d d' → SameFiles d d') := by
  refine ⟨fun d d' hplain hplain' hcomparable hne hhash => hne ?_, ?_⟩
  · exact lookup_eq_of_hash hsha hplain hplain' hcomparable hhash
  intro ops env req d' h' row hkept
  obtain ⟨hcurrent, hhash⟩ := createVersion_kept hkept
  obtain ⟨d, hmade⟩ := madeFrom_of_mem fmt ops row (List.mem_of_find?_eq_some hcurrent)
  refine ⟨d, hmade, fun hplain hplain' hcomparable => ?_⟩
  obtain ⟨before, env', req', after, archive, -, hrow⟩ := hmade
  have hmadeHash : row.contentHash = hashContentEntries fmt (collectArchiveEntries d) :=
    congrArg VersionRow.contentHash hrow
  exact lookup_eq_of_hash hsha hplain hplain' hcomparable (hmadeHash.symm.trans hhash)

open SampleFormats Sample in
/-- A database that has grown has another hash; the same one is not archived a second time. -/
theorem changed_files_versioned_grown :
    hashContentEntries formats (collectArchiveEntries (singleton voltageDb [0])) ≠
        hashContentEntries formats (collectArchiveEntries (singleton voltageDb [0, 0])) ∧
      ∃ h' row d, createVersion formats createEnv { backup with deduplicate := true }
          (singleton voltageDb [0]) ((historyMachine formats).run History.empty
            [.create createEnv backup (singleton voltageDb [0])]) = (h', .ok (row, false)) ∧
        MadeFrom formats [.create createEnv backup (singleton voltageDb [0])] row d := by
  have hplain : PlainNames (singleton voltageDb [0]) ∧ PlainNames (singleton voltageDb [0, 0]) := by
    unfold PlainNames
    decide +kernel
  obtain ⟨hhash, hrun⟩ := changed_files_versioned formats sha256_injective
  refine ⟨hhash _ _ hplain.1 hplain.2 (.inr (by decide +kernel)) fun hsame => ?_, ?_⟩
  · exact absurd (hsame voltageDb (by decide)) (by decide +kernel)
  obtain ⟨h', row, hkept⟩ := exists_of_created false
    (r := createVersion formats createEnv { backup with deduplicate := true }
      (singleton voltageDb [0]) ((historyMachine formats).run History.empty
        [.create createEnv backup (singleton voltageDb [0])])) (by decide +kernel)
  obtain ⟨d, hmade, -⟩ := hrun _ _ _ _ _ _ hkept
  exact ⟨h', row, d, hkept, hmade⟩

open SampleFormats Sample in
/-- The file `a` with `bc` is archived, then `ab` with `c` is found to be archived already. -/
theorem moved_boundary_same_version :
    let d : Dir := singleton ⟨"a", by decide⟩ [98, 99]
    let d' : Dir := singleton ⟨"ab", by decide⟩ [99]
    hashContentEntries formats (collectArchiveEntries d) =
        hashContentEntries formats (collectArchiveEntries d') ∧ ¬ SameFiles d d' ∧
      ∃ h' row, createVersion formats createEnv { backup with deduplicate := true } d'
        ((historyMachine formats).run History.empty [.create createEnv backup d]) =
          (h', .ok (row, false)) := by
  refine ⟨by decide +kernel, fun hsame => ?_, exists_of_created _ (by decide +kernel)⟩
  exact absurd (hsame ⟨"a", by decide⟩ (by decide)) (by decide +kernel)

/-! ## What a restore leaves -/

section Restored

variable {fmt : Formats} {sq : Sqlite}

/-- The database `after` has the tables of `before`, with the accounts of the local one. -/
structure KeepsAccounts (sq : Sqlite) (before localDb after : Bytes) : Prop where
  tables : ∃ tables tablesLocal tables', sq.tables before = some tables ∧
    sq.tables localDb = some tablesLocal ∧ sq.tables after = some tables' ∧
    tables'.lookup "users" = some (tablesLocal.selectRows "users" Database.userColumns) ∧
    tables'.lookup "roles" = some (tablesLocal.selectRows "roles" Database.roleColumns) ∧
    ∀ t, t ≠ "users" → t ≠ "roles" → tables'.lookup t = tables.createTables.lookup t

theorem keepsAccounts_of_preserve {before localDb after : Bytes}
    (h : sq.preserve before localDb = some after) : KeepsAccounts sq before localDb after := by
  obtain ⟨tables, tablesLocal, hbefore, hlocal, hafter⟩ := sq.preserve_tables _ _ _ h
  refine ⟨tables, tablesLocal, _, hbefore, hlocal, hafter, ?_, ?_, fun t husers hroles => ?_⟩
  · exact lookup_insert _
  · rw [Database.preserveLocalAuth, lookup_insert_ne (by decide)]
    exact lookup_insert _
  · rw [Database.preserveLocalAuth, lookup_insert_ne husers, lookup_insert_ne hroles]

/-- The files of `F` are back over `before`, the database with the local accounts. -/
structure Restored (sq : Sqlite) (F before after : Dir) (localDb : Bytes) : Prop where
  files : ∀ p, isSidecar p = false → p ≠ voltageDb →
    after.lookup p = (archived F p).or (before.lookup p)
  database : ∃ db db', archived F voltageDb = some db ∧ after.lookup voltageDb = some db' ∧
    KeepsAccounts sq db localDb db'

variable {env : ApplyEnv}

variable {applied : Applied}

theorem applyArchive_ok {req : ApplyRequest} {package : ArchiveFile} {site site' : Site}
    (h : applyArchive fmt sq env req package site = (site', .ok applied)) :
    ∃ archive staged count, package.archive = some archive ∧
      stage sq env archive = .ok (staged, count) ∧
      site'.dir = site.dir.insertFields (env.order (collectPaths staged)) := by
  unfold applyArchive at h
  split at h
  · cases h
  rename_i history ready hprepare
  obtain ⟨archive, snapshotArchive, hp⟩ := prepare_ok hprepare
  refine ⟨archive, ready.staged, ready.filesExtracted, hp.readable, hp.staged, ?_⟩
  unfold install at h
  dsimp only at h
  split at h
  · cases h
  rename_i hcopy
  have hnone : env.copyBreak = none := by simpa using hcopy
  split at h
  · cases h
  split at h
  · cases h
  cases h
  rw [ApplyEnv.copied, hnone, writtenUpTo]

theorem restored_of_apply {req : ApplyRequest} {size : Nat} {F : Dir} {manifest : PackageManifest}
    {site site' : Site}
    (hpacked : createArchive fmt (collectArchiveEntries F) manifest = some archive)
    (h : applyArchive fmt sq env req ⟨size, some archive⟩ site = (site', .ok applied)) :
    Restored sq F site.dir site'.dir env.localDatabase := by
  obtain ⟨archive', staged, count, hreadable, hstage, hdir⟩ := applyArchive_ok h
  obtain rfl : archive = archive' := some.inj hreadable
  obtain ⟨-, hfiles, db, db', hdb, hdb', hpreserve⟩ := lookup_stage hstage
  rw [extractWrites_createArchive hpacked] at hfiles hdb
  have hcopied : ∀ p, isSidecar p = false →
      site'.dir.lookup p = (staged.lookup p).or (site.dir.lookup p) := by
    intro p hside
    rw [hdir, Hash.lookup_insertFields_or]
    congr 1
    apply Option.ext
    intro b
    rw [insertAll_collectPaths, mem_collectPaths, and_iff_left hside]
  refine ⟨fun p hside hp => ?_, db, db', hdb, ?_, keepsAccounts_of_preserve hpreserve⟩
  · rw [hcopied p hside, hfiles p hp]
    rfl
  · rw [hcopied voltageDb (by decide), hdb', some_or]

theorem restoreVersion_ok {env : RestoreEnv} {req : RestoreRequest} {site site' : Site}
    (h : restoreVersion fmt sq env req site = (site', .ok applied)) :
    ∃ source file, site.history.liveVersion req.versionId = some source ∧
      site.history.archives.lookup source.archivePath = some file ∧
      applyArchive fmt sq env.apply (req.applyRequest source) file site = (site', .ok applied) := by
  unfold restoreVersion at h
  split at h
  · cases h
  split at h
  · cases h
  split at h
  · cases h
  split at h
  · cases h
  rename_i source hsource
  split at h
  · cases h
  rename_i file hfile
  refine ⟨source, file, hsource, ?_, ?_⟩
  · split at hfile
    · exact hfile
    · cases hfile
  cases happly : applyArchive fmt sq env.apply (req.applyRequest source) file site with
  | mk site'' result =>
    rw [happly] at h
    cases result with
    | error e => cases h
    | ok applied' =>
      cases h
      rfl

/-- **What a successful restore of a version leaves**: the files it was created from over what is
there by then; with plain names these are the files as they were. -/
theorem restored_of_run (fmt : Formats) (sq : Sqlite) (createEnv : CreateEnv)
    (createReq : CreateRequest) (F : Dir) (h h' : History) (v : VersionRow) (ops : List HistoryOp)
    (before : Dir) (env : RestoreEnv) (req : RestoreRequest) (site' : Site) (applied : Applied)
    (hcreated : createVersion fmt createEnv createReq F h = (h', .ok (v, true)))
    (hid : req.versionId = v.id)
    (hrestored : restoreVersion fmt sq env req ⟨before, (historyMachine fmt).run h' ops⟩ =
      (site', .ok applied)) :
    Restored sq F before site'.dir env.apply.localDatabase ∧
      (PlainNames F → ∀ p, isSidecar p = false → archived F p = F.lookup p) := by
  obtain ⟨archive, hc⟩ := createVersion_created hcreated
  have hpath : v.archivePath = archiveFilename (versionName v.revision) createEnv.stamp := by
    rw [hc.row_eq]
    rfl
  have hfiled := filed_run fmt hpath (filed_of_created hc) ops
  obtain ⟨source, file, hsource, hfile, happly⟩ := restoreVersion_ok hrestored
  rw [hid] at hsource
  rw [hfiled.liveVersion hsource] at hfile
  obtain rfl := hfiled.file file hfile
  refine ⟨restored_of_apply hc.packed happly, fun hplain p hside => ?_⟩
  rw [archived_of_plain hplain, hside, if_neg Bool.false_ne_true]

end Restored

namespace Sample

/-- One more version. -/
def laterOps (d : Dir) : List HistoryOp := [.create { createEnv with id := "id-2" } backup d]

def restoreEnv : RestoreEnv where
  apply := { applyEnv with
    snapshot := { createEnv with id := "id-3" }
    final := { createEnv with id := "id-4" } }

def restoreFirst : RestoreRequest where
  versionId := "id-1"
  operatorId := 1
  operatorName := "admin"

/-- A version of `F` and a later one. -/
def afterVersion (F d : Dir) : Site where
  dir := d
  history := (historyMachine SampleFormats.formats).run
    (createVersion SampleFormats.formats createEnv backup F noVersions).1 (laterOps F)

def databaseDir : Dir := singleton voltageDb sqliteMagic

def nestedBackslashFile : RelPath := ⟨"a\\b", by decide⟩

end Sample

theorem exists_of_restored {r : Site × Except RestoreError Applied} (hr : r.2.toOption.isSome) :
    ∃ site' applied, r = (site', .ok applied) := by
  obtain ⟨site', e | applied⟩ := r
  · cases hr
  · exact ⟨site', applied, rfl⟩

open SampleFormats Sample in
theorem restored_over_new_file :
    ∃ h' v site' applied,
      createVersion formats createEnv backup databaseDir noVersions = (h', .ok (v, true)) ∧
      restoreFirst.versionId = v.id ∧
      restoreVersion formats sqlite restoreEnv restoreFirst ⟨dir sqliteMagic pointsFile [1],
        (historyMachine formats).run h' (laterOps databaseDir)⟩ = (site', .ok applied) ∧
      Restored sqlite databaseDir (dir sqliteMagic pointsFile [1]) site'.dir
        restoreEnv.apply.localDatabase := by
  obtain ⟨h', v, hcreated⟩ := exists_of_created true
    (r := createVersion formats createEnv backup databaseDir noVersions) (by decide +kernel)
  obtain ⟨site', applied, hrestored⟩ := exists_of_restored
    (r := restoreVersion formats sqlite restoreEnv restoreFirst
      (afterVersion databaseDir (dir sqliteMagic pointsFile [1]))) (by decide +kernel)
  rw [afterVersion, hcreated] at hrestored
  have hid : restoreFirst.versionId = v.id := by
    obtain ⟨archive, hc⟩ := createVersion_created hcreated
    rw [hc.row_eq]
    rfl
  exact ⟨h', v, site', applied, hcreated, hid, hrestored,
    (restored_of_run _ _ _ _ _ _ h' v _ _ _ _ site' applied hcreated hid hrestored).1⟩

open SampleFormats Sample in
/-- A later file stays, and one with a backslash in its name comes back as another. -/
theorem restore_not_exact :
    (∃ h' v site' applied,
      createVersion formats createEnv backup databaseDir noVersions = (h', .ok (v, true)) ∧
      restoreVersion formats sqlite restoreEnv restoreFirst ⟨dir sqliteMagic pointsFile [1],
        (historyMachine formats).run h' (laterOps databaseDir)⟩ = (site', .ok applied) ∧
      databaseDir.lookup pointsFile = none ∧ site'.dir.lookup pointsFile = some [1]) ∧
    (∃ h' v site' applied,
      createVersion formats createEnv backup (dir sqliteMagic nestedBackslashFile [1]) noVersions =
        (h', .ok (v, true)) ∧
      restoreVersion formats sqlite restoreEnv restoreFirst ⟨databaseDir,
        (historyMachine formats).run h' (laterOps (dir sqliteMagic nestedBackslashFile [1]))⟩ =
        (site', .ok applied) ∧
      (dir sqliteMagic nestedBackslashFile [1]).lookup nestedBackslashFile = some [1] ∧
      site'.dir.lookup nestedBackslashFile = none) := by
  have hrun : ∀ (F d : Dir) (p : RelPath) (after : Option Bytes),
      (createVersion formats createEnv backup F noVersions).2.toOption.map Prod.snd = some true ∧
      (restoreVersion formats sqlite restoreEnv restoreFirst
        (afterVersion F d)).2.toOption.isSome = true ∧
      (restoreVersion formats sqlite restoreEnv restoreFirst
        (afterVersion F d)).1.dir.lookup p = after →
      ∃ h' v site' applied,
        createVersion formats createEnv backup F noVersions = (h', .ok (v, true)) ∧
        restoreVersion formats sqlite restoreEnv restoreFirst
          ⟨d, (historyMachine formats).run h' (laterOps F)⟩ = (site', .ok applied) ∧
        site'.dir.lookup p = after := by
    rintro F d p after ⟨hcreate, hrestore, hfile⟩
    obtain ⟨h', v, hcreated⟩ := exists_of_created _ hcreate
    obtain ⟨site', applied, hrestored⟩ := exists_of_restored hrestore
    rw [hrestored] at hfile
    rw [afterVersion, hcreated] at hrestored
    exact ⟨h', v, site', applied, hcreated, hrestored, hfile⟩
  -- the outcome and the file in one evaluation of the calls
  constructor
  · obtain ⟨h', v, site', applied, hcreated, hrestored, hfile⟩ :=
      hrun databaseDir (dir sqliteMagic pointsFile [1]) pointsFile (some [1]) (by decide +kernel)
    exact ⟨h', v, site', applied, hcreated, hrestored, lookup_pointsFile _, hfile⟩
  obtain ⟨h', v, site', applied, hcreated, hrestored, hfile⟩ :=
    hrun (dir sqliteMagic nestedBackslashFile [1]) databaseDir nestedBackslashFile none
      (by decide +kernel)
  exact ⟨h', v, site', applied, hcreated, hrestored, lookup_insert _, hfile⟩

end VoltageEMS.Apigateway
