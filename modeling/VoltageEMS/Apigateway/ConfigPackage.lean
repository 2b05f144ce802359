import VoltageEMS.Apigateway.ConfigArchive

/-!
# Configuration packages and their database

The database of a package is checked by SQLite; later the archive is unpacked and the database that is
then there gets the local accounts.
-/

namespace VoltageEMS.Apigateway

open Lib List Option

/-! ## Databases -/

/-- Values by column. -/
abbrev Row := List (String × Option String)

/-- The rows of a SQLite database by table; schemas and indexes are left out. -/
abbrev Database := Hash String (List Row)

namespace Database

/-- `create_tables`: what is there stays. -/
def createTables (db : Database) : Database :=
  ((db.orInsert "roles" []).orInsert "users" []).orInsert "calculated_points" []

/-- The columns copied of `roles`. -/
def roleColumns : List String :=
  ["id", "name_en", "name_zh", "description", "created_at", "updated_at"]

/-- The columns copied of `users`. -/
def userColumns : List String :=
  ["id", "username", "password_hash", "role_id", "is_active", "auth_version", "last_login",
    "created_at", "updated_at"]

/-- `SELECT` of the columns. -/
def selectRows (db : Database) (table : String) (columns : List String) : List Row :=
  ((db.lookup table).getD []).map fun r => columns.map fun c => (c, (r.lookup c).join)

/-- The accounts of the imported database are replaced by the local ones. -/
def preserveLocalAuth (imported localDb : Database) : Database :=
  (imported.createTables.insert "roles" (localDb.selectRows "roles" roleColumns)).insert "users"
    (localDb.selectRows "users" userColumns)

end Database

/-- SQLite: the tables in a database file, the integrity checks, and the file that the statements of
`preserve_local_auth` leave, if none of them fails. -/
structure Sqlite where
  tables : Bytes → Option Database
  integrity : Bytes → Except String Unit
  preserve : (imported localDb : Bytes) → Option Bytes
  preserve_tables : ∀ imported localDb b, preserve imported localDb = some b →
    ∃ di dl, tables imported = some di ∧ tables localDb = some dl ∧
      tables b = some (di.preserveLocalAuth dl)

/-! ## Validation of a package -/

/-- `by_name`: the last entry of the name. -/
def databaseFromArchive (archive : Archive) : Option Bytes :=
  (archive.filter fun e => e.name = "voltage.db").getLast?.map Entry.data

/-- `validate_database_integrity`. -/
def validateDatabaseIntegrity (sq : Sqlite) (archive : Archive) : Except String Unit :=
  match databaseFromArchive archive with
  | none => .error "specified file not found in archive"
  | some db => sq.integrity db

/-- `validate_package`. -/
def validatePackage (fmt : Formats) (sq : Sqlite) (archive : Archive) : ValidatedArchive :=
  let validation := validateArchive fmt archive
  let databaseResult :=
    if validation.valid then validateDatabaseIntegrity sq archive
    else .error "Earlier package checks failed"
  let checks := validation.checks.map fun check =>
    if check.code = "reference_integrity" then
      { check with
        passed := databaseResult.isOk
        message := match databaseResult with
          | .ok () => "SQLite integrity and business foreign-key checks passed"
          | .error message => "Configuration database integrity check failed: " ++ message }
    else check
  { validation with checks, valid := checks.all ValidationCheck.passed }

/-! ## The database that is unpacked -/

section Unpacked

variable {fmt : Formats} {sq : Sqlite} {archive : Archive}

theorem valid_validatePackage_iff : (validatePackage fmt sq archive).valid = true ↔
    (validateArchive fmt archive).valid = true ∧ (validateDatabaseIntegrity sq archive).isOk := by
  have hchecks : (validatePackage fmt sq archive).valid =
      ((Scan.run fmt archive).safe && ((Scan.run fmt archive).hasDatabase &&
        (Scan.run fmt archive).manifest.isSome && ((Scan.run fmt archive).manifest.any fun m =>
          m.contentHash == hashContentEntries fmt (sortByName (Scan.run fmt archive).contentEntries))) &&
        (Scan.run fmt archive).manifest.any PackageManifest.compatible &&
        (if (validateArchive fmt archive).valid then validateDatabaseIntegrity sq archive
          else .error "Earlier package checks failed").isOk) := by
    simp [validatePackage, validateArchive, Bool.and_assoc]
  rw [hchecks]
  cases hvalid : (validateArchive fmt archive).valid
  · simp [Except.isOk, Except.toBool]
  unfold validateArchive at hvalid
  simp only [Bool.and_eq_true] at hvalid
  obtain ⟨⟨⟨hsafe, hdb⟩, hcompatible⟩, hhash⟩ := hvalid
  have hmanifest : (Scan.run fmt archive).manifest.isSome := by
    cases hm : (Scan.run fmt archive).manifest
    · rw [hm] at hhash
      cases hhash
    · rfl
  simp only [hsafe, hdb, hcompatible, hhash, hmanifest, if_true, Bool.and_true, Bool.true_and,
    true_and]

/-- It is unpacked as the database. -/
def Entry.leadsToDatabase (e : Entry) : Bool :=
  match e.placed with
  | .file p => p = voltageDb
  | _ => false

variable {e : Entry}

theorem leadsToDatabase_of_name (h : e.name = "voltage.db") : e.leadsToDatabase = true := by
  obtain ⟨name, data⟩ := e
  obtain rfl : name = "voltage.db" := h
  have hplaced := placed_of_plain (p := voltageDb) data (by decide) (by decide)
  have hslashed : slashed voltageDb.text = "voltage.db" := by decide
  rw [hslashed] at hplaced
  rw [Entry.leadsToDatabase, hplaced]
  exact decide_eq_true rfl

theorem filter_extractWrites (hok : (extractWrites archive).2 = true) :
    ((extractWrites archive).1.filter fun f => f.1 = voltageDb) =
      (archive.filter Entry.leadsToDatabase).map fun e => (voltageDb, e.data) := by
  induction archive with
  | nil => rfl
  | cons e archive ih =>
    rw [extractWrites] at hok ⊢
    rw [filter_cons]
    cases hplaced : e.placed with
    | refused =>
      rw [hplaced] at hok
      cases hok
    | skipped =>
      rw [hplaced] at hok
      simp only [Entry.leadsToDatabase, hplaced]
      exact ih hok
    | file p =>
      rw [hplaced] at hok
      simp only [Entry.leadsToDatabase, hplaced, filter_cons]
      by_cases hp : p = voltageDb
      · subst hp
        simp [ih hok]
      · simp [hp, ih hok]

theorem lookup_extractArchive (hok : (extractArchive archive ∅).2.isSome) :
    (extractArchive archive ∅).1.lookup voltageDb =
      (archive.filter Entry.leadsToDatabase).getLast?.map Entry.data := by
  have hcomplete : (extractWrites archive).2 = true := by
    cases hok' : (extractWrites archive).2
    · simp [extractArchive, hok'] at hok
    · rfl
  have hempty : AList.lookup voltageDb (∅ : Dir) = none := rfl
  change ((∅ : Dir).insertFields (extractWrites archive).1).lookup voltageDb = _
  rw [Hash.lookup_insertFields_or, insertAll_eq_getLast, filter_extractWrites hcomplete, getLast?_map,
    hempty, or_none, or_none, Option.map_map]
  rfl

/-- No entry after the checked one leads to its file under another name, or the last that does has
the same bytes. -/
def Undisguised (archive : Archive) : Prop :=
  ∀ front e rest, archive = front ++ e :: rest → e.name = "voltage.db" →
    (∀ e' ∈ rest, e'.name ≠ "voltage.db") →
    ∀ e' ∈ (rest.filter Entry.leadsToDatabase).getLast?, e'.data = e.data

theorem exists_last {α : Type} {p : α → Bool} {l : List α} (h : ∃ a ∈ l, p a = true) :
    ∃ front a rest, l = front ++ a :: rest ∧ p a = true ∧ ∀ b ∈ rest, p b = false := by
  obtain ⟨a, hfound⟩ : ∃ a, l.reverse.find? p = some a := by
    rw [← isSome_iff_exists, find?_isSome]
    simpa using h
  obtain ⟨hp, before, after, heq, hbefore⟩ := find?_eq_some_iff_append.mp hfound
  refine ⟨after.reverse, a, before.reverse, ?_, hp, fun b hb => ?_⟩
  · rw [← reverse_reverse l, heq]
    simp
  · simpa using hbefore b (List.mem_reverse.mp hb)

theorem databaseFromArchive_eq {front rest : Archive} (hname : e.name = "voltage.db")
    (hrest : ∀ e' ∈ rest, e'.name ≠ "voltage.db") :
    databaseFromArchive (front ++ e :: rest) = some e.data := by
  have hnone : (rest.filter fun e => e.name = "voltage.db") = [] :=
    filter_eq_nil_iff.mpr fun e' he' => by simpa using hrest e' he'
  rw [databaseFromArchive, filter_append, filter_cons_of_pos (by simpa using hname), hnone]
  simp

theorem exists_database (hvalid : (validateArchive fmt archive).valid = true) :
    ∃ e ∈ archive, e.name = "voltage.db" := by
  unfold validateArchive at hvalid
  simp only [Bool.and_eq_true] at hvalid
  have hdb := hvalid.1.1.2
  rw [Scan.run, Scan.hasDatabase_foldl, Bool.false_or] at hdb
  obtain ⟨e, he, hdatabase⟩ := List.any_eq_true.mp hdb
  refine ⟨e, he, ?_⟩
  rw [Entry.isDatabase, Bool.and_eq_true, Bool.and_eq_true] at hdatabase
  have hslashed : slashed e.name = "voltage.db" := beq_iff_eq.mp hdatabase.1.2
  have hplain : '\\' ∉ e.name.toList := by
    intro hmem
    have hslash : '/' ∈ (slashed e.name).toList := by
      rw [slashed, String.toList_ofList]
      exact List.mem_map.mpr ⟨_, hmem, if_pos rfl⟩
    rw [hslashed] at hslash
    exact absurd hslash (by decide)
  rwa [slashed_of_plain hplain] at hslashed

theorem lookup_extractArchive_append {front rest : Archive} (hname : e.name = "voltage.db")
    (hok : (extractArchive (front ++ e :: rest) ∅).2.isSome) :
    (extractArchive (front ++ e :: rest) ∅).1.lookup voltageDb = some e.data ↔
      ∀ e' ∈ (rest.filter Entry.leadsToDatabase).getLast?, e'.data = e.data := by
  rw [lookup_extractArchive hok, filter_append,
    filter_cons_of_pos (leadsToDatabase_of_name hname), getLast?_append_cons,
    getLast?_cons]
  cases (rest.filter Entry.leadsToDatabase).getLast? with
  | none | some => simp

/-- **When the unpacked database is the one that was checked.** -/
theorem database_staged_iff (fmt : Formats) (sq : Sqlite) (archive : Archive)
    (hvalid : (validatePackage fmt sq archive).valid = true)
    (hok : (extractArchive archive ∅).2.isSome) :
    ∃ db, databaseFromArchive archive = some db ∧ (sq.integrity db).isOk ∧
      ((extractArchive archive ∅).1.lookup voltageDb = some db ↔ Undisguised archive) := by
  obtain ⟨harchive, hintegrity⟩ := valid_validatePackage_iff.mp hvalid
  obtain ⟨e₀, he₀, hname₀⟩ := exists_database harchive
  obtain ⟨front, e, rest, hsplit, hname, hrest⟩ :=
    exists_last (p := fun e => decide (e.name = "voltage.db")) ⟨e₀, he₀, decide_eq_true hname₀⟩
  have hname : e.name = "voltage.db" := of_decide_eq_true hname
  have hrest : ∀ e' ∈ rest, e'.name ≠ "voltage.db" := fun e' he' => of_decide_eq_false (hrest e' he')
  have hdb : databaseFromArchive archive = some e.data :=
    hsplit ▸ databaseFromArchive_eq hname hrest
  rw [validateDatabaseIntegrity, hdb] at hintegrity
  refine ⟨e.data, hdb, hintegrity, fun hlookup => ?_, fun h => ?_⟩
  · -- every such place in the archive holds the same bytes
    intro front' e' rest' hsplit' hname' hrest'
    have hsame : e'.data = e.data := by
      rw [hsplit', databaseFromArchive_eq hname' hrest'] at hdb
      exact some.inj hdb
    rw [hsplit'] at hlookup hok
    rw [← hsame] at hlookup
    exact (lookup_extractArchive_append hname' hok).mp hlookup
  have hlast := h front e rest hsplit hname hrest
  rw [hsplit] at hok ⊢
  exact (lookup_extractArchive_append hname hok).mpr hlast

namespace Sample

def sqlite : Sqlite where
  tables := fun _ => some (Database.preserveLocalAuth ∅ ∅)
  integrity := fun _ => .ok ()
  preserve := fun imported _ => some imported
  preserve_tables := fun _ _ _ _ => ⟨_, _, rfl, rfl, congrArg some (AList.ext (by decide +kernel))⟩

def packed (entries : List Entry) : Archive :=
  let manifest : PackageManifest := {
    packageType := "voltageems-config"
    formatVersion := 1
    configVersion := "V1"
    createdAt := "now"
    createdBy := "x"
    contentHash := hashContentEntries SampleFormats.formats (sortByName entries) }
  ⟨"manifest.json", SampleFormats.formats.encode manifest⟩ :: entries

end Sample

open SampleFormats Sample in
theorem database_staged_of_plain :
    ∃ db, databaseFromArchive (packed [⟨"voltage.db", sqliteMagic⟩, ⟨"notes", [1]⟩]) = some db ∧
      (sqlite.integrity db).isOk ∧
      ((extractArchive (packed [⟨"voltage.db", sqliteMagic⟩, ⟨"notes", [1]⟩]) ∅).1.lookup voltageDb =
        some db ↔ Undisguised (packed [⟨"voltage.db", sqliteMagic⟩, ⟨"notes", [1]⟩])) :=
  database_staged_iff formats sqlite _ (by decide +kernel) (by decide +kernel)

open SampleFormats Sample in
/-- The checked database is overwritten by an entry with a detour in its name. -/
theorem disguised_database :
    (validatePackage formats sqlite
      (packed [⟨"voltage.db", sqliteMagic⟩, ⟨"a/../voltage.db", [1]⟩])).valid = true ∧
    databaseFromArchive (packed [⟨"voltage.db", sqliteMagic⟩, ⟨"a/../voltage.db", [1]⟩]) =
      some sqliteMagic ∧
    (extractArchive (packed [⟨"voltage.db", sqliteMagic⟩, ⟨"a/../voltage.db", [1]⟩]) ∅).2.isSome ∧
    (extractArchive (packed [⟨"voltage.db", sqliteMagic⟩, ⟨"a/../voltage.db", [1]⟩]) ∅).1.lookup
      voltageDb = some [1] := by
  refine ⟨?_, ?_, ?_, ?_⟩ <;> decide +kernel

end Unpacked

end VoltageEMS.Apigateway
