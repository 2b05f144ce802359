import VoltageEMS.Lib.Hashes
import VoltageEMS.Lib.Paths

/-!
# Configuration archives

A version of the configuration is a ZIP archive of the data directory with a manifest in front.  The
ZIP library lists the entries in order, with their stored names, and refuses to write a name twice.
-/

namespace VoltageEMS.Apigateway

open Lib List Option

/-! ## Directories -/

abbrev Bytes := List UInt8

/-- The files below a directory. -/
abbrev Dir := Hash RelPath Bytes

/-- SQLite keeps it beside a database. -/
def isSidecar (p : RelPath) : Bool :=
  "-wal".toList.isSuffixOf p.text.toList || "-shm".toList.isSuffixOf p.text.toList

/-- The database file. -/
def voltageDb : RelPath := ⟨"voltage.db", by decide⟩

/-- `replace('\\', "/")`. -/
def slashed (name : String) : String :=
  String.ofList (name.toList.map fun c => if c = '\\' then '/' else c)

/-- `collect_paths`. -/
def collectPaths (d : Dir) : List (RelPath × Bytes) :=
  (d.entries.filter fun e => !isSidecar e.1).map fun e => (e.1, e.2)

/-! ## Archives -/

/-- An entry of a ZIP file. -/
structure Entry where
  name : String
  data : Bytes
deriving DecidableEq

abbrev Archive := List Entry

/-- `PackageManifest`. -/
structure PackageManifest where
  packageType : String
  formatVersion : Nat
  configVersion : String
  createdAt : String
  createdBy : String
  contentHash : String
deriving DecidableEq

/-- The libraries an archive rests on: SHA-256 in hexadecimal, the JSON text of a manifest, and the
length of the ZIP file. -/
structure Formats where
  sha256 : Bytes → String
  encode : PackageManifest → Bytes
  decode : Bytes → Option PackageManifest
  decode_encode : ∀ m, decode (encode m) = some m
  packedSize : Archive → Nat

variable (fmt : Formats)

/-- The hash tells the two apart. -/
def Formats.TellsApart (b b' : Bytes) : Prop := fmt.sha256 b = fmt.sha256 b' → b = b'

/-- The order of the names. -/
def nameLe (l r : Entry) : Prop := l.name.toList ≤ r.name.toList

instance : DecidableRel nameLe := fun l r =>
  inferInstanceAs (Decidable (l.name.toList ≤ r.name.toList))

instance : Std.Total nameLe := ⟨fun l r => le_total l.name.toList r.name.toList⟩

instance : IsTrans Entry nameLe := ⟨fun _ _ _ => le_trans (α := List Char)⟩

variable (entries : List Entry)

/-- `sort_by`. -/
def sortByName : List Entry := entries.insertionSort nameLe

/-- `collect_archive_entries`. -/
def collectArchiveEntries (d : Dir) : List Entry :=
  sortByName ((collectPaths d).map fun f => ⟨slashed f.1.text, f.2⟩)

/-- What is hashed. -/
def contentStream : Bytes :=
  entries.flatMap fun e => e.name.toList.flatMap String.utf8EncodeChar ++ e.data

/-- `hash_content_entries`. -/
def hashContentEntries : String :=
  "sha256:" ++ fmt.sha256 (contentStream entries)

/-- `create_archive`. -/
def createArchive (manifest : PackageManifest) : Option Archive :=
  let archive := ⟨"manifest.json", fmt.encode manifest⟩ :: entries
  if (archive.map Entry.name).Nodup then some archive else none

/-! ## Validation -/

/-- `MAX_ARCHIVE_FILES`. -/
def maxArchiveFiles : Nat := 10000

/-- `MAX_EXTRACTED_BYTES`. -/
def maxExtractedBytes : Nat := 256 * 1024 * 1024

/-- The first bytes of a database. -/
def sqliteMagic : Bytes := "SQLite format 3".toList.flatMap String.utf8EncodeChar ++ [0]

/-- The ZIP library's test for a directory. -/
def isDirName (name : String) : Bool :=
  name.toList.getLast? == some '/' || name.toList.getLast? == some '\\'

/-- `ZipFile::is_dir`. -/
def Entry.isDir (e : Entry) : Bool := isDirName e.name

/-- `ValidationCheck`. -/
structure ValidationCheck where
  code : String
  passed : Bool
  message : String

/-- `ValidatedArchive`. -/
structure ValidatedArchive where
  checks : List ValidationCheck
  valid : Bool
  manifest : Option PackageManifest

/-- The variables of the loop of `validate_archive`, with what it has read so far. -/
structure Scan where
  safe : Bool
  total : Nat := 0
  entriesRead : Nat := 0
  bytesRead : Nat := 0
  hasDatabase : Bool := false
  manifest : Option PackageManifest := none
  contentEntries : List Entry := []

namespace Scan

/-- `read_to_end` of an entry. -/
def read (s : Scan) (e : Entry) : Scan :=
  { s with entriesRead := s.entriesRead + 1, bytesRead := s.bytesRead + e.data.length }

/-- One round of the loop. -/
def entry (s : Scan) (e : Entry) : Scan :=
  let total := min (s.total + e.data.length) (2 ^ 64 - 1)
  let safe := s.safe && (enclosed e.name).isSome && total ≤ maxExtractedBytes
  let name := slashed e.name
  if name = "manifest.json" then { s.read e with safe, total, manifest := fmt.decode e.data }
  else if e.isDir then { s with safe, total }
  else { s.read e with
    safe, total
    hasDatabase := s.hasDatabase || (name == "voltage.db" && sqliteMagic.isPrefixOf e.data)
    contentEntries := s.contentEntries ++ [⟨name, e.data⟩] }

/-- The loop. -/
def run (archive : Archive) : Scan :=
  archive.foldl (entry fmt) { safe := archive.length ≤ maxArchiveFiles }

end Scan

/-- The manifest is of a known kind. -/
def PackageManifest.compatible (m : PackageManifest) : Bool :=
  m.packageType == "voltageems-config" && m.formatVersion == 1

/-- `validate_archive`. -/
def validateArchive (archive : Archive) : ValidatedArchive :=
  let s := Scan.run fmt archive
  let compatible := s.manifest.any PackageManifest.compatible
  let actualHash := hashContentEntries fmt (sortByName s.contentEntries)
  let checksumMatches := s.manifest.any fun m => m.contentHash == actualHash
  let structured := s.hasDatabase && s.manifest.isSome && checksumMatches
  { valid := s.safe && s.hasDatabase && compatible && checksumMatches
    manifest := s.manifest
    checks :=
      [⟨"archive_safety", s.safe,
          if s.safe then "File and extraction safety check passed"
          else "Archive contains an unsafe path or exceeds extraction limits"⟩,
        ⟨"package_structure", structured,
          if structured then "Package structure, required files, and content checksum check passed"
          else "manifest.json or voltage.db is invalid, or the content checksum does not match"⟩,
        ⟨"format_compatibility", compatible,
          if compatible then "Configuration format is compatible"
          else "Configuration package format is not supported"⟩,
        ⟨"reference_integrity", s.hasDatabase,
          "Configuration database integrity has not been checked"⟩] }

/-! ## Extraction -/

/-- Where `extract_archive` puts an entry. -/
inductive Placed
  | refused
  | skipped
  | file (p : RelPath)

/-- The round of `extract_archive` for an entry. -/
def Entry.placed (e : Entry) : Placed :=
  match enclosed e.name with
  | none => .refused
  | some components =>
    if pathComponents e.name = ["manifest.json".toList] then .skipped
    else if e.isDir then .skipped
    else match RelPath.ofComponents components with
      | none => .refused
      | some p => .file p

/-- The files written, and whether all are. -/
def extractWrites : Archive → List (RelPath × Bytes) × Bool
  | [] => ([], true)
  | e :: archive =>
    match e.placed with
    | .refused => ([], false)
    | .skipped => extractWrites archive
    | .file p => ((p, e.data) :: (extractWrites archive).1, (extractWrites archive).2)

/-- `extract_archive`. -/
def extractArchive (archive : Archive) (target : Dir) : Dir × Option Nat :=
  let (writes, ok) := extractWrites archive
  (target.insertFields writes, if ok then some writes.length else none)

/-! ## What the validation finds -/

namespace Entry

/-- With slashes. -/
def slashed (e : Entry) : Entry := ⟨Apigateway.slashed e.name, e.data⟩

/-- It is hashed. -/
def isContent (e : Entry) : Bool := e.slashed.name ≠ "manifest.json" && !e.isDir

/-- It is read into memory. -/
def isRead (e : Entry) : Bool := e.slashed.name = "manifest.json" || !e.isDir

/-- It passes for the database. -/
def isDatabase (e : Entry) : Bool :=
  e.isContent && e.slashed.name == "voltage.db" && sqliteMagic.isPrefixOf e.data

end Entry

namespace Scan

variable {fmt : Formats}

/-- **What one round of the loop finds.** -/
theorem entry_eq (s : Scan) (e : Entry) : entry fmt s e =
    { safe := s.safe && (enclosed e.name).isSome &&
        min (s.total + e.data.length) (2 ^ 64 - 1) ≤ maxExtractedBytes
      total := min (s.total + e.data.length) (2 ^ 64 - 1)
      entriesRead := s.entriesRead + if e.isRead then 1 else 0
      bytesRead := s.bytesRead + if e.isRead then e.data.length else 0
      hasDatabase := s.hasDatabase || e.isDatabase
      manifest := if e.slashed.name = "manifest.json" then fmt.decode e.data else s.manifest
      contentEntries := s.contentEntries ++ if e.isContent then [e.slashed] else [] } := by
  have hslashed : e.slashed.name = slashed e.name := rfl
  unfold entry read Entry.isDatabase Entry.isContent Entry.isRead
  dsimp only
  rw [hslashed]
  by_cases hname : slashed e.name = "manifest.json"
  · rw [if_pos hname, if_pos hname]
    simp [hname]
  rw [if_neg hname, if_neg hname]
  cases hdir : e.isDir
  · simp [hname, Entry.slashed]
  · simp [hname]

variable {archive : Archive} {s : Scan}

theorem safe_of_foldl (h : (archive.foldl (entry fmt) s).safe = true) : s.safe = true := by
  induction archive generalizing s with
  | nil => exact h
  | cons e archive ih =>
    have he := ih h
    rw [entry_eq, Bool.and_eq_true, Bool.and_eq_true] at he
    exact he.1.1

theorem safe_foldl_iff (htotal : s.total ≤ maxExtractedBytes) :
    (archive.foldl (entry fmt) s).safe ↔ s.safe ∧ (∀ e ∈ archive, (enclosed e.name).isSome) ∧
      s.total + (archive.map fun e => e.data.length).sum ≤ maxExtractedBytes := by
  induction archive generalizing s with
  | nil => simp [htotal]
  | cons e archive ih =>
    rw [foldl_cons, forall_mem_cons, map_cons, sum_cons]
    have hmax : maxExtractedBytes < 2 ^ 64 - 1 := by decide
    by_cases hfits : s.total + e.data.length ≤ maxExtractedBytes
    · have hmin : min (s.total + e.data.length) (2 ^ 64 - 1) = s.total + e.data.length := by omega
      have hsafe : (entry fmt s e).safe ↔ s.safe ∧ (enclosed e.name).isSome := by
        rw [entry_eq, hmin]
        simp [hfits]
      have hnext : (entry fmt s e).total = s.total + e.data.length := by rw [entry_eq, hmin]
      rw [ih (hnext ▸ hfits), hsafe, hnext, Nat.add_assoc, and_assoc, and_assoc]
    have hunsafe : ¬ (entry fmt s e).safe := by
      rw [entry_eq, Bool.and_eq_true, decide_eq_true_eq]
      omega
    refine iff_of_false (fun h => hunsafe (safe_of_foldl h)) fun h => hfits ?_
    exact le_trans (by omega) h.2.2

theorem hasDatabase_foldl (archive : Archive) (s : Scan) :
    (archive.foldl (entry fmt) s).hasDatabase = (s.hasDatabase || archive.any Entry.isDatabase) := by
  induction archive generalizing s with
  | nil => simp
  | cons e archive ih => rw [foldl_cons, ih, entry_eq, any_cons, Bool.or_assoc]

theorem contentEntries_foldl (archive : Archive) (s : Scan) :
    (archive.foldl (entry fmt) s).contentEntries =
      s.contentEntries ++ (archive.filter Entry.isContent).map Entry.slashed := by
  induction archive generalizing s with
  | nil => simp
  | cons e archive ih =>
    have hentry : (entry fmt s e).contentEntries =
        s.contentEntries ++ if e.isContent then [e.slashed] else [] := by rw [entry_eq]
    rw [foldl_cons, ih, hentry, filter_cons]
    cases e.isContent <;> simp

theorem read_foldl (archive : Archive) (s : Scan) :
    (archive.foldl (entry fmt) s).entriesRead = s.entriesRead + archive.countP Entry.isRead ∧
      (archive.foldl (entry fmt) s).bytesRead =
        s.bytesRead + ((archive.filter Entry.isRead).map fun e => e.data.length).sum := by
  induction archive generalizing s with
  | nil => exact ⟨rfl, rfl⟩
  | cons e archive ih =>
    obtain ⟨hentries, hbytes⟩ := ih (entry fmt s e)
    rw [foldl_cons, hentries, hbytes, entry_eq, countP_cons, filter_cons]
    cases e.isRead
    · simp
    · simp
      omega

theorem read_run (archive : Archive) :
    (run fmt archive).entriesRead = archive.countP Entry.isRead ∧
      (run fmt archive).bytesRead =
        ((archive.filter Entry.isRead).map fun e => e.data.length).sum := by
  rw [run, (read_foldl ..).1, (read_foldl ..).2]
  exact ⟨Nat.zero_add _, Nat.zero_add _⟩

theorem manifest_foldl (h : ∀ e ∈ archive, e.slashed.name ≠ "manifest.json") :
    (archive.foldl (entry fmt) s).manifest = s.manifest := by
  induction archive generalizing s with
  | nil => rfl
  | cons e archive ih =>
    rw [foldl_cons, ih fun e he => h e (.tail _ he), entry_eq]
    exact if_neg (h e (.head _))

end Scan

/-! ## The archive of a directory -/

theorem slashed_slashed (name : String) : slashed (slashed name) = slashed name := by
  unfold slashed
  rw [String.toList_ofList, List.map_map]
  congr 2
  funext c
  by_cases hc : c = '\\' <;> simp [hc]

theorem mem_collectPaths {d : Dir} {p : RelPath} {b : Bytes} :
    (p, b) ∈ collectPaths d ↔ d.lookup p = some b ∧ isSidecar p = false := by
  rw [← mem_def, AList.mem_lookup_iff]
  constructor
  · intro h
    obtain ⟨e, he, heq⟩ := List.mem_map.mp h
    obtain ⟨hmem, hside⟩ := mem_filter.mp he
    cases heq
    exact ⟨hmem, by simpa using hside⟩
  rintro ⟨hmem, hside⟩
  exact List.mem_map.mpr ⟨⟨p, b⟩, mem_filter.mpr ⟨hmem, by simpa using hside⟩, rfl⟩

/-- The entries that are unpacked. -/
def keptEntries (d : Dir) : List Entry := (collectArchiveEntries d).filter fun e => !e.isDir

theorem perm_collectArchiveEntries (d : Dir) :
    (collectArchiveEntries d).Perm ((collectPaths d).map fun f => ⟨slashed f.1.text, f.2⟩) :=
  perm_insertionSort _ _

variable {e : Entry}

theorem mem_collectArchiveEntries {d : Dir} :
    e ∈ collectArchiveEntries d ↔ ∃ f ∈ collectPaths d, ⟨slashed f.1.text, f.2⟩ = e := by
  rw [(perm_collectArchiveEntries d).mem_iff, List.mem_map]

theorem slashed_of_mem {d : Dir} (h : e ∈ collectArchiveEntries d) : e.slashed = e := by
  obtain ⟨f, -, rfl⟩ := mem_collectArchiveEntries.mp h
  rw [Entry.slashed, slashed_slashed]

theorem isDir_slashed (p : RelPath) (b : Bytes) :
    (⟨slashed p.text, b⟩ : Entry).isDir = (p.text.toList.getLast? == some '\\') := by
  unfold Entry.isDir isDirName slashed
  simp only [String.toList_ofList, getLast?_map]
  cases hlast : p.text.toList.getLast? with
  | none => rfl
  | some c =>
    have hslash : c ≠ '/' := fun hc => p.getLast?_text (hc ▸ hlast)
    by_cases hc : c = '\\'
    · subst hc
      rfl
    · simp [hc, hslash]

theorem contentStream_filter_lt {entries : List Entry} (keep : Entry → Bool) (he : e ∈ entries)
    (hkeep : keep e = false) (hname : e.name ≠ "") :
    (contentStream (entries.filter keep)).length < (contentStream entries).length := by
  have hle : ∀ l : List Entry, (contentStream (l.filter keep)).length ≤ (contentStream l).length :=
    fun l => (filter_sublist.flatMap _).length_le
  have hbytes : 0 < (e.name.toList.flatMap String.utf8EncodeChar).length := by
    cases hchars : e.name.toList with
    | nil => exact absurd (String.toList_eq_nil_iff.mp hchars) hname
    | cons c cs =>
      rw [flatMap_cons, length_append, String.length_utf8EncodeChar]
      exact Nat.add_pos_left c.utf8Size_pos _
  obtain ⟨front, rest, rfl⟩ := append_of_mem he
  have hfront := hle front
  have hrest := hle rest
  unfold contentStream at hfront hrest ⊢
  rw [filter_append, filter_cons_of_neg (by simp [hkeep])]
  simp only [flatMap_append, flatMap_cons, length_append]
  omega

/-- The archive of a directory stays within the limits of the validation. -/
structure Restorable (fmt : Formats) (manifest : PackageManifest) (d : Dir) : Prop where
  count : (collectPaths d).length + 1 ≤ maxArchiveFiles
  size : (fmt.encode manifest).length + ((collectPaths d).map fun f => f.2.length).sum ≤
    maxExtractedBytes
  names : ∀ f ∈ collectPaths d,
    (enclosed (slashed f.1.text)).isSome ∧ f.1.text.toList.getLast? ≠ some '\\'

section Created

variable {fmt : Formats} {d : Dir} {manifest : PackageManifest} {archive : Archive}

theorem createArchive_eq_some_iff : createArchive fmt (collectArchiveEntries d) manifest =
      some archive ↔
    archive = ⟨"manifest.json", fmt.encode manifest⟩ :: collectArchiveEntries d ∧
      (archive.map Entry.name).Nodup := by
  unfold createArchive
  dsimp only
  split
  · rename_i hnodup
    rw [some.injEq]
    constructor
    · rintro rfl
      exact ⟨rfl, hnodup⟩
    rintro ⟨rfl, -⟩
    rfl
  rename_i hnodup
  constructor
  · intro h
    cases h
  rintro ⟨rfl, h⟩
  exact absurd h hnodup

section Packed

variable (h : createArchive fmt (collectArchiveEntries d) manifest = some archive)
include h

theorem name_ne_manifest (he : e ∈ collectArchiveEntries d) : e.slashed.name ≠ "manifest.json" := by
  obtain ⟨rfl, hnodup⟩ := createArchive_eq_some_iff.mp h
  rw [map_cons, nodup_cons] at hnodup
  rw [slashed_of_mem he]
  intro hname
  exact hnodup.1 (List.mem_map.mpr ⟨e, he, hname⟩)

theorem safe_iff :
    (Scan.run fmt archive).safe ↔ (collectPaths d).length + 1 ≤ maxArchiveFiles ∧
      (fmt.encode manifest).length + ((collectPaths d).map fun f => f.2.length).sum ≤
        maxExtractedBytes ∧
      ∀ f ∈ collectPaths d, (enclosed (slashed f.1.text)).isSome := by
  obtain ⟨rfl, -⟩ := createArchive_eq_some_iff.mp h
  have hperm := perm_collectArchiveEntries d
  have hlength : (collectArchiveEntries d).length = (collectPaths d).length := by
    rw [hperm.length_eq, length_map]
  have hsum : ((collectArchiveEntries d).map fun e => e.data.length).sum =
      ((collectPaths d).map fun f => f.2.length).sum := by
    rw [(hperm.map _).sum_eq, List.map_map]
    rfl
  have hnames : (∀ e ∈ collectArchiveEntries d, (enclosed e.name).isSome) ↔
      ∀ f ∈ collectPaths d, (enclosed (slashed f.1.text)).isSome := by
    simp only [mem_collectArchiveEntries]
    constructor
    · exact fun hall f hf => hall ⟨slashed f.1.text, f.2⟩ ⟨f, hf, rfl⟩
    rintro hall _ ⟨f, hf, rfl⟩
    exact hall f hf
  have hmanifest : (enclosed "manifest.json").isSome := by decide
  rw [Scan.run, Scan.safe_foldl_iff (Nat.zero_le _), forall_mem_cons, map_cons,
    sum_cons, hsum, hnames, length_cons, hlength, decide_eq_true_eq]
  simp only [hmanifest, true_and, Nat.zero_add]
  exact and_congr_right fun _ => and_comm

theorem contentEntries_eq :
    sortByName (Scan.run fmt archive).contentEntries = keptEntries d := by
  have hname := fun e he => name_ne_manifest h (e := e) he
  obtain ⟨rfl, -⟩ := createArchive_eq_some_iff.mp h
  have hkept : (collectArchiveEntries d).filter Entry.isContent = keptEntries d := by
    refine filter_congr fun e he => ?_
    simp [Entry.isContent, hname e he]
  have hmanifest : Entry.isContent ⟨"manifest.json", fmt.encode manifest⟩ = false := by
    have hname : slashed "manifest.json" = "manifest.json" := by decide
    simp [Entry.isContent, Entry.slashed, hname]
  have hslashed : (keptEntries d).map Entry.slashed = keptEntries d :=
    (map_congr_left fun e he => slashed_of_mem (mem_filter.mp he).1).trans (List.map_id _)
  have hsorted : (collectArchiveEntries d).Pairwise nameLe := pairwise_insertionSort _ _
  rw [Scan.run, Scan.contentEntries_foldl, nil_append,
    filter_cons_of_neg (by rw [hmanifest]; exact Bool.false_ne_true), hkept, hslashed]
  exact (hsorted.sublist filter_sublist).insertionSort_eq

theorem manifest_eq : (Scan.run fmt archive).manifest = some manifest := by
  have hname := fun e he => name_ne_manifest h (e := e) he
  obtain ⟨rfl, -⟩ := createArchive_eq_some_iff.mp h
  have hslashed : slashed "manifest.json" = "manifest.json" := by decide
  rw [Scan.run, foldl_cons, Scan.manifest_foldl hname, Scan.entry_eq]
  exact (if_pos hslashed).trans (fmt.decode_encode manifest)

theorem hasDatabase_eq {db : Bytes} (hdb : d.lookup voltageDb = some db)
    (hmagic : sqliteMagic.isPrefixOf db) :
    (Scan.run fmt archive).hasDatabase = true := by
  obtain ⟨rfl, -⟩ := createArchive_eq_some_iff.mp h
  have hslashed : slashed voltageDb.text = "voltage.db" := by decide
  have hmem : (⟨"voltage.db", db⟩ : Entry) ∈ collectArchiveEntries d :=
    mem_collectArchiveEntries.mpr
      ⟨(voltageDb, db), mem_collectPaths.mpr ⟨hdb, by decide⟩, by rw [hslashed]⟩
  have hdatabase : (⟨"voltage.db", db⟩ : Entry).isDatabase = true := by
    have hdir : isDirName "voltage.db" = false := by decide
    have hname : slashed "voltage.db" = "voltage.db" := hslashed
    simp [Entry.isDatabase, Entry.isContent, Entry.isDir, Entry.slashed, hname, hdir, hmagic]
  rw [Scan.run, Scan.hasDatabase_foldl, Bool.false_or]
  exact List.any_eq_true.mpr ⟨_, .tail _ hmem, hdatabase⟩

end Packed

theorem hash_keptEntries_iff
    (hsha : fmt.TellsApart (contentStream (collectArchiveEntries d)) (contentStream (keptEntries d))) :
    hashContentEntries fmt (collectArchiveEntries d) = hashContentEntries fmt (keptEntries d) ↔
      ∀ f ∈ collectPaths d, f.1.text.toList.getLast? ≠ some '\\' := by
  unfold hashContentEntries
  rw [String.append_right_inj, (⟨hsha, congrArg _⟩ : fmt.sha256 _ = fmt.sha256 _ ↔ _ = _)]
  constructor
  · intro hstream f hf hlast
    have hmem := mem_collectArchiveEntries.mpr ⟨f, hf, rfl⟩
    have hdir := isDir_slashed f.1 f.2
    rw [hlast, beq_self_eq_true] at hdir
    have hname : slashed f.1.text ≠ "" := by
      intro hempty
      rw [hempty] at hdir
      exact absurd hdir (by decide : isDirName "" ≠ true)
    have hlt : (contentStream (keptEntries d)).length < (contentStream (collectArchiveEntries d)).length :=
      contentStream_filter_lt (fun e => !e.isDir) hmem (by rw [hdir]; rfl) hname
    rw [← hstream] at hlt
    exact absurd hlt (lt_irrefl _)
  intro hnames
  rw [keptEntries, List.filter_eq_self.mpr]
  intro e he
  obtain ⟨f, hf, rfl⟩ := mem_collectArchiveEntries.mp he
  rw [isDir_slashed]
  simpa using hnames f hf

/-- **Which archives of a directory pass the validation.** -/
theorem valid_createArchive_iff
    (hsha : fmt.TellsApart (contentStream (collectArchiveEntries d)) (contentStream (keptEntries d)))
    (h : createArchive fmt (collectArchiveEntries d) manifest = some archive)
    (hcompatible : manifest.compatible)
    (hhash : manifest.contentHash = hashContentEntries fmt (collectArchiveEntries d))
    {db : Bytes} (hdb : d.lookup voltageDb = some db) (hmagic : sqliteMagic.isPrefixOf db) :
    (validateArchive fmt archive).valid ↔ Restorable fmt manifest d := by
  have hvalid : (validateArchive fmt archive).valid ↔ (Scan.run fmt archive).safe ∧
      manifest.contentHash = hashContentEntries fmt (keptEntries d) := by
    unfold validateArchive
    simp [manifest_eq h, hasDatabase_eq h hdb hmagic, hcompatible, contentEntries_eq h]
  rw [hvalid, safe_iff h, hhash, hash_keptEntries_iff hsha]
  constructor
  · rintro ⟨⟨hcount, hsize, hnames⟩, hlast⟩
    exact ⟨hcount, hsize, fun f hf => ⟨hnames f hf, hlast f hf⟩⟩
  rintro ⟨hcount, hsize, hnames⟩
  exact ⟨⟨hcount, hsize, fun f hf => (hnames f hf).1⟩, fun f hf => (hnames f hf).2⟩

end Created

/-! ## What an archive puts back -/

/-- The files that the archive of the directory holds. -/
def archived (d : Dir) : RelPath → Option Bytes :=
  insertAll (fun _ => none) (extractWrites (collectArchiveEntries d)).1

theorem extractWrites_createArchive {fmt : Formats} {d : Dir} {manifest : PackageManifest}
    {archive : Archive} (h : createArchive fmt (collectArchiveEntries d) manifest = some archive) :
    extractWrites archive = extractWrites (collectArchiveEntries d) := by
  obtain ⟨rfl, -⟩ := createArchive_eq_some_iff.mp h
  have hskipped : (⟨"manifest.json", fmt.encode manifest⟩ : Entry).placed = .skipped := by
    have henclosed : enclosed "manifest.json" = some ["manifest.json".toList] := by decide
    have hcomponents : pathComponents "manifest.json" = ["manifest.json".toList] := by decide
    simp only [Entry.placed, henclosed, hcomponents, if_true]
  rw [extractWrites, hskipped]

theorem extractWrites_of_files {archive : Archive} {path : Entry → RelPath}
    (h : ∀ e ∈ archive, e.placed = .file (path e)) :
    extractWrites archive = (archive.map fun e => (path e, e.data), true) := by
  induction archive with
  | nil => rfl
  | cons e archive ih =>
    rw [extractWrites, h e (.head _), ih fun e he => h e (.tail _ he)]
    rfl

section Plain

variable {d : Dir}

theorem slashed_of_plain {name : String} (hplain : '\\' ∉ name.toList) : slashed name = name := by
  have hsame : ∀ c ∈ name.toList, (if c = '\\' then '/' else c) = c :=
    fun c hc => if_neg (by rintro rfl; exact hplain hc)
  rw [slashed, map_congr_left hsame, List.map_id', String.ofList_toList]

theorem placed_of_plain {p : RelPath} (b : Bytes) (hplain : '\\' ∉ p.text.toList)
    (hmanifest : p.text ≠ "manifest.json") : (⟨slashed p.text, b⟩ : Entry).placed = .file p := by
  have hslashed := slashed_of_plain hplain
  have hdir : (⟨slashed p.text, b⟩ : Entry).isDir = false := by
    rw [isDir_slashed]
    exact beq_eq_false_iff_ne.mpr fun h => hplain (mem_of_getLast? h)
  have hcomponents : p.text.toList.splitOn '/' ≠ ["manifest.json".toList] := by
    intro h
    have htext : intercalate ['/'] (p.text.toList.splitOn '/') = p.text.toList :=
      intercalate_splitOn '/'
    rw [h] at htext
    exact hmanifest (String.toList_inj.mp htext.symm)
  rw [hslashed] at hdir ⊢
  simp only [Entry.placed, p.enclosed_text, p.pathComponents_text, if_neg hcomponents, hdir,
    Bool.false_eq_true, if_false, p.ofComponents_splitOn]

/-- No file has a backslash in its name, or the name of the manifest. -/
def PlainNames (d : Dir) : Prop :=
  ∀ f ∈ collectPaths d, '\\' ∉ f.1.text.toList ∧ f.1.text ≠ "manifest.json"

theorem mem_extractWrites_of_plain (h : PlainNames d) :
    (extractWrites (collectArchiveEntries d)).2 = true ∧
      ∀ f, f ∈ (extractWrites (collectArchiveEntries d)).1 ↔ f ∈ collectPaths d := by
  have hpath : ∀ f ∈ collectPaths d,
      (RelPath.ofText (slashed f.1.text)).getD voltageDb = f.1 := by
    intro f hf
    rw [slashed_of_plain (h f hf).1, RelPath.ofText_text]
    rfl
  have hplaced : ∀ e ∈ collectArchiveEntries d,
      e.placed = .file ((RelPath.ofText e.name).getD voltageDb) := by
    intro e he
    obtain ⟨f, hf, rfl⟩ := mem_collectArchiveEntries.mp he
    rw [placed_of_plain f.2 (h f hf).1 (h f hf).2, hpath f hf]
  rw [extractWrites_of_files hplaced]
  refine ⟨rfl, fun f => ?_⟩
  rw [List.mem_map]
  constructor
  · rintro ⟨e, he, rfl⟩
    obtain ⟨f, hf, rfl⟩ := mem_collectArchiveEntries.mp he
    rw [hpath f hf]
    exact hf
  intro hf
  exact ⟨_, mem_collectArchiveEntries.mpr ⟨f, hf, rfl⟩, by rw [hpath f hf]⟩

/-- **The archive of plainly named files puts them back.** -/
theorem archived_of_plain (h : PlainNames d) (p : RelPath) :
    archived d p = if isSidecar p then none else d.lookup p := by
  have hmem := (mem_extractWrites_of_plain h).2
  have hiff : ∀ b, (p, b) ∈ (extractWrites (collectArchiveEntries d)).1 ↔
      d.lookup p = some b ∧ isSidecar p = false := fun b => (hmem _).trans mem_collectPaths
  cases hb : (if isSidecar p then none else d.lookup p) with
  | none =>
    refine Option.eq_none_iff_forall_ne_some.mpr fun b hsome => ?_
    rcases mem_of_insertAll hsome with hin | hin
    · obtain ⟨hlookup, hside⟩ := (hiff b).mp hin
      rw [hside, if_neg Bool.false_ne_true, hlookup] at hb
      cases hb
    · cases hin
  | some b =>
    have hfile : d.lookup p = some b ∧ isSidecar p = false := by
      cases hside : isSidecar p
      · rw [hside] at hb
        exact ⟨hb, rfl⟩
      rw [hside] at hb
      cases hb
    refine insertAll_of_unique ((hiff b).mpr hfile) fun c hc => ?_
    exact some.inj (((hiff c).mp hc).1.symm.trans hfile.1)

end Plain

/-! ## What the hash tells apart -/

/-- The name and the size of an entry. -/
def Entry.shape (e : Entry) : String × Nat := (e.name, e.data.length)

/-- The bytes an entry adds to what is hashed. -/
def Entry.hashedBytes (e : Entry) : Nat := (e.name.toList.map Char.utf8Size).sum + e.data.length

theorem length_contentStream (l : List Entry) :
    (contentStream l).length = (l.map Entry.hashedBytes).sum := by
  rw [contentStream, length_flatMap]
  congr 2
  funext e
  simp [Entry.hashedBytes, length_flatMap, String.length_utf8EncodeChar]

theorem contentStream_inj : ∀ {l l' : List Entry}, l.map Entry.shape = l'.map Entry.shape →
    contentStream l = contentStream l' → l = l'
  | [], [], _, _ => rfl
  | e :: l, e' :: l', hshape, hstream => by
    obtain ⟨hhead, htail⟩ := cons.inj hshape
    obtain ⟨hname, hlength⟩ := Prod.mk.inj hhead
    unfold contentStream at hstream
    rw [flatMap_cons, flatMap_cons, hname, append_assoc, append_assoc, append_cancel_left_eq] at hstream
    obtain ⟨hdata, hrest⟩ := append_inj hstream hlength
    rw [contentStream_inj htail hrest, show e = e' from (Entry.mk.injEq ..).mpr ⟨hname, hdata⟩]

/-- The same names with the same sizes, or different total bytes. -/
def Comparable (d d' : Dir) : Prop :=
  (collectArchiveEntries d).map Entry.shape = (collectArchiveEntries d').map Entry.shape ∨
    ((collectArchiveEntries d).map Entry.hashedBytes).sum ≠
      ((collectArchiveEntries d').map Entry.hashedBytes).sum

/-- **Of comparable directories the hash tells the contents apart.** -/
theorem lookup_eq_of_hash {fmt : Formats} (hsha : Function.Injective fmt.sha256) {d d' : Dir}
    (hplain : PlainNames d) (hplain' : PlainNames d') (hcomparable : Comparable d d')
    (hhash : hashContentEntries fmt (collectArchiveEntries d) =
      hashContentEntries fmt (collectArchiveEntries d')) (p : RelPath) (hp : isSidecar p = false) :
    d'.lookup p = d.lookup p := by
  have hstream := hsha ((String.append_right_inj _).mp hhash)
  have hshape := hcomparable.resolve_right fun hne => hne <| by
    rw [← length_contentStream, ← length_contentStream, hstream]
  have hentries := contentStream_inj hshape hstream
  have hlookup : ∀ {d : Dir}, PlainNames d → (d.lookup p = archived d p) := fun hplain => by
    rw [archived_of_plain hplain, if_neg (by simp [hp])]
  rw [hlookup hplain, hlookup hplain', archived, archived, hentries]

/-! ## What the validation reads -/

/-- The scan has read at most as many entries and bytes as an archive may have. -/
def Scan.WithinLimits (s : Scan) : Prop :=
  s.bytesRead ≤ maxExtractedBytes ∧ s.entriesRead ≤ maxArchiveFiles

/-- **What the validation reads** is within the limits exactly if the entries it reads are, by
number and declared size. -/
theorem withinLimits_iff (fmt : Formats) (archive : Archive) :
    (Scan.run fmt archive).WithinLimits ↔
      ((archive.filter Entry.isRead).map fun e => e.data.length).sum ≤ maxExtractedBytes ∧
        archive.countP Entry.isRead ≤ maxArchiveFiles := by
  rw [Scan.WithinLimits, (Scan.read_run archive).1, (Scan.read_run archive).2]

/-! ## Formats to run the model with -/

namespace SampleFormats

/-- A text. -/
def textBytes : List Char → Bytes
  | [] => [1]
  | c :: cs =>
    0 :: UInt8.ofNat (c.toNat / 65536) :: UInt8.ofNat (c.toNat / 256) :: UInt8.ofNat c.toNat ::
      textBytes cs

def readChars : Bytes → Option (List Char × Bytes)
  | 0 :: a :: b :: c :: rest => (readChars rest).map fun r =>
    (Char.ofNat (a.toNat * 65536 + b.toNat * 256 + c.toNat) :: r.1, r.2)
  | 1 :: rest => some ([], rest)
  | _ => none

variable (cs : List Char) (m : PackageManifest) (n : Nat) (rest : Bytes)

theorem readChars_textBytes : readChars (textBytes cs ++ rest) = some (cs, rest) := by
  induction cs with
  | nil => rfl
  | cons c cs ih =>
    have hvalid : c.toNat.isValidChar := c.valid
    have hchar : (UInt8.ofNat (c.toNat / 65536)).toNat * 65536 +
        (UInt8.ofNat (c.toNat / 256)).toNat * 256 + (UInt8.ofNat c.toNat).toNat = c.toNat := by
      unfold Nat.isValidChar at hvalid
      simp only [UInt8.toNat_ofNat']
      omega
    simp only [textBytes, cons_append, readChars, ih, map_some, hchar, Char.ofNat_toNat]

def readText (b : Bytes) : Option (String × Bytes) :=
  (readChars b).map fun r => (String.ofList r.1, r.2)

theorem readText_textBytes : readText (textBytes cs ++ rest) = some (String.ofList cs, rest) := by
  rw [readText, readChars_textBytes]
  rfl

/-- A number. -/
def numberBytes (n : Nat) : Bytes := replicate n 0 ++ [1]

def readNumber : Bytes → Option (Nat × Bytes)
  | 0 :: rest => (readNumber rest).map fun r => (r.1 + 1, r.2)
  | 1 :: rest => some (0, rest)
  | _ => none

theorem readNumber_numberBytes : readNumber (numberBytes n ++ rest) = some (n, rest) := by
  induction n with
  | zero => rfl
  | succ n ih =>
    rw [numberBytes, replicate_succ]
    exact congrArg (Option.map _) ih

def encode (m : PackageManifest) : Bytes :=
  textBytes m.packageType.toList ++ (numberBytes m.formatVersion ++
    (textBytes m.configVersion.toList ++ (textBytes m.createdAt.toList ++
      (textBytes m.createdBy.toList ++ (textBytes m.contentHash.toList ++ [])))))

def decode (b : Bytes) : Option PackageManifest := do
  let (packageType, b) ← readText b
  let (formatVersion, b) ← readNumber b
  let (configVersion, b) ← readText b
  let (createdAt, b) ← readText b
  let (createdBy, b) ← readText b
  let (contentHash, _) ← readText b
  return { packageType, formatVersion, configVersion, createdAt, createdBy, contentHash }

theorem decode_encode : decode (encode m) = some m := by
  simp only [decode, encode, readText_textBytes, readNumber_numberBytes, bind_eq_bind,
    bind_some, String.ofList_toList]
  rfl

def formats : Formats where
  sha256 := fun b => String.ofList (b.map fun x => Char.ofNat x.toNat)
  encode := encode
  decode := decode
  decode_encode := decode_encode
  packedSize := fun archive => 100 * archive.length

theorem sha256_injective : Function.Injective formats.sha256 := by
  have hchar : Function.Injective fun x : UInt8 => Char.ofNat x.toNat := by
    intro x y h
    have hx : x.toNat.isValidChar := .inl (x.toNat_lt.trans (by decide))
    have hy : y.toNat.isValidChar := .inl (y.toNat_lt.trans (by decide))
    have hnat := congrArg Char.toNat h
    rw [Char.toNat_ofNat, Char.toNat_ofNat, if_pos hx, if_pos hy] at hnat
    exact UInt8.toNat_inj.mp hnat
  intro b b' h
  exact List.map_injective_iff.mpr hchar (String.ofList_injective h)

end SampleFormats

/-- One entry of a byte more than the limit is read to its end. -/
theorem large_entry_read :
    ¬ (Scan.run SampleFormats.formats
      [⟨"a", replicate (maxExtractedBytes + 1) 0⟩]).WithinLimits := by
  intro h
  have hbytes := h.1
  have hread : ∀ data, Entry.isRead ⟨"a", data⟩ = true := fun _ =>
    (by decide : (slashed "a" = "manifest.json" || !isDirName "a") = true)
  rw [(Scan.read_run _).2, filter_cons_of_pos (hread _), map_cons, length_replicate] at hbytes
  exact absurd hbytes (Nat.not_succ_le_self _)

end VoltageEMS.Apigateway
