import VoltageEMS.Monarch.Syncer

/-!
# What the parts of a run write

One lemma for each part of `ConfigSyncer`, so that the results about whole runs do not look into the
loops again.
-/

namespace VoltageEMS.Monarch

open Lib List
open Db (Binding NewRule)

variable {env : Env} {db db' : Db}

/-! ## Points -/

/-- A directory has the point. -/
def NamesPoint (dirs : List ChannelDir) (r : PointRow) : Prop :=
  ∃ d ∈ dirs, channelDirId d.name = some r.channelId ∧
    ∃ f, d.file r.pointType = .read f ∧ ∃ p ∈ f.points, p.pointId = r.pointId

/-- Only points changed, and of these only such as `named` covers. -/
structure PointsWritten (named : PointRow → Prop) (db db' : Db) : Prop where
  channels : db'.channels = db.channels
  instances : db'.instances = db.instances
  properties : db'.properties = db.properties
  routings : db'.routings = db.routings
  rules : db'.rules = db.rules
  kept : ∀ r ∈ db.points, ¬ named r → r ∈ db'.points

namespace PointsWritten

variable {named : PointRow → Prop}

theorem refl (db : Db) : PointsWritten named db db :=
  ⟨rfl, rfl, rfl, rfl, rfl, fun _ hr _ => hr⟩

theorem trans {db₁ db₂ db₃ : Db} (h : PointsWritten named db₁ db₂)
    (h' : PointsWritten named db₂ db₃) : PointsWritten named db₁ db₃ where
  channels := h'.channels.trans h.channels
  instances := h'.instances.trans h.instances
  properties := h'.properties.trans h.properties
  routings := h'.routings.trans h.routings
  rules := h'.rules.trans h.rules
  kept := fun r hr hnot => h'.kept r (h.kept r hr hnot) hnot

theorem replacePoint {p : PointRow} (h : db.replacePoint p = .ok db')
    (hp : ∀ r : PointRow, r.key = p.key → named r) : PointsWritten named db db' := by
  obtain ⟨hpoints, hchannels, hinstances, hproperties, hroutings, hrules⟩ := Db.replacePoint_ok h
  refine ⟨hchannels, hinstances, hproperties, hroutings, hrules, fun r hr hnot => ?_⟩
  rw [hpoints]
  refine mem_replaceRow.mpr (.inl ⟨hr, ?_⟩)
  rw [PointRow.clash, beq_eq_false_iff_ne]
  exact fun hkey => hnot (hp r hkey)

end PointsWritten

variable {pointType : PointType} {channelId : Nat}

theorem pointsWritten_syncPoint {named : PointRow → Prop} {p : TypedPoint}
    (hp : ∀ r : PointRow, r.key = (pointType, channelId, p.pointId) → named r)
    (mappings : Option (Hash String (Hash String Json))) (acc : Progress) :
    PointsWritten named acc.1 (syncPoint channelId pointType mappings acc p).1 := by
  unfold syncPoint
  split
  · rename_i h
    exact PointsWritten.replacePoint h hp
  · exact .refl _

theorem pointsWritten_foldl {named : PointRow → Prop}
    (mappings : Option (Hash String (Hash String Json))) :
    ∀ (ps : List TypedPoint) (db : Db) (errors : List SyncError),
      (∀ p ∈ ps, ∀ r : PointRow, r.key = (pointType, channelId, p.pointId) → named r) →
      PointsWritten named db (ps.foldl (syncPoint channelId pointType mappings) (db, errors)).1
  | [], _, _, _ => .refl _
  | p :: ps, db, errors, hps =>
    (pointsWritten_syncPoint (hps p (.head _)) mappings (db, errors)).trans
      (pointsWritten_foldl mappings ps _ _ fun q hq => hps q (.tail _ hq))

variable {acc : Progress} {acc' : Progress}

theorem pointsWritten_syncPointType {named : PointRow → Prop} {protocol : String}
    {file : FileState PointFile} (hfile : ∀ f, file = .read f → ∀ p ∈ f.points, ∀ r : PointRow,
      r.key = (pointType, channelId, p.pointId) → named r)
    (h : syncPointType env channelId protocol acc pointType file = .ok acc') :
    PointsWritten named acc.1 acc'.1 := by
  cases file with
  | missing => exact Except.ok.inj h ▸ .refl _
  | unreadable => cases h
  | read f =>
    obtain ⟨⟨mappings, errors⟩, -, hfold⟩ := bind_eq_ok_iff.mp h
    rw [← Except.ok.inj hfold]
    exact pointsWritten_foldl mappings f.points acc.1 _ (hfile f rfl)

variable {dirs : List ChannelDir}

theorem pointsWritten_syncChannelDir {d : ChannelDir} (hd : d ∈ dirs)
    (h : syncChannelDir env acc d = .ok acc') : PointsWritten (NamesPoint dirs) acc.1 acc'.1 := by
  unfold syncChannelDir at h
  split at h
  · exact Except.ok.inj h ▸ .refl _
  rename_i channelId hid
  refine foldlM_keeps (P := fun s : Progress => PointsWritten (NamesPoint dirs) acc.1 s.1)
    (fun s s' pointType _ hone hs => hs.trans (pointsWritten_syncPointType ?_ hone)) h (.refl _)
  intro f hf p hp r hkey
  obtain ⟨rfl, hchannel, hpoint⟩ : r.pointType = pointType ∧ r.channelId = channelId ∧
      r.pointId = p.pointId := by simpa [PointRow.key] using hkey
  exact ⟨d, hd, hchannel ▸ hid, f, hf, p, hp, hpoint.symm⟩

theorem pointsWritten_syncDirs (h : dirs.foldlM (syncChannelDir env) acc = .ok acc') :
    PointsWritten (NamesPoint dirs) acc.1 acc'.1 :=
  foldlM_keeps (P := fun s : Progress => PointsWritten (NamesPoint dirs) acc.1 s.1)
    (fun _ _ _ hd hone hs => hs.trans (pointsWritten_syncChannelDir hd hone)) h (.refl _)

/-! ## Channels -/

theorem insertChannel_cases {c : ChannelEntry} (h : insertChannel db c = .ok db') :
    (c.accepted = false ∧ db' = db) ∨ (c.accepted = true ∧ db.replaceChannel c.row = .ok db') := by
  unfold insertChannel at h
  cases hc : c.accepted with
  | false =>
    rw [hc] at h
    exact .inl ⟨rfl, (Except.ok.inj h).symm⟩
  | true =>
    rw [hc, if_pos rfl] at h
    cases hreplace : db.replaceChannel c.row with
    | error e =>
      rw [hreplace] at h
      cases h
    | ok db₁ =>
      rw [hreplace] at h
      have hdb : db₁ = db' := Except.ok.inj h
      exact .inr ⟨rfl, congrArg Except.ok hdb⟩

/-! ## Properties and routings of an instance -/

/-- A line of the directory. -/
def InstanceDir.ListsProperty (dir : InstanceDir) (propertyId : Int) : Prop :=
  ∃ kv ∈ loadInstanceProperties dir.properties, parseSigned 63 kv.1 = some propertyId

/-- A line of the directory. -/
def InstanceDir.ListsRouting (dir : InstanceDir) (r : Routing) : Prop :=
  ∃ rows, dir.routing = .read rows ∧
    ∃ row ∈ rows, ∃ name b, readBinding name row = .ok b ∧ b.role = r.role ∧ b.pointId = r.pointId

/-- Only properties and routings of the instance `id` changed, to rows that its directory lists. -/
structure AttachedWritten (id : Nat) (dir : InstanceDir) (db db' : Db) : Prop where
  channels : db'.channels = db.channels
  points : db'.points = db.points
  instances : db'.instances = db.instances
  rules : db'.rules = db.rules
  propertiesKept : ∀ p ∈ db.properties, p.instanceId ≠ id → p ∈ db'.properties
  propertiesFrom : ∀ p ∈ db'.properties,
    p ∈ db.properties ∨ (p.instanceId = id ∧ dir.ListsProperty p.propertyId)
  routingsKept : ∀ r ∈ db.routings, r.instanceId ≠ id → r ∈ db'.routings
  routingsFrom : ∀ r ∈ db'.routings, r ∈ db.routings ∨ (r.instanceId = id ∧ dir.ListsRouting r)

namespace AttachedWritten

variable {id : Nat} {dir : InstanceDir}

theorem refl (db : Db) : AttachedWritten id dir db db :=
  ⟨rfl, rfl, rfl, rfl, fun _ hp _ => hp, fun _ => .inl, fun _ hr _ => hr, fun _ => .inl⟩

theorem trans {db₁ db₂ db₃ : Db} (h : AttachedWritten id dir db₁ db₂)
    (h' : AttachedWritten id dir db₂ db₃) : AttachedWritten id dir db₁ db₃ where
  channels := h'.channels.trans h.channels
  points := h'.points.trans h.points
  instances := h'.instances.trans h.instances
  rules := h'.rules.trans h.rules
  propertiesKept := fun p hp hne => h'.propertiesKept p (h.propertiesKept p hp hne) hne
  propertiesFrom := fun p hp => (h'.propertiesFrom p hp).elim (h.propertiesFrom p) .inr
  routingsKept := fun r hr hne => h'.routingsKept r (h.routingsKept r hr hne) hne
  routingsFrom := fun r hr => (h'.routingsFrom r hr).elim (h.routingsFrom r) .inr

theorem insertProperty {kv : String × String} (hkv : kv ∈ loadInstanceProperties dir.properties)
    (db : Db) : AttachedWritten id dir db (insertProperty id db kv) := by
  unfold Monarch.insertProperty
  split
  · exact refl db
  rename_i propertyId hid
  split
  · rename_i db' h
    obtain ⟨hproperties, hchannels, hpoints, hinstances, hroutings, hrules⟩ :=
      Db.replaceProperty_ok h
    refine ⟨hchannels, hpoints, hinstances, hrules, fun p hp hne => ?_, fun p hp => ?_,
      fun r hr _ => hroutings ▸ hr, fun r hr => .inl (hroutings ▸ hr)⟩
    · rw [hproperties]
      refine mem_replaceRow.mpr (.inl ⟨hp, ?_⟩)
      rw [Property.clash, beq_eq_false_iff_ne]
      exact fun hkey => hne (congrArg Prod.fst hkey)
    rw [hproperties] at hp
    rcases mem_replaceRow.mp hp with ⟨hp, -⟩ | rfl
    · exact .inl hp
    · exact .inr ⟨rfl, kv, hkv, hid⟩
  · exact refl db

theorem insertProperties :
    ∀ (kvs : List (String × String)) (db : Db),
      (∀ kv ∈ kvs, kv ∈ loadInstanceProperties dir.properties) →
      AttachedWritten id dir db (kvs.foldl (Monarch.insertProperty id) db)
  | [], db, _ => refl db
  | kv :: kvs, db, hkvs =>
    (insertProperty (hkvs kv (.head _)) db).trans
      (insertProperties kvs _ fun x hx => hkvs x (.tail _ hx))

variable {name : String} {rows : List CsvRow}

theorem insertInstanceMapping {row : CsvRow} (hdir : dir.routing = .read rows) (hrow : row ∈ rows)
    (hid : ∀ i ∈ acc.1.instances, i.instanceName = name → i.instanceId = id) :
    AttachedWritten id dir acc.1 (insertInstanceMapping name acc row).1 := by
  unfold Monarch.insertInstanceMapping
  split
  · exact refl _
  rename_i b hb
  split
  · rename_i db' h
    obtain ⟨i, hi, hname, hroutings, hchannels, hpoints, hinstances, hproperties, hrules⟩ :=
      Db.replaceRouting_ok h
    refine ⟨hchannels, hpoints, hinstances, hrules, fun p hp _ => hproperties ▸ hp,
      fun p hp => .inl (hproperties ▸ hp), fun r hr hne => ?_, fun r hr => ?_⟩
    · refine hroutings ▸ mem_replaceRow.mpr (.inl ⟨hr, ?_⟩)
      rw [Routing.clash, beq_eq_false_iff_ne]
      exact fun hkey => hne ((congrArg (·.2.1) hkey).trans (hid i hi hname))
    rw [hroutings] at hr
    rcases mem_replaceRow.mp hr with ⟨hr, -⟩ | rfl
    · exact .inl hr
    · exact .inr ⟨hid i hi hname, rows, hdir, row, hrow, name, b, hb, rfl, rfl⟩
  · exact refl _

theorem insertRows (hdir : dir.routing = .read rows) :
    ∀ (todo : List CsvRow) (acc : Progress), (∀ row ∈ todo, row ∈ rows) →
      (∀ i ∈ acc.1.instances, i.instanceName = name → i.instanceId = id) →
      AttachedWritten id dir acc.1 (todo.foldl (Monarch.insertInstanceMapping name) acc).1
  | [], _, _, _ => refl _
  | row :: todo, acc, htodo, hid => by
    have hone := insertInstanceMapping hdir (htodo row (.head _)) hid
    exact hone.trans (insertRows hdir todo _ (fun x hx => htodo x (.tail _ hx))
      (hone.instances ▸ hid))

theorem insertInstanceMappings (dir : InstanceDir) (acc : Progress)
    (hid : ∀ i ∈ acc.1.instances, i.instanceName = name → i.instanceId = id) :
    AttachedWritten id dir acc.1 (insertInstanceMappings name acc dir.routing).1 := by
  cases hdir : dir.routing with
  | missing | unreadable => exact refl _
  | read rows => exact insertRows hdir rows acc (fun _ h => h) hid

end AttachedWritten

/-! ## What a routing file binds -/

/-- All but the id. -/
def Routing.content (r : Routing) : Routing := { r with routingId := 0 }

/-- The routings, up to ids. -/
def Db.contents (db : Db) : List Routing := db.routings.map Routing.content

/-- The tables take it. -/
def Db.Binding.Admitted (b : Binding) (channelIds : List Nat) : Prop :=
  b.channelType ∈ b.role.checkTypes ∧ b.channelId ∈ channelIds

instance (b : Binding) (channelIds : List Nat) : Decidable (b.Admitted channelIds) :=
  inferInstanceAs (Decidable (_ ∧ _))

/-- The bindings put in. -/
def admittedRows (channelIds : List Nat) (name : String) (rows : List CsvRow) : List Binding :=
  rows.filterMap fun row => (readBinding name row).toOption.filter fun b => b.Admitted channelIds

/-- Those of a file. -/
def admitted (channelIds : List Nat) (name : String) : FileState (List CsvRow) → List Binding
  | .read rows => admittedRows channelIds name rows
  | _ => []

theorem contents_of_replaceRow {row : Routing}
    (h : db'.routings = replaceRow Routing.clash row db.routings) :
    db'.contents = replaceRow Routing.clash row.content db.contents := by
  have hclash : ∀ r : Routing, row.content.clash r.content = row.clash r := fun _ => rfl
  rw [Db.contents, h, map_replaceRow Routing.content hclash]
  rfl

variable {i : Instance}

theorem replaceRouting_of_mem (hi : i ∈ db.instances) (b : Binding) :
    if b.Admitted (db.channels.map Channel.channelId) then
      ∃ db', db.replaceRouting i.instanceName b = .ok db' ∧
        db'.contents = replaceRow Routing.clash (b.row 0 i) db.contents ∧
        db'.channels = db.channels ∧ db'.instances = db.instances
    else ∃ e, db.replaceRouting i.instanceName b = .error e := by
  have hfound : db.findInstance i.instanceName = some i :=
    db.findInstance_eq_some_iff.mpr ⟨hi, rfl⟩
  cases hput : db.replaceRouting i.instanceName b with
  | ok db' =>
    obtain ⟨i', hi', hname, hroutings, hchannels, -, hinstances, -⟩ := Db.replaceRouting_ok hput
    have hsame : i' = i := inj_on_of_nodup_map db.instanceNames hi' hi hname
    have hadmitted : b.Admitted (db.channels.map Channel.channelId) := by
      unfold Db.replaceRouting at hput
      split at hput
      · cases hput
      split at hput
      · cases hput
      rename_i htype
      split at hput
      · rename_i hchannel
        exact ⟨Classical.not_not.mp htype, hchannel⟩
      · cases hput
    rw [if_pos hadmitted]
    refine ⟨db', rfl, ?_, hchannels, hinstances⟩
    rw [contents_of_replaceRow hroutings, hsame]
    rfl
  | error e =>
    have hnot : ¬ b.Admitted (db.channels.map Channel.channelId) := by
      rintro ⟨htype, hchannel⟩
      unfold Db.replaceRouting at hput
      split at hput
      · rename_i hnone
        rw [hfound] at hnone
        cases hnone
      rw [if_neg (fun h => h htype), dif_pos hchannel] at hput
      cases hput
    rw [if_neg hnot]
    exact ⟨e, rfl⟩

theorem contents_insertRows :
    ∀ (rows : List CsvRow) (acc : Progress), i ∈ acc.1.instances →
      (rows.foldl (insertInstanceMapping i.instanceName) acc).1.contents =
        replaceAll Routing.clash ((admittedRows (acc.1.channels.map Channel.channelId)
          i.instanceName rows).map (·.row 0 i)) acc.1.contents
  | [], _, _ => rfl
  | row :: rows, acc, hi => by
    rw [foldl_cons, admittedRows, filterMap_cons, ← admittedRows]
    cases hread : readBinding i.instanceName row with
    | error e =>
      have hone : (insertInstanceMapping i.instanceName acc row).1 = acc.1 := by
        simp only [insertInstanceMapping, hread, note]
      rw [contents_insertRows rows _ (hone ▸ hi), hone]
      rfl
    | ok b =>
      have hput := replaceRouting_of_mem hi b
      by_cases hadmitted : b.Admitted (acc.1.channels.map Channel.channelId)
      · rw [if_pos hadmitted] at hput
        obtain ⟨db', hput, hcontents, hchannels, hinstances⟩ := hput
        have hone : (insertInstanceMapping i.instanceName acc row).1 = db' := by
          simp only [insertInstanceMapping, hread, hput]
        rw [contents_insertRows rows _ (hone ▸ hinstances ▸ hi), hone, hchannels, hcontents]
        simp [Except.toOption, Option.filter, hadmitted, replaceAll]
      rw [if_neg hadmitted] at hput
      obtain ⟨e, hput⟩ := hput
      have hone : (insertInstanceMapping i.instanceName acc row).1 = acc.1 := by
        simp only [insertInstanceMapping, hread, hput, note]
      rw [contents_insertRows rows _ (hone ▸ hi), hone]
      simp [Except.toOption, Option.filter, hadmitted]

theorem contents_insertInstanceMappings (hi : i ∈ acc.1.instances) (file : FileState (List CsvRow)) :
    (insertInstanceMappings i.instanceName acc file).1.contents =
      replaceAll Routing.clash ((admitted (acc.1.channels.map Channel.channelId)
        i.instanceName file).map (·.row 0 i)) acc.1.contents := by
  cases file with
  | missing | unreadable => rfl
  | read rows => exact contents_insertRows rows acc hi

theorem routings_insertProperties (id : Nat) :
    ∀ (kvs : List (String × String)) (db : Db),
      (kvs.foldl (Monarch.insertProperty id) db).routings = db.routings
  | [], _ => rfl
  | kv :: kvs, db => by
    rw [foldl_cons, routings_insertProperties id kvs]
    unfold Monarch.insertProperty
    split
    · rfl
    split
    · rename_i h
      exact (Db.replaceProperty_ok h).2.2.2.2.1
    · rfl

/-! ## Instances -/

/-- The instance `e` was put in, with rows of its directory. What hung on displaced rows is gone. -/
structure Processed (instanceDir : String → InstanceDir) (e : InstanceEntry) (db db' : Db) : Prop where
  channels : db'.channels = db.channels
  points : db'.points = db.points
  instances : db'.instances = db.instancesAfter e.row
  rules : db'.rules = db.rules
  propertiesKept : ∀ p ∈ db.properties, p.instanceId ∉ db.goneInstances e.row → p ∈ db'.properties
  propertiesFrom : ∀ p ∈ db'.properties,
    (p ∈ db.properties ∧ p.instanceId ∉ db.goneInstances e.row) ∨
      (p.instanceId = e.instanceId ∧ (instanceDir e.instanceName).ListsProperty p.propertyId)
  routingsKept : ∀ r ∈ db.routings, r.instanceId ∉ db.goneInstances e.row → r ∈ db'.routings
  routingsFrom : ∀ r ∈ db'.routings,
    (r ∈ db.routings ∧ r.instanceId ∉ db.goneInstances e.row) ∨
      (r.instanceId = e.instanceId ∧ (instanceDir e.instanceName).ListsRouting r)
  contents : db'.contents = replaceAll Routing.clash
    ((admitted (db.channels.map Channel.channelId) e.instanceName
      (instanceDir e.instanceName).routing).map (·.row 0 e.row))
    (db.contents.filter fun r => r.instanceId ∉ db.goneInstances e.row)

theorem instanceId_of_name (h : db.replaceInstance i = .ok db') :
    ∀ r ∈ db'.instances, r.instanceName = i.instanceName → r.instanceId = i.instanceId := by
  obtain ⟨hinstances, -⟩ := Db.replaceInstance_ok h
  intro r hr hname
  rw [hinstances] at hr
  rcases mem_replaceRow.mp hr with ⟨-, hkept⟩ | rfl
  · rw [Instance.clash_iff.mpr (.inr hname)] at hkept
    cases hkept
  · rfl

theorem ne_of_notMem_gone {k : Nat} (hk : k ∈ db.instances.map Instance.instanceId)
    (hgone : k ∉ db.goneInstances i) : k ≠ i.instanceId := by
  rintro rfl
  obtain ⟨r, hr, hid⟩ := mem_map.mp hk
  exact hgone (Db.mem_goneInstances.mpr ⟨r, hr, .inl hid, hid⟩)

theorem processed_or_refused (instanceDir : String → InstanceDir) (acc : Progress)
    (e : InstanceEntry) :
    (acc.1.replaceInstance e.row = .error .foreignKey ∧
      (processSingleInstance instanceDir acc e).1 = acc.1) ∨
    ((∃ db', acc.1.replaceInstance e.row = .ok db') ∧
      Processed instanceDir e acc.1 (processSingleInstance instanceDir acc e).1) := by
  unfold processSingleInstance
  cases h : acc.1.replaceInstance e.row with
  | error err =>
    refine .inl ⟨?_, rfl⟩
    unfold Db.replaceInstance at h
    split at h <;> cases h
    rfl
  | ok db₁ =>
    refine .inr ⟨⟨db₁, rfl⟩, ?_⟩
    obtain ⟨hinstances, hproperties, hroutings, hchannels, hpoints, hrules⟩ :=
      Db.replaceInstance_ok h
    have hprops : AttachedWritten e.instanceId (instanceDir e.instanceName) db₁ _ :=
      AttachedWritten.insertProperties
        (loadInstanceProperties (instanceDir e.instanceName).properties) db₁ fun _ hkv => hkv
    have hname : ∀ i ∈ db₁.instances, i.instanceName = e.instanceName → i.instanceId = e.instanceId :=
      instanceId_of_name h
    have hall := hprops.trans (AttachedWritten.insertInstanceMappings (instanceDir e.instanceName)
      (_, acc.2) (hprops.instances ▸ hname))
    refine ⟨hall.channels.trans hchannels, hall.points.trans hpoints,
      hall.instances.trans hinstances, hall.rules.trans hrules, fun p hp hgone => ?_, fun p hp => ?_,
      fun r hr hgone => ?_, fun r hr => ?_, ?_⟩
    · refine hall.propertiesKept p ?_ (ne_of_notMem_gone (acc.1.propertyInstances p hp) hgone)
      exact hproperties ▸ mem_filter.mpr ⟨hp, decide_eq_true hgone⟩
    · refine (hall.propertiesFrom p hp).imp_left fun hold => ?_
      rw [hproperties] at hold
      exact (mem_filter.mp hold).imp_right of_decide_eq_true
    · refine hall.routingsKept r ?_ (ne_of_notMem_gone (acc.1.routingInstances r hr) hgone)
      exact hroutings ▸ mem_filter.mpr ⟨hr, decide_eq_true hgone⟩
    · refine (hall.routingsFrom r hr).imp_left fun hold => ?_
      rw [hroutings] at hold
      exact (mem_filter.mp hold).imp_right of_decide_eq_true
    have hrow : e.row ∈ db₁.instances := hinstances ▸ mem_replaceRow.mpr (.inr rfl)
    have hfilter : db₁.contents =
        acc.1.contents.filter fun r => r.instanceId ∉ acc.1.goneInstances e.row := by
      rw [Db.contents, hroutings, Db.contents, filter_map]
      rfl
    refine (contents_insertInstanceMappings (i := e.row) (hprops.instances ▸ hrow) _).trans ?_
    rw [hprops.channels, hchannels, Db.contents, routings_insertProperties, ← Db.contents, hfilter]
    rfl

/-! ## The instances file -/

/-- An entry of `instances.yaml` that is processed. Entries of the legacy format have no id. -/
structure Listed where
  instanceId : Option Nat
  instanceName : String
  productName : String
  parentId : Option Nat
deriving DecidableEq

/-- The entry, with its id. -/
def InstanceEntry.listed (e : InstanceEntry) : Listed :=
  ⟨some e.instanceId, e.instanceName, e.productName, e.parentId⟩

/-- With the id it gets. -/
def Listed.entry (l : Listed) (db : Db) : InstanceEntry :=
  ⟨l.instanceId.getD ((maxInstanceId db + 1) % 2 ^ 32), l.instanceName, l.productName, l.parentId⟩

/-- An entry of the array. -/
def listedElement (v : Json) : Option Listed :=
  match readInstance v with
  | .ok e => some e.listed
  | .error _ => none

/-- An entry of the legacy format. -/
def listedField (kv : String × Json) : Listed :=
  let e := legacyEntry 0 kv
  ⟨none, e.instanceName, e.productName, e.parentId⟩

/-- The entries of the file. -/
def ModsrvDir.listed (dir : ModsrvDir) : List Listed :=
  match dir.instances with
  | .read data =>
    match getField data "instances" with
    | some (.arr entries) => entries.filterMap listedElement
    | some (.obj entries) => entries.map listedField
    | _ => []
  | _ => []

/-- One entry. -/
def putListed (instanceDir : String → InstanceDir) (db : Db) (l : Listed) : Db :=
  (processSingleInstance instanceDir (db, []) (l.entry db)).1

theorem insertRows_errors (name : String) :
    ∀ (rows : List CsvRow) (db : Db) (errors errors' : List SyncError),
      (rows.foldl (insertInstanceMapping name) (db, errors)).1 =
        (rows.foldl (insertInstanceMapping name) (db, errors')).1
  | [], _, _, _ => rfl
  | row :: rows, db, errors, errors' => by
    have hone : (insertInstanceMapping name (db, errors) row).1 =
        (insertInstanceMapping name (db, errors') row).1 := by
      unfold insertInstanceMapping
      cases readBinding name row with
      | error e => rfl
      | ok b => cases hput : db.replaceRouting name b <;> simp only [hput, note]
    rw [foldl_cons, foldl_cons]
    generalize insertInstanceMapping name (db, errors) row = acc at hone
    generalize insertInstanceMapping name (db, errors') row = acc' at hone
    obtain ⟨db₁, more⟩ := acc
    obtain ⟨db₂, more'⟩ := acc'
    cases (hone : db₁ = db₂)
    exact insertRows_errors name rows db₁ more more'

theorem processSingleInstance_errors (instanceDir : String → InstanceDir) (acc : Progress)
    (e : InstanceEntry) : (processSingleInstance instanceDir acc e).1 =
      (processSingleInstance instanceDir (acc.1, []) e).1 := by
  unfold processSingleInstance
  cases h : acc.1.replaceInstance e.row with
  | error err => simp only [note]
  | ok db' =>
    simp only
    cases (instanceDir e.instanceName).routing with
    | missing | unreadable => rfl
    | read rows => exact insertRows_errors e.instanceName rows _ _ _

theorem foldl_syncArrayEntry (instanceDir : String → InstanceDir) :
    ∀ (entries : List Json) (acc : Progress), (entries.foldl (syncArrayEntry instanceDir) acc).1 =
      (entries.filterMap listedElement).foldl (putListed instanceDir) acc.1
  | [], _ => rfl
  | v :: entries, acc => by
    rw [foldl_cons, foldl_syncArrayEntry instanceDir entries]
    cases h : readInstance v with
    | error e => simp only [syncArrayEntry, h, listedElement, filterMap_cons]
    | ok e =>
      simp only [syncArrayEntry, h, listedElement, filterMap_cons, foldl_cons]
      rw [processSingleInstance_errors]
      rfl

variable {instanceDir : String → InstanceDir}

theorem foldlM_syncLegacyEntry :
    ∀ {entries : List (String × Json)} {acc acc' : Progress},
      entries.foldlM (syncLegacyEntry instanceDir) acc = .ok acc' →
      acc'.1 = (entries.map listedField).foldl (putListed instanceDir) acc.1
  | [], acc, acc', h => congrArg Prod.fst (Except.ok.inj h).symm
  | kv :: entries, acc, acc', h => by
    rw [foldlM_cons] at h
    obtain ⟨acc₁, hone, hrest⟩ := bind_eq_ok_iff.mp h
    obtain ⟨id, hid, hone⟩ := bind_eq_ok_iff.mp hone
    have hone : processSingleInstance instanceDir acc (legacyEntry id kv) = acc₁ :=
      Except.ok.inj hone
    have hentry : legacyEntry id kv = (listedField kv).entry acc.1 := by
      unfold getNextInstanceId at hid
      split at hid <;> cases hid
      rfl
    rw [foldlM_syncLegacyEntry hrest, map_cons, foldl_cons, ← hone,
      processSingleInstance_errors, hentry]
    rfl

theorem syncInstances_ok {dir : ModsrvDir}
    (h : syncInstances dir.instanceDir acc dir.instances = .ok acc') :
    acc'.1 = dir.listed.foldl (putListed dir.instanceDir) acc.1 := by
  unfold ModsrvDir.listed
  cases hfile : dir.instances with
  | missing =>
    rw [hfile] at h
    exact congrArg Prod.fst (Except.ok.inj h).symm
  | unreadable =>
    rw [hfile] at h
    cases h
  | read data =>
    rw [hfile, syncInstances] at h
    simp only
    cases hdata : getField data "instances" with
    | none =>
      rw [hdata] at h
      exact congrArg Prod.fst (Except.ok.inj h).symm
    | some v =>
      rw [hdata] at h
      cases v with
      | arr entries =>
        rw [← Except.ok.inj h]
        exact foldl_syncArrayEntry dir.instanceDir entries acc
      | obj entries => exact foldlM_syncLegacyEntry h
      | _ => exact congrArg Prod.fst (Except.ok.inj h).symm

theorem putListed_cases (instanceDir : String → InstanceDir) (db : Db) (l : Listed) :
    (db.replaceInstance (l.entry db).row = .error .foreignKey ∧ putListed instanceDir db l = db) ∨
    ((∃ db', db.replaceInstance (l.entry db).row = .ok db') ∧
      Processed instanceDir (l.entry db) db (putListed instanceDir db l)) :=
  processed_or_refused instanceDir (db, []) (l.entry db)

theorem processed_of_root (instanceDir : String → InstanceDir) (db : Db) {l : Listed}
    (hroot : l.parentId = none) : Processed instanceDir (l.entry db) db (putListed instanceDir db l) := by
  rcases putListed_cases instanceDir db l with ⟨hrefused, -⟩ | ⟨-, h⟩
  · unfold Db.replaceInstance at hrefused
    split at hrefused
    · cases hrefused
    rename_i hnot
    refine absurd (fun p hp => ?_) hnot
    rw [InstanceEntry.row, Listed.entry, hroot] at hp
    cases hp
  · exact h

/-! ## Which entries are processed -/

/-- The id and the name decide what is displaced, which entry is refused and which id is given. -/
def Instance.key (i : Instance) : Nat × String := (i.instanceId, i.instanceName)

/-- Id and name. -/
def InstanceEntry.key (e : InstanceEntry) : Nat × String := (e.instanceId, e.instanceName)

/-- The ids and names. -/
def Db.keys (db : Db) : List (Nat × String) := db.instances.map Instance.key

/-- The row is displaced. -/
def keyClash (k r : Nat × String) : Bool := r.1 == k.1 || r.2 == k.2

theorem keyClash_iff {k r : Nat × String} : keyClash k r = true ↔ r.1 = k.1 ∨ r.2 = k.2 := by
  simp [keyClash]

/-- With the id it gets. -/
def Listed.allotted (l : Listed) (keys : List (Nat × String)) : InstanceEntry :=
  ⟨l.instanceId.getD (((keys.map Prod.fst).foldr max 0 + 1) % 2 ^ 32), l.instanceName,
    l.productName, l.parentId⟩

/-- The parent is there. -/
def InstanceEntry.parentKnown (e : InstanceEntry) (keys : List (Nat × String)) : Bool :=
  e.parentId.all fun p => p ∈ (replaceRow keyClash e.key keys).map Prod.fst

/-- The entries put in. -/
def accepted (keys : List (Nat × String)) : List Listed → List InstanceEntry
  | [] => []
  | l :: ls =>
    if (l.allotted keys).parentKnown keys then
      l.allotted keys :: accepted (replaceRow keyClash (l.allotted keys).key keys) ls
    else accepted keys ls

theorem mem_keys {k : Nat × String} : k ∈ db.keys ↔ ∃ i ∈ db.instances, i.key = k := mem_map

variable {e : InstanceEntry}

theorem mem_goneInstances_iff_clash {k : Nat} :
    k ∈ db.goneInstances e.row ↔ ∃ r ∈ db.keys, keyClash e.key r = true ∧ r.1 = k := by
  simp only [Db.mem_goneInstances, Db.keys, mem_map, exists_exists_and_eq_and, keyClash_iff]
  rfl

theorem keys_instancesAfter (db : Db) (e : InstanceEntry) :
    (db.instancesAfter e.row).map Instance.key = replaceRow keyClash e.key db.keys := by
  have horphan : (db.instances.map (Instance.orphan (db.goneInstances e.row))).map Instance.key =
      db.keys := by
    simp [Db.keys, Instance.key, map_map, Function.comp_def]
  have hclash : ∀ r, keyClash e.row.key r.key = e.row.clash r := fun _ => rfl
  rw [Db.instancesAfter, map_replaceRow Instance.key hclash, horphan]
  rfl

theorem Processed.keys_eq (h : Processed instanceDir e db db') :
    db'.keys = replaceRow keyClash e.key db.keys := by
  rw [Db.keys, h.instances, keys_instancesAfter]

theorem entry_eq_allotted (l : Listed) (db : Db) : l.entry db = l.allotted db.keys := by
  simp only [Listed.entry, Listed.allotted, maxInstanceId, Db.keys, map_map]
  rfl

theorem isOk_replaceInstance_iff :
    (∃ db', db.replaceInstance e.row = .ok db') ↔ e.parentKnown db.keys = true := by
  have hids : (db.instancesAfter e.row).map Instance.instanceId =
      (replaceRow keyClash e.key db.keys).map Prod.fst := by
    rw [← keys_instancesAfter, map_map]
    rfl
  unfold Db.replaceInstance InstanceEntry.parentKnown
  rw [← hids, Option.all_eq_true]
  simp only [decide_eq_true_eq]
  constructor
  · rintro ⟨db', h⟩ p hp
    split at h
    · rename_i hknown
      exact hknown p hp
    · cases h
  intro h
  exact ⟨_, dif_pos h⟩

/-- Entries processed one after the other. -/
inductive ProcessedAll (instanceDir : String → InstanceDir) : List InstanceEntry → Db → Db → Prop
  | nil (db : Db) : ProcessedAll instanceDir [] db db
  | cons {e : InstanceEntry} {es : List InstanceEntry} {db db₁ db₂ : Db} :
      Processed instanceDir e db db₁ → ProcessedAll instanceDir es db₁ db₂ →
      ProcessedAll instanceDir (e :: es) db db₂

theorem processedAll_putListed (instanceDir : String → InstanceDir) :
    ∀ (ls : List Listed) (db : Db),
      ProcessedAll instanceDir (accepted db.keys ls) db (ls.foldl (putListed instanceDir) db)
  | [], db => .nil db
  | l :: ls, db => by
    have hrest := processedAll_putListed instanceDir ls (putListed instanceDir db l)
    have hcases := putListed_cases instanceDir db l
    rw [isOk_replaceInstance_iff, entry_eq_allotted] at hcases
    rw [accepted, foldl_cons]
    rcases hcases with ⟨hrefused, hsame⟩ | ⟨hknown, hput⟩
    · have hunknown : ¬ (l.allotted db.keys).parentKnown db.keys = true := by
        rw [← isOk_replaceInstance_iff, hrefused]
        rintro ⟨_, h⟩
        cases h
      rw [hsame] at hrest ⊢
      rwa [if_neg hunknown]
    rw [if_pos hknown]
    rw [hput.keys_eq] at hrest
    exact .cons hput hrest

/-- The entries put in. -/
def ModsrvDir.accepted (dir : ModsrvDir) (db : Db) : List InstanceEntry :=
  Monarch.accepted db.keys dir.listed

theorem ProcessedAll.channels_points_rules {es : List InstanceEntry}
    (h : ProcessedAll instanceDir es db db') :
    db'.channels = db.channels ∧ db'.points = db.points ∧ db'.rules = db.rules := by
  induction h with
  | nil db => exact ⟨rfl, rfl, rfl⟩
  | cons hput _ ih =>
    exact ⟨ih.1.trans hput.channels, ih.2.1.trans hput.points, ih.2.2.trans hput.rules⟩

theorem exists_listed_of_mem_accepted :
    ∀ {ls : List Listed} {keys : List (Nat × String)}, e ∈ accepted keys ls →
      ∃ l ∈ ls, l.instanceName = e.instanceName
  | [], _, h => nomatch h
  | l :: ls, keys, h => by
    rw [accepted] at h
    split at h
    · rcases mem_cons.mp h with rfl | h
      · exact ⟨l, .head _, rfl⟩
      obtain ⟨l', hl', hname⟩ := exists_listed_of_mem_accepted h
      exact ⟨l', .tail _ hl', hname⟩
    obtain ⟨l', hl', hname⟩ := exists_listed_of_mem_accepted h
    exact ⟨l', .tail _ hl', hname⟩

/-! ## Rules -/

/-- Everything but the rules is the same. -/
structure RulesWritten (db db' : Db) : Prop where
  channels : db'.channels = db.channels
  points : db'.points = db.points
  instances : db'.instances = db.instances
  properties : db'.properties = db.properties
  routings : db'.routings = db.routings

theorem RulesWritten.trans {db₁ db₂ db₃ : Db} (h : RulesWritten db₁ db₂) (h' : RulesWritten db₂ db₃) :
    RulesWritten db₁ db₃ where
  channels := h'.channels.trans h.channels
  points := h'.points.trans h.points
  instances := h'.instances.trans h.instances
  properties := h'.properties.trans h.properties
  routings := h'.routings.trans h.routings

theorem rulesWritten_syncRule {file : FileState Json} (h : syncRule env db file = .ok db') :
    RulesWritten db db' := by
  unfold syncRule at h
  split at h
  · split at h <;> cases h <;> exact ⟨rfl, rfl, rfl, rfl, rfl⟩
  · cases h

variable {force : Bool}

theorem rulesWritten_writeRules {rules : Option (List (FileState Json))}
    (h : writeRules env force db rules = .ok db') : RulesWritten db db' := by
  cases rules with
  | none => exact Except.ok.inj h ▸ ⟨rfl, rfl, rfl, rfl, rfl⟩
  | some files =>
    refine foldlM_keeps (P := RulesWritten db)
      (fun _ _ _ _ hone hs => hs.trans (rulesWritten_syncRule hone)) h ?_
    cases force <;> exact ⟨rfl, rfl, rfl, rfl, rfl⟩

theorem syncModsrv_ok {dir : ModsrvDir} (h : syncModsrv env force dir db = .ok acc) :
    ∃ mid : Progress,
      syncInstances dir.instanceDir (if force then db.clearModsrv else db, []) dir.instances = .ok mid ∧
      writeRules env force mid.1 dir.rules = .ok acc.1 := by
  unfold syncModsrv at h
  split at h
  · obtain ⟨mid, hmid, h⟩ := bind_eq_ok_iff.mp h
    obtain ⟨db', hrules, h⟩ := bind_eq_ok_iff.mp h
    cases h
    exact ⟨mid, hmid, hrules⟩
  · cases h

theorem processedAll_of_syncModsrv {dir : ModsrvDir} (hrun : syncModsrv env false dir db = .ok acc) :
    ∃ mid, ProcessedAll dir.instanceDir (dir.accepted db) db mid ∧
      writeRules env false mid dir.rules = .ok acc.1 := by
  obtain ⟨mid, hinstances, hrules⟩ := syncModsrv_ok hrun
  have hmid : mid.1 = dir.listed.foldl (putListed dir.instanceDir) db := syncInstances_ok hinstances
  refine ⟨mid.1, ?_, hrules⟩
  rw [hmid]
  exact processedAll_putListed dir.instanceDir dir.listed db

theorem syncComsrv_ok {dir : ComsrvDir} (h : syncComsrv env force dir db = .ok acc) :
    ∃ channels mid, dir.yaml = .read channels ∧
      insertChannels (if force then db.clearComsrv else db) channels = .ok mid ∧
      dir.dirs.foldlM (syncChannelDir env) (mid, []) = .ok acc := by
  unfold syncComsrv at h
  split at h
  · rename_i channels hyaml
    split at h
    · cases h
    obtain ⟨mid, hmid, h⟩ := bind_eq_ok_iff.mp h
    exact ⟨channels, mid, hyaml, hmid, h⟩
  · cases h

end VoltageEMS.Monarch
