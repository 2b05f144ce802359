import VoltageEMS.Monarch.ExportedPoints
import VoltageEMS.Monarch.SyncFrame
import VoltageEMS.Monarch.SyncTwice

/-!
# Export and import again

A database is exported, and the files are read by forced runs into an empty one.
-/

namespace VoltageEMS.Monarch

open Lib Comsrv.Mapping List Option
open VoltageEMS.Modsrv.RoutingApi (PointRole)
open Db (Binding NewRule)

variable {env : Env} {xenv : ExportEnv} {db db' : Db}

/-! ## Instances -/

/-- The place by name. -/
def instanceRank (db : Db) (i : Instance) : Nat := (instancesByName db).idxOf i + 1

/-- The entry at its place. -/
def rankedEntry (i : Instance) (id : Nat) : InstanceEntry := ⟨id, i.instanceName, i.productName, none⟩

/-- The entries of the file. -/
def exportedEntries (db : Db) : List InstanceEntry :=
  ((instancesByName db).zipIdx 1).map fun i => rankedEntry i.1 i.2

variable {i : Instance}

theorem mem_instancesByName : i ∈ instancesByName db ↔ i ∈ db.instances :=
  mem_insertionSort _

variable {dir : ModsrvDir}

theorem listed_exported (h : exportModsrv xenv db = some dir) :
    dir.listed = (instancesByName db).map fun i => ⟨none, i.instanceName, i.productName, none⟩ := by
  unfold exportModsrv at h
  split at h <;> cases h
  unfold ModsrvDir.listed exportInstances
  by_cases hempty : db.instances.isEmpty = true
  · rw [if_pos hempty, instancesByName, List.isEmpty_iff.mp hempty]
    rfl
  rw [if_neg hempty]
  exact List.map_map

theorem length_exported (h : exportModsrv xenv db = some dir) :
    dir.listed.length = db.instances.length := by
  rw [listed_exported h, length_map, instancesByName, length_insertionSort]

theorem accepted_exported (h : exportModsrv xenv db = some dir)
    (hroom : db.instances.length < 2 ^ 32) : accepted [] dir.listed = exportedEntries db := by
  have hlegacy : ∀ l ∈ dir.listed, l.instanceId = none ∧ l.parentId = none := by
    rw [listed_exported h]
    rintro l hl
    obtain ⟨i, -, rfl⟩ := List.mem_map.mp hl
    exact ⟨rfl, rfl⟩
  have hfits : maxKey [] + dir.listed.length < 2 ^ 32 := by
    rw [length_exported h]
    simpa [maxKey] using hroom
  rw [accepted_legacy hlegacy hfits, listed_exported h, zipIdx_map, List.map_map]
  rfl

theorem exportedEntries_separate (db : Db) :
    (exportedEntries db).Pairwise fun e f => keyClash f.key e.key = false := by
  have hindices : (((instancesByName db).zipIdx 1).map Prod.snd).Nodup := by
    rw [zipIdx_map_snd]
    exact nodup_range' ..
  have hnames : (((instancesByName db).zipIdx 1).map fun i => i.1.instanceName).Nodup := by
    have hfst : ((instancesByName db).zipIdx 1).map (fun i => i.1.instanceName) =
        (((instancesByName db).zipIdx 1).map Prod.fst).map Instance.instanceName :=
      List.map_map.symm
    rw [hfst, zipIdx_map_fst, instancesByName, ((perm_insertionSort _ _).map _).nodup_iff]
    exact db.instanceNames
  refine pairwise_map.mpr
    (((pairwise_map.mp hindices).and (pairwise_map.mp hnames)).imp fun {i j} hne => ?_)
  rw [← Bool.not_eq_true, keyClash_iff]
  exact fun hclash => hclash.elim hne.1 hne.2

theorem mem_exportedEntries (hi : i ∈ db.instances) :
    rankedEntry i (instanceRank db i) ∈ exportedEntries db := by
  have hmem : i ∈ instancesByName db := mem_instancesByName.mpr hi
  refine List.mem_map.mpr ⟨(i, instanceRank db i), ?_, rfl⟩
  rw [List.mk_mem_zipIdx_iff_le_and_getElem?_sub]
  exact ⟨Nat.le_add_left _ _, by simpa [instanceRank] using List.getElem?_idxOf hmem⟩

theorem hits_of_keyClash {e : InstanceEntry} (h : keyClash e.key i.key = false) :
    ¬ e.Hits i := fun hhits => by
  rw [keyClash_of_hits hhits] at h
  cases h

variable {instanceDir : String → InstanceDir}

theorem ProcessedAll.rows_stand {es : List InstanceEntry} (h : ProcessedAll instanceDir es db db')
    (hsep : es.Pairwise fun e f => keyClash f.key e.key = false)
    (hroot : ∀ e ∈ es, e.parentId = none) : ∀ e ∈ es, e.row ∈ db'.instances := by
  induction h with
  | nil db => exact nofun
  | @cons e es db db₁ db₂ hput hrest ih =>
    obtain ⟨hfirst, hsep⟩ := pairwise_cons.mp hsep
    refine forall_mem_cons.mpr ⟨?_, ih hsep fun f hf => hroot f (.tail _ hf)⟩
    have hrow : e.row ∈ db₁.instances := hput.instances ▸ mem_replaceRow.mpr (.inr rfl)
    refine hrest.row_kept hrow (fun f hf => hits_of_keyClash (hfirst f hf)) fun p hp => ?_
    rw [InstanceEntry.row, hroot e (.head _)] at hp
    cases hp

/-! ## Routings -/

/-- What the routing binds, with a channel. -/
def Routing.binding (r : Routing) : Option Binding := do
  let channelId ← r.channelId
  let channelType ← r.channelType
  let channelPointId ← r.channelPointId
  return ⟨r.role, channelId, channelType, channelPointId, r.pointId⟩

variable {b : Binding} {r : Routing}

theorem columns_of_binding (h : r.binding = some b) :
    b.role = r.role ∧ b.pointId = r.pointId ∧ r.channelId = some b.channelId := by
  simp only [Routing.binding, bind_eq_bind, bind_eq_some_iff] at h
  obtain ⟨channelId, hchannel, _, -, _, -, heq⟩ := h
  cases heq
  exact ⟨rfl, rfl, hchannel⟩

/-- Its line. -/
def bindingLine (b : Binding) : CsvRow :=
  csvRecord routingCsvHeaders ((∅ : CsvRow).insertFields [("channel_id", toString b.channelId),
    ("channel_type", b.channelType), ("channel_point_id", toString b.channelPointId),
    ("instance_type", roleLetter b.role), ("instance_point_id", toString b.pointId)])

theorem map_exportRouting (r : Routing) :
    (exportRouting r).map (csvRecord routingCsvHeaders) = r.binding.map bindingLine := by
  obtain ⟨role, id, instanceId, name, channelId, channelType, channelPointId, _⟩ := r
  cases channelId <;> cases channelType <;> cases channelPointId <;> rfl

theorem isSome_exportRouting (r : Routing) : (exportRouting r).isSome = r.binding.isSome := by
  rw [← isSome_map, map_exportRouting, isSome_map]

theorem lookup_bindingLine (b : Binding) :
    (bindingLine b).lookup "channel_id" = some (toString b.channelId) ∧
    (bindingLine b).lookup "channel_type" = some b.channelType ∧
    (bindingLine b).lookup "channel_point_id" = some (toString b.channelPointId) ∧
    (bindingLine b).lookup "instance_type" = some (roleLetter b.role) ∧
    (bindingLine b).lookup "instance_point_id" = some (toString b.pointId) := by
  simp [bindingLine, lookup_csvRecord, routingCsvHeaders, Hash.insertFields, -AList.insert_empty]

theorem parseId_of_lookup {row : CsvRow} {field : String} {n : Nat}
    (h : row.lookup field = some (toString n)) (hpos : 0 < n) (hbound : n < 2 ^ 31) :
    parseId row field = some n := by
  rw [parseId, h, bind_some, parseSigned_toString hbound, bind_some,
    if_pos (by exact_mod_cast hpos), Int.toNat_natCast]

theorem eq_of_parseId {row : CsvRow} {field : String} {n m : Nat}
    (h : row.lookup field = some (toString n)) (hm : parseId row field = some m) : n = m := by
  rw [parseId, h, bind_some] at hm
  obtain ⟨i, hi, hm⟩ := bind_eq_some_iff.mp hm
  have hin : i = n :=
    parseUnsigned_of_parseSigned hi (parseUnsigned_toString (Nat.lt_succ_self n))
  split at hm <;> cases hm
  rw [hin, Int.toNat_natCast]

theorem roleOf_roleLetter (role : PointRole) : roleOf (roleLetter role) = some role := by
  cases role <;> rfl

/-- The ids fit their columns and the file, and the table has the type. -/
structure Db.Binding.Legible (b : Binding) : Prop where
  channelId : 0 < b.channelId ∧ b.channelId ≤ 65535
  channelType : b.channelType ∈ b.role.checkTypes
  channelPointId : 0 < b.channelPointId ∧ b.channelPointId < 2 ^ 31
  pointId : 0 < b.pointId ∧ b.pointId < 2 ^ 31

theorem readBinding_exported (h : b.Legible) (name : String) :
    readBinding name (bindingLine b) = .ok b := by
  obtain ⟨hchannelId, hchannelType, hchannelPointId, hrole, hpointId⟩ := lookup_bindingLine b
  have hbound : b.channelId < 2 ^ 31 := by
    have := h.channelId.2
    omega
  have htype : b.channelType ∈ ["T", "S", "C", "A"] := by
    have hsub : ∀ role : PointRole, ∀ s ∈ role.checkTypes, s ∈ ["T", "S", "C", "A"] := by
      intro role
      cases role <;> decide
    exact hsub b.role _ h.channelType
  rw [readBinding, parseId_of_lookup hchannelId h.channelId.1 hbound]
  simp only [hchannelType, getD_some]
  rw [if_neg (not_not_intro htype),
    parseId_of_lookup hchannelPointId h.channelPointId.1 h.channelPointId.2]
  simp only
  rw [parseId_of_lookup hpointId h.pointId.1 h.pointId.2, hrole, getD_some]
  simp only [roleOf_roleLetter]

theorem point_of_readBinding {b' : Binding} {name : String}
    (h : readBinding name (bindingLine b) = .ok b') :
    b'.role = b.role ∧ b'.pointId = b.pointId := by
  obtain ⟨-, -, -, hrole, hpointId⟩ := lookup_bindingLine b
  unfold readBinding at h
  cases hc : parseId (bindingLine b) "channel_id" with
  | none =>
    rw [hc] at h
    cases h
  | some channelId =>
    rw [hc] at h
    simp only at h
    split at h
    · cases h
    cases hcp : parseId (bindingLine b) "channel_point_id" with
    | none =>
      rw [hcp] at h
      cases h
    | some channelPointId =>
      rw [hcp] at h
      simp only at h
      cases hp : parseId (bindingLine b) "instance_point_id" with
      | none =>
        rw [hp] at h
        cases h
      | some pointId =>
        rw [hp, hrole, getD_some] at h
        simp only [roleOf_roleLetter] at h
        cases h
        exact ⟨rfl, (eq_of_parseId hpointId hp).symm⟩

/-- What is put in for it. -/
def readBack (channelIds : List Nat) (name : String) (r : Routing) : Option Binding :=
  r.binding.bind fun b =>
    (readBinding name (bindingLine b)).toOption.filter fun b => b.Admitted channelIds

theorem admitted_exported (hi : i ∈ db.instances) (channelIds : List Nat) :
    admitted channelIds i.instanceName (exportInstanceMappings db i.instanceName) =
      (instanceRoutings db i.instanceId).filterMap (readBack channelIds i.instanceName) := by
  have hrows : admittedRows channelIds i.instanceName (((instanceRoutings db i.instanceId).filterMap
      exportRouting).map (csvRecord routingCsvHeaders)) =
        (instanceRoutings db i.instanceId).filterMap (readBack channelIds i.instanceName) := by
    rw [admittedRows, map_filterMap, filterMap_filterMap]
    refine filterMap_congr fun r _ => ?_
    rw [map_exportRouting, readBack, bind_map]
    rfl
  rw [exportInstanceMappings, db.findInstance_eq_some_iff.mpr ⟨hi, rfl⟩]
  simp only
  split
  · rename_i hempty
    rw [← hrows, List.isEmpty_iff.mp hempty]
    rfl
  · exact hrows

variable {channelIds : List Nat}

theorem readBack_point {name : String} (h : readBack channelIds name r = some b) :
    b.role = r.role ∧ b.pointId = r.pointId := by
  obtain ⟨b₀, hb₀, hread⟩ := bind_eq_some_iff.mp h
  obtain ⟨hread, -⟩ := filter_eq_some_iff.mp hread
  obtain ⟨hrole₀, hpoint₀, -⟩ := columns_of_binding hb₀
  cases hok : readBinding name (bindingLine b₀) with
  | error e =>
    rw [hok] at hread
    cases hread
  | ok b' =>
    rw [hok] at hread
    cases hread
    obtain ⟨hrole, hpoint⟩ := point_of_readBinding hok
    exact ⟨hrole.trans hrole₀, hpoint.trans hpoint₀⟩

theorem mem_instanceRoutings {id : Nat} :
    r ∈ instanceRoutings db id ↔ r ∈ db.routings ∧ r.instanceId = id := by
  rw [instanceRoutings, mem_insertionSort, mem_filter, decide_eq_true_eq]

theorem nodup_instanceRoutings (db : Db) (id : Nat) :
    ((instanceRoutings db id).map fun r => (r.role, r.pointId)).Nodup := by
  have hkeys : ((instanceRoutings db id).map Routing.key).Nodup := by
    rw [instanceRoutings, ((perm_insertionSort _ _).map _).nodup_iff]
    exact (filter_sublist.map _).nodup db.routingKeys
  have heq : (instanceRoutings db id).map Routing.key =
      ((instanceRoutings db id).map fun r => (r.role, r.pointId)).map fun k => (k.1, id, k.2) := by
    rw [List.map_map]
    refine map_congr_left fun r hr => ?_
    obtain ⟨-, rfl⟩ := mem_instanceRoutings.mp hr
    rfl
  rw [heq] at hkeys
  exact hkeys.of_map _

theorem mem_bound_exported (hi : i ∈ db.instances) (id : Nat) (hr : r ∈ db.routings)
    (hid : r.instanceId = i.instanceId) (hb : r.binding = some b) (hlegible : b.Legible)
    (hchannel : b.channelId ∈ channelIds) :
    b.row 0 (rankedEntry i id).row ∈
      (rankedEntry i id).bound channelIds ⟨.missing, exportInstanceMappings db i.instanceName⟩ := by
  have hadmitted : admitted channelIds (rankedEntry i id).instanceName
      (exportInstanceMappings db i.instanceName) =
        (instanceRoutings db i.instanceId).filterMap (readBack channelIds i.instanceName) :=
    admitted_exported hi channelIds
  rw [InstanceEntry.bound, hadmitted]
  refine mem_replaceAll_of_pairwise (pairwise_map.mpr ?_) (List.mem_map_of_mem ?_)
  · refine List.Pairwise.filterMap _ (fun r s hne b hb b' hb' => ?_)
      (pairwise_map.mp (nodup_instanceRoutings db i.instanceId))
    obtain ⟨hrole, hpoint⟩ := readBack_point hb
    obtain ⟨hrole', hpoint'⟩ := readBack_point hb'
    rw [Routing.clash, beq_eq_false_iff_ne]
    intro hkey
    have hroles : b.role = b'.role := congrArg Prod.fst hkey
    have hpoints : b.pointId = b'.pointId := congrArg (·.2.2) hkey
    exact hne (Prod.ext (hrole.symm.trans (hroles.trans hrole'))
      (hpoint.symm.trans (hpoints.trans hpoint')))
  refine mem_filterMap.mpr ⟨r, mem_instanceRoutings.mpr ⟨hr, hid⟩, ?_⟩
  rw [readBack, hb, bind_some, readBinding_exported hlegible]
  exact filter_eq_some_iff.mpr ⟨rfl, decide_eq_true ⟨hlegible.channelType, hchannel⟩⟩

/-- **A legible routing** binds the same points again, under the id that its instance got. -/
theorem routing_reimported (hdir : exportModsrv xenv db = some dir) {start : Db}
    (hall : ProcessedAll dir.instanceDir (exportedEntries db) start db') (hi : i ∈ db.instances)
    (hr : r ∈ db.routings) (hid : r.instanceId = i.instanceId) (hb : r.binding = some b)
    (hlegible : b.Legible) (hchannel : b.channelId ∈ start.channels.map Channel.channelId) :
    b.row 0 (rankedEntry i (instanceRank db i)).row ∈ db'.contents := by
  have hfiles : ∀ name, dir.instanceDir name = ⟨.missing, exportInstanceMappings db name⟩ := by
    unfold exportModsrv at hdir
    split at hdir <;> cases hdir
    exact fun _ => rfl
  have howned := congrArg Owned.rows (hall.owned_eq rfl)
  obtain ⟨before, after, hsplit⟩ := append_of_mem (mem_exportedEntries hi)
  have hsep := exportedEntries_separate db
  rw [hsplit, pairwise_append, pairwise_cons] at hsep
  refine (Set.ext_iff.mp howned _).mpr (Ownership.mem_rows_putAll.mpr (.inl ?_))
  refine ⟨rankedEntry i (instanceRank db i), after, hsplit ▸ suffix_append _ _, ?_, ?_⟩
  · have hbound := mem_bound_exported hi (instanceRank db i) hr hid hb hlegible hchannel
    rw [← hfiles] at hbound
    exact hbound
  · exact fun e he hclash => Bool.false_ne_true ((hsep.2.1.1 e he).symm.trans hclash)

/-! ## Rules -/

/-- The rule is read again: its flow is one, no other rule overwrites its file, and JSON can hold
its priority. -/
structure RuleKept (env : Env) (xenv : ExportEnv) (db : Db) (r : Rule) : Prop where
  flow : (env.extractRuleFlow r.flowJson).isSome = true
  file : ∀ s ∈ db.rules, safeName xenv s = safeName xenv r → s = r
  priority : -2 ^ 63 ≤ r.priority ∧ r.priority < 2 ^ 63

theorem lookup_ruleFiles {r : Rule} (hr : r ∈ db.rules)
    (h : ∀ s ∈ db.rules, safeName xenv s = safeName xenv r → s = r) :
    (ruleFiles xenv db.rules).lookup (safeName xenv r) = some (ruleFile r) := by
  have hfields : ruleFiles xenv db.rules = (∅ : Hash String Json).insertFields
      ((db.rules.insertionSort fun r s => r.id ≤ s.id).map fun r =>
        (safeName xenv r, ruleFile r)) := by
    rw [ruleFiles, Hash.insertFields, foldl_map]
  rw [hfields, Hash.lookup_insertFields]
  refine insertAll_of_unique (List.mem_map.mpr ⟨r, (mem_insertionSort _).mpr hr, rfl⟩)
    fun v hv => ?_
  obtain ⟨s, hs, heq⟩ := List.mem_map.mp hv
  obtain ⟨hname, rfl⟩ := Prod.mk.inj heq
  rw [h s ((mem_insertionSort _).mp hs) hname]

theorem clampI64_of_range {i : Int} (h : -2 ^ 63 ≤ i ∧ i < 2 ^ 63) : (clampI64 i).val = i := by
  change max (-2 ^ 63) (min i (2 ^ 63 - 1)) = i
  omega

theorem readRule_ruleFile {r : Rule} (h : RuleKept env xenv db r) :
    ∃ rule, readRule env (ruleFile r) = some rule ∧ rule.name = r.name ∧
      rule.description = some (r.description.getD "") ∧ rule.enabled = r.enabled ∧
      rule.priority = r.priority ∧ rule.flowJson = r.flowJson := by
  obtain ⟨nodes, hnodes⟩ := isSome_iff_exists.mp h.flow
  have hpriority : (Json.int (clampI64 r.priority)).asI64 = some r.priority := by
    rw [Json.asI64, clampI64_of_range h.priority, if_pos h.priority.2]
  refine ⟨⟨r.name, some (r.description.getD ""), r.flowJson, nodes, r.enabled, r.priority⟩, ?_,
    rfl, rfl, rfl, rfl, rfl⟩
  simp [readRule, ruleFile, getField, JsonObject.get, hnodes, hpriority, Json.asStr]

theorem syncRules_read :
    ∀ (files : List (FileState Json)) (start : Db), (∀ f ∈ files, ∃ v, f = .read v) →
      ∃ db', syncRules env start files = .ok db'
  | [], start, _ => ⟨start, rfl⟩
  | f :: files, start, h => by
    obtain ⟨v, rfl⟩ := h f (.head _)
    obtain ⟨mid, hone⟩ : ∃ mid, syncRule env start (.read v) = .ok mid := by
      cases hrule : readRule env v with
      | none => exact ⟨start, by rw [syncRule, hrule]⟩
      | some rule => exact ⟨start.insertRule rule, by rw [syncRule, hrule]⟩
    obtain ⟨db', hrest⟩ := syncRules_read files mid fun g hg => h g (.tail _ hg)
    refine ⟨db', ?_⟩
    rw [syncRules, foldlM_cons, hone]
    exact hrest

/-- **A rule that is kept** comes back; its cooldown and its trigger take their defaults. -/
theorem rule_reimported {start : Db} {r : Rule} (hr : r ∈ db.rules) (h : RuleKept env xenv db r)
    (hwrite : writeRules env true start (exportRules xenv db.rules) = .ok db') :
    ∃ r' ∈ db'.rules, r'.name = r.name ∧ r'.description = some (r.description.getD "") ∧
      r'.enabled = r.enabled ∧ r'.priority = r.priority ∧ r'.flowJson = r.flowJson ∧
      r'.cooldownMs = 0 ∧ r'.triggerConfig = none := by
  have hne : db.rules.isEmpty = false := by
    rw [isEmpty_eq_false_iff]
    exact ne_nil_of_mem hr
  rw [exportRules, hne] at hwrite
  obtain ⟨rows, hrules, hrows⟩ := rules_syncRules hwrite
  obtain ⟨rule, hread, hname, hdescription, henabled, hpriority, hflow⟩ := readRule_ruleFile h
  have hfile : FileState.read (ruleFile r) ∈ xenv.readDir
      ((ruleFiles xenv db.rules).entries.map fun e => FileState.read e.2) := by
    refine (xenv.readDir_perm _).mem_iff.mpr (List.mem_map.mpr ⟨⟨safeName xenv r, ruleFile r⟩, ?_, rfl⟩)
    exact AList.mem_lookup_iff.mp (lookup_ruleFiles hr h.file)
  have hmem : rule.row 0 ∈ rows.map Rule.content := by
    rw [hrows]
    exact List.mem_map_of_mem (mem_filterMap.mpr ⟨_, hfile, hread⟩)
  obtain ⟨r', hr', hcontent⟩ := List.mem_map.mp hmem
  obtain ⟨id, name, description, enabled, priority, cooldown, trigger, flow, nodes⟩ := r'
  cases hcontent
  exact ⟨_, hrules ▸ mem_append_right _ hr', hname, hdescription, henabled, hpriority, hflow,
    rfl, rfl⟩

/-! ## The whole run -/

theorem exists_foldlM_syncLegacyEntry :
    ∀ (entries : List (String × Json)) (acc : Progress),
      maxKey acc.1.keys + entries.length < 2 ^ 32 →
      ∃ acc', entries.foldlM (syncLegacyEntry instanceDir) acc = .ok acc'
  | [], acc, _ => ⟨acc, rfl⟩
  | kv :: entries, acc, hroom => by
    rw [length_cons] at hroom
    have hmax : maxInstanceId acc.1 = maxKey acc.1.keys := by
      simp only [maxInstanceId, maxKey, Db.keys, List.map_map]
      rfl
    have hentry : legacyEntry ((maxInstanceId acc.1 + 1) % 2 ^ 32) kv = (listedField kv).entry acc.1 :=
      rfl
    obtain ⟨next, hone, hnext⟩ : ∃ next, syncLegacyEntry instanceDir acc kv = .ok next ∧
        maxKey next.1.keys = maxKey acc.1.keys + 1 := by
      refine ⟨processSingleInstance instanceDir acc ((listedField kv).entry acc.1), ?_, ?_⟩
      · rw [syncLegacyEntry, getNextInstanceId, if_pos (by omega)]
        exact congrArg (fun e => Except.ok (processSingleInstance instanceDir acc e)) hentry
      have hput := processed_of_root instanceDir acc.1 (l := listedField kv) rfl
      have hstep : maxKey acc.1.keys + 1 < 2 ^ 32 := by omega
      rw [processSingleInstance_errors]
      refine (congrArg maxKey hput.keys_eq).trans ?_
      rw [entry_eq_allotted]
      exact (allotted_legacy rfl hstep).2
    have hrest : maxKey next.1.keys + entries.length < 2 ^ 32 := by omega
    obtain ⟨acc', hacc⟩ := exists_foldlM_syncLegacyEntry entries next hrest
    refine ⟨acc', ?_⟩
    rw [foldlM_cons, hone]
    exact hacc

theorem syncModsrv_exported (env : Env) (hdir : exportModsrv xenv db = some dir)
    (hroom : db.instances.length < 2 ^ 32) (start : Db) :
    ∃ mid acc, syncModsrv env true dir start = .ok acc ∧
      ProcessedAll dir.instanceDir (exportedEntries db) start.clearModsrv mid ∧
      writeRules env true mid (exportRules xenv db.rules) = .ok acc.1 := by
  have hentries := accepted_exported hdir hroom
  have hsync : ∃ acc, syncInstances dir.instanceDir (start.clearModsrv, []) dir.instances = .ok acc := by
    have hinstances : dir.instances = exportInstances db := by
      unfold exportModsrv at hdir
      split at hdir <;> cases hdir
      rfl
    rw [hinstances, exportInstances]
    split
    · exact ⟨_, rfl⟩
    refine exists_foldlM_syncLegacyEntry _ (start.clearModsrv, []) ?_
    have hzero : maxKey start.clearModsrv.keys = 0 := rfl
    rw [hzero, length_map, instancesByName, length_insertionSort]
    omega
  obtain ⟨acc, hacc⟩ := hsync
  have hrules : ∃ db', writeRules env true acc.1 (exportRules xenv db.rules) = .ok db' := by
    rw [exportRules]
    split
    · exact ⟨_, rfl⟩
    refine syncRules_read _ _ fun f hf => ?_
    obtain ⟨e, -, rfl⟩ := List.mem_map.mp ((xenv.readDir_perm _).mem_iff.mp hf)
    exact ⟨_, rfl⟩
  obtain ⟨last, hlast⟩ := hrules
  refine ⟨acc.1, (last, acc.2), ?_, ?_, hlast⟩
  · unfold exportModsrv at hdir
    split at hdir <;> cases hdir
    rw [syncModsrv]
    simp only [if_pos]
    rw [hacc]
    change (writeRules env true acc.1 (exportRules xenv db.rules) >>= _) = _
    rw [hlast]
    rfl
  have hkeys : start.clearModsrv.keys = [] := rfl
  have hall := processedAll_putListed dir.instanceDir dir.listed start.clearModsrv
  rw [hkeys, hentries] at hall
  rw [syncInstances_ok hacc]
  exact hall

/-- What the database that was read again has of the exported one. An instance keeps its id if this
is its place by name, and its parent if it has none; routings are enabled, and rules have neither a
cooldown nor a trigger. -/
structure Reproduced (env : Env) (xenv : ExportEnv) (db db' : Db) : Prop where
  points : ∀ p ∈ db.points, PointKept env xenv db p → ∃ p' ∈ db'.points, p'.key = p.key ∧
    ∀ k, (p'.value k).map (valueText xenv) = (p.value k).map (valueText xenv)
  instances : ∀ i ∈ db.instances, ∃ i' ∈ db'.instances, i'.instanceName = i.instanceName ∧
    i'.productName = normalizeProductName i.productName ∧
    (i.instanceId = instanceRank db i → i'.instanceId = i.instanceId) ∧
    (i.parentId = none → i'.parentId = i.parentId)
  routings : ∀ r ∈ db.routings, ∀ i ∈ db.instances, r.instanceId = i.instanceId →
    ∀ b, r.binding = some b → b.Legible → ∃ r' ∈ db'.routings, r'.binding = some b ∧
      r'.instanceName = i.instanceName ∧
      (i.instanceId = instanceRank db i → r'.instanceId = r.instanceId) ∧
      (r.enabled = true → r'.enabled = r.enabled)
  rules : ∀ r ∈ db.rules, RuleKept env xenv db r → ∃ r' ∈ db'.rules, r'.name = r.name ∧
    r'.description.getD "" = r.description.getD "" ∧ r'.enabled = r.enabled ∧
    r'.priority = r.priority ∧ r'.flowJson = r.flowJson ∧
    (r.cooldownMs = 0 → r'.cooldownMs = r.cooldownMs) ∧
    (r.triggerConfig = none → r'.triggerConfig = r.triggerConfig)

private def flowEnv : Env := ⟨fun _ => none, "", some⟩

private def siteFiles : ExportEnv where
  displayF64 := fun _ => "1"
  numberText := fun _ => "1"
  channelConfig := fun config => config.getD "null"
  lowercase := String.toLower
  readPoint := fun _ row =>
    match (row.lookup "point_id").bind (parseUnsigned 10 (2 ^ 32)) with
    | some id => .ok ⟨id, (row.lookup "signal_name").getD "", none, none, 1, 0, false, "float"⟩
    | none => .error "point_id"
  readDir := fun l => l
  readPoint_id := by
    intro t row p h
    split at h <;> cases h
    assumption
  readDir_perm := fun l => .refl l

private def powerPoint (mapping : JsonObject) : PointRow :=
  ⟨.telemetry, 1, 7, "power", 1, 0, none, false, some "float", none, some (some (.obj mapping))⟩

private def siteDb (mapping : JsonObject) : Db where
  channels := [⟨1, "plc", some "modbus_tcp", true, none⟩]
  points := [powerPoint mapping]
  instances := [⟨1, "pcs1", "PCS", none⟩]
  properties := []
  routings := [⟨.measurement, 1, 1, "pcs1", some 1, some "T", some 7, 3, none, true⟩]
  nextRouting := fun _ => 2
  rules := [⟨1, "Peak shaving", none, true, 5, 0, none, .obj [], .obj []⟩]
  nextRule := 2
  channelIds := nodup_singleton _
  channelNames := nodup_singleton _
  propertyKeys := Db.empty.propertyKeys
  pointKeys := nodup_singleton _
  pointChannels := by
    intro p hp
    rw [mem_singleton.mp hp]
    exact mem_singleton.mpr rfl
  ruleIds := by
    intro r hr
    rw [mem_singleton.mp hr]
    exact Nat.lt_succ_self 1

private def fullMapping : JsonObject :=
  [("slave_id", .int (clampI64 1)), ("bit_position", .int (clampI64 0)), ("data_type", .str "int16")]

private theorem pointKept_site :
    ∀ p ∈ (siteDb fullMapping).points, PointKept flowEnv siteFiles (siteDb fullMapping) p := by
  intro p hp
  have hsite : p = powerPoint fullMapping := mem_singleton.mp hp
  have honly : ∀ q ∈ channelPoints (siteDb fullMapping) p.channelId p.pointType, q = p := fun q hq =>
    (mem_singleton.mp (mem_channelPoints.mp hq).1).trans hsite.symm
  have hmapping : ∀ o, p.mapping = some o → o = fullMapping := by
    intro o ho
    rw [hsite] at ho
    exact (some.inj ho).symm
  have hplain : p.Anonymous := by
    intro o ho
    rw [hmapping o ho]
    decide
  have hkeys : ∀ o, p.mapping = some o → (o.map Prod.fst).Nodup := by
    intro o ho
    rw [hmapping o ho]
    decide
  have hprotocol : exportedProtocol (siteDb fullMapping) p.channelId = "modbus_tcp" := by
    rw [hsite]
    rfl
  refine ⟨?_, ?_, fun o ho => ⟨hkeys o ho, ?_⟩, fun q hq => honly q hq ▸ hplain, ?_, ?_, ?_⟩
  · rw [hsite]
    decide
  · rw [hsite]
    decide +kernel
  · rw [hmapping o ho]
    decide
  · intro _ first hfirst k
    obtain ⟨q, hq, hrow⟩ := List.exists_of_findSome?_eq_some hfirst
    rw [honly q hq] at hrow
    exact mem_exportMapping hplain hkeys hrow k
  · intro _ k
    rw [hprotocol, hsite]
    by_cases hk : k = "bit_position"
    · exact .inl (by rw [hk]; decide)
    · exact .inr (by simp [defaultValue, hk])
  intro k s hs
  rw [hprotocol]
  rw [hsite] at hs
  change (fullMapping.get k).bind (valueText siteFiles) = some s at hs
  simp only [fullMapping, JsonObject.get] at hs
  split_ifs at hs with h₁ h₂ h₃
  · subst h₁
    obtain rfl := some.inj hs
    decide +kernel
  · subst h₂
    obtain rfl := some.inj hs
    decide +kernel
  · subst h₃
    obtain rfl := some.inj hs
    decide +kernel
  · cases hs

private theorem ruleKept_site :
    ∀ r ∈ (siteDb fullMapping).rules, RuleKept flowEnv siteFiles (siteDb fullMapping) r := by
  intro r hr
  have hsite := mem_singleton.mp hr
  refine ⟨rfl, fun s hs _ => (mem_singleton.mp hs).trans hsite.symm, ?_⟩
  rw [hsite]
  decide

end VoltageEMS.Monarch
