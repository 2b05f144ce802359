import VoltageEMS.Lib.Ownership
import VoltageEMS.Monarch.SyncEffects

/-!
# Running the default sync again

The files have not changed, so a second default run for `modsrv` should leave things as the first one
did. For instances and routings this holds as soon as both runs accept the same entries; rule files
are inserted with a new id each time, and so are instances of the legacy format.
-/

namespace VoltageEMS.Monarch

open Lib List Option
open Db (Binding NewRule)

variable {env : Env} {db db' : Db} {instanceDir : String → InstanceDir}

/-! ## Instances and their routings -/

/-- The routings of an entry. -/
def InstanceEntry.bound (e : InstanceEntry) (channelIds : List Nat) (dir : InstanceDir) : List Routing :=
  replaceAll Routing.clash ((admitted channelIds e.instanceName dir.routing).map (·.row 0 e.row)) []

variable {channelIds : List Nat}

variable {e : InstanceEntry} {r : Routing}

theorem instanceId_of_mem_bound {dir : InstanceDir} {r : Routing}
    (h : r ∈ e.bound channelIds dir) : r.instanceId = e.instanceId := by
  obtain ⟨b, -, rfl⟩ := List.mem_map.mp (mem_of_mem_replaceAll_nil h)
  rfl

/-- Routings belong to instances. -/
def ownership (channelIds : List Nat) (instanceDir : String → InstanceDir) :
    Ownership (Nat × String) Routing InstanceEntry where
  clash := fun k r => keyClash k r = true
  owns := fun k r => r.instanceId = k.1
  key := InstanceEntry.key
  rows := fun e => {r | r ∈ e.bound channelIds (instanceDir e.instanceName)}
  owns_key := fun _ _ hr => instanceId_of_mem_bound hr
  clash_of_owns := fun h h' => keyClash_iff.mpr (.inl (h'.symm.trans h))

/-- The tables in these terms. -/
def Db.owned (db : Db) (channelIds : List Nat) (instanceDir : String → InstanceDir) :
    Owned (ownership channelIds instanceDir) where
  owners := {k | k ∈ db.keys}
  rows := {r | r ∈ db.contents}
  owned := by
    intro r hr
    obtain ⟨old, hold, rfl⟩ := List.mem_map.mp hr
    obtain ⟨i, hi, hid⟩ := List.mem_map.mp (db.routingInstances old hold)
    exact ⟨i.key, mem_keys.mpr ⟨i, hi, rfl⟩, hid.symm⟩

theorem key_inj {k k' : Nat × String} (hk : k ∈ db.keys) (hk' : k' ∈ db.keys) (h : k.1 = k'.1) :
    k = k' := by
  obtain ⟨i, hi, rfl⟩ := mem_keys.mp hk
  obtain ⟨i', hi', rfl⟩ := mem_keys.mp hk'
  rw [inj_on_of_nodup_map db.instanceIds hi hi' h]

theorem notMem_gone_iff (hr : r ∈ db.contents) : r.instanceId ∉ db.goneInstances e.row ↔
      ∃ k ∈ db.keys, r.instanceId = k.1 ∧ ¬ keyClash e.key k = true := by
  rw [mem_goneInstances_iff_clash]
  constructor
  · intro hstays
    obtain ⟨k, hk, hid⟩ := (db.owned [] fun _ => ⟨.missing, .missing⟩).owned r hr
    exact ⟨k, hk, hid, fun hclash => hstays ⟨k, hk, hclash, Eq.symm hid⟩⟩
  rintro ⟨k, hk, hid, hclash⟩ ⟨k', hk', hclash', hid'⟩
  rw [key_inj hk' hk (hid'.trans hid)] at hclash'
  exact hclash hclash'

theorem Processed.owned_eq (h : Processed instanceDir e db db')
    (hids : db.channels.map Channel.channelId = channelIds) :
    db'.owned channelIds instanceDir = Ownership.put (db.owned channelIds instanceDir) e := by
  refine Owned.ext (Set.ext fun k => ?_) (Set.ext fun r => ?_)
  · change k ∈ db'.keys ↔ (k ∈ db.keys ∧ ¬ keyClash e.key k = true) ∨ k = e.key
    rw [h.keys_eq, mem_replaceRow, Bool.not_eq_true]
  change r ∈ db'.contents ↔ r ∈ e.bound channelIds (instanceDir e.instanceName) ∨
    (r ∈ db.contents ∧ ∃ k ∈ db.keys, r.instanceId = k.1 ∧ ¬ keyClash e.key k = true)
  rw [h.contents, hids, mem_replaceAll, mem_filter, decide_eq_true_eq]
  refine or_congr_right ⟨fun ⟨⟨hr, hstays⟩, _⟩ => ⟨hr, (notMem_gone_iff hr).mp hstays⟩, ?_⟩
  rintro ⟨hr, k, hk, hid, hclash⟩
  refine ⟨⟨hr, (notMem_gone_iff hr).mpr ⟨k, hk, hid, hclash⟩⟩, fun x hx => ?_⟩
  -- the rows of the entry are those of another instance
  obtain ⟨b, -, rfl⟩ := List.mem_map.mp hx
  rw [Routing.clash, beq_eq_false_iff_ne]
  intro hkey
  have hid' : r.instanceId = e.instanceId := congrArg (·.2.1) hkey
  exact hclash (keyClash_iff.mpr (.inl (hid.symm.trans hid')))

variable {es : List InstanceEntry}

theorem ProcessedAll.owned_eq (h : ProcessedAll instanceDir es db db')
    (hids : db.channels.map Channel.channelId = channelIds) :
    db'.owned channelIds instanceDir = Ownership.putAll (db.owned channelIds instanceDir) es := by
  induction h with
  | nil db => rfl
  | cons hput _ ih =>
    rw [ih (hput.channels ▸ hids), hput.owned_eq hids]
    rfl

/-! ## The same entries in both runs -/

/-- Only entries with the id `p` have the name. -/
def Reserved (all : List Listed) (p : Nat) (name : String) : Prop :=
  ∀ l ∈ all, l.instanceName = name → l.instanceId = some p

/-- The id is in use, under a name reserved for it. -/
def Firm (all : List Listed) (keys : List (Nat × String)) (p : Nat) : Prop :=
  ∃ n, (p, n) ∈ keys ∧ Reserved all p n

/-- Entries have ids, and the parent of an entry is the entry itself, or its id is firm from the
start or from an entry before. -/
structure Settled (all : List Listed) (keys : List (Nat × String)) : Prop where
  given : ∀ l ∈ all, l.instanceId ≠ none
  parents : ∀ before l after, all = before ++ l :: after → ∀ p, l.parentId = some p →
    l.instanceId = some p ∨
      (∀ e ∈ all, e.instanceId = some p → Reserved all p e.instanceName) ∧
        ((∃ e ∈ before, e.instanceId = some p) ∨ Firm all keys p)

section Settled

variable {all : List Listed} {keys keys' : List (Nat × String)} {l : Listed} {e : InstanceEntry}
  {p : Nat}

theorem Settled.mono (h : Settled all keys) (hfirm : ∀ p, (∀ e ∈ all, e.instanceId = some p →
    Reserved all p e.instanceName) → Firm all keys p → Firm all keys' p) : Settled all keys' :=
  ⟨h.given, fun before l after hall p hp => (h.parents before l after hall p hp).imp_right
    fun ⟨hreserved, hthere⟩ => ⟨hreserved, hthere.imp_right (hfirm p hreserved)⟩⟩

/-- The entry is that of `l`, which has an id. -/
def InstanceEntry.Of (e : InstanceEntry) (l : Listed) : Prop :=
  l.instanceId = some e.instanceId ∧ l.instanceName = e.instanceName ∧ l.parentId = e.parentId

theorem allotted_of (hl : l.instanceId ≠ none) (keys : List (Nat × String)) :
    (l.allotted keys).Of l ∧ l.allotted keys = l.allotted [] := by
  obtain ⟨id, hid⟩ := ne_none_iff_exists'.mp hl
  simp [InstanceEntry.Of, Listed.allotted, hid]

theorem firm_self (hl : l ∈ all) (he : e.Of l)
    (hreserved : ∀ x ∈ all, x.instanceId = some e.instanceId →
      Reserved all e.instanceId x.instanceName) (now : List (Nat × String)) :
    Firm all (replaceRow keyClash e.key now) e.instanceId :=
  ⟨e.instanceName, mem_replaceRow.mpr (.inr rfl), he.2.1 ▸ hreserved l hl he.1⟩

theorem Firm.put (hp : Firm all keys p) (hl : l ∈ all) (he : e.Of l)
    (hreserved : ∀ x ∈ all, x.instanceId = some p → Reserved all p x.instanceName) :
    Firm all (replaceRow keyClash e.key keys) p := by
  by_cases hid : p = e.instanceId
  · exact hid ▸ firm_self hl he (hid ▸ hreserved) keys
  obtain ⟨n, hn, hname⟩ := hp
  refine ⟨n, mem_replaceRow.mpr (.inl ⟨hn, ?_⟩), hname⟩
  by_contra hclash
  rcases keyClash_iff.mp (eq_true_of_ne_false hclash) with hsame | hsame
  · exact hid hsame
  have hother := hname l hl (he.2.1.trans (Eq.symm hsame))
  exact hid (some.inj (hother.symm.trans he.1))

theorem Settled.accepted_rest (h : Settled all keys) :
    ∀ (rest before : List Listed) (now : List (Nat × String)), all = before ++ rest →
      (∀ p, (∀ e ∈ all, e.instanceId = some p → Reserved all p e.instanceName) →
        (∃ e ∈ before, e.instanceId = some p) ∨ Firm all keys p → Firm all now p) →
      accepted now rest = rest.map (·.allotted [])
  | [], _, _, _, _ => rfl
  | l :: rest, before, now, hall, hfirm => by
    have hl : l ∈ all := hall ▸ mem_append_right _ (.head _)
    obtain ⟨hof, heq⟩ := allotted_of (h.given l hl) now
    have hknown : (l.allotted now).parentKnown now = true := by
      rw [InstanceEntry.parentKnown, Option.all_eq_true]
      intro p hp
      rw [decide_eq_true_eq]
      rcases h.parents before l rest hall p (hof.2.2.trans hp) with hown | ⟨hreserved, hthere⟩
      · rw [← some.inj (hof.1.symm.trans hown)]
        exact List.mem_map.mpr ⟨_, mem_replaceRow.mpr (.inr rfl), rfl⟩
      obtain ⟨n, hn, -⟩ := (hfirm p hreserved hthere).put hl hof hreserved
      exact List.mem_map.mpr ⟨(p, n), hn, rfl⟩
    rw [accepted, if_pos hknown, map_cons, heq]
    refine congrArg _ (h.accepted_rest rest (before ++ [l]) _ (by simpa using hall) ?_)
    rw [← heq]
    rintro p hreserved (⟨e, he, hid⟩ | hkeys)
    · rcases mem_append.mp he with he | he
      · exact (hfirm p hreserved (.inl ⟨e, he, hid⟩)).put hl hof hreserved
      rw [mem_singleton.mp he] at hid
      obtain rfl := some.inj (hof.1.symm.trans hid)
      exact firm_self hl hof hreserved now
    · exact (hfirm p hreserved (.inr hkeys)).put hl hof hreserved

theorem accepted_of_settled (h : Settled all keys) : accepted keys all = all.map (·.allotted []) :=
  h.accepted_rest all [] keys rfl fun _ _ hthere => hthere.resolve_left (fun ⟨_, he, _⟩ => nomatch he)

theorem Firm.processedAll (hall : ProcessedAll instanceDir es db db')
    (hes : ∀ e ∈ es, ∃ l ∈ all, e.Of l)
    (hreserved : ∀ x ∈ all, x.instanceId = some p → Reserved all p x.instanceName)
    (hp : Firm all db.keys p) : Firm all db'.keys p := by
  induction hall with
  | nil db => exact hp
  | cons hput _ ih =>
    obtain ⟨l, hl, he⟩ := hes _ (.head _)
    exact ih (fun e he => hes e (.tail _ he)) (hput.keys_eq ▸ hp.put hl he hreserved)

end Settled

/-! ## Ids of the legacy format -/

/-- The largest id. -/
def maxKey (keys : List (Nat × String)) : Nat := (keys.map Prod.fst).foldr max 0

theorem le_maxKey {keys : List (Nat × String)} {k : Nat × String} (hk : k ∈ keys) :
    k.1 ≤ maxKey keys :=
  le_max_of_le' 0 (List.mem_map_of_mem hk) le_rfl

theorem maxKey_le {keys : List (Nat × String)} {b : Nat} (h : ∀ k ∈ keys, k.1 ≤ b) :
    maxKey keys ≤ b := by
  refine max_le_of_forall_le _ b fun id hid => ?_
  obtain ⟨k, hk, rfl⟩ := List.mem_map.mp hid
  exact h k hk

theorem allotted_legacy {l : Listed} {keys : List (Nat × String)} (hid : l.instanceId = none)
    (hroom : maxKey keys + 1 < 2 ^ 32) :
    (l.allotted keys).instanceId = maxKey keys + 1 ∧
      maxKey (replaceRow keyClash (l.allotted keys).key keys) = maxKey keys + 1 := by
  have hnew : (l.allotted keys).instanceId = maxKey keys + 1 := by
    have hmod : (l.allotted keys).instanceId = (maxKey keys + 1) % 2 ^ 32 := by
      rw [Listed.allotted, hid]
      rfl
    rw [hmod, Nat.mod_eq_of_lt hroom]
  refine ⟨hnew, le_antisymm (maxKey_le fun k hk => ?_) ?_⟩
  · rcases mem_replaceRow.mp hk with ⟨hk, -⟩ | rfl
    · exact (le_maxKey hk).trans (Nat.le_succ _)
    · exact hnew.le
  have hmem : (l.allotted keys).key ∈ replaceRow keyClash (l.allotted keys).key keys :=
    mem_replaceRow.mpr (.inr rfl)
  exact hnew ▸ le_maxKey hmem

theorem accepted_legacy :
    ∀ {ls : List Listed} {keys : List (Nat × String)},
      (∀ l ∈ ls, l.instanceId = none ∧ l.parentId = none) → maxKey keys + ls.length < 2 ^ 32 →
      accepted keys ls = (ls.zipIdx (maxKey keys + 1)).map fun l =>
        ⟨l.2, l.1.instanceName, l.1.productName, none⟩
  | [], _, _, _ => rfl
  | l :: ls, keys, hnone, hroom => by
    obtain ⟨hid, hparent⟩ := hnone l (.head _)
    rw [length_cons] at hroom
    have hnext : maxKey keys + 1 < 2 ^ 32 := by omega
    obtain ⟨hnew, hmax⟩ := allotted_legacy hid hnext
    have hentry : l.allotted keys = ⟨maxKey keys + 1, l.instanceName, l.productName, none⟩ := by
      rw [← hnew, ← hparent]
      rfl
    have hknown : (l.allotted keys).parentKnown keys = true := by
      rw [hentry]
      rfl
    have hfits : maxKey (replaceRow keyClash (l.allotted keys).key keys) + ls.length < 2 ^ 32 := by
      omega
    rw [accepted, if_pos hknown, accepted_legacy (fun l hl => hnone l (.tail _ hl)) hfits, hmax,
      hentry, zipIdx_cons, map_cons]

/-! ## Rules -/

/-- The rule of a file. -/
def ruleOf (env : Env) : FileState Json → Option NewRule
  | .read v => readRule env v
  | _ => none

/-- All but the id. -/
def Rule.content (r : Rule) : Rule := { r with id := 0 }

theorem rules_syncRules :
    ∀ {files : List (FileState Json)} {db db' : Db}, syncRules env db files = .ok db' →
      ∃ rows, db'.rules = db.rules ++ rows ∧
        rows.map Rule.content = (files.filterMap (ruleOf env)).map (·.row 0)
  | [], _, _, h => ⟨[], by rw [← Except.ok.inj h, append_nil], rfl⟩
  | file :: files, db, db', h => by
    rw [syncRules, foldlM_cons] at h
    obtain ⟨mid, hone, hrest⟩ := bind_eq_ok_iff.mp h
    obtain ⟨rows, hrules, heach⟩ := rules_syncRules hrest
    cases file with
    | missing | unreadable => cases hone
    | read v =>
      rw [syncRule] at hone
      rw [filterMap_cons, ruleOf]
      cases hrule : readRule env v with
      | none =>
        rw [hrule] at hone
        exact ⟨rows, Except.ok.inj hone ▸ hrules, heach⟩
      | some rule =>
        rw [hrule] at hone
        refine ⟨rule.row db.nextRule :: rows, ?_, by rw [map_cons, heach]; rfl⟩
        rw [hrules, ← Except.ok.inj hone, Db.insertRule, append_assoc]
        rfl

/-! ## Two runs -/

section Runs

variable {dir : ModsrvDir} {once twice : Progress}

theorem owned_of_syncModsrv (h : syncModsrv env false dir db = .ok once) :
    once.1.owned (db.channels.map Channel.channelId) dir.instanceDir =
        Ownership.putAll (db.owned (db.channels.map Channel.channelId) dir.instanceDir)
          (dir.accepted db) ∧
      once.1.channels = db.channels := by
  obtain ⟨mid, hall, hwrite⟩ := processedAll_of_syncModsrv h
  have hrules := rulesWritten_writeRules hwrite
  refine ⟨?_, hrules.channels.trans hall.channels_points_rules.1⟩
  rw [← hall.owned_eq rfl]
  refine Owned.ext (Set.ext fun k => ?_) (Set.ext fun r => ?_)
  · change k ∈ once.1.keys ↔ k ∈ mid.keys
    rw [Db.keys, hrules.instances, ← Db.keys]
  change r ∈ once.1.contents ↔ r ∈ mid.contents
  rw [Db.contents, hrules.routings, ← Db.contents]

theorem owned_twice (h₁ : syncModsrv env false dir db = .ok once)
    (h₂ : syncModsrv env false dir once.1 = .ok twice)
    (haccepted : dir.accepted once.1 = dir.accepted db) :
    twice.1.owned (db.channels.map Channel.channelId) dir.instanceDir =
      once.1.owned (db.channels.map Channel.channelId) dir.instanceDir := by
  obtain ⟨howned₁, hchannels⟩ := owned_of_syncModsrv h₁
  obtain ⟨howned₂, -⟩ := owned_of_syncModsrv h₂
  rw [hchannels, haccepted] at howned₂
  rw [howned₂, howned₁, Ownership.putAll_putAll]

theorem accepted_twice (h : Settled dir.listed db.keys)
    (h₁ : syncModsrv env false dir db = .ok once) : dir.accepted once.1 = dir.accepted db := by
  obtain ⟨mid, hall, hwrite⟩ := processedAll_of_syncModsrv h₁
  have hkeys : once.1.keys = mid.keys := by
    rw [Db.keys, (rulesWritten_writeRules hwrite).instances, ← Db.keys]
  have hes : ∀ e ∈ dir.accepted db, ∃ l ∈ dir.listed, e.Of l := by
    intro e he
    rw [ModsrvDir.accepted, accepted_of_settled h] at he
    obtain ⟨l, hl, rfl⟩ := List.mem_map.mp he
    exact ⟨l, hl, (allotted_of (h.given l hl) []).1⟩
  have hagain : Settled dir.listed once.1.keys :=
    h.mono fun p hreserved hp => hkeys ▸ hp.processedAll hall hes hreserved
  rw [ModsrvDir.accepted, ModsrvDir.accepted, accepted_of_settled h, accepted_of_settled hagain]

end Runs

/-- **A second default run** for `modsrv` leaves the instances (ids and names) and the routings as
the first did, when the entries are settled. -/
theorem sync_twice_same (env : Env) {dir : ModsrvDir} {db : Db} (h : Settled dir.listed db.keys) :
    let once := afterSync (syncModsrv env false dir) db
    let twice := afterSync (syncModsrv env false dir) once
    (∀ k, k ∈ twice.keys ↔ k ∈ once.keys) ∧ ∀ r, r ∈ twice.contents ↔ r ∈ once.contents := by
  cases h₁ : syncModsrv env false dir db with
  | error e => simp only [afterSync, h₁, implies_true, and_self]
  | ok once =>
    cases h₂ : syncModsrv env false dir once.1 with
    | error e => simp only [afterSync, h₁, h₂, implies_true, and_self]
    | ok twice =>
      simp only [afterSync, h₁, h₂]
      have howned := owned_twice h₁ h₂ (accepted_twice h h₁)
      exact ⟨fun k => Set.ext_iff.mp (congrArg Owned.owners howned) k,
        fun r => Set.ext_iff.mp (congrArg Owned.rows howned) r⟩

private def pcsRouting : CsvRow :=
  (∅ : CsvRow).insertFields [("channel_id", "1"), ("channel_type", "T"), ("channel_point_id", "3"),
    ("instance_type", "M"), ("instance_point_id", "4")]

/-- Two instances, the second with a parent and a routing. -/
private def siteDir : ModsrvDir where
  yaml := .read ()
  instances := .read (.obj [("instances", .arr [
    .obj [("instance_id", .int (clampI64 1)), ("instance_name", .str "site"),
      ("product_name", .str "ESS")],
    .obj [("instance_id", .int (clampI64 2)), ("instance_name", .str "pcs1"),
      ("product_name", .str "PCS"), ("parent_id", .int (clampI64 1))]])])
  instanceDir name := ⟨.missing, if name = "pcs1" then .read [pcsRouting] else .missing⟩
  rules := none

/-- A database with one channel, which the routing is for. -/
private def channelDb : Db := { Db.empty with
  channels := [⟨1, "pcs", some "virtual", true, none⟩]
  channelIds := by decide
  channelNames := by decide
  pointChannels := by decide
  routingChannels := by decide }

private def ruleEnv : Env := ⟨fun _ => none, "", some⟩

theorem settled_siteDir : Settled siteDir.listed channelDb.keys := by
  have hlisted : siteDir.listed =
      [⟨some 1, "site", "ESS", none⟩, ⟨some 2, "pcs1", "PCS", some 1⟩] := by decide +kernel
  rw [hlisted]
  refine ⟨by decide, fun before l after hall p hp => ?_⟩
  match before with
  | [] =>
    obtain ⟨rfl, -⟩ := cons.inj hall
    cases hp
  | [x] =>
    obtain ⟨rfl, hrest⟩ := cons.inj hall
    obtain ⟨rfl, -⟩ := cons.inj hrest
    cases hp
    exact .inr ⟨by unfold Reserved; decide, .inl ⟨_, .head _, rfl⟩⟩
  | x :: y :: before => simp at hall

theorem sync_twice_same_site :
    let once := afterSync (syncModsrv ruleEnv false siteDir) channelDb
    let twice := afterSync (syncModsrv ruleEnv false siteDir) once
    once.keys.length = 2 ∧ once.contents.length = 1 ∧
    (∀ k, k ∈ twice.keys ↔ k ∈ once.keys) ∧ ∀ r, r ∈ twice.contents ↔ r ∈ once.contents :=
  ⟨by decide +kernel, by decide +kernel, sync_twice_same ruleEnv settled_siteDir⟩

private def instancesDir (instances : Json) : ModsrvDir :=
  ⟨.read (), .read (.obj [("instances", instances)]), fun _ => ⟨.missing, .missing⟩, none⟩

private def legacyDir : ModsrvDir :=
  instancesDir (.obj [("meter", .obj [("product_name", .str "Meter")])])

private def childFirstDir : ModsrvDir :=
  instancesDir (.arr [
    .obj [("instance_id", .int (clampI64 2)), ("instance_name", .str "pcs1"),
      ("product_name", .str "PCS"), ("parent_id", .int (clampI64 1))],
    .obj [("instance_id", .int (clampI64 1)), ("instance_name", .str "site"),
      ("product_name", .str "ESS")]])

/-- In the legacy format the meter is instance 1 after the first run and 2 after the second; a child
before its parent is put in by the second only. -/
theorem sync_twice_differs :
    (let once := afterSync (syncModsrv ruleEnv false legacyDir) Db.empty
      let twice := afterSync (syncModsrv ruleEnv false legacyDir) once
      (1, "meter") ∈ once.keys ∧ (1, "meter") ∉ twice.keys ∧ (2, "meter") ∈ twice.keys) ∧
    (let once := afterSync (syncModsrv ruleEnv false childFirstDir) Db.empty
      let twice := afterSync (syncModsrv ruleEnv false childFirstDir) once
      (2, "pcs1") ∉ once.keys ∧ (2, "pcs1") ∈ twice.keys) := by
  decide +kernel

end VoltageEMS.Monarch
