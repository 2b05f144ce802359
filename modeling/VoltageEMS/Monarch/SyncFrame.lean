import VoltageEMS.Monarch.SyncEffects

/-!
# What a default run leaves alone

A default run is meant to change only the rows that the configuration names
("INSERT OR REPLACE handles conflicts"). But the row that is replaced is deleted first, and with it
goes what refers to it: the routings of a channel lose their channel, the properties and routings of
an instance are deleted, and its children lose their parent.
-/

namespace VoltageEMS.Monarch

open Lib List

variable {env : Env} {db db' : Db}

/-! ## Names -/

/-- The rows that a configuration names. -/
structure Named where
  channel : Channel → Prop
  point : PointRow → Prop
  instanceRow : Instance → Prop
  property : Property → Prop
  routing : Routing → Prop

/-- Every row that is not named is there with all its columns. -/
structure Unchanged (named : Named) (db db' : Db) : Prop where
  channels : ∀ r ∈ db.channels, ¬ named.channel r → r ∈ db'.channels
  points : ∀ r ∈ db.points, ¬ named.point r → r ∈ db'.points
  instances : ∀ r ∈ db.instances, ¬ named.instanceRow r → r ∈ db'.instances
  properties : ∀ r ∈ db.properties, ¬ named.property r → r ∈ db'.properties
  routings : ∀ r ∈ db.routings, ¬ named.routing r → r ∈ db'.routings

theorem Unchanged.refl (named : Named) (db : Db) : Unchanged named db db :=
  ⟨fun _ h _ => h, fun _ h _ => h, fun _ h _ => h, fun _ h _ => h, fun _ h _ => h⟩

/-- The channels put in. -/
def ComsrvDir.entries (dir : ComsrvDir) : List ChannelEntry :=
  match dir.yaml with
  | .read channels => channels.filter ChannelEntry.accepted
  | _ => []

/-- By id or name. -/
def ComsrvDir.NamesChannel (dir : ComsrvDir) (r : Channel) : Prop :=
  ∃ c ∈ dir.entries, c.id = r.channelId ∨ c.name = r.name

/-- The rows of `comsrv`. -/
def ComsrvDir.named (dir : ComsrvDir) : Named where
  channel := dir.NamesChannel
  point := NamesPoint dir.dirs
  instanceRow := fun _ => False
  property := fun _ => False
  routing := fun _ => False

/-- By id or name. -/
def Listed.Names (l : Listed) (i : Instance) : Prop :=
  l.instanceId = some i.instanceId ∨ l.instanceName = i.instanceName

/-- By id or name. -/
def InstanceEntry.Hits (e : InstanceEntry) (i : Instance) : Prop :=
  e.instanceId = i.instanceId ∨ e.instanceName = i.instanceName

/-- A directory of the instance has the row. -/
def ModsrvDir.Lists (dir : ModsrvDir) (db : Db) (i : Instance) (row : InstanceDir → Prop) : Prop :=
  (∃ l ∈ dir.listed, l.Names i ∧ row (dir.instanceDir l.instanceName)) ∨
    ∃ e ∈ dir.accepted db, e.Hits i ∧ row (dir.instanceDir e.instanceName)

/-- The rows of `modsrv`. -/
def ModsrvDir.named (dir : ModsrvDir) (db : Db) : Named where
  channel := fun _ => False
  point := fun _ => False
  instanceRow := fun i => ∃ l ∈ dir.listed, l.Names i
  property := fun p => ∃ i ∈ db.instances, i.instanceId = p.instanceId ∧
    dir.Lists db i (InstanceDir.ListsProperty · p.propertyId)
  routing := fun r => ∃ i ∈ db.instances, i.instanceId = r.instanceId ∧
    dir.Lists db i (InstanceDir.ListsRouting · r)

/-! ## Channels -/

/-- No routing refers to a channel of the configuration. -/
def Unreferenced (dir : ComsrvDir) (db : Db) : Prop :=
  ∀ r ∈ db.routings, ∀ ch ∈ db.channels, r.channelId = some ch.channelId → ¬ dir.NamesChannel ch

/-- What the channels of a configuration leave alone. -/
structure ChannelFrame (dir : ComsrvDir) (db db' : Db) : Prop where
  channels : ∀ r ∈ db.channels, ¬ dir.NamesChannel r → r ∈ db'.channels
  routings : db'.routings = db.routings
  points : db'.points = db.points
  instances : db'.instances = db.instances
  properties : db'.properties = db.properties

variable {dir : ComsrvDir}

theorem ChannelFrame.step {db₀ : Db} (hfree : Unreferenced dir db₀) (h : ChannelFrame dir db₀ db)
    {c : ChannelEntry} (hc : c ∈ dir.entries) (hput : db.replaceChannel c.row = .ok db') :
    ChannelFrame dir db₀ db' := by
  obtain ⟨hchannels, hroutings, hpoints, hinstances, hproperties, -⟩ := Db.replaceChannel_ok hput
  refine ⟨fun r hr hnot => ?_, ?_, hpoints.trans h.points, hinstances.trans h.instances,
    hproperties.trans h.properties⟩
  · rw [hchannels]
    refine mem_replaceRow.mpr (.inl ⟨h.channels r hr hnot, ?_⟩)
    by_contra hclash
    rcases Channel.clash_iff.mp (eq_true_of_ne_false hclash) with hid | hname
    · exact hnot ⟨c, hc, .inl hid.symm⟩
    · exact hnot ⟨c, hc, .inr hname.symm⟩
  rw [hroutings, h.routings]
  refine (map_congr_left fun r hr => Routing.unbind_of_notMem fun k hk hgone => ?_).trans
    (map_id _)
  -- the channel of the routing is still the one it was, and no entry names it
  obtain ⟨ch, hch, rfl⟩ := mem_map.mp (db₀.routingChannels r hr k hk)
  have hnot := hfree r hr ch hch hk
  obtain ⟨found, hfound, hclash, hid⟩ := Db.mem_goneChannels.mp hgone
  have hsame : found = ch :=
    inj_on_of_nodup_map db.channelIds hfound (h.channels ch hch hnot) hid
  rw [hsame] at hclash
  exact hnot ⟨c, hc, hclash.imp Eq.symm Eq.symm⟩

theorem channelFrame_insertChannels (hfree : Unreferenced dir db) {channels : List ChannelEntry}
    (hyaml : dir.yaml = .read channels) (h : insertChannels db channels = .ok db') :
    ChannelFrame dir db db' := by
  refine foldlM_keeps (P := ChannelFrame dir db) (fun s s' c hc hone hs => ?_) h
    ⟨fun _ hr _ => hr, rfl, rfl, rfl, rfl⟩
  rcases insertChannel_cases hone with ⟨-, rfl⟩ | ⟨haccepted, hput⟩
  · exact hs
  refine hs.step hfree ?_ hput
  rw [ComsrvDir.entries, hyaml]
  exact mem_filter.mpr ⟨hc, haccepted⟩

theorem unchanged_comsrv (hfree : Unreferenced dir db) :
    Unchanged dir.named db (afterSync (syncComsrv env false dir) db) := by
  unfold afterSync
  split
  · rename_i after errors hrun
    obtain ⟨channels, mid, hyaml, hchannels, hdirs⟩ := syncComsrv_ok hrun
    have hframe := channelFrame_insertChannels hfree hyaml hchannels
    have hpoints := pointsWritten_syncDirs hdirs
    refine ⟨fun r hr hnot => ?_, fun r hr hnot => ?_, fun r hr _ => ?_, fun r hr _ => ?_,
      fun r hr _ => ?_⟩
    · exact hpoints.channels ▸ hframe.channels r hr hnot
    · exact hpoints.kept r (hframe.points ▸ hr) hnot
    · exact hpoints.instances ▸ hframe.instances ▸ hr
    · exact hpoints.properties ▸ hframe.properties ▸ hr
    · exact hpoints.routings ▸ hframe.routings ▸ hr
  · exact .refl _ _

variable {r : Routing}

theorem mem_routings_of_replaceChannel {c : Channel} (hput : db.replaceChannel c = .ok db')
    {k : Nat} (hk : r.channelId = some k) (hr : r ∈ db'.routings) :
    r ∈ db.routings ∧ k ∉ db.goneChannels c := by
  obtain ⟨-, hroutings, -⟩ := Db.replaceChannel_ok hput
  rw [hroutings] at hr
  obtain ⟨old, hold, rfl⟩ := mem_map.mp hr
  obtain ⟨hchannel, hgone⟩ := Routing.unbind_channelId hk
  have hsame : old.unbind (db.goneChannels c) = old := by
    refine Routing.unbind_of_notMem fun k' hk' => ?_
    rw [hchannel] at hk'
    exact Option.some.inj hk' ▸ hgone
  exact ⟨by rwa [hsame], hgone⟩

/-- The routing has lost its channel, or the channel is still the one it was. -/
def Bound (ch : Channel) (r : Routing) (db : Db) : Prop :=
  r ∈ db.routings → ∃ c ∈ db.channels, c.channelId = ch.channelId ∧ c.name = ch.name

theorem Bound.step {ch : Channel} (hr : r.channelId = some ch.channelId) (h : Bound ch r db)
    {c : Channel} (hput : db.replaceChannel c = .ok db') :
    Bound ch r db' ∧ (c.channelId = ch.channelId ∨ c.name = ch.name → r ∉ db'.routings) := by
  have hclash : r ∈ db'.routings → ∃ found ∈ db.channels, (found.channelId = ch.channelId ∧
      found.name = ch.name) ∧ c.clash found = false := by
    intro hmem
    obtain ⟨hmem, hgone⟩ := mem_routings_of_replaceChannel hput hr hmem
    obtain ⟨found, hfound, hid, hname⟩ := h hmem
    refine ⟨found, hfound, ⟨hid, hname⟩, ?_⟩
    by_contra hclash
    exact hgone (Db.mem_goneChannels.mpr
      ⟨found, hfound, Channel.clash_iff.mp (eq_true_of_ne_false hclash), hid⟩)
  constructor
  · intro hmem
    obtain ⟨found, hfound, hsame, hkept⟩ := hclash hmem
    obtain ⟨hchannels, -⟩ := Db.replaceChannel_ok hput
    exact ⟨found, hchannels ▸ mem_replaceRow.mpr (.inl ⟨hfound, hkept⟩), hsame⟩
  intro hnames hmem
  obtain ⟨found, -, ⟨hid, hname⟩, hkept⟩ := hclash hmem
  have hfound : c.clash found = true := by
    rw [Channel.clash_iff, hid, hname]
    exact hnames.imp Eq.symm Eq.symm
  rw [hfound] at hkept
  cases hkept

theorem notMem_routings_insertChannels {ch : Channel} (hr : r.channelId = some ch.channelId) :
    ∀ {channels : List ChannelEntry} {db db' : Db}, Bound ch r db →
      insertChannels db channels = .ok db' →
      (∃ c ∈ channels, c.accepted = true ∧ (c.id = ch.channelId ∨ c.name = ch.name)) →
      r ∉ db'.routings
  | [], _, _, _, _, ⟨_, hc, _⟩ => nomatch hc
  | c :: channels, db, db', hbound, h, hentry => by
    rw [insertChannels, foldlM_cons] at h
    obtain ⟨mid, hone, hrest⟩ := bind_eq_ok_iff.mp h
    by_cases hc : c.accepted = true ∧ (c.id = ch.channelId ∨ c.name = ch.name)
    · -- the entry replaces the channel; nothing binds the routing again
      obtain ⟨haccepted, hnames⟩ := hc
      rcases insertChannel_cases hone with ⟨hskip, -⟩ | ⟨-, hput⟩
      · rw [haccepted] at hskip
        cases hskip
      have hgone := (hbound.step hr hput).2 hnames
      refine foldlM_keeps (P := fun s : Db => r ∉ s.routings) (fun s s' e _ hone hs hmem => ?_)
        hrest hgone
      rcases insertChannel_cases hone with ⟨-, rfl⟩ | ⟨-, hput⟩
      · exact hs hmem
      · exact hs (mem_routings_of_replaceChannel hput hr hmem).1
    obtain ⟨e, he, hnames⟩ := hentry
    have hlater : e ∈ channels := by
      rcases mem_cons.mp he with rfl | he
      · exact absurd hnames hc
      · exact he
    refine notMem_routings_insertChannels hr ?_ hrest ⟨e, hlater, hnames⟩
    rcases insertChannel_cases hone with ⟨-, rfl⟩ | ⟨-, hput⟩
    · exact hbound
    · exact (hbound.step hr hput).1

theorem unreferenced_of_unchanged {acc : Progress} (hrun : syncComsrv env false dir db = .ok acc)
    (h : Unchanged dir.named db acc.1) : Unreferenced dir db := by
  obtain ⟨channels, mid, hyaml, hchannels, hdirs⟩ := syncComsrv_ok hrun
  rintro r hr ch hch hchannel ⟨c, hc, hnames⟩
  rw [ComsrvDir.entries, hyaml] at hc
  obtain ⟨hc, haccepted⟩ := mem_filter.mp hc
  have hgone := notMem_routings_insertChannels hchannel (fun _ => ⟨ch, hch, rfl, rfl⟩) hchannels
    ⟨c, hc, haccepted, hnames⟩
  rw [← (pointsWritten_syncDirs hdirs).routings] at hgone
  exact hgone (h.routings r hr id)

/-! ## Instances -/

/-- The instance is named, and so is every row that hangs on it. -/
structure Detached (dir : ModsrvDir) (db : Db) (i : Instance) : Prop where
  named : (dir.named db).instanceRow i
  properties : ∀ p ∈ db.properties, p.instanceId = i.instanceId → (dir.named db).property p
  routings : ∀ r ∈ db.routings, r.instanceId = i.instanceId → (dir.named db).routing r
  children : ∀ j ∈ db.instances, j.parentId = some i.instanceId → (dir.named db).instanceRow j

/-- Whatever an entry displaces is detached. -/
def Replaceable (dir : ModsrvDir) (db : Db) : Prop :=
  ∀ e ∈ dir.accepted db, ∀ i ∈ db.instances, e.Hits i → Detached dir db i

section Entries

variable {instanceDir : String → InstanceDir} {e : InstanceEntry} {es : List InstanceEntry}
  {i : Instance}

theorem keyClash_of_hits (h : e.Hits i) : keyClash e.key i.key = true :=
  keyClash_iff.mpr (h.imp Eq.symm Eq.symm)

theorem mem_goneInstances_iff_hits (hi : i.key ∈ db.keys) :
    i.instanceId ∈ db.goneInstances e.row ↔ e.Hits i := by
  rw [mem_goneInstances_iff_clash]
  constructor
  · rintro ⟨k, hk, hclash, hid⟩
    obtain ⟨r, hr, rfl⟩ := mem_keys.mp hk
    obtain ⟨s, hs, hkey⟩ := mem_keys.mp hi
    have hsame : r = s :=
      inj_on_of_nodup_map db.instanceIds hr hs (hid.trans (congrArg Prod.fst hkey).symm)
    rw [hsame, hkey] at hclash
    exact (keyClash_iff.mp hclash).imp Eq.symm Eq.symm
  intro h
  exact ⟨i.key, hi, keyClash_of_hits h, rfl⟩

theorem Processed.key_mem (h : Processed instanceDir e db db') (hi : i.key ∈ db.keys)
    (hnot : ¬ e.Hits i) : i.key ∈ db'.keys := by
  rw [h.keys_eq]
  refine mem_replaceRow.mpr (.inl ⟨hi, ?_⟩)
  by_contra hclash
  exact hnot ((keyClash_iff.mp (eq_true_of_ne_false hclash)).imp Eq.symm Eq.symm)

theorem ProcessedAll.kept (h : ProcessedAll instanceDir es db db') (hi : i.key ∈ db.keys)
    (hnot : ∀ e ∈ es, ¬ e.Hits i) :
    (∀ p ∈ db.properties, p.instanceId = i.instanceId → p ∈ db'.properties) ∧
      ∀ r ∈ db.routings, r.instanceId = i.instanceId → r ∈ db'.routings := by
  induction h with
  | nil db => exact ⟨fun _ hp _ => hp, fun _ hr _ => hr⟩
  | cons hput _ ih =>
    have hone := hnot _ (.head _)
    have hstays := mt (mem_goneInstances_iff_hits hi).mp hone
    obtain ⟨hproperties, hroutings⟩ := ih (hput.key_mem hi hone) fun e he => hnot e (.tail _ he)
    exact ⟨fun p hp hid => hproperties p (hput.propertiesKept p hp (hid ▸ hstays)) hid,
      fun r hr hid => hroutings r (hput.routingsKept r hr (hid ▸ hstays)) hid⟩

theorem ProcessedAll.row_kept (h : ProcessedAll instanceDir es db db') (hi : i ∈ db.instances)
    (hnot : ∀ e ∈ es, ¬ e.Hits i)
    (hparent : ∀ p, i.parentId = some p →
      ∃ q : Instance, q.key ∈ db.keys ∧ q.instanceId = p ∧ ∀ e ∈ es, ¬ e.Hits q) :
    i ∈ db'.instances := by
  induction h with
  | nil db => exact hi
  | @cons e es db db₁ db₂ hput _ ih =>
    have hone := hnot e (.head _)
    have hkey : i.key ∈ db.keys := mem_keys.mpr ⟨i, hi, rfl⟩
    refine ih ?_ (fun e he => hnot e (.tail _ he)) fun p hp => ?_
    · rw [hput.instances]
      have horphan : i.orphan (db.goneInstances e.row) = i := by
        refine Instance.orphan_of_notMem fun p hp hgone => ?_
        obtain ⟨q, hq, rfl, hfree⟩ := hparent p hp
        exact hfree e (.head _) ((mem_goneInstances_iff_hits hq).mp hgone)
      refine mem_replaceRow.mpr (.inl ⟨mem_map.mpr ⟨i, hi, horphan⟩, ?_⟩)
      by_contra hclash
      exact hone ((Instance.clash_iff.mp (eq_true_of_ne_false hclash)).imp Eq.symm Eq.symm)
    obtain ⟨q, hq, hid, hfree⟩ := hparent p hp
    exact ⟨q, hput.key_mem hq (hfree e (.head _)), hid, fun e he => hfree e (.tail _ he)⟩

theorem ProcessedAll.not_hits {X : Db → Prop} (h : ProcessedAll instanceDir es db db')
    (hstep : ∀ e ∈ es, ∀ a b, Processed instanceDir e a b → X b →
      X a ∧ i.instanceId ∉ a.goneInstances e.row)
    (hstands : X db → i.key ∈ db.keys) (hX : X db') : X db ∧ ∀ e ∈ es, ¬ e.Hits i := by
  induction h with
  | nil db => exact ⟨hX, nofun⟩
  | @cons e es db db₁ db₂ hput _ ih =>
    have hback : X db₁ → X db ∧ ¬ e.Hits i := fun h₁ => by
      obtain ⟨h₀, hstays⟩ := hstep e (.head _) db db₁ hput h₁
      exact ⟨h₀, mt (mem_goneInstances_iff_hits (hstands h₀)).mpr hstays⟩
    obtain ⟨h₁, hrest⟩ := ih (fun e he => hstep e (.tail _ he))
      (fun h₁ => hput.key_mem (hstands (hback h₁).1) (hback h₁).2) hX
    exact ⟨(hback h₁).1, forall_mem_cons.mpr ⟨(hback h₁).2, hrest⟩⟩

end Entries

theorem unchanged_modsrv {dir : ModsrvDir} (hfree : Replaceable dir db) :
    Unchanged (dir.named db) db (afterSync (syncModsrv env false dir) db) := by
  unfold afterSync
  split
  · rename_i after errors hrun
    obtain ⟨mid, hall, hwrite⟩ := processedAll_of_syncModsrv hrun
    have hrules := rulesWritten_writeRules hwrite
    obtain ⟨hchannels, hpoints, -⟩ := hall.channels_points_rules
    refine ⟨fun r hr _ => ?_, fun r hr _ => ?_, fun i hi hnot => ?_, fun p hp hnot => ?_,
      fun r hr hnot => ?_⟩
    · rw [hrules.channels, hchannels]
      exact hr
    · rw [hrules.points, hpoints]
      exact hr
    · rw [hrules.instances]
      refine hall.row_kept hi (fun e he hhits => hnot (hfree e he i hi hhits).named) fun p hp => ?_
      obtain ⟨q, hq, rfl⟩ := mem_map.mp (db.parents i hi p hp)
      exact ⟨q, mem_keys.mpr ⟨q, hq, rfl⟩, rfl, fun e he hhits =>
        hnot ((hfree e he q hq hhits).children i hi hp)⟩
    · rw [hrules.properties]
      obtain ⟨i, hi, hid⟩ := mem_map.mp (db.propertyInstances p hp)
      exact (hall.kept (mem_keys.mpr ⟨i, hi, rfl⟩) fun e he hhits =>
        hnot ((hfree e he i hi hhits).properties p hp hid.symm)).1 p hp hid.symm
    rw [hrules.routings]
    obtain ⟨i, hi, hid⟩ := mem_map.mp (db.routingInstances r hr)
    exact (hall.kept (mem_keys.mpr ⟨i, hi, rfl⟩) fun e he hhits =>
      hnot ((hfree e he i hi hhits).routings r hr hid.symm)).2 r hr hid.symm
  · exact .refl _ _

variable {instanceDir : String → InstanceDir} {e : InstanceEntry}

theorem Processed.key_back {i : Instance} (h : Processed instanceDir e db db')
    (hname : e.instanceName ≠ i.instanceName) (hi : i.key ∈ db'.keys) :
    i.key ∈ db.keys ∧ i.instanceId ∉ db.goneInstances e.row := by
  rw [h.keys_eq] at hi
  rcases mem_replaceRow.mp hi with ⟨hi, hclash⟩ | hkey
  · refine ⟨hi, fun hgone => ?_⟩
    rw [keyClash_of_hits ((mem_goneInstances_iff_hits hi).mp hgone)] at hclash
    cases hclash
  · exact absurd (congrArg Prod.snd hkey).symm hname

theorem Processed.child_back {j : Instance} {k : Nat} (h : Processed instanceDir e db db')
    (hname : e.instanceName ≠ j.instanceName) (hparent : j.parentId = some k)
    (hj : j ∈ db'.instances) : j ∈ db.instances ∧ k ∉ db.goneInstances e.row := by
  rw [h.instances] at hj
  rcases mem_replaceRow.mp hj with ⟨hj, -⟩ | rfl
  · obtain ⟨old, hold, rfl⟩ := mem_map.mp hj
    obtain ⟨hk, hgone⟩ := Instance.orphan_parentId hparent
    refine ⟨?_, hgone⟩
    rwa [Instance.orphan_of_notMem fun p hp => Option.some.inj (hk.symm.trans hp) ▸ hgone]
  · exact absurd rfl hname

theorem replaceable_of_unchanged {dir : ModsrvDir} {acc : Progress}
    (hrun : syncModsrv env false dir db = .ok acc) (h : Unchanged (dir.named db) db acc.1) :
    Replaceable dir db := by
  obtain ⟨mid, hall, hwrite⟩ := processedAll_of_syncModsrv hrun
  have hrules := rulesWritten_writeRules hwrite
  have hname : ∀ e ∈ dir.accepted db, ∀ i, ¬ (dir.named db).instanceRow i →
      e.instanceName ≠ i.instanceName := fun e he i hnot heq => by
    obtain ⟨l, hl, hlname⟩ := exists_listed_of_mem_accepted he
    exact hnot ⟨l, hl, .inr (hlname.trans heq)⟩
  intro e he i hi hhits
  have hkey : i.key ∈ db.keys := mem_keys.mpr ⟨i, hi, rfl⟩
  -- a row that is not named goes with the instance and does not come back
  refine ⟨?_, fun p hp hid => ?_, fun r hr hid => ?_, fun j hj hparent => ?_⟩
  all_goals by_contra hnot
  · have hafter := h.instances i hi hnot
    rw [hrules.instances] at hafter
    exact (hall.not_hits (X := fun db => i.key ∈ db.keys)
      (fun e' he' _ _ hput => hput.key_back (hname e' he' i hnot)) id
      (mem_keys.mpr ⟨i, hafter, rfl⟩)).2 e he hhits
  · have hafter := h.properties p hp hnot
    rw [hrules.properties] at hafter
    refine (hall.not_hits (X := fun db => p ∈ db.properties) (fun e' he' a b hput hb => ?_)
      (fun _ => hkey) hafter).2 e he hhits
    refine (hput.propertiesFrom p hb).elim (fun hold => hid ▸ hold) fun ⟨hid', hlists⟩ => ?_
    exact absurd ⟨i, hi, hid.symm, .inr ⟨e', he', .inl (hid'.symm.trans hid), hlists⟩⟩ hnot
  · have hafter := h.routings r hr hnot
    rw [hrules.routings] at hafter
    refine (hall.not_hits (X := fun db => r ∈ db.routings) (fun e' he' a b hput hb => ?_)
      (fun _ => hkey) hafter).2 e he hhits
    refine (hput.routingsFrom r hb).elim (fun hold => hid ▸ hold) fun ⟨hid', hlists⟩ => ?_
    exact absurd ⟨i, hi, hid.symm, .inr ⟨e', he', .inl (hid'.symm.trans hid), hlists⟩⟩ hnot
  have hafter := h.instances j hj hnot
  rw [hrules.instances] at hafter
  exact (hall.not_hits (X := fun db => j ∈ db.instances)
    (fun e' he' _ _ hput => hput.child_back (hname e' he' j hnot) hparent)
    (fun _ => hkey) hafter).2 e he hhits

/-! ## Default runs -/

/-- **A default run leaves alone what the files do not name** exactly when no routing refers to a
channel of `comsrv.yaml`, and whatever hangs on an instance that an entry of `instances.yaml`
replaces is named as well. A run that fails leaves everything alone. -/
theorem default_sync_unchanged (env : Env) (comsrv : ComsrvDir) (modsrv : ModsrvDir) (db : Db) :
    (Unreferenced comsrv db →
      Unchanged comsrv.named db (afterSync (syncComsrv env false comsrv) db)) ∧
    (∀ acc, syncComsrv env false comsrv db = .ok acc → Unchanged comsrv.named db acc.1 →
      Unreferenced comsrv db) ∧
    (Replaceable modsrv db →
      Unchanged (modsrv.named db) db (afterSync (syncModsrv env false modsrv) db)) ∧
    ∀ acc, syncModsrv env false modsrv db = .ok acc → Unchanged (modsrv.named db) db acc.1 →
      Replaceable modsrv db :=
  ⟨unchanged_comsrv, fun _ => unreferenced_of_unchanged, unchanged_modsrv,
    fun _ => replaceable_of_unchanged⟩

private def boundRouting : Routing :=
  ⟨.measurement, 1, 1, "meter", some 1, some "T", some 1, 1, none, true⟩

private def boundDb : Db where
  channels := [⟨1, "plc", some "modbus_tcp", true, none⟩]
  points := []
  instances := [⟨1, "meter", "Meter", none⟩]
  properties := []
  routings := [boundRouting]
  nextRouting := fun _ => 2
  rules := []
  nextRule := 1
  pointKeys := Db.empty.pointKeys
  propertyKeys := Db.empty.propertyKeys
  ruleIds := Db.empty.ruleIds

private def plcDir : ComsrvDir := ⟨.read [⟨1, "plc", "modbus_tcp", true, "null"⟩], []⟩

/-- The routing is in no file, and it has lost its channel. -/
theorem default_sync_unbinds_routing :
    ¬ Unchanged plcDir.named boundDb
      (afterSync (syncComsrv ⟨fun _ => none, "", fun _ => none⟩ false plcDir) boundDb) :=
  fun h => absurd (h.routings boundRouting (.head _) id) (by decide +kernel)

end VoltageEMS.Monarch
