import VoltageEMS.Lib.Text
import VoltageEMS.Routing.Loader

/-!
# The routing cache

`voltage-routing/src/routing_cache.rs`: the text maps of the loader are parsed into tables with
structured keys, and the C2M table is built in both directions.  A channel point has one route, so of
several rows on one channel point only one is in the tables.
-/

namespace VoltageEMS.Routing

open Lib List Option Function

/-! ## Parsing -/

/-- `(channel_id, point_type, point_id)`, or an instance id and point in the M2C table. -/
abbrev StructuredRouteKey := Nat × PointType × Nat

/-- `(instance_id, instance_point_id)`. -/
abbrev StructuredC2MReverseKey := Nat × Nat

/-- `s.split(':')`, if that gives three parts. -/
def splitThree (s : String) : Option (String × String × String) :=
  match s.toList.splitOn ':' with
  | [a, b, c] => some (String.ofList a, String.ofList b, String.ofList c)
  | _ => none

/-- `str::parse::<u32>`. -/
def parseU32 (s : String) : Option Nat := parseUnsigned 10 (2 ^ 32) s

/-- `parse_point_type`. -/
def parsePointType : String → Option PointType
  | "T" => some .telemetry
  | "S" => some .signal
  | "C" => some .control
  | "A" => some .adjustment
  | _ => none

/-- `parse_route_key`. -/
def parseRouteKey (s : String) : Option StructuredRouteKey := do
  let (id, pointType, pointId) ← splitThree s
  let id ← parseU32 id
  let pointType ← parsePointType pointType
  let pointId ← parseU32 pointId
  pure (id, pointType, pointId)

/-- `parse_channel_point`, which reads targets as `parse_route_key` reads keys. -/
def parseChannelPoint (s : String) : Option StructuredRouteKey := parseRouteKey s

/-- `parse_c2m_target`; the middle part is not looked at. -/
def parseC2mTarget (s : String) : Option C2MTarget := do
  let (instanceId, _, pointId) ← splitThree s
  let instanceId ← parseU32 instanceId
  let pointId ← parseU32 pointId
  pure ⟨instanceId, pointId⟩

/-- `m2c_from_parts`. -/
def m2cFromParts (parts : StructuredRouteKey) : ChannelPoint := ⟨parts.1, parts.2.1, parts.2.2⟩

/-! ## Tables -/

/-- The tables of `RoutingCache`, without the C2C routes. -/
structure BuiltTables where
  c2m : StructuredRouteKey → Option C2MTarget
  m2c : StructuredRouteKey → Option ChannelPoint
  c2mReverse : StructuredC2MReverseKey → Option StructuredRouteKey

variable (t : BuiltTables)

namespace BuiltTables

/-- No routes. -/
def empty : BuiltTables := ⟨fun _ => none, fun _ => none, fun _ => none⟩

/-- One C2M entry. -/
def insertC2m (kv : String × String) : BuiltTables :=
  match parseRouteKey kv.1, parseC2mTarget kv.2 with
  | some key, some target =>
    { t with
      c2m := update t.c2m key (some target)
      c2mReverse := update t.c2mReverse (target.instanceId, target.pointId) (some key) }
  | _, _ => t

/-- One M2C entry. -/
def insertM2c (kv : String × String) : BuiltTables :=
  match parseRouteKey kv.1, parseChannelPoint kv.2 with
  | some key, some parts => { t with m2c := update t.m2c key (some (m2cFromParts parts)) }
  | _, _ => t

/-- `lookup_c2m_by_parts`. -/
def lookupC2mByParts (channelId : Nat) (pointType : PointType) (pointId : Nat) :
    Option C2MTarget :=
  t.c2m (channelId, pointType, pointId)

/-- `lookup_c2m_reverse`. -/
def lookupC2mReverse (instanceId instancePointId : Nat) :
    Option StructuredRouteKey :=
  t.c2mReverse (instanceId, instancePointId)

/-- `lookup_m2c_by_parts`. -/
def lookupM2cByParts (instanceId : Nat) (pointType : PointType) (pointId : Nat) :
    Option ChannelPoint :=
  t.m2c (instanceId, pointType, pointId)

end BuiltTables

/-- `build_tables`, given the entries of the text maps in the order they are visited. -/
def buildTables (c2mData m2cData : List (String × String)) : BuiltTables :=
  m2cData.foldl BuiltTables.insertM2c (c2mData.foldl BuiltTables.insertC2m .empty)

/-- `RoutingCache::from_maps`, for maps that are iterated as `c2m` and `m2c`. -/
def fromMaps {maps : RoutingMaps} (c2m : Entries maps.c2m) (m2c : Entries maps.m2c) : BuiltTables :=
  buildTables c2m.list m2c.list

/-- What an entry parses to. -/
def parseC2mEntry (kv : String × String) : Option (StructuredRouteKey × C2MTarget) := do
  let key ← parseRouteKey kv.1
  let target ← parseC2mTarget kv.2
  pure (key, target)

/-- The key and value of a route in the reverse table. -/
def reversed (route : StructuredRouteKey × C2MTarget) :
    StructuredC2MReverseKey × StructuredRouteKey :=
  ((route.2.instanceId, route.2.pointId), route.1)

variable (c2mData m2cData : List (String × String))

theorem foldl_insertC2m : c2mData.foldl BuiltTables.insertC2m t =
      { t with
        c2m := insertAll t.c2m (c2mData.filterMap parseC2mEntry)
        c2mReverse := insertAll t.c2mReverse ((c2mData.filterMap parseC2mEntry).map reversed) } := by
  induction c2mData generalizing t with
  | nil => rfl
  | cons kv c2mData ih =>
    rw [foldl_cons, ih]
    cases hkey : parseRouteKey kv.1 with
    | none => simp [BuiltTables.insertC2m, parseC2mEntry, hkey]
    | some key =>
      cases htarget : parseC2mTarget kv.2 with
      | none => simp [BuiltTables.insertC2m, parseC2mEntry, hkey, htarget]
      | some target =>
        simp [BuiltTables.insertC2m, parseC2mEntry, hkey, htarget, insertAll_cons, reversed]

theorem foldl_insertM2c_c2m : (m2cData.foldl BuiltTables.insertM2c t).c2m = t.c2m ∧
      (m2cData.foldl BuiltTables.insertM2c t).c2mReverse = t.c2mReverse := by
  induction m2cData generalizing t with
  | nil => exact ⟨rfl, rfl⟩
  | cons kv m2cData ih =>
    have hkeep : (t.insertM2c kv).c2m = t.c2m ∧ (t.insertM2c kv).c2mReverse = t.c2mReverse := by
      unfold BuiltTables.insertM2c
      split <;> exact ⟨rfl, rfl⟩
    rw [foldl_cons]
    exact ⟨(ih _).1.trans hkeep.1, (ih _).2.trans hkeep.2⟩

theorem buildTables_c2m : (buildTables c2mData m2cData).c2m =
      insertAll (fun _ => none) (c2mData.filterMap parseC2mEntry) := by
  rw [buildTables, (foldl_insertM2c_c2m _ _).1, foldl_insertC2m]
  rfl

theorem buildTables_c2mReverse : (buildTables c2mData m2cData).c2mReverse =
      insertAll (fun _ => none) ((c2mData.filterMap parseC2mEntry).map reversed) := by
  rw [buildTables, (foldl_insertM2c_c2m _ _).2, foldl_insertC2m]
  rfl

/-! ## Two texts for one channel point -/

/-- Where the reverse table leads back to a channel point, that point leads there. -/
def BuiltTables.DirectionsAgree : Prop :=
  ∀ instanceId pointId key, t.lookupC2mReverse instanceId pointId = some key →
    t.c2m key = some ⟨instanceId, pointId⟩

/-- Entries that parse to one channel point parse to one target. -/
def OneTarget (map : String → Option String) : Prop :=
  ∀ k v k' v', map k = some v → map k' = some v' → ∀ key target target',
    parseC2mEntry (k, v) = some (key, target) → parseC2mEntry (k', v') = some (key, target') →
      target = target'

section Directions

variable {map : String → Option String} (m2cData : List (String × String))

theorem directionsAgree_of_oneTarget (h : OneTarget map) (order : Entries map) :
    (buildTables order.list m2cData).DirectionsAgree := by
  intro instanceId pointId key hreverse
  rw [BuiltTables.lookupC2mReverse, buildTables_c2mReverse] at hreverse
  obtain ⟨⟨key', target⟩, hroute, heq⟩ : ∃ route ∈ order.list.filterMap parseC2mEntry,
      reversed route = ((instanceId, pointId), key) := by
    rcases mem_of_insertAll hreverse with hmem | hnone
    · exact List.mem_map.mp hmem
    · cases hnone
  cases heq
  rw [buildTables_c2m]
  refine insertAll_of_unique hroute fun target' hroute' => ?_
  obtain ⟨⟨k, v⟩, hkv, hparse⟩ := mem_filterMap.mp hroute
  obtain ⟨⟨k', v'⟩, hkv', hparse'⟩ := mem_filterMap.mp hroute'
  exact h k' v' k v ((order.mem_iff _ _).mp hkv') ((order.mem_iff _ _).mp hkv) _ _ _ hparse' hparse

theorem target_eq_of_last_two {l : List (String × String)} {kv kv' : String × String}
    {key : StructuredRouteKey} {target target' : C2MTarget}
    (hparse : parseC2mEntry kv = some (key, target))
    (hparse' : parseC2mEntry kv' = some (key, target'))
    (hagree : (buildTables (l ++ [kv] ++ [kv']) m2cData).DirectionsAgree) : target = target' := by
  by_contra hne
  have hforward : (buildTables (l ++ [kv] ++ [kv']) m2cData).c2m key = some target' := by
    simp [buildTables_c2m, insertAll_eq_getLast, filterMap_append, hparse, hparse']
  have hother : (target'.instanceId, target'.pointId) ≠ (target.instanceId, target.pointId) := by
    intro heq
    obtain ⟨hi, hp⟩ := Prod.mk.inj heq
    exact hne (by cases target; cases target'; cases hi; cases hp; rfl)
  have hreverse : (buildTables (l ++ [kv] ++ [kv']) m2cData).lookupC2mReverse target.instanceId
      target.pointId = some key := by
    rw [BuiltTables.lookupC2mReverse, buildTables_c2mReverse, filterMap_append,
      filterMap_append, map_append, map_append, insertAll_append, insertAll_append]
    simp only [filterMap_cons, filterMap_nil, hparse, hparse', map_cons,
      map_nil, reversed, insertAll_cons]
    rw [insertAll, foldl_nil, update_of_ne hother.symm, insertAll, foldl_nil,
      update_self]
  have hback := hagree _ _ _ hreverse
  rw [hforward] at hback
  exact hne (some.inj hback).symm

/-- **The two directions of the C2M table**, for an arbitrary map of texts: they agree in whatever
order it is iterated exactly when texts that name one channel point have one target. -/
theorem directionsAgree_iff (entries : Entries map) :
    (∀ order : Entries map, (buildTables order.list m2cData).DirectionsAgree) ↔ OneTarget map := by
  refine ⟨fun h k v k' v' hkv hkv' key target target' hparse hparse' => ?_,
    fun h => directionsAgree_of_oneTarget m2cData h⟩
  by_cases hk : k = k'
  · subst hk
    obtain rfl := some.inj (hkv.symm.trans hkv')
    exact (Prod.mk.inj (some.inj (hparse.symm.trans hparse'))).2
  -- the order that visits the two entries last
  have hmap : update (update map k (some v)) k' (some v') = map := by
    rw [← hkv, update_eq_self, ← hkv', update_eq_self]
  have hall : ∀ order : Entries (update (update map k (some v)) k' (some v')),
      (buildTables order.list m2cData).DirectionsAgree := by
    rw [hmap]
    exact h
  have hlast := hall ((entries.insert k v).insert k' v')
  simp only [Entries.insert, filter_append] at hlast
  rw [filter_cons_of_pos (by simpa using hk), filter_nil] at hlast
  exact target_eq_of_last_two m2cData hparse hparse' hlast

end Directions

/-- Two spellings of one channel point: the first target leads back to a point that leads to the
second. -/
theorem two_spellings_disagree :
    let c2m := (Entries.empty.insert "1:T:5" "10:M:1").insert "01:T:5" "10:M:2"
    (∀ kv ∈ c2m.list, (parseRouteKey kv.1).isSome ∧ (parseC2mTarget kv.2).isSome) ∧
      (buildTables c2m.list []).lookupC2mReverse 10 1 = some (1, .telemetry, 5) ∧
      (buildTables c2m.list []).lookupC2mByParts 1 .telemetry 5 = some ⟨10, 2⟩ := by
  decide

/-! ## What the loader writes is read back -/

/-- The key of a point. -/
def routeKey (cp : ChannelPoint) : StructuredRouteKey := (cp.channelId, cp.pointType, cp.pointId)

/-- The target of a row. -/
def RoutingRow.target (r : RoutingRow) : C2MTarget := ⟨r.instanceId.toNat, r.pointId.toNat⟩

theorem splitThree_tripleKey (i j : Nat) {tag : String} (htag : ':' ∉ tag.toList) :
    splitThree (tripleKey i tag j) = some (toString i, tag, toString j) := by
  have hlist : (tripleKey i tag j).toList =
      Nat.toDigits 10 i ++ ':' :: (tag.toList ++ ':' :: Nat.toDigits 10 j) := by
    simp [tripleKey, String.toList_append]
  have hparts : (tripleKey i tag j).toList.splitOn ':' =
      [Nat.toDigits 10 i, tag.toList, Nat.toDigits 10 j] := by
    rw [hlist, splitOn_append_cons_self_of_not_mem (colon_notMem_toDigits i),
      splitOn_append_cons_self_of_not_mem htag,
      splitOn_eq_singleton (colon_notMem_toDigits j)]
  simp only [splitThree, hparts, String.ofList_toList, Nat.toString_eq_ofList_toDigits]

theorem parsePointType_asStr (t : PointType) : parsePointType t.asStr = some t := by
  cases t <;> rfl

variable {cp : ChannelPoint}

theorem parseRouteKey_c2mRouteKey (hc : cp.channelId < 2 ^ 32) (hp : cp.pointId < 2 ^ 32) :
    parseRouteKey (KeySpace.c2mRouteKey cp) = some (routeKey cp) := by
  have hsplit : splitThree (KeySpace.c2mRouteKey cp) =
      some (toString cp.channelId, cp.pointType.asStr, toString cp.pointId) :=
    splitThree_tripleKey cp.channelId cp.pointId (colon_notMem_asStr cp.pointType)
  simp only [parseRouteKey, hsplit, parseU32, parseUnsigned_toString hc, parseUnsigned_toString hp,
    parsePointType_asStr, bind_eq_bind, bind_some, Option.pure_def, routeKey]

theorem parseC2mTarget_instanceKey (r : RoutingRow) :
    parseC2mTarget (r.instanceKey "M") = some r.target := by
  have hi : r.instanceId.toNat < 2 ^ 32 := r.instanceId.toNat_lt
  have hp : r.pointId.toNat < 2 ^ 32 := r.pointId.toNat_lt
  simp only [parseC2mTarget, RoutingRow.instanceKey, splitThree_tripleKey _ _ (show ':' ∉ "M".toList by
    decide), parseU32, parseUnsigned_toString hi, parseUnsigned_toString hp, bind_eq_bind,
    bind_some, Option.pure_def, RoutingRow.target]

variable {r : RoutingRow}

theorem bound_range (h : r.bound = some cp) : cp.channelId < 2 ^ 32 ∧ cp.pointId < 2 ^ 32 := by
  simp only [RoutingRow.bound, bind_eq_bind, bind_eq_some_iff] at h
  obtain ⟨c, -, _, -, p, -, _, -, heq⟩ := h
  cases heq
  have hc : c.toInt.toNat < 2 ^ 32 := by
    have := c.toInt_lt
    omega
  exact ⟨hc, p.toNat_lt⟩

theorem parseC2mEntry_of_bound (h : r.bound = some cp) :
    parseC2mEntry (KeySpace.c2mRouteKey cp, r.instanceKey "M") = some (routeKey cp, r.target) := by
  obtain ⟨hc, hp⟩ := bound_range h
  simp only [parseC2mEntry, parseRouteKey_c2mRouteKey hc hp, parseC2mTarget_instanceKey,
    bind_eq_bind, bind_some, Option.pure_def]

/-! ## Both directions after a load -/

/-- All of the channel columns are set, to a channel point with a `u32` channel id. -/
def RoutingRow.ChannelBound (r : RoutingRow) : Prop :=
  r.bound.isSome ∧ ∀ c, r.channelId = some c → 0 ≤ c.toInt

/-- The row read last on a channel point. -/
def lastBound (rows : List RoutingRow) (cp : ChannelPoint) : Option RoutingRow :=
  (rows.filter fun r => r.bound = some cp).getLast?

variable {nulls : NullDecoding} {rows : List RoutingRow} {last : RoutingRow}

theorem bound_of_lastBound (h : lastBound rows cp = some last) :
    last ∈ rows ∧ last.bound = some cp := by
  have hmem := mem_filter.mp (mem_of_getLast? h)
  exact ⟨hmem.1, by simpa using hmem.2⟩

theorem exists_lastBound (hr : r ∈ rows) (hcp : r.bound = some cp) :
    ∃ last, lastBound rows cp = some last :=
  ⟨_, getLast?_eq_some_getLast
    (ne_nil_of_mem (mem_filter.mpr ⟨hr, decide_eq_true hcp⟩))⟩

theorem point_eq_bound (h : r.ChannelBound) : r.point nulls = r.bound := by
  obtain ⟨cp, hcp⟩ := isSome_iff_exists.mp h.1
  rw [point_of_bound h.2 hcp, hcp]

theorem loadC2mRoutes_isSome (hrows : ∀ r ∈ rows, r.ChannelBound) :
    (loadC2mRoutes nulls rows).isSome := by
  refine isSome_iff_exists.mpr ⟨_, loadRoutes_eq.mpr ⟨fun r hr => ?_, rfl⟩⟩
  obtain ⟨cp, hcp⟩ := isSome_iff_exists.mp (hrows r hr).1
  have hpoint : r.point nulls = some cp := (point_eq_bound (hrows r hr)).trans hcp
  obtain ⟨d, hd, -⟩ := bind_eq_some_iff.mp hpoint
  exact isSome_iff_exists.mpr ⟨d, hd⟩

variable {map : String → Option String}

theorem c2m_eq_lastBound (hrows : ∀ r ∈ rows, r.ChannelBound)
    (hload : loadC2mRoutes nulls rows = some map) (cp : ChannelPoint) :
    map (KeySpace.c2mRouteKey cp) = (lastBound rows cp).map (RoutingRow.instanceKey "M") := by
  rw [(loadRoutes_eq.mp hload).2, c2m_eq_getLast, lastBound]
  congr 2
  refine filter_congr fun r hr => ?_
  rw [point_eq_bound (hrows r hr)]

theorem exists_c2mRouteKey (hload : loadC2mRoutes nulls rows = some map) {k v : String}
    (h : map k = some v) : ∃ cp, k = KeySpace.c2mRouteKey cp := by
  rw [(loadRoutes_eq.mp hload).2, c2mEntries_eq] at h
  rcases mem_of_insertAll h with hmem | hnone
  · obtain ⟨e, -, heq⟩ := List.mem_map.mp hmem
    exact ⟨e.1, (congrArg Prod.fst heq).symm⟩
  · cases hnone

theorem mem_parsed_iff (hrows : ∀ r ∈ rows, r.ChannelBound)
    (hload : loadC2mRoutes nulls rows = some map) (entries : Entries map)
    {route : StructuredRouteKey × C2MTarget} :
    route ∈ entries.list.filterMap parseC2mEntry ↔
      ∃ cp last, lastBound rows cp = some last ∧ route = (routeKey cp, last.target) := by
  rw [mem_filterMap]
  constructor
  · rintro ⟨⟨k, v⟩, hmem, hparse⟩
    have hkv := (entries.mem_iff k v).mp hmem
    obtain ⟨cp, rfl⟩ := exists_c2mRouteKey hload hkv
    rw [c2m_eq_lastBound hrows hload, map_eq_some_iff] at hkv
    obtain ⟨last, hlast, rfl⟩ := hkv
    rw [parseC2mEntry_of_bound (bound_of_lastBound hlast).2] at hparse
    exact ⟨cp, last, hlast, (some.inj hparse).symm⟩
  rintro ⟨cp, last, hlast, rfl⟩
  refine ⟨_, (entries.mem_iff _ _).mpr ?_, parseC2mEntry_of_bound (bound_of_lastBound hlast).2⟩
  rw [c2m_eq_lastBound hrows hload, hlast, map_some]

theorem routeKey_injective : Function.Injective routeKey := by
  rintro ⟨c, t, p⟩ ⟨c', t', p'⟩ h
  cases h
  rfl

/-- The point of the instance. -/
def RoutingRow.instancePoint (r : RoutingRow) : UInt32 × UInt32 := (r.instanceId, r.pointId)

theorem eq_of_target (hkeys : (rows.map RoutingRow.instancePoint).Nodup) {r' : RoutingRow}
    (hr : r ∈ rows) (hr' : r' ∈ rows) (h : r.target = r'.target) : r = r' := by
  refine inj_on_of_nodup_map hkeys hr hr' (Prod.ext ?_ ?_)
  · exact UInt32.toNat_inj.mp (congrArg C2MTarget.instanceId h)
  · exact UInt32.toNat_inj.mp (congrArg C2MTarget.pointId h)

section Lookups

variable (hrows : ∀ r ∈ rows, r.ChannelBound) (hload : loadC2mRoutes nulls rows = some map)
  (entries : Entries map) (m2cData : List (String × String)) {cp : ChannelPoint}
include hrows hload

theorem c2m_of_lastBound (hlast : lastBound rows cp = some last) :
    (buildTables entries.list m2cData).c2m (routeKey cp) = some last.target := by
  rw [buildTables_c2m]
  refine insertAll_of_unique
    ((mem_parsed_iff hrows hload entries).mpr ⟨cp, last, hlast, rfl⟩) fun target hmem => ?_
  obtain ⟨cp', last', hlast', heq⟩ := (mem_parsed_iff hrows hload entries).mp hmem
  obtain ⟨hkey, rfl⟩ := Prod.ext_iff.mp heq
  obtain rfl := routeKey_injective hkey
  rw [some.inj (hlast'.symm.trans hlast)]

theorem mem_reversed_iff (hkeys : (rows.map RoutingRow.instancePoint).Nodup) (hr : r ∈ rows)
    {key : StructuredRouteKey} :
    ((r.target.instanceId, r.target.pointId), key) ∈
        (entries.list.filterMap parseC2mEntry).map reversed ↔
      ∃ cp, lastBound rows cp = some r ∧ key = routeKey cp := by
  rw [List.mem_map]
  constructor
  · rintro ⟨route, hmem, heq⟩
    obtain ⟨cp, last, hlast, rfl⟩ := (mem_parsed_iff hrows hload entries).mp hmem
    obtain ⟨htarget, rfl⟩ := Prod.ext_iff.mp heq
    obtain ⟨hi, hp⟩ := Prod.ext_iff.mp htarget
    have hlast_eq : last = r := by
      refine eq_of_target hkeys (bound_of_lastBound hlast).1 hr ?_
      rw [RoutingRow.target, RoutingRow.target, C2MTarget.mk.injEq]
      exact ⟨hi, hp⟩
    exact ⟨cp, hlast_eq ▸ hlast, rfl⟩
  rintro ⟨cp, hlast, rfl⟩
  exact ⟨_, (mem_parsed_iff hrows hload entries).mpr ⟨cp, r, hlast, rfl⟩, rfl⟩

theorem c2mReverse_of_bound (hkeys : (rows.map RoutingRow.instancePoint).Nodup) (hr : r ∈ rows)
    (hcp : r.bound = some cp) (hlast : lastBound rows cp = some last) :
    (buildTables entries.list m2cData).c2mReverse (r.target.instanceId, r.target.pointId) =
      if r = last then some (routeKey cp) else none := by
  have hmem : ∀ key, ((r.target.instanceId, r.target.pointId), key) ∈
      (entries.list.filterMap parseC2mEntry).map reversed ↔
        ∃ cp, lastBound rows cp = some r ∧ key = routeKey cp :=
    fun _ => mem_reversed_iff hrows hload entries hkeys hr
  -- a row is read last on its own channel point or on none
  have hown : ∀ cp', lastBound rows cp' = some r → cp' = cp := fun cp' h =>
    some.inj ((bound_of_lastBound h).2.symm.trans hcp)
  rw [buildTables_c2mReverse]
  split
  · rename_i heq
    subst heq
    refine insertAll_of_unique ((hmem _).mpr ⟨cp, hlast, rfl⟩) fun key hkey => ?_
    obtain ⟨cp', hlast', rfl⟩ := (hmem _).mp hkey
    rw [hown cp' hlast']
  rename_i hne
  rw [insertAll_of_notMem]
  intro hin
  obtain ⟨⟨_, key⟩, hkey, rfl⟩ := List.mem_map.mp hin
  obtain ⟨cp', hlast', rfl⟩ := (hmem _).mp hkey
  rw [hown cp' hlast'] at hlast'
  exact hne (some.inj (hlast'.symm.trans hlast))

end Lookups

theorem loadC2mRoutes_of_loadRoutingMaps {order : RowOrder} {measurement action : List RoutingRow}
    {maps : RoutingMaps} (h : loadRoutingMaps nulls order measurement action = some maps) :
    loadC2mRoutes nulls (order.enabled measurement) = some maps.c2m := by
  simp only [loadRoutingMaps, bind_eq_bind, bind_eq_some_iff] at h
  obtain ⟨c2m, hc2m, m2c, -, heq⟩ := h
  cases heq
  exact hc2m

/-- **Both directions of the C2M table after a load.**  The channel point of each row leads to the
row read last on it, and that row is the one that leads back. -/
theorem lookups_of_load (nulls : NullDecoding) (order : RowOrder) (measurement : List RoutingRow)
    (hrows : ∀ r ∈ measurement, r.enabled = true ∧ r.ChannelBound)
    (hkeys : (measurement.map RoutingRow.instancePoint).Nodup) :
    (loadC2mRoutes nulls (order.enabled measurement)).isSome ∧
      ∀ action maps, loadRoutingMaps nulls order measurement action = some maps →
      ∀ (c2m : Entries maps.c2m) (m2c : Entries maps.m2c), ∀ r ∈ measurement, ∀ cp,
        r.bound = some cp →
      ∃ last, lastBound (order.enabled measurement) cp = some last ∧
        (fromMaps c2m m2c).lookupC2mByParts cp.channelId cp.pointType cp.pointId =
          some last.target ∧
        (fromMaps c2m m2c).lookupC2mReverse r.instanceId.toNat r.pointId.toNat =
          if r = last then some (routeKey cp) else none := by
  have hbound : ∀ r ∈ order.enabled measurement, r.ChannelBound := fun r hr =>
    (hrows r (RowOrder.mem_enabled.mp hr).1).2
  have hnodup : ((order.enabled measurement).map RoutingRow.instancePoint).Nodup :=
    ((order.perm _).map _).nodup_iff.mpr (hkeys.sublist (filter_sublist.map _))
  refine ⟨loadC2mRoutes_isSome hbound, fun action maps hmaps c2m m2c r hr cp hcp => ?_⟩
  have hload := loadC2mRoutes_of_loadRoutingMaps hmaps
  have hread : r ∈ order.enabled measurement := RowOrder.mem_enabled.mpr ⟨hr, (hrows r hr).1⟩
  obtain ⟨last, hlast⟩ := exists_lastBound hread hcp
  exact ⟨last, hlast, c2m_of_lastBound hbound hload c2m m2c.list hlast,
    c2mReverse_of_bound hbound hload c2m m2c.list hnodup hread hcp hlast⟩

private def tableOrder : RowOrder := ⟨fun rows => rows, fun rows => .refl rows⟩

private def row (pointId channelPointId : UInt32) : RoutingRow :=
  ⟨1, "meter", pointId, some 5, some "T", some channelPointId, true⟩

private theorem row_bound (pointId channelPointId : UInt32) :
    (row pointId channelPointId).enabled = true ∧ (row pointId channelPointId).ChannelBound := by
  refine ⟨rfl, rfl, fun c hc => ?_⟩
  cases hc
  decide

/-- Two rows on different channel points. -/
theorem lookups_of_two_points :
    ∃ last, lastBound (tableOrder.enabled [row 1 1, row 2 2]) ⟨5, .telemetry, 1⟩ = some last ∧
      (buildTables [("5:T:1", "1:M:1"), ("5:T:2", "1:M:2")] []).lookupC2mByParts 5 .telemetry 1 =
        some last.target ∧
      (buildTables [("5:T:1", "1:M:1"), ("5:T:2", "1:M:2")] []).lookupC2mReverse 1 1 =
        if row 1 1 = last then some (5, .telemetry, 1) else none :=
  (lookups_of_load ⟨none, none⟩ tableOrder [row 1 1, row 2 2] (by simp [row_bound]) (by decide)).2
    [] _ rfl ((Entries.empty.insert "5:T:1" "1:M:1").insert "5:T:2" "1:M:2") .empty (row 1 1)
    (.head _) ⟨5, .telemetry, 1⟩ rfl

/-- Two rows on one channel point: the first is not in the reverse table. -/
theorem shared_point_drops_row :
    (∀ r ∈ [row 1 1, row 2 1], r.enabled = true ∧ r.ChannelBound) ∧
      ([row 1 1, row 2 1].map RoutingRow.instancePoint).Nodup ∧
      ∃ maps, loadRoutingMaps ⟨none, none⟩ tableOrder [row 1 1, row 2 1] [] = some maps ∧
        ∃ (c2m : Entries maps.c2m) (m2c : Entries maps.m2c),
          (row 1 1).bound = some ⟨5, .telemetry, 1⟩ ∧
          (fromMaps c2m m2c).lookupC2mReverse 1 1 = none ∧
          (fromMaps c2m m2c).lookupC2mByParts 5 .telemetry 1 = some ⟨1, 2⟩ := by
  exact ⟨by simp [row_bound], by decide, _, rfl,
    (Entries.empty.insert "5:T:1" "1:M:1").insert "5:T:1" "1:M:2", Entries.empty, rfl, rfl, rfl⟩

end VoltageEMS.Routing
