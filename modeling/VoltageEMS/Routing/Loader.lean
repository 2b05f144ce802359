import VoltageEMS.Model.Point

/-!
# The routing loader

`voltage-routing/src/loader.rs`: the enabled rows of `measurement_routing` become the C2M map, those
of `action_routing` the M2C map.
-/

namespace VoltageEMS.Routing

open Lib List Option

/-- A row of `measurement_routing` or `action_routing`, with `measurement_id` or `action_id` as
`pointId`. -/
structure RoutingRow where
  instanceId : UInt32
  instanceName : String
  pointId : UInt32
  channelId : Option Int32
  channelType : Option String
  channelPointId : Option UInt32
  enabled : Bool
deriving DecidableEq

/-- What a NULL decodes to, if it does. -/
structure NullDecoding where
  u32 : Option Nat
  text : Option String

/-- A row as its types read it. -/
structure DecodedRow where
  instanceId : Nat
  pointId : Nat
  channelId : Nat
  channelType : String
  channelPointId : Nat

variable (nulls : NullDecoding)

namespace RoutingRow

/-- A column read as `u32`. -/
def decodeU32 : Option Int → Option Nat
  | none => nulls.u32
  | some n => if 0 ≤ n ∧ n < 2 ^ 32 then some n.toNat else none

/-- A column read as text. -/
def decodeText : Option String → Option String
  | none => nulls.text
  | some s => some s

/-- `query_as`. -/
def decode (r : RoutingRow) : Option DecodedRow := do
  let channelId ← decodeU32 nulls (r.channelId.map Int32.toInt)
  let channelType ← decodeText nulls r.channelType
  let channelPointId ← decodeU32 nulls (r.channelPointId.map fun n => (n.toNat : Int))
  pure ⟨r.instanceId.toNat, r.pointId.toNat, channelId, channelType, channelPointId⟩

end RoutingRow

/-- The channel point, if the type is one. -/
def DecodedRow.point (d : DecodedRow) : Option ChannelPoint :=
  (PointType.fromStr d.channelType).map fun t => ⟨d.channelId, t, d.channelPointId⟩

/-- An entry of the C2M map. -/
def c2mEntry (d : DecodedRow) : Option (String × String) :=
  d.point.map fun cp => (KeySpace.c2mRouteKey cp, tripleKey d.instanceId "M" d.pointId)

/-- An entry of the M2C map. -/
def m2cEntry (d : DecodedRow) : Option (String × String) :=
  d.point.map fun cp => (tripleKey d.instanceId "A" d.pointId, KeySpace.c2mRouteKey cp)

/-- Later rows replace earlier ones. -/
def loadRoutes (entry : DecodedRow → Option (String × String))
    (rows : List RoutingRow) : Option (String → Option String) := do
  let decoded ← rows.mapM (RoutingRow.decode nulls)
  pure (insertAll (fun _ => none) (decoded.filterMap entry))

/-- `load_c2m_routes`. -/
def loadC2mRoutes (rows : List RoutingRow) : Option (String → Option String) :=
  loadRoutes nulls c2mEntry rows

/-- `load_m2c_routes`. -/
def loadM2cRoutes (rows : List RoutingRow) : Option (String → Option String) :=
  loadRoutes nulls m2cEntry rows

/-- The maps of `RoutingMaps`; C2C routes come from another table. -/
structure RoutingMaps where
  c2m : String → Option String
  m2c : String → Option String

/-- The order in which the database returns the rows of a query without `ORDER BY`. -/
structure RowOrder where
  read : List RoutingRow → List RoutingRow
  perm : ∀ rows, (read rows).Perm rows

/-- `SELECT … WHERE enabled = TRUE`. -/
def RowOrder.enabled (order : RowOrder) (table : List RoutingRow) : List RoutingRow :=
  order.read (table.filter RoutingRow.enabled)

/-- `load_routing_maps`. -/
def loadRoutingMaps (order : RowOrder) (measurement action : List RoutingRow) :
    Option RoutingMaps := do
  let c2m ← loadC2mRoutes nulls (order.enabled measurement)
  let m2c ← loadM2cRoutes nulls (order.enabled action)
  pure ⟨c2m, m2c⟩

/-! ## What is loaded -/

/-- The channel point of a full row. -/
def RoutingRow.bound (r : RoutingRow) : Option ChannelPoint := do
  let channelId ← r.channelId
  let channelType ← r.channelType
  let channelPointId ← r.channelPointId
  let t ← PointType.fromStr channelType
  pure ⟨channelId.toInt.toNat, t, channelPointId.toNat⟩

/-- The channel point it is read with. -/
def RoutingRow.point (r : RoutingRow) : Option ChannelPoint :=
  (r.decode nulls).bind DecodedRow.point

/-- A NULL fails its load. -/
def RoutingRow.NullRefused (r : RoutingRow) : Prop :=
  (r.channelId = none ∧ nulls.u32 = none) ∨ (r.channelType = none ∧ nulls.text = none) ∨
    (r.channelPointId = none ∧ nulls.u32 = none)

/-- Its instance point as text. -/
def RoutingRow.instanceKey (letter : String) (r : RoutingRow) : String :=
  tripleKey r.instanceId.toNat letter r.pointId.toNat

variable {r : RoutingRow}

theorem RowOrder.mem_enabled {order : RowOrder} {table : List RoutingRow} :
    r ∈ order.enabled table ↔ r ∈ table ∧ r.enabled = true := by
  rw [RowOrder.enabled, (order.perm _).mem_iff, mem_filter]

variable {nulls : NullDecoding} {rows : List RoutingRow}

theorem decodeU32_channelId {c : Int32} (hc : 0 ≤ c.toInt) :
    RoutingRow.decodeU32 nulls (some c.toInt) = some c.toInt.toNat := by
  have hlt : c.toInt < 2 ^ 31 := c.toInt_lt
  rw [RoutingRow.decodeU32, if_pos (by omega)]

theorem decodeU32_channelPointId (p : UInt32) :
    RoutingRow.decodeU32 nulls (some (p.toNat : Int)) = some p.toNat := by
  have hlt : p.toNat < 2 ^ 32 := p.toNat_lt
  rw [RoutingRow.decodeU32, if_pos (by omega), Int.toNat_natCast]

theorem point_of_bound {cp : ChannelPoint} (hid : ∀ c, r.channelId = some c → 0 ≤ c.toInt)
    (hcp : r.bound = some cp) : r.point nulls = some cp := by
  simp only [RoutingRow.bound, bind_eq_bind, bind_eq_some_iff] at hcp
  obtain ⟨c, hc, s, hs, p, hp, t, ht, heq⟩ := hcp
  cases heq
  simp only [RoutingRow.point, RoutingRow.decode, hc, hp, hs, map_some,
    decodeU32_channelId (hid c hc), decodeU32_channelPointId, RoutingRow.decodeText,
    bind_eq_bind, bind_some, Option.pure_def, DecodedRow.point, ht]

theorem loadRoutes_eq {entry : DecodedRow → Option (String × String)}
    {map : String → Option String} :
    loadRoutes nulls entry rows = some map ↔
      (∀ r ∈ rows, (r.decode nulls).isSome) ∧
        map = insertAll (fun _ => none) (rows.filterMap fun r => (r.decode nulls).bind entry) := by
  simp only [loadRoutes, bind_eq_bind, bind_eq_some_iff, mapM_eq_some_iff]
  constructor
  · rintro ⟨_, ⟨hall, rfl⟩, h⟩
    exact ⟨hall, by rw [← some.inj h, filterMap_filterMap]⟩
  rintro ⟨hall, rfl⟩
  exact ⟨_, ⟨hall, rfl⟩, by rw [filterMap_filterMap]; rfl⟩

theorem colon_notMem_asStr (t : PointType) : ':' ∉ t.asStr.toList := by cases t <;> decide

theorem c2mRouteKey_inj {cp cp' : ChannelPoint}
    (h : KeySpace.c2mRouteKey cp = KeySpace.c2mRouteKey cp') : cp = cp' := by
  obtain ⟨c, t, p⟩ := cp
  obtain ⟨c', t', p'⟩ := cp'
  obtain ⟨rfl, ht, rfl⟩ := tripleKey_inj (colon_notMem_asStr t) (colon_notMem_asStr t') h
  have htype : PointType.fromStr t.asStr = PointType.fromStr t'.asStr := congrArg _ ht
  rw [PointType.fromStr_asStr, PointType.fromStr_asStr] at htype
  cases htype
  rfl

theorem decode_ids {d : DecodedRow} (h : r.decode nulls = some d) :
    d.instanceId = r.instanceId.toNat ∧ d.pointId = r.pointId.toNat := by
  simp only [RoutingRow.decode, bind_eq_bind, bind_eq_some_iff] at h
  obtain ⟨_, -, _, -, _, -, heq⟩ := h
  cases heq
  exact ⟨rfl, rfl⟩

theorem c2mEntries_eq (rows : List RoutingRow) :
    (rows.filterMap fun r => (r.decode nulls).bind c2mEntry) =
      (rows.filterMap fun r => (r.point nulls).map fun cp => (cp, r)).map fun e =>
        (KeySpace.c2mRouteKey e.1, e.2.instanceKey "M") := by
  rw [map_filterMap]
  refine filterMap_congr fun r _ => ?_
  cases hd : r.decode nulls with
  | none => simp [RoutingRow.point, hd]
  | some d =>
    obtain ⟨hi, hp⟩ := decode_ids hd
    cases hcp : d.point <;> simp [RoutingRow.point, hd, hcp, c2mEntry, RoutingRow.instanceKey, hi, hp]

theorem m2cEntries_eq (rows : List RoutingRow) :
    (rows.filterMap fun r => (r.decode nulls).bind m2cEntry) =
      (rows.filterMap fun r => (r.point nulls).map fun cp => ((r.instanceId, r.pointId), cp)).map
        fun e => (tripleKey e.1.1.toNat "A" e.1.2.toNat, KeySpace.c2mRouteKey e.2) := by
  rw [map_filterMap]
  refine filterMap_congr fun r _ => ?_
  cases hd : r.decode nulls with
  | none => simp [RoutingRow.point, hd]
  | some d =>
    obtain ⟨hi, hp⟩ := decode_ids hd
    cases hcp : d.point <;> simp [RoutingRow.point, hd, hcp, m2cEntry, hi, hp]

theorem filter_point (point : RoutingRow → Option ChannelPoint) (rows : List RoutingRow)
    (cp : ChannelPoint) :
    ((rows.filterMap fun r => (point r).map fun cp => (cp, r)).filter fun e => e.1 = cp) =
      (rows.filter fun r => point r = some cp).map fun r => (cp, r) := by
  induction rows with
  | nil => rfl
  | cons r rows ih =>
    cases hr : point r with
    | none => simp [hr, ih]
    | some cp' =>
      by_cases h : cp' = cp
      · subst h
        simp [hr, ih]
      · simp [hr, h, ih]

theorem c2m_eq_getLast (rows : List RoutingRow) (cp : ChannelPoint) :
    insertAll (fun _ => none) (rows.filterMap fun r => (r.decode nulls).bind c2mEntry)
        (KeySpace.c2mRouteKey cp) =
      ((rows.filter fun r => r.point nulls = some cp).getLast?).map (RoutingRow.instanceKey "M") := by
  rw [c2mEntries_eq, insertAll_map (fun _ _ => c2mRouteKey_inj), insertAll_eq_getLast,
    filter_point, getLast?_map]
  simp only [or_none, Option.map_map, Function.comp_def]

end VoltageEMS.Routing
