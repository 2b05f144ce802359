import VoltageEMS.Modsrv.RoutingApi

/-!
# What the routing calls leave behind always loads

Whatever calls changed the tables, the routes load, up to the one thing the repository does not
decide: what the driver makes of a NULL that is read as a number or a text.
-/

namespace VoltageEMS.Modsrv.RoutingApi

open Lib Routing List Option

/-! ## Rows -/

section Rows

variable {nulls : NullDecoding} {channels : List UInt32} {instances : List Instance}
  {role : PointRole} {r : RoutingRow}

theorem channelId_nonneg (h : admits channels instances role r = true) {c : Int32}
    (hc : r.channelId = some c) : 0 ≤ c.toInt := by
  simp only [admits, Bool.and_eq_true, Bool.or_eq_true, hc, isNone_some,
    Bool.false_eq_true, false_or] at h
  obtain ⟨ch, -, href⟩ := List.any_eq_true.mp h.1.1
  have hint : c.toInt = (ch.toNat : Int) := by simpa [refersTo, hc] using href
  omega

theorem decode_isSome_iff (h : admits channels instances role r = true) :
    (r.decode nulls).isSome ↔ ¬ r.NullRefused nulls := by
  have hid : (RoutingRow.decodeU32 nulls (r.channelId.map Int32.toInt)).isSome ↔
      ¬ (r.channelId = none ∧ nulls.u32 = none) := by
    cases hc : r.channelId with
    | none => simp [RoutingRow.decodeU32, isSome_iff_ne_none]
    | some c => simp [decodeU32_channelId (channelId_nonneg h hc)]
  have htext : (RoutingRow.decodeText nulls r.channelType).isSome ↔
      ¬ (r.channelType = none ∧ nulls.text = none) := by
    cases r.channelType <;> simp [RoutingRow.decodeText, isSome_iff_ne_none]
  have hpoint : (RoutingRow.decodeU32 nulls
        (r.channelPointId.map fun n => (n.toNat : Int))).isSome ↔
      ¬ (r.channelPointId = none ∧ nulls.u32 = none) := by
    cases hp : r.channelPointId with
    | none => simp [RoutingRow.decodeU32, isSome_iff_ne_none]
    | some p => simp [decodeU32_channelPointId]
  rw [RoutingRow.NullRefused, not_or, not_or, ← hid, ← htext, ← hpoint]
  simp only [RoutingRow.decode, bind_eq_bind, Option.pure_def]
  cases RoutingRow.decodeU32 nulls (r.channelId.map Int32.toInt) <;>
    cases RoutingRow.decodeText nulls r.channelType <;>
    cases RoutingRow.decodeU32 nulls (r.channelPointId.map fun n => (n.toNat : Int)) <;> simp

end Rows

/-! ## Maps -/

section Maps

variable {env : Env} {db : Db} {maps : RoutingMaps}

theorem load_eq_some_iff :
    load env db = some maps ↔
      (∀ role, ∀ r ∈ db.rows role, r.enabled = true → (r.decode env.nulls).isSome) ∧
      maps.c2m = insertAll (fun _ => none) ((env.order.enabled (db.rows .measurement)).filterMap
        fun r => (r.decode env.nulls).bind c2mEntry) ∧
      maps.m2c = insertAll (fun _ => none) ((env.order.enabled (db.rows .action)).filterMap
        fun r => (r.decode env.nulls).bind m2cEntry) := by
  simp only [load, loadRoutingMaps, loadC2mRoutes, loadM2cRoutes, bind_eq_bind,
    bind_eq_some_iff, loadRoutes_eq, RowOrder.mem_enabled, and_imp]
  constructor
  · rintro ⟨c2m, ⟨hm, hc2m⟩, m2c, ⟨ha, hm2c⟩, heq⟩
    cases heq
    refine ⟨fun role => ?_, hc2m, hm2c⟩
    cases role with
    | measurement => exact hm
    | action => exact ha
  rintro ⟨hall, hc2m, hm2c⟩
  exact ⟨_, ⟨hall .measurement, hc2m⟩, _, ⟨hall .action, hm2c⟩, rfl⟩

theorem m2cKey_injective :
    Function.Injective fun k : UInt32 × UInt32 => tripleKey k.1.toNat "A" k.2.toNat := by
  intro k k' h
  obtain ⟨hi, -, hp⟩ := tripleKey_inj (by decide) (by decide) h
  exact Prod.ext (UInt32.toNat_inj.mp hi) (UInt32.toNat_inj.mp hp)

/-- What the load makes of the tables. -/
structure Loaded (env : Env) (db : Db) : Prop where
  /-- Of all a row can hold, only a NULL that the driver refuses fails the load. -/
  fails_iff : load env db = none ↔
    ∃ role, ∃ r ∈ db.rows role, r.enabled = true ∧ r.NullRefused env.nulls
  /-- Every enabled and bound action row is in the M2C map. -/
  m2c : ∀ maps, load env db = some maps → ∀ r ∈ db.rows .action, r.enabled = true →
    ∀ cp, r.bound = some cp → maps.m2c (r.instanceKey "A") = some (KeySpace.c2mRouteKey cp)
  /-- The channel point of every enabled and bound measurement row is in the C2M map, with the last
  row read of those taken for it. -/
  c2m : ∀ maps, load env db = some maps → ∀ r ∈ db.rows .measurement, r.enabled = true →
    ∀ cp, r.bound = some cp → ∃ last,
      ((env.order.enabled (db.rows .measurement)).filter fun e =>
        e.point env.nulls = some cp).getLast? = some last ∧
      maps.c2m (KeySpace.c2mRouteKey cp) = some (last.instanceKey "M")

theorem load_eq_none_iff :
    load env db = none ↔
      ∃ role, ∃ r ∈ db.rows role, r.enabled = true ∧ r.NullRefused env.nulls := by
  have hdecode : (∀ role, ∀ r ∈ db.rows role, r.enabled = true → (r.decode env.nulls).isSome) ↔
      ∀ role, ∀ r ∈ db.rows role, r.enabled = true → ¬ r.NullRefused env.nulls :=
    forall₃_congr fun role r hr => imp_congr_right fun _ => decode_isSome_iff (db.admitted role r hr)
  have hsome : (∃ maps, load env db = some maps) ↔
      ∀ role, ∀ r ∈ db.rows role, r.enabled = true → ¬ r.NullRefused env.nulls := by
    rw [← hdecode]
    constructor
    · rintro ⟨maps, h⟩
      exact (load_eq_some_iff.mp h).1
    intro h
    exact ⟨⟨_, _⟩, load_eq_some_iff.mpr ⟨h, rfl, rfl⟩⟩
  rw [← not_isSome_iff_eq_none, isSome_iff_exists, hsome]
  push Not
  rfl

variable {cp : ChannelPoint}

theorem m2c_of_bound (h : load env db = some maps) {r : RoutingRow} (hr : r ∈ db.rows .action)
    (henabled : r.enabled = true) (hcp : r.bound = some cp) :
    maps.m2c (r.instanceKey "A") = some (KeySpace.c2mRouteKey cp) := by
  have hpoint : r.point env.nulls = some cp :=
    point_of_bound (fun _ hc => channelId_nonneg (db.admitted .action r hr) hc) hcp
  have hlookup := insertAll_map m2cKey_injective KeySpace.c2mRouteKey
    ((env.order.enabled (db.rows .action)).filterMap fun r =>
      (r.point env.nulls).map fun cp => ((r.instanceId, r.pointId), cp)) (r.instanceId, r.pointId)
  rw [(load_eq_some_iff.mp h).2.2, m2cEntries_eq]
  refine hlookup.trans (congrArg _ (insertAll_of_unique (v := cp) ?_ ?_))
  · exact mem_filterMap.mpr ⟨r, RowOrder.mem_enabled.mpr ⟨hr, henabled⟩, by rw [hpoint]; rfl⟩
  -- an action point has one row
  intro cp' hmem
  obtain ⟨r', hr', heq⟩ := mem_filterMap.mp hmem
  obtain ⟨cp'', hcp'', heq⟩ := map_eq_some_iff.mp heq
  obtain ⟨hkey, rfl⟩ := Prod.mk.inj heq
  obtain rfl : r' = r :=
    inj_on_of_nodup_map (db.unique .action) (RowOrder.mem_enabled.mp hr').1 hr hkey
  exact some.inj (hcp''.symm.trans hpoint)

theorem c2m_of_bound (h : load env db = some maps) {r : RoutingRow} (hr : r ∈ db.rows .measurement)
    (henabled : r.enabled = true) (hcp : r.bound = some cp) :
    ∃ last, ((env.order.enabled (db.rows .measurement)).filter fun e =>
        e.point env.nulls = some cp).getLast? = some last ∧
      maps.c2m (KeySpace.c2mRouteKey cp) = some (last.instanceKey "M") := by
  have hpoint : r.point env.nulls = some cp :=
    point_of_bound (fun _ hc => channelId_nonneg (db.admitted .measurement r hr) hc) hcp
  have hne : ((env.order.enabled (db.rows .measurement)).filter fun e =>
      e.point env.nulls = some cp) ≠ [] :=
    ne_nil_of_mem (mem_filter.mpr
      ⟨RowOrder.mem_enabled.mpr ⟨hr, henabled⟩, by simpa using hpoint⟩)
  refine ⟨_, getLast?_eq_some_getLast hne, ?_⟩
  rw [(load_eq_some_iff.mp h).2.1, c2m_eq_getLast, getLast?_eq_some_getLast hne]
  rfl

theorem loaded (env : Env) (db : Db) : Loaded env db where
  fails_iff := load_eq_none_iff
  m2c := fun _ h _ hr henabled _ hcp => m2c_of_bound h hr henabled hcp
  c2m := fun _ h _ hr henabled _ hcp => c2m_of_bound h hr henabled hcp

/-- **What the calls leave behind loads**: after any calls, the load fails only by a NULL the driver
refuses; otherwise every enabled and bound row is in its map, the last one read where several
measurement rows name one channel point. -/
theorem loaded_of_run (env : Env) (s : State) (calls : List Call) :
    Loaded env ((machine env).run s calls).db :=
  loaded env _

private def meterEnv : Env where
  products := fun _ => some ⟨[1, 2], []⟩
  nulls := ⟨none, none⟩
  order := ⟨id, fun _ => .refl _⟩

private def meterState : State where
  db := {
    channels := [5]
    instances := [⟨1, "meter", "Meter"⟩]
    rows := fun _ => []
    unique := fun _ => nodup_nil
    admitted := fun _ _ hr => nomatch hr }
  cache := ⟨fun _ => none, fun _ => none⟩

private def sharedCalls : List Call :=
  [.create 1 ⟨.measurement, 1, some 5, some .telemetry, some 1⟩,
    .create 1 ⟨.measurement, 2, some 5, some .telemetry, some 1⟩]

/-- Both calls succeed and the routes load, but the C2M map does not hold the first row. -/
theorem shared_point_keeps_last :
    (∀ reply ∈ (machine meterEnv).trace meterState sharedCalls, ∃ r, reply = .ok r) ∧
      ∃ maps, load meterEnv ((machine meterEnv).run meterState sharedCalls).db = some maps ∧
        ∃ r ∈ ((machine meterEnv).run meterState sharedCalls).db.rows .measurement,
          r.enabled = true ∧ r.bound = some ⟨5, .telemetry, 1⟩ ∧
            maps.c2m (KeySpace.c2mRouteKey ⟨5, .telemetry, 1⟩) ≠ some (r.instanceKey "M") := by
  refine ⟨?_, ⟨_, _⟩, rfl, ⟨1, "meter", 1, some 5, some "T", some 1, true⟩, .head _, rfl, rfl, ?_⟩
  · intro reply hreply
    rcases mem_cons.mp hreply with rfl | hreply
    · exact ⟨_, rfl⟩
    rcases mem_cons.mp hreply with rfl | hreply
    · exact ⟨_, rfl⟩
    · cases hreply
  · decide

end Maps

end VoltageEMS.Modsrv.RoutingApi
