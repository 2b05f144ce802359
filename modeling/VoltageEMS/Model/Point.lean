import VoltageEMS.Lib.Basic

/-!
# Points, routes and Redis keys

The vocabulary the services share.
-/

namespace VoltageEMS

/-- `PointType`: telemetry and signal come from devices, control and adjustment go to them. -/
inductive PointType
  | telemetry
  | signal
  | control
  | adjustment
deriving DecidableEq, Repr

namespace PointType

/-- `as_str`. -/
def asStr : PointType → String
  | telemetry => "T"
  | signal => "S"
  | control => "C"
  | adjustment => "A"

/-- `to_u8`. -/
def toU8 : PointType → Nat
  | telemetry => 0
  | signal => 1
  | control => 2
  | adjustment => 3

/-- `from_u8`. -/
def fromU8 : Nat → Option PointType
  | 0 => some telemetry
  | 1 => some signal
  | 2 => some control
  | 3 => some adjustment
  | _ => none

/-- `from_str`: the letter of a type or its two-letter code, in any case. -/
def fromStr (s : String) : Option PointType :=
  if s ∈ ["T", "t", "YC", "yc", "Yc", "yC"] then some telemetry
  else if s ∈ ["S", "s", "YX", "yx", "Yx", "yX"] then some signal
  else if s ∈ ["C", "c", "YK", "yk", "Yk", "yK"] then some control
  else if s ∈ ["A", "a", "YT", "yt", "Yt", "yT"] then some adjustment
  else none

/-- `is_measurement`. -/
def isMeasurement : PointType → Bool
  | telemetry | signal => true
  | control | adjustment => false

/-- `is_action`. -/
def isAction : PointType → Bool
  | telemetry | signal => false
  | control | adjustment => true

@[simp] theorem fromStr_asStr (t : PointType) : fromStr t.asStr = some t := by cases t <;> decide

theorem toU8_lt (t : PointType) : t.toU8 < 4 := by cases t <;> decide

end PointType

/-- The address of a channel point. -/
structure ChannelPoint where
  channelId : Nat
  pointType : PointType
  pointId : Nat
deriving DecidableEq, Repr

/-- `PointWatchEvent`: the value of a watched slot, from comsrv to modsrv. -/
structure PointWatchEvent where
  channelId : Nat
  pointId : Nat
  pointType : PointType
  value : Float
  raw : Float
  slotIndex : Nat
  timestampMs : Nat
  producerId : Nat
deriving DecidableEq

/-- The point it is about. -/
def PointWatchEvent.source (ev : PointWatchEvent) : ChannelPoint :=
  ⟨ev.channelId, ev.pointType, ev.pointId⟩

/-- `C2MTarget`: the instance measurement point a channel point feeds. -/
structure C2MTarget where
  instanceId : Nat
  pointId : Nat
deriving DecidableEq, Repr

/-- `RoutingCache`, the table of C2M routes. -/
structure RoutingCache where
  c2m : List (ChannelPoint × C2MTarget)
  c2m_nodup : (c2m.map Prod.fst).Nodup

namespace RoutingCache

/-- `lookup_c2m_by_parts`. -/
def lookupC2m (rc : RoutingCache) (cp : ChannelPoint) : Option C2MTarget :=
  (rc.c2m.find? (fun e => e.1 == cp)).map Prod.snd

theorem lookupC2m_eq_some_iff {rc : RoutingCache} {cp : ChannelPoint} {t : C2MTarget} :
    rc.lookupC2m cp = some t ↔ (cp, t) ∈ rc.c2m := by
  simp only [lookupC2m, Option.map_eq_some_iff, Lib.find?_key_eq_some_iff rc.c2m_nodup]
  constructor
  · rintro ⟨⟨cp', t'⟩, ⟨hmem, rfl⟩, rfl⟩
    exact hmem
  intro hmem
  exact ⟨_, ⟨hmem, rfl⟩, rfl⟩

end RoutingCache

/-- `ValidationConfig`, with its defaults. -/
structure ValidationConfig where
  rejectNan : Bool := true
  rejectInfinity : Bool := true
  maxAbsValue : Option Float := none

/-- `ValueValidationError`. -/
inductive ValueValidationError
  | nan
  | infinity
  | outOfRange (value max : Float)
deriving DecidableEq

/-- `validate_value`. -/
def validateValue (value : Float) (config : ValidationConfig) :
    Except ValueValidationError Float :=
  if config.rejectNan && value.isNaN then .error .nan
  else if config.rejectInfinity && value.isInf then .error .infinity
  else
    match config.maxAbsValue with
    | some max => if value.abs > max then .error (.outOfRange value max) else .ok value
    | none => .ok value

/-- The part of `TransformConfig` for values read. -/
structure TransformConfig where
  scale : Float := 1
  offset : Float := 0
  reverse : Bool := false

/-- `apply`. -/
def TransformConfig.apply (t : TransformConfig) (raw : Float) : Float := raw * t.scale + t.offset

/-- `apply_bool`. -/
def TransformConfig.applyBool (t : TransformConfig) (raw : Bool) : Bool :=
  if t.reverse then !raw else raw

namespace KeySpace

/-- `data_prefix`. -/
def dataPrefix : String := "comsrv"

/-- `inst_prefix`. -/
def instPrefix : String := "inst"

/-- `channel_key`. -/
def channelKey (channelId : Nat) (t : PointType) : String :=
  dataPrefix ++ ":" ++ toString channelId ++ ":" ++ t.asStr

/-- `channel_ts_key`. -/
def channelTsKey (channelId : Nat) (t : PointType) : String :=
  dataPrefix ++ ":" ++ toString channelId ++ ":" ++ t.asStr ++ ":ts"

/-- `channel_raw_key`. -/
def channelRawKey (channelId : Nat) (t : PointType) : String :=
  dataPrefix ++ ":" ++ toString channelId ++ ":" ++ t.asStr ++ ":raw"

/-- `instance_measurement_key`. -/
def instanceMeasurementKey (instanceId : Nat) : String :=
  instPrefix ++ ":" ++ toString instanceId ++ ":M"

/-- `instance_action_key`. -/
def instanceActionKey (instanceId : Nat) : String :=
  instPrefix ++ ":" ++ toString instanceId ++ ":A"

/-- `instance_measurement_ts_key`. -/
def instanceMeasurementTsKey (instanceId : Nat) : String :=
  instPrefix ++ ":" ++ toString instanceId ++ ":M:ts"

/-- `c2m_route_key`. -/
def c2mRouteKey (cp : ChannelPoint) : String :=
  toString cp.channelId ++ ":" ++ cp.pointType.asStr ++ ":" ++ toString cp.pointId

theorem instanceMeasurementKey_inj {i j : Nat}
    (h : instanceMeasurementKey i = instanceMeasurementKey j) : i = j := by
  have h' := congrArg String.toList h
  simp only [instanceMeasurementKey, instPrefix, String.toList_append, List.append_assoc,
    List.append_cancel_left_eq] at h'
  have hdigits : Nat.toDigits 10 i ++ ':' :: ['M'] = Nat.toDigits 10 j ++ ':' :: ['M'] := by
    simpa using h'
  exact Lib.toDigits_inj (List.append_cancel_right hdigits)

theorem instanceMeasurementKey_ne_channelKey (i channelId : Nat) (t : PointType) :
    instanceMeasurementKey i ≠ channelKey channelId t := by
  intro h
  have h' := congrArg String.toList h
  simp [instanceMeasurementKey, instPrefix, channelKey, dataPrefix, String.toList_append] at h'

theorem instanceMeasurementKey_ne_channelRawKey (i channelId : Nat) (t : PointType) :
    instanceMeasurementKey i ≠ channelRawKey channelId t := by
  intro h
  have h' := congrArg String.toList h
  simp [instanceMeasurementKey, instPrefix, channelRawKey, dataPrefix, String.toList_append] at h'

end KeySpace

end VoltageEMS
