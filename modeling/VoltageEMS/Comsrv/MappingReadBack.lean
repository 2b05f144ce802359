import VoltageEMS.Comsrv.PointMapping

/-!
# What a mapping is read back as

The check of a mapping and the conversion of a point read different fields of the same object.  On a
CAN channel an accepted mapping is configured as stated only if it gives its position a second time,
as `start_bit`, and spells its other fields as the converter expects.
-/

namespace VoltageEMS.Comsrv.Mapping

open Lib List Option

/-! ## Normalization, field by field -/

section Normalized

variable {parseF64 : String → Option Float} {protocol : String} {o o' : JsonObject}

/-- A number, if it can be one. -/
def normalizedValue (parseF64 : String → Option Float) (v : Json) : Json :=
  (toNumber parseF64 v).getD v

theorem normalizedValue_of_not_needsConversion {v : Json}
    (h : needsConversion parseF64 v = false) : normalizedValue parseF64 v = v := by
  cases v with
  | str s =>
    simp only [needsConversion, Bool.or_eq_false_iff, isSome_eq_false_iff,
      isNone_iff_eq_none] at h
    simp [normalizedValue, toNumber, h.1, h.2]
  | _ => rfl

theorem get_normalizeFields (fields : List String) (acc : JsonObject) (key : String) :
    (normalizeFields parseF64 o fields acc).get key =
      if key ∈ fields then ((o.get key).bind (toNumber parseF64)).or (acc.get key)
      else acc.get key := by
  induction fields generalizing acc with
  | nil => rfl
  | cons field fields ih =>
    rw [normalizeFields, ih]
    by_cases hkey : key = field
    · subst hkey
      cases hv : (o.get key).bind (toNumber parseF64) with
      | none => simp
      | some v => simp [JsonObject.get_insert]
    cases hv : (o.get field).bind (toNumber parseF64) with
    | none => simp [hkey]
    | some v => simp [JsonObject.get_insert, hkey]

/-- Every field of `o'` is the field of `o`, made a number if it is a numeric field. -/
def Normalized (parseF64 : String → Option Float) (protocol : String) (o o' : JsonObject) : Prop :=
  ∀ key, o'.get key = (o.get key).map fun v =>
    if key ∈ numericFields protocol then normalizedValue parseF64 v else v

theorem normalizeProtocolData_obj (parseF64 : String → Option Float) (protocol : String)
    (o : JsonObject) :
    ∃ o', normalizeProtocolData parseF64 protocol (.obj o) = .obj o' ∧
      Normalized parseF64 protocol o o' := by
  rw [normalizeProtocolData]
  split
  · refine ⟨normalizeFields parseF64 o (numericFields protocol) o, rfl, fun key => ?_⟩
    rw [get_normalizeFields]
    by_cases hkey : key ∈ numericFields protocol
    · cases hv : o.get key with
      | none => simp
      | some v => cases hn : toNumber parseF64 v <;> simp [hkey, normalizedValue, hn]
    · simp [hkey]
  rename_i hnone
  refine ⟨o, rfl, fun key => ?_⟩
  cases hv : o.get key with
  | none => rfl
  | some v =>
    by_cases hkey : key ∈ numericFields protocol
    · -- no numeric field is a text that reads as a number
      have hv' : needsConversion parseF64 v = false := by
        by_contra hconv
        refine hnone (List.any_eq_true.mpr ⟨key, hkey, ?_⟩)
        simpa [hv] using hconv
      simp [hkey, normalizedValue_of_not_needsConversion hv']
    · simp [hkey]

variable {key : String}

theorem Normalized.of_eq (h : Normalized parseF64 protocol o o') {v : Json}
    (hv : o.get key = some v) (hfix : normalizedValue parseF64 v = v) : o'.get key = some v := by
  rw [h key, hv, map_some, hfix, ite_self]

theorem Normalized.of_notMem (h : Normalized parseF64 protocol o o')
    (hkey : key ∉ numericFields protocol) : o'.get key = o.get key := by
  rw [h key]
  simp [hkey]

theorem Normalized.of_none (h : Normalized parseF64 protocol o o') (hv : o.get key = none) :
    o'.get key = none := by
  rw [h key, hv, map_none]

theorem storedMapping_obj (parseF64 : String → Option Float) (protocol : String)
    (hne : o ≠ []) :
    ∃ o', storedMapping parseF64 protocol (.obj o) = some (some (.obj o')) ∧
      Normalized parseF64 protocol o o' := by
  obtain ⟨o', heq, hnorm⟩ := normalizeProtocolData_obj parseF64 protocol o
  refine ⟨o', ?_, hnorm⟩
  unfold storedMapping
  rw [heq]
  cases o' with
  | cons => rfl
  | nil =>
    obtain ⟨⟨key, v⟩, o, rfl⟩ := exists_cons_of_ne_nil hne
    have := hnorm key
    simp [JsonObject.get] at this

end Normalized

/-! ## The points a converter yields -/

section Collect

variable {rc : RuntimeChannelConfig} {t : PointType} {b : Point}

/-- All points, with type and transformation. -/
def RuntimeChannelConfig.all (rc : RuntimeChannelConfig) :
    List (PointType × Point × TransformConfig) :=
  collectAll rc fun {P} [PointConvertible P] (points : List P) => points.map fun pt =>
    (PointConvertible.pointType P, PointConvertible.base pt, PointConvertible.transform pt)

theorem collectAll_filterMap {C : Type} (rc : RuntimeChannelConfig)
    (f : PointType → Point → TransformConfig → Option C) :
    collectAll rc (fun {P} [PointConvertible P] (points : List P) => points.filterMap fun pt =>
        f (PointConvertible.pointType P) (PointConvertible.base pt) (PointConvertible.transform pt)) =
      rc.all.filterMap fun e => f e.1 e.2.1 e.2.2 := by
  simp only [collectAll, RuntimeChannelConfig.all, filterMap_append, filterMap_map]
  rfl

theorem mem_points_of_mem_all {tr : TransformConfig} (h : (t, b, tr) ∈ rc.all) :
    b ∈ rc.points t := by
  simp only [RuntimeChannelConfig.all, collectAll, mem_append, List.mem_map] at h
  rcases h with ((⟨p, hp, he⟩ | ⟨p, hp, he⟩) | ⟨p, hp, he⟩) | ⟨p, hp, he⟩ <;> cases he <;>
    exact List.mem_map_of_mem hp

theorem exists_mem_all (h : b ∈ rc.points t) : ∃ tr, (t, b, tr) ∈ rc.all := by
  simp only [RuntimeChannelConfig.all, collectAll, mem_append, List.mem_map]
  cases t <;> obtain ⟨p, hp, rfl⟩ := List.mem_map.mp h
  · exact ⟨_, .inl (.inl (.inl ⟨p, hp, rfl⟩))⟩
  · exact ⟨_, .inl (.inl (.inr ⟨p, hp, rfl⟩))⟩
  · exact ⟨_, .inl (.inr ⟨p, hp, rfl⟩)⟩
  · exact ⟨_, .inr ⟨p, hp, rfl⟩⟩

theorem nodup_points (rc : RuntimeChannelConfig) (t : PointType) :
    ((rc.points t).map Point.pointId).Nodup := by
  cases t <;> rw [RuntimeChannelConfig.points, List.map_map]
  · exact rc.telemetry_nodup
  · exact rc.signal_nodup
  · exact rc.control_nodup
  · exact rc.adjustment_nodup

theorem eq_of_pointId {b' : Point} (hb : b ∈ rc.points t) (hb' : b' ∈ rc.points t)
    (h : b'.pointId = b.pointId) : b' = b :=
  inj_on_of_nodup_map (nodup_points rc t) hb' hb h

theorem exists_mem_collectAll_iff {C A : Type} (hb : b ∈ rc.points t)
    {f : PointType → Point → TransformConfig → Option C} (key : C → PointType × Nat) (addr : C → A)
    {read : Point → Option A}
    (hf : ∀ t b tr, (f t b tr).map (fun c => (key c, addr c)) =
      (read b).map fun a => ((t, b.pointId), a)) (Q : A → Prop) :
    (∃ c ∈ rc.all.filterMap fun e => f e.1 e.2.1 e.2.2, key c = (t, b.pointId) ∧ Q (addr c)) ↔
      ∃ a, read b = some a ∧ Q a := by
  constructor
  · rintro ⟨c, hc, hkey, hQ⟩
    obtain ⟨⟨t', b', tr⟩, hmem, hc⟩ := mem_filterMap.mp hc
    have hread := hf t' b' tr
    rw [hc, map_some] at hread
    obtain ⟨a, ha, heq⟩ := map_eq_some_iff.mp hread.symm
    obtain ⟨hkey', rfl⟩ := Prod.mk.inj heq
    obtain ⟨rfl, hid⟩ := Prod.mk.inj (hkey'.trans hkey)
    obtain rfl := eq_of_pointId hb (mem_points_of_mem_all hmem) hid
    exact ⟨_, ha, hQ⟩
  rintro ⟨a, ha, hQ⟩
  obtain ⟨tr, hmem⟩ := exists_mem_all hb
  have hread := hf t b tr
  rw [ha, map_some] at hread
  obtain ⟨c, hc, heq⟩ := map_eq_some_iff.mp hread
  obtain ⟨hkey, rfl⟩ := Prod.mk.inj heq
  exact ⟨c, mem_filterMap.mpr ⟨_, hmem, hc⟩, hkey, hQ⟩

end Collect

/-! ## Accepted mappings -/

/-- The kinds of channels compared. -/
inductive ChannelKind
  | modbus
  | can
deriving DecidableEq

/-- The kind of a protocol. -/
def channelKind (protocol : String) : Option ChannelKind :=
  if isModbusFamily protocol then some .modbus
  else if toLowercase protocol = "can" then some .can
  else none

/-- The check of the kind. -/
def ChannelKind.errors : ChannelKind → PointMappingItem → List String
  | modbus => modbusErrors
  | can => canErrors

variable {m : PointMappingItem}

theorem errors_of_accepted {protocol : String} {kind : ChannelKind}
    (hkind : channelKind protocol = some kind) {items : List PointMappingItem}
    (haccept : validateMappings protocol items = []) (hm : m ∈ items)
    (hne : isCleared m.protocolData = false) : kind.errors m = [] := by
  induction items with
  | nil => cases hm
  | cons e items ih =>
    have hstep : (isCleared e.protocolData = true ∨ kind.errors e = []) ∧
        validateMappings protocol items = [] := by
      rw [validateMappings] at haccept
      unfold channelKind at hkind
      by_cases hclear : isCleared e.protocolData = true
      · rw [if_pos hclear] at haccept
        exact ⟨.inl hclear, haccept⟩
      rw [if_neg hclear] at haccept
      split at hkind
      · rename_i hmodbus
        cases hkind
        rw [if_pos hmodbus, append_eq_nil_iff] at haccept
        exact ⟨.inr haccept.1, haccept.2⟩
      rename_i hmodbus
      split at hkind <;> cases hkind
      rename_i hcan
      simp only [hmodbus, hcan] at haccept
      obtain ⟨herr, hrest⟩ := append_eq_nil_iff.mp haccept
      exact ⟨.inr herr, hrest⟩
    rcases mem_cons.mp hm with rfl | hm
    · exact hstep.1.resolve_left (by simp [hne])
    · exact ih hstep.2 hm

variable {pointId : Nat}

theorem mem_of_enumErrors {field : String} {valid : List String} {x : Option String}
    (h : enumErrors pointId field valid x = []) {s : String} (hs : x = some s) : s ∈ valid := by
  subst hs
  simp only [enumErrors] at h
  split at h
  · rename_i hmem
    exact List.contains_iff_mem.mp hmem
  · cases h

theorem modbusErrors_eq_nil (h : modbusErrors m = []) :
    ∃ v, ModbusMappingValidator.deserialize m.protocolData = some v ∧
      (∀ s, v.dataType = some s → s ∈ validTypes) ∧
      ∀ s, v.byteOrder = some s → s ∈ validOrders := by
  unfold modbusErrors at h
  split at h
  · cases h
  rename_i v hv
  simp only [append_eq_nil_iff] at h
  obtain ⟨⟨⟨-, htype⟩, horder⟩, -⟩ := h
  exact ⟨v, hv, fun s => mem_of_enumErrors htype, fun s => mem_of_enumErrors horder⟩

theorem canErrors_eq_nil (h : canErrors m = []) :
    ∃ v, CanMappingValidator.deserialize m.protocolData = some v ∧
      ∀ s, v.dataType = some s → s ∈ validCanTypes := by
  unfold canErrors at h
  split at h
  · cases h
  rename_i v hv
  obtain ⟨-, htype⟩ := append_eq_nil_iff.mp h
  exact ⟨v, hv, fun s => mem_of_enumErrors htype⟩

variable {v : ModbusMappingValidator}

theorem ModbusMappingValidator.deserialize_obj {o : JsonObject}
    (h : ModbusMappingValidator.deserialize (.obj o) = some v) :
    required (Json.unsigned (2 ^ 8)) (o.get "slave_id") = some v.slaveId ∧
    required (Json.unsigned (2 ^ 8)) (o.get "function_code") = some v.functionCode ∧
    required (Json.unsigned (2 ^ 16)) (o.get "register_address") = some v.registerAddress ∧
    optional Json.asStr (o.get "data_type") = some v.dataType ∧
    optional Json.asStr (o.get "byte_order") = some v.byteOrder ∧
    optional (Json.unsigned (2 ^ 8)) (o.get "bit_position") = some v.bitPosition := by
  simp only [deserialize, structFields, bind_eq_bind, bind_some,
    bind_eq_some_iff] at h
  obtain ⟨a, ha, b, hb, c, hc, d, hd, e, he, f, hf, heq⟩ := h
  cases heq
  exact ⟨ha, hb, hc, hd, he, hf⟩

theorem CanMappingValidator.deserialize_obj {o : JsonObject} {v : CanMappingValidator}
    (h : CanMappingValidator.deserialize (.obj o) = some v) :
    required u32Hex (o.get "can_id") = some v.canId ∧
    required (Json.unsigned (2 ^ 8)) (o.get "byte_offset") = some v.byteOffset ∧
    optional (Json.unsigned (2 ^ 8)) (o.get "bit_position") = some v.bitPosition ∧
    required (Json.unsigned (2 ^ 8)) (o.get "bit_length") = some v.bitLength ∧
    optional Json.asStr (o.get "data_type") = some v.dataType ∧
    optional Json.f64 (o.get "scale") = some v.scale ∧
    optional Json.f64 (o.get "offset") = some v.offset := by
  simp only [deserialize, structFields, bind_eq_bind, bind_some,
    bind_eq_some_iff] at h
  obtain ⟨a, ha, b, hb, c, hc, d, hd, e, he, f, hf, g, hg, heq⟩ := h
  cases heq
  exact ⟨ha, hb, hc, hd, he, hf, hg⟩

theorem CanProtocolMapping.deserialize_obj_iff {o : JsonObject} {m : CanProtocolMapping} :
    CanProtocolMapping.deserialize (.obj o) = some m ↔
      required (Json.unsigned (2 ^ 32)) (o.get "can_id") = some m.canId ∧
      required (Json.unsigned (2 ^ 32)) (o.get "start_bit") = some m.startBit ∧
      required (Json.unsigned (2 ^ 32)) (o.get "bit_length") = some m.bitLength ∧
      withDefault CanDataType.deserialize .uint16 (o.get "data_type") = some m.dataType ∧
      withDefault Json.f64 1 (o.get "scale") = some m.scale ∧
      withDefault Json.f64 0 (o.get "offset") = some m.offset := by
  simp only [deserialize, structFields, bind_eq_bind, bind_some,
    bind_eq_some_iff]
  constructor
  · rintro ⟨a, ha, b, hb, c, hc, d, hd, e, he, f, hf, heq⟩
    cases heq
    exact ⟨ha, hb, hc, hd, he, hf⟩
  rintro ⟨ha, hb, hc, hd, he, hf⟩
  exact ⟨_, ha, _, hb, _, hc, _, hd, _, he, _, hf, rfl⟩

/-! ## Modbus -/

/-- The names that state a format. -/
def DataFormat.names : DataFormat → List String
  | bool => ["bool", "boolean"]
  | uint16 => ["uint16", "u16"]
  | int16 => ["int16", "i16"]
  | uint32 => ["uint32", "u32"]
  | int32 => ["int32", "i32"]
  | uint64 => ["uint64", "u64"]
  | int64 => ["int64", "i64"]
  | float32 => ["float32", "f32", "float"]
  | float64 => ["float64", "f64", "double"]
  | string => ["string"]

/-- The format a mapping states; without one, `uint16`. -/
def DataFormat.StatedBy (f : DataFormat) : Option String → Prop
  | none => f = .uint16
  | some s => toLowercase s ∈ f.names

/-- An order is stated by its name, or by that of the bytes of one register: `AB` by any order with
A before B. -/
def ByteOrder.StatedBy (b : ByteOrder) : Option String → Prop
  | none => b = .abcd
  | some s => s.toList.isSublist b.asStr.toList = true

/-- The addressing a Modbus mapping states. -/
structure ModbusAddress.Stated (o : JsonObject) (a : ModbusAddress) : Prop where
  slaveId : (o.get "slave_id").bind Json.asU64 = some a.slaveId
  functionCode : (o.get "function_code").bind Json.asU64 = some a.functionCode
  register : (o.get "register_address").bind Json.asU64 = some a.register
  format : a.format.StatedBy ((o.get "data_type").bind Json.asStr)
  byteOrder : a.byteOrder.StatedBy ((o.get "byte_order").bind Json.asStr)
  bitPosition : (o.get "bit_position").bind Json.asU64 = a.bitPosition

variable {x : Option Json} {y : Option String}

theorem bind_asStr_of_optional (h : optional Json.asStr x = some y) : x.bind Json.asStr = y := by
  obtain ⟨rfl, rfl⟩ | ⟨rfl, rfl⟩ | ⟨v, s, rfl, -, hs, rfl⟩ := optional_cases h
  · rfl
  · rfl
  · exact hs

variable {bound n : Nat}

theorem required_unsigned (h : required (Json.unsigned bound) x = some n) :
    ∃ i : JsonInt, x = some (.int i) ∧ i.val = n ∧ n < bound := by
  cases x with
  | none => cases h
  | some v =>
    obtain ⟨i, rfl, hi⟩ := Json.unsigned_eq_some_iff.mp h
    exact ⟨i, rfl, hi⟩

theorem bind_asU64_of_optional {y : Option Nat} (h : optional (Json.unsigned bound) x = some y) :
    x.bind Json.asU64 = y := by
  obtain ⟨rfl, rfl⟩ | ⟨rfl, rfl⟩ | ⟨v, n, rfl, -, hn, rfl⟩ := optional_cases h
  · rfl
  · rfl
  obtain ⟨i, rfl, hi, -⟩ := Json.unsigned_eq_some_iff.mp hn
  exact Json.asU64_int hi

theorem bind_asU64_of_required (h : required (Json.unsigned bound) x = some n) :
    x.bind Json.asU64 = some n := by
  obtain ⟨i, rfl, hi, -⟩ := required_unsigned h
  exact Json.asU64_int hi

section Modbus

variable {parseF64 : String → Option Float} {protocol : String} {o o' : JsonObject} {key : String}

theorem parseU64Field_int {i : JsonInt} (h : o.get key = some (.int i)) (hi : i.val = n) :
    parseU64Field o key = some n := by
  simp [parseU64Field, h, Json.asU64_int hi]

theorem Normalized.parseU64Field_required (h : Normalized parseF64 protocol o o')
    (hread : required (Json.unsigned bound) (o.get key) = some n) :
    (parseU64Field o' key).filter (· < bound) = some n := by
  obtain ⟨i, hv, hi, hlt⟩ := required_unsigned hread
  rw [parseU64Field_int (h.of_eq hv rfl) hi, filter_some, if_pos (by simpa using hlt)]

theorem Normalized.parseU64Field_optional (h : Normalized parseF64 protocol o o') {y : Option Nat}
    (hread : optional (Json.unsigned bound) (o.get key) = some y) :
    (parseU64Field o' key).filter (· < bound) = y := by
  obtain ⟨hv, rfl⟩ | ⟨hv, rfl⟩ | ⟨v, n, hv, -, hn, rfl⟩ := optional_cases hread
  · simp [parseU64Field, h.of_none hv]
  · simp [parseU64Field, h.of_eq hv rfl, Json.asU64, Json.asI64, Json.asStr]
  · exact h.parseU64Field_required (by rw [hv]; exact hn)

theorem notMem_numericFields (h : key ∈ ["data_type", "byte_order", "start_bit"]) :
    key ∉ numericFields protocol := by
  have hlists : ∀ fields ∈ [["slave_id", "function_code", "register_address", "bit_position"],
      ["gpio_number"], ["can_id", "byte_offset", "bit_position", "bit_length", "scale", "offset"],
      ["ctrl_model"], []], ∀ key ∈ ["data_type", "byte_order", "start_bit"], key ∉ fields := by
    decide
  refine hlists _ ?_ key h
  unfold numericFields
  split_ifs <;> simp

theorem parseModbusMapping_accepted (hnorm : Normalized parseF64 protocol o o')
    (hv : ModbusMappingValidator.deserialize (.obj o) = some v) :
    parseModbusMapping (some (.obj o')) =
      some ⟨v.slaveId, v.functionCode, v.registerAddress,
        parseDataFormat (v.dataType.getD "uint16"), parseByteOrder (v.byteOrder.getD "ABCD"),
        v.bitPosition⟩ := by
  obtain ⟨hslave, hcode, hreg, htype, horder, hbit⟩ := ModbusMappingValidator.deserialize_obj hv
  have htype' : o'.get "data_type" = o.get "data_type" :=
    hnorm.of_notMem (notMem_numericFields (by simp))
  have horder' : o'.get "byte_order" = o.get "byte_order" :=
    hnorm.of_notMem (notMem_numericFields (by simp))
  simp only [parseModbusMapping, hnorm.parseU64Field_required hslave,
    hnorm.parseU64Field_required hcode, hnorm.parseU64Field_required hreg,
    hnorm.parseU64Field_optional hbit, htype', horder', bind_asStr_of_optional htype,
    bind_asStr_of_optional horder, bind_eq_bind, bind_some, Option.pure_def]

theorem statedBy_parseDataFormat {x : Option String} (h : ∀ s, x = some s → s ∈ validTypes) :
    (parseDataFormat (x.getD "uint16")).StatedBy x := by
  have hall : ∀ s ∈ validTypes, toLowercase s ∈ (parseDataFormat s).names := by decide
  cases x with
  | none => exact show parseDataFormat "uint16" = .uint16 by decide
  | some s => exact hall s (h s rfl)

theorem statedBy_parseByteOrder_iff {x : Option String} (h : ∀ s, x = some s → s ∈ validOrders) :
    (parseByteOrder (x.getD "ABCD")).StatedBy x ↔ x ≠ some "BA" := by
  have hall : ∀ s ∈ validOrders,
      s.toList.isSublist (parseByteOrder s).asStr.toList = true ↔ s ≠ "BA" := by decide
  cases x with
  | none => exact iff_of_true (show parseByteOrder "ABCD" = .abcd by decide) (by simp)
  | some s => exact (hall s (h s rfl)).trans (by simp)

theorem modbusStated_iff (hnorm : Normalized parseF64 protocol o o') {fourRemote : String}
    (herr : modbusErrors ⟨pointId, fourRemote, .obj o⟩ = []) :
    (∃ a, parseModbusMapping (some (.obj o')) = some a ∧ a.Stated o) ↔
      (o.get "byte_order").bind Json.asStr ≠ some "BA" := by
  obtain ⟨v, hv, htypes, horders⟩ := modbusErrors_eq_nil herr
  obtain ⟨hslave, hcode, hreg, htype, horder, hbit⟩ := ModbusMappingValidator.deserialize_obj hv
  rw [parseModbusMapping_accepted hnorm hv, bind_asStr_of_optional horder,
    ← statedBy_parseByteOrder_iff horders]
  constructor
  · rintro ⟨a, ha, hstated⟩
    cases ha
    have := hstated.byteOrder
    rwa [bind_asStr_of_optional horder] at this
  intro horder'
  refine ⟨_, rfl, ?_⟩
  exact {
    slaveId := bind_asU64_of_required hslave
    functionCode := bind_asU64_of_required hcode
    register := bind_asU64_of_required hreg
    format := by
      rw [bind_asStr_of_optional htype]
      exact statedBy_parseDataFormat htypes
    byteOrder := by rwa [bind_asStr_of_optional horder]
    bitPosition := bind_asU64_of_optional hbit }

end Modbus

/-! ## CAN -/

/-- Where a CAN point lies in which frame, and as what. -/
structure CanAddressing where
  canId : Nat
  byteOffset : Nat
  bitPosition : Nat
  bitLength : Nat
  dataType : CanDataType

/-- Where the point lies. -/
def CanPoint.addressing (p : CanPoint) : CanAddressing :=
  ⟨p.canId, p.byteOffset, p.bitPosition, p.bitLength, p.dataType⟩

/-- Where it puts the point. -/
def CanProtocolMapping.addressing (m : CanProtocolMapping) : CanAddressing :=
  ⟨m.canId, m.startBit / 8 % 2 ^ 8, m.startBit % 8 % 2 ^ 8, m.bitLength % 2 ^ 8, m.dataType⟩

/-- Without a type, `uint16`. -/
def CanDataType.StatedBy (t : CanDataType) : Option String → Prop
  | none => t = .uint16
  | some s => t.name = s

/-- The addressing a CAN mapping states; the bit position is 0 unless it says otherwise. -/
structure CanAddressing.Stated (o : JsonObject) (a : CanAddressing) : Prop where
  canId : (o.get "can_id").bind u32Hex = some a.canId
  byteOffset : (o.get "byte_offset").bind Json.asU64 = some a.byteOffset
  bitPosition : ((o.get "bit_position").bind Json.asU64).getD 0 = a.bitPosition
  bitLength : (o.get "bit_length").bind Json.asU64 = some a.bitLength
  dataType : a.dataType.StatedBy ((o.get "data_type").bind Json.asStr)

/-- What the converter needs of a CAN mapping that the check does not ask for. -/
structure CanReadable (protocol : String) (o : JsonObject) : Prop where
  /-- A CAN id given as a text is a decimal numeral, on a channel that spells its protocol `can`. -/
  canId : ∀ s, o.get "can_id" = some (.str s) → protocol = "can" ∧ (parseI64 s).isSome
  /-- The position is given as `start_bit` too. -/
  startBit : ∃ n, (o.get "start_bit").bind (Json.unsigned (2 ^ 32)) = some n ∧
    (o.get "byte_offset").bind Json.asU64 = some (n / 8 % 2 ^ 8) ∧
    ((o.get "bit_position").bind Json.asU64).getD 0 = n % 8
  /-- A field with a default is left out, not null. -/
  notNull : ∀ key ∈ ["data_type", "scale", "offset"], o.get key ≠ some .null

section Can

variable {parseF64 : String → Option Float} {protocol : String} {o o' : JsonObject}

theorem required_eq_bind {α : Type} (read : Json → Option α) (x : Option Json) :
    required read x = x.bind read := by
  cases x <;> rfl

theorem u32Hex_str {s : String} {i : JsonInt} (hi : parseI64 s = some i)
    (hn : u32Hex (.str s) = some n) : i.val = n ∧ n < 2 ^ 32 := by
  have hi' := parseSigned_of_parseI64 hi
  have hlower : stripPrefix s "0x" = none :=
    stripPrefix_of_parseSigned hi' (show 'x' ∈ "0x".toList by decide) (by decide)
  have hupper : stripPrefix s "0X" = none :=
    stripPrefix_of_parseSigned hi' (show 'X' ∈ "0X".toList by decide) (by decide)
  simp only [u32Hex, trim_of_parseSigned hi', hlower, hupper, or_none] at hn
  exact ⟨parseUnsigned_of_parseSigned hi' hn, by simpa using (filter_eq_some_iff.mp hn).2⟩

theorem canId_notMem_numericFields (h : protocol ≠ "can") : "can_id" ∉ numericFields protocol := by
  unfold numericFields
  split_ifs <;> simp

theorem Normalized.canId_iff (hnorm : Normalized parseF64 protocol o o')
    (hread : required u32Hex (o.get "can_id") = some n) :
    required (Json.unsigned (2 ^ 32)) (o'.get "can_id") = some n ↔
      ∀ s, o.get "can_id" = some (.str s) → protocol = "can" ∧ (parseI64 s).isSome := by
  cases hv : o.get "can_id" with
  | none =>
    rw [hv] at hread
    cases hread
  | some v =>
    rw [hv] at hread
    have hget := hnorm "can_id"
    rw [hv, map_some] at hget
    cases v with
    | int i =>
      rw [hnorm.of_eq hv rfl]
      exact iff_of_true hread fun s hs => nomatch hs
    | str s =>
      constructor
      · intro h s' hs'
        cases hs'
        by_cases hp : protocol = "can"
        · refine ⟨hp, ?_⟩
          by_contra hnone
          rw [not_isSome_iff_eq_none] at hnone
          -- the text is stored as it is, or as a float: neither is read as an integer
          obtain ⟨i, hi, -⟩ := required_unsigned h
          rw [hi] at hget
          split at hget
          · cases hf : (parseF64 s).filter Float.isFinite <;>
              simp [normalizedValue, toNumber, hnone, hf] at hget
          · cases hget
        rw [if_neg (canId_notMem_numericFields hp)] at hget
        rw [hget] at h
        cases h
      intro h
      obtain ⟨rfl, hsome⟩ := h s rfl
      obtain ⟨i, hi⟩ := isSome_iff_exists.mp hsome
      rw [if_pos (by decide), normalizedValue, toNumber, hi] at hget
      rw [required_eq_bind, bind_some] at hread
      rw [hget]
      exact Json.unsigned_eq_some_iff.mpr ⟨i, rfl, u32Hex_str hi hread⟩
    | _ => cases hread

theorem Normalized.f64_iff (hnorm : Normalized parseF64 protocol o o') {key : String}
    {y : Option Float} (hread : optional Json.f64 (o.get key) = some y) (d : Float) :
    (∃ f, withDefault Json.f64 d (o'.get key) = some f) ↔ o.get key ≠ some .null := by
  obtain ⟨hv, -⟩ | ⟨hv, -⟩ | ⟨v, f, hv, hnull, hf, -⟩ := optional_cases hread
  · rw [hnorm.of_none hv, hv]
    exact iff_of_true ⟨d, rfl⟩ (by simp)
  · rw [hnorm.of_eq hv rfl, hv]
    exact iff_of_false (fun ⟨_, h⟩ => nomatch h) (by simp)
  have hfix : normalizedValue parseF64 v = v := by
    cases v with
    | int | float => rfl
    | _ => cases hf
  rw [hnorm.of_eq hv hfix, hv]
  exact iff_of_true ⟨f, hf⟩ (by simpa using hnull)

theorem exists_dataType_iff (hread : optional Json.asStr x = some y)
    (hvalid : ∀ s, y = some s → s ∈ validCanTypes) :
    (∃ t, withDefault CanDataType.deserialize .uint16 x = some t ∧ t.StatedBy (x.bind Json.asStr)) ↔
      x ≠ some .null := by
  have hall : ∀ s ∈ validCanTypes, (CanDataType.fromName s).map CanDataType.name = some s := by
    decide
  obtain ⟨rfl, -⟩ | ⟨rfl, -⟩ | ⟨v, s, rfl, hnull, hs, rfl⟩ := optional_cases hread
  · exact iff_of_true ⟨.uint16, rfl, rfl⟩ (by simp)
  · exact iff_of_false (fun ⟨_, h, _⟩ => nomatch h) (by simp)
  cases v with
  | str s' =>
    cases hs
    obtain ⟨t, ht, hname⟩ := map_eq_some_iff.mp (hall s (hvalid s rfl))
    exact iff_of_true ⟨t, ht, hname⟩ (by simp)
  | _ => cases hs

theorem canStated_iff (hnorm : Normalized parseF64 protocol o o') {fourRemote : String}
    (herr : canErrors ⟨pointId, fourRemote, .obj o⟩ = []) :
    (∃ m, CanProtocolMapping.deserialize (.obj o') = some m ∧ m.addressing.Stated o) ↔
      CanReadable protocol o := by
  obtain ⟨v, hv, htypes⟩ := canErrors_eq_nil herr
  obtain ⟨hid, hbyte, hbit, hlen, htype, hscale, hoffset⟩ := CanMappingValidator.deserialize_obj hv
  have hstart' : o'.get "start_bit" = o.get "start_bit" :=
    hnorm.of_notMem (notMem_numericFields (by simp))
  have htype' : o'.get "data_type" = o.get "data_type" :=
    hnorm.of_notMem (notMem_numericFields (by simp))
  constructor
  · rintro ⟨m, hm, hstated⟩
    obtain ⟨hid', hsb, -, hdt, hsc, hof⟩ := CanProtocolMapping.deserialize_obj_iff.mp hm
    refine ⟨?_, ⟨m.startBit, ?_, hstated.byteOffset, ?_⟩, ?_⟩
    · exact (hnorm.canId_iff ((required_eq_bind _ _).trans hstated.canId)).mp hid'
    · rw [← required_eq_bind, ← hstart']
      exact hsb
    · rw [hstated.bitPosition]
      exact Nat.mod_eq_of_lt (by omega)
    intro key hkey
    simp only [mem_cons, not_mem_nil, or_false] at hkey
    rcases hkey with rfl | rfl | rfl
    · rw [htype'] at hdt
      exact (exists_dataType_iff htype htypes).mp ⟨_, hdt, hstated.dataType⟩
    · exact (hnorm.f64_iff hscale 1).mp ⟨_, hsc⟩
    · exact (hnorm.f64_iff hoffset 0).mp ⟨_, hof⟩
  rintro ⟨hcan, ⟨n, hn, hnbyte, hnbit⟩, hnull⟩
  obtain ⟨t, ht, htstated⟩ := (exists_dataType_iff htype htypes).mpr (hnull _ (by simp))
  obtain ⟨sc, hsc⟩ := (hnorm.f64_iff hscale 1).mpr (hnull _ (by simp))
  obtain ⟨off, hoff⟩ := (hnorm.f64_iff hoffset 0).mpr (hnull _ (by simp))
  obtain ⟨i, hi, hival, hlt⟩ := required_unsigned hlen
  refine ⟨⟨v.canId, n, v.bitLength, t, sc, off⟩,
    CanProtocolMapping.deserialize_obj_iff.mpr ⟨(hnorm.canId_iff hid).mpr hcan, ?_, ?_, ?_, hsc,
      hoff⟩, ?_⟩
  · rw [hstart', required_eq_bind]
    exact hn
  · rw [hnorm.of_eq hi rfl]
    exact Json.unsigned_eq_some_iff.mpr ⟨i, rfl, hival, hlt.trans (by decide)⟩
  · rw [htype']
    exact ht
  exact {
    canId := (required_eq_bind _ _).symm.trans hid
    byteOffset := hnbyte
    bitPosition := hnbit.trans (Nat.mod_eq_of_lt (by omega)).symm
    bitLength := by
      rw [bind_asU64_of_required hlen]
      exact congrArg some (Nat.mod_eq_of_lt hlt).symm
    dataType := htstated }

end Can

/-! ## The points of a channel -/

/-- The point is configured as the mapping states. -/
def ChannelKind.Configured (rc : RuntimeChannelConfig) (t : PointType) (b : Point)
    (o : JsonObject) : ChannelKind → Prop
  | modbus => ∃ c ∈ convertToModbusPointConfigs rc, (c.pointType, c.id) = (t, b.pointId) ∧
      ∃ a, c.address = .modbus a ∧ a.Stated o
  | can => ∃ c ∈ convertToCanPointConfigs rc, (c.pointType, c.pointId) = (t, b.pointId) ∧
      c.addressing.Stated o

/-- What a mapping needs beyond being accepted. -/
def ChannelKind.Readable (protocol : String) (o : JsonObject) : ChannelKind → Prop
  | modbus => (o.get "byte_order").bind Json.asStr ≠ some "BA"
  | can => CanReadable protocol o

section Channel

variable {rc : RuntimeChannelConfig} {t : PointType} {b : Point} {o o' : JsonObject}

/-- The address of a point. -/
def modbusAddress (b : Point) : Option ProtocolAddress :=
  b.protocolMappings.bind fun text => (parseModbusMapping text).map .modbus

/-- Its configuration. -/
def modbusConfig (t : PointType) (b : Point) (tr : TransformConfig) : Option PointConfig :=
  (modbusAddress b).map fun addr =>
    { id := b.pointId, pointType := t, name := some b.signalName, address := addr, transform := tr }

theorem convertToModbusPointConfigs_eq (rc : RuntimeChannelConfig) :
    convertToModbusPointConfigs rc = rc.all.filterMap fun e => modbusConfig e.1 e.2.1 e.2.2 :=
  collectAll_filterMap rc modbusConfig

theorem modbus_configured_iff (hb : b ∈ rc.points t)
    (hstored : b.protocolMappings = some (some (.obj o'))) :
    ChannelKind.Configured rc t b o .modbus ↔
      ∃ a, parseModbusMapping (some (.obj o')) = some a ∧ a.Stated o := by
  have hread : ∀ t b tr, (modbusConfig t b tr).map (fun c => ((c.pointType, c.id), c.address)) =
      (modbusAddress b).map fun a => ((t, b.pointId), a) := by
    intro t b tr
    rw [modbusConfig, Option.map_map]
    rfl
  simp only [ChannelKind.Configured, convertToModbusPointConfigs_eq]
  rw [exists_mem_collectAll_iff hb (fun c => (c.pointType, c.id)) PointConfig.address hread
    (fun addr => ∃ a, addr = .modbus a ∧ a.Stated o), modbusAddress, hstored]
  simp only [bind_some, map_eq_some_iff]
  constructor
  · rintro ⟨_, ⟨a, ha, rfl⟩, _, heq, hstated⟩
    cases heq
    exact ⟨a, ha, hstated⟩
  rintro ⟨a, ha, hstated⟩
  exact ⟨_, ⟨a, ha, rfl⟩, a, rfl, hstated⟩

/-- The mapping of a point. -/
def canMapping (b : Point) : Option CanProtocolMapping :=
  b.protocolMappings.bind fun text => text.bind CanProtocolMapping.deserialize

/-- The point made of it. -/
def canPoint (t : PointType) (b : Point) (_ : TransformConfig) : Option CanPoint :=
  (canMapping b).map fun m =>
    { pointId := b.pointId, pointType := t, canId := m.canId, byteOffset := m.startBit / 8 % 2 ^ 8
      bitPosition := m.startBit % 8 % 2 ^ 8, bitLength := m.bitLength % 2 ^ 8
      dataType := m.dataType, scale := m.scale, offset := m.offset }

theorem collectCanPoints_eq {P : Type} [PointConvertible P] (points : List P) :
    collectCanPoints points = points.filterMap fun pt =>
      canPoint (PointConvertible.pointType P) (PointConvertible.base pt)
        (PointConvertible.transform pt) := by
  refine filterMap_congr fun pt _ => ?_
  rw [canPoint, canMapping]
  cases (PointConvertible.base pt).protocolMappings with
  | none => rfl
  | some text =>
    cases text with
    | none => rfl
    | some v => cases h : CanProtocolMapping.deserialize v <;> simp [h]

theorem convertToCanPointConfigs_eq (rc : RuntimeChannelConfig) :
    convertToCanPointConfigs rc = rc.all.filterMap fun e => canPoint e.1 e.2.1 e.2.2 := by
  rw [← collectAll_filterMap]
  simp only [convertToCanPointConfigs, collectAll, collectCanPoints_eq]

theorem can_configured_iff (hb : b ∈ rc.points t)
    (hstored : b.protocolMappings = some (some (.obj o'))) :
    ChannelKind.Configured rc t b o .can ↔
      ∃ m, CanProtocolMapping.deserialize (.obj o') = some m ∧ m.addressing.Stated o := by
  have hread : ∀ t b tr,
      (canPoint t b tr).map (fun c => ((c.pointType, c.pointId), c.addressing)) =
        ((canMapping b).map CanProtocolMapping.addressing).map fun a => ((t, b.pointId), a) := by
    intro t b tr
    rw [canPoint, Option.map_map, Option.map_map]
    rfl
  simp only [ChannelKind.Configured, convertToCanPointConfigs_eq]
  rw [exists_mem_collectAll_iff hb (fun c => (c.pointType, c.pointId)) CanPoint.addressing hread
    (fun a => a.Stated o), canMapping, hstored]
  simp only [bind_some, map_eq_some_iff]
  constructor
  · rintro ⟨_, ⟨m, hm, rfl⟩, hstated⟩
    exact ⟨m, hm, hstated⟩
  rintro ⟨m, hm, hstated⟩
  exact ⟨_, ⟨m, hm, rfl⟩, hstated⟩

/-- **When an accepted mapping is configured as stated.** -/
theorem configured_iff_readable (parseF64 : String → Option Float) {protocol : String}
    {kind : ChannelKind} (hkind : channelKind protocol = some kind)
    {items : List PointMappingItem} (haccept : validateMappings protocol items = [])
    (hb : b ∈ rc.points t) (hitem : ⟨b.pointId, t.asStr, .obj o⟩ ∈ items) (hne : o ≠ [])
    (hstored : b.protocolMappings = storedMapping parseF64 protocol (.obj o)) :
    kind.Configured rc t b o ↔ kind.Readable protocol o := by
  obtain ⟨o', heq, hnorm⟩ := storedMapping_obj parseF64 protocol hne
  rw [heq] at hstored
  have hcleared : isCleared (.obj o) = false := by
    cases o with
    | nil => exact absurd rfl hne
    | cons => rfl
  have herr := errors_of_accepted hkind haccept hitem hcleared
  cases kind with
  | modbus => exact (modbus_configured_iff hb hstored).trans (modbusStated_iff hnorm herr)
  | can => exact (can_configured_iff hb hstored).trans (canStated_iff hnorm herr)

private def lynkVoltage : JsonObject :=
  [("can_id", .int ⟨854, by decide⟩), ("byte_offset", .int ⟨0, by decide⟩),
    ("bit_position", .int ⟨0, by decide⟩), ("bit_length", .int ⟨16, by decide⟩),
    ("data_type", .str "uint16"), ("scale", .float 0.1), ("offset", .float 0)]

private def lynkWithStart : JsonObject := ("start_bit", .int ⟨0, by decide⟩) :: lynkVoltage

private def lynkPoint (o : JsonObject) : Point := ⟨101, "voltage", some (some (.obj o))⟩

private def lynkChannel (o : JsonObject) : RuntimeChannelConfig where
  telemetryPoints := [⟨lynkPoint o, 1, 0, false⟩]
  signalPoints := []
  controlPoints := []
  adjustmentPoints := []
  telemetry_nodup := nodup_singleton _
  signal_nodup := nodup_nil
  control_nodup := nodup_nil
  adjustment_nodup := nodup_nil

theorem configured_with_start_bit :
    ChannelKind.Configured (lynkChannel lynkWithStart) .telemetry (lynkPoint lynkWithStart)
      lynkWithStart .can := by
  have hkind : channelKind "can" = some .can := by decide
  have haccept : validateMappings "can" [⟨101, "T", .obj lynkWithStart⟩] = [] := by decide
  refine (configured_iff_readable (fun _ => none) hkind haccept (.head _) (.head _)
    (cons_ne_nil _ _) rfl).mpr ⟨?_, ⟨0, by decide, by decide, by decide⟩, ?_⟩
  · intro s hs
    cases hs
  · simp [lynkVoltage, JsonObject.get]

/-- The API's own CAN example passes the check and yields no point. -/
theorem documented_can_mapping_unread :
    validateMappings "can" [⟨101, "T", .obj lynkVoltage⟩] = [] ∧
      (∀ parseF64, (lynkPoint lynkVoltage).protocolMappings =
        storedMapping parseF64 "can" (.obj lynkVoltage)) ∧
      ¬ ChannelKind.Configured (lynkChannel lynkVoltage) .telemetry (lynkPoint lynkVoltage)
        lynkVoltage .can := by
  refine ⟨by decide, fun _ => rfl, fun h => ?_⟩
  obtain ⟨m, hm, -⟩ := (can_configured_iff (.head _) rfl).mp h
  cases hm

end Channel

end VoltageEMS.Comsrv.Mapping
