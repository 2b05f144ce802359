import VoltageEMS.Lib.Json
import VoltageEMS.Model.Point

/-!
# Point mappings

A point of a channel is mapped to its device by a JSON object.  The API checks it and makes its
numbers uniform before it stores it (`api/handlers/mapping_handlers.rs`), and channel creation turns
what is stored into a configured point (`core/channels/converters.rs`).
-/

namespace VoltageEMS.Comsrv.Mapping

open Lib

def toLowercase (s : String) : String := String.ofList (s.toList.map Char.toLower)

def toUppercase (s : String) : String :=
  String.ofList (s.toList.map fun c =>
    if c = 'ı' then 'I' else if c = 'ſ' then 'S' else c.toUpper)

/-- `is_modbus_family`. -/
def isModbusFamily (protocol : String) : Bool :=
  ["modbus", "modbus_tcp", "modbus_rtu", "sunspec_tcp", "sunspec_rtu"].any
    (eqIgnoreAsciiCase (trim protocol))

/-! ## Validation -/

/-- `PointMappingItem`. -/
structure PointMappingItem where
  pointId : Nat
  fourRemote : String
  protocolData : Json

/-- `ModbusMappingValidator`. -/
structure ModbusMappingValidator where
  slaveId : Nat
  functionCode : Nat
  registerAddress : Nat
  dataType : Option String
  byteOrder : Option String
  bitPosition : Option Nat

/-- The derived deserialiser. -/
def ModbusMappingValidator.deserialize (v : Json) : Option ModbusMappingValidator := do
  let o ← structFields ["slave_id", "function_code", "register_address", "data_type", "byte_order",
    "bit_position"] v
  let slaveId ← required (Json.unsigned (2 ^ 8)) (o.get "slave_id")
  let functionCode ← required (Json.unsigned (2 ^ 8)) (o.get "function_code")
  let registerAddress ← required (Json.unsigned (2 ^ 16)) (o.get "register_address")
  let dataType ← optional Json.asStr (o.get "data_type")
  let byteOrder ← optional Json.asStr (o.get "byte_order")
  let bitPosition ← optional (Json.unsigned (2 ^ 8)) (o.get "bit_position")
  pure ⟨slaveId, functionCode, registerAddress, dataType, byteOrder, bitPosition⟩

/-- `deserialize_u32_hex`. -/
def u32Hex : Json → Option Nat
  | .str s =>
    let s := trim s
    match (stripPrefix s "0x").or (stripPrefix s "0X") with
    | some hex => parseUnsigned 16 (2 ^ 32) hex
    | none => parseUnsigned 10 (2 ^ 32) s
  | v => v.unsigned (2 ^ 32)

/-- `CanMappingValidator`. -/
structure CanMappingValidator where
  canId : Nat
  byteOffset : Nat
  bitPosition : Option Nat
  bitLength : Nat
  dataType : Option String
  scale : Option Float
  offset : Option Float

/-- The derived deserialiser. -/
def CanMappingValidator.deserialize (v : Json) : Option CanMappingValidator := do
  let o ← structFields ["can_id", "byte_offset", "bit_position", "bit_length", "data_type", "scale",
    "offset"] v
  let canId ← required u32Hex (o.get "can_id")
  let byteOffset ← required (Json.unsigned (2 ^ 8)) (o.get "byte_offset")
  let bitPosition ← optional (Json.unsigned (2 ^ 8)) (o.get "bit_position")
  let bitLength ← required (Json.unsigned (2 ^ 8)) (o.get "bit_length")
  let dataType ← optional Json.asStr (o.get "data_type")
  let scale ← optional Json.f64 (o.get "scale")
  let offset ← optional Json.f64 (o.get "offset")
  pure ⟨canId, byteOffset, bitPosition, bitLength, dataType, scale, offset⟩

/-- The types of a register. -/
def validTypes : List String :=
  ["bool", "boolean", "uint16", "int16", "uint32", "int32", "float32", "float64"]

/-- The byte orders. -/
def validOrders : List String := ["ABCD", "DCBA", "BADC", "CDAB", "AB", "BA"]

/-- The types of a CAN point. -/
def validCanTypes : List String := ["uint8", "uint16", "int16", "uint32", "int32", "float32", "ascii"]

/-- The text of an error. -/
def pointError (pointId : Nat) (text : String) : String :=
  "Point " ++ toString pointId ++ ": " ++ text

/-- A name that is none of the list. -/
def enumErrors (pointId : Nat) (field : String) (valid : List String) : Option String → List String
  | none => []
  | some s =>
    if valid.contains s then []
    else [pointError pointId (field ++ " '" ++ s ++ "' invalid (valid: " ++
      String.intercalate ", " valid ++ ")")]

/-- `validate_modbus_function_code_match`. -/
def validateModbusFunctionCodeMatch (functionCode : Nat) (fourRemote : String) (pointId : Nat) :
    Option String :=
  if fourRemote = "T" ∨ fourRemote = "S" then
    if [1, 2, 3, 4].contains functionCode then none
    else some (pointError pointId (fourRemote ++ " point requires read FC (1/2/3/4), got FC " ++
      toString functionCode ++ " (write)"))
  else if fourRemote = "C" then
    if [5, 6, 15, 16].contains functionCode then none
    else some (pointError pointId ("C point requires write FC (5/6/15/16), got FC " ++
      toString functionCode))
  else if fourRemote = "A" then
    if [6, 16].contains functionCode then none
    else some (pointError pointId ("A point requires register write FC (6/16), got FC " ++
      toString functionCode))
  else some (pointError pointId ("invalid four_remote type '" ++ fourRemote ++ "'"))

variable (m : PointMappingItem)

/-- The errors of a Modbus mapping. -/
def modbusErrors : List String :=
  match ModbusMappingValidator.deserialize m.protocolData with
  | none => [pointError m.pointId "Modbus mapping validation failed - "]
  | some v =>
    (if v.slaveId = 0 ∨ 248 ≤ v.slaveId then
      [pointError m.pointId ("slave_id " ++ toString v.slaveId ++
        " invalid (must be 1-247, 0 and 248-255 are reserved)")] else []) ++
    (if [1, 2, 3, 4, 5, 6, 15, 16].contains v.functionCode then [] else
      [pointError m.pointId ("function_code " ++ toString v.functionCode ++
        " invalid (valid: 1,2,3,4,5,6,15,16)")]) ++
    enumErrors m.pointId "data_type" validTypes v.dataType ++
    enumErrors m.pointId "byte_order" validOrders v.byteOrder ++
    (validateModbusFunctionCodeMatch v.functionCode m.fourRemote m.pointId).toList

/-- The errors of a CAN mapping. -/
def canErrors : List String :=
  match CanMappingValidator.deserialize m.protocolData with
  | none => [pointError m.pointId "CAN mapping validation failed - "]
  | some v =>
    (if 7 < v.byteOffset then
      [pointError m.pointId ("byte_offset " ++ toString v.byteOffset ++ " out of range (0-7)")]
      else []) ++
    (match v.bitPosition with
      | some bp =>
        if 7 < bp then
          [pointError m.pointId ("bit_position " ++ toString bp ++ " out of range (0-7)")]
        else []
      | none => []) ++
    (if v.bitLength = 0 then [pointError m.pointId "bit_length must be > 0"] else []) ++
    enumErrors m.pointId "data_type" validCanTypes v.dataType

/-- The errors of a virtual mapping. -/
def virtualErrors : List String :=
  match (structFields ["expression"] m.protocolData).bind fun o =>
      required Json.asStr (o.get "expression") with
  | none => [pointError m.pointId "Virtual mapping validation failed - "]
  | some expression =>
    if (trim expression).isEmpty then [pointError m.pointId "expression cannot be empty"] else []

/-- The errors of a GPIO mapping. -/
def gpioErrors : List String :=
  match (structFields ["gpio_number"] m.protocolData).bind fun o =>
      required (Json.unsigned (2 ^ 32)) (o.get "gpio_number") with
  | none => [pointError m.pointId "GPIO mapping validation failed - "]
  | some n =>
    (if 1023 < n then
      [pointError m.pointId ("gpio_number " ++ toString n ++ " out of range (0-1023)")] else []) ++
    (if eqIgnoreAsciiCase m.fourRemote "S" || eqIgnoreAsciiCase m.fourRemote "C" then [] else
      [pointError m.pointId ("GPIO only supports Signal (S) and Control (C) types, got: " ++
        m.fourRemote)])

/-- A domain and an item. -/
def validIec61850Address (address : String) : Bool :=
  let cs := (trim address).toList
  match (splitOnce ['/'] cs).or (splitOnce [':'] cs) with
  | some (domain, item) =>
    !(trim (String.ofList domain)).isEmpty && !(trim (String.ofList item)).isEmpty
  | none => false

/-- The errors of an IEC 61850 mapping. -/
def iec61850Errors : List String :=
  let fields := do
    let o ← structFields ["address", "ctrl_model"] m.protocolData
    let address ← required Json.asStr (o.get "address")
    let ctrlModel ← optional (Json.unsigned (2 ^ 8)) (o.get "ctrl_model")
    pure (address, ctrlModel)
  match fields with
  | none => [pointError m.pointId "IEC 61850 mapping validation failed - "]
  | some (address, ctrlModel) =>
    (if validIec61850Address address then [] else
      [pointError m.pointId "IEC 61850 address must be 'domain/item' or 'domain:item'"]) ++
    (match ctrlModel with
      | some n =>
        if 1 ≤ n ∧ n ≤ 4 then []
        else [pointError m.pointId ("ctrl_model " ++ toString n ++ " invalid (must be 1-4)")]
      | none => []) ++
    (if eqIgnoreAsciiCase m.fourRemote "C" && ctrlModel.any (2 < ·) then
      [pointError m.pointId ("control ctrl_model must be 1 or 2; enhanced-security models are " ++
        "not yet supported")] else []) ++
    (if eqIgnoreAsciiCase m.fourRemote "A" && ctrlModel.any (· != 1) then
      [pointError m.pointId "adjustment ctrl_model must be 1 (direct-normal)"] else [])

/-- The mapping is to be deleted. -/
def isCleared : Json → Bool
  | .null | .obj [] => true
  | _ => false

/-- `validate_mappings`; an unsupported protocol ends the loop. -/
def validateMappings (protocol : String) : List PointMappingItem → List String
  | [] => []
  | m :: rest =>
    let name := toLowercase protocol
    if isCleared m.protocolData then validateMappings protocol rest
    else if isModbusFamily protocol then modbusErrors m ++ validateMappings protocol rest
    else if name = "virtual" then virtualErrors m ++ validateMappings protocol rest
    else if name = "di_do" ∨ name = "gpio" ∨ name = "dido" then
      gpioErrors m ++ validateMappings protocol rest
    else if name = "can" then canErrors m ++ validateMappings protocol rest
    else if name = "iec61850" then iec61850Errors m ++ validateMappings protocol rest
    else ["Unsupported protocol: " ++ name]

/-! ## Normalization -/

section Normalize

-- `str::parse::<f64>`
variable (parseF64 : String → Option Float)

/-- The text of a number. -/
def needsConversion : Json → Bool
  | .str s => (parseI64 s).isSome || (parseF64 s).isSome
  | _ => false

/-- The value as a number. -/
def toNumber : Json → Option Json
  | .int i => some (.int i)
  | .float f => some (.float f)
  | .str s =>
    match parseI64 s with
    | some i => some (.int i)
    | none => ((parseF64 s).filter Float.isFinite).map Json.float
  | _ => none

/-- The fields made numbers. -/
def numericFields (protocol : String) : List String :=
  if isModbusFamily protocol then
    ["slave_id", "function_code", "register_address", "bit_position"]
  else if protocol = "di_do" ∨ protocol = "gpio" ∨ protocol = "dido" then ["gpio_number"]
  else if protocol = "can" then
    ["can_id", "byte_offset", "bit_position", "bit_length", "scale", "offset"]
  else if protocol = "iec61850" then ["ctrl_model"]
  else []

/-- The loop over the fields. -/
def normalizeFields (o : JsonObject) : List String → JsonObject → JsonObject
  | [], normalized => normalized
  | field :: rest, normalized =>
    normalizeFields o rest
      (match (o.get field).bind (toNumber parseF64) with
        | some v => normalized.insert field v
        | none => normalized)

/-- `normalize_protocol_data`. -/
def normalizeProtocolData (protocol : String) : Json → Json
  | .obj o =>
    if (numericFields protocol).any fun field =>
        (JsonObject.get o field).any (needsConversion parseF64) then
      .obj (normalizeFields parseF64 o (numericFields protocol) o)
    else .obj o
  | v => v

/-- A text of the database, as the value it reads as; `none` where it is not JSON. -/
abbrev MappingText := Option Json

/-- What the update writes to `protocol_mappings`; an empty object is written as NULL. -/
def storedMapping (protocol : String) (v : Json) : Option MappingText :=
  match normalizeProtocolData parseF64 protocol v with
  | .obj [] => none
  | v => some (some v)

end Normalize

/-! ## Points of a channel -/

/-- `Point`. -/
structure Point where
  pointId : Nat
  signalName : String
  protocolMappings : Option MappingText

/-- `TelemetryPoint`. -/
structure TelemetryPoint where
  base : Point
  scale : Float
  offset : Float
  reverse : Bool

/-- `SignalPoint`. -/
structure SignalPoint where
  base : Point
  reverse : Bool

/-- `ControlPoint`. -/
structure ControlPoint where
  base : Point
  reverse : Bool

/-- `AdjustmentPoint`. -/
structure AdjustmentPoint where
  base : Point
  scale : Float
  offset : Float

/-- `PointConvertible`. -/
class PointConvertible (P : Type) where
  base : P → Point
  pointType : PointType
  transform : P → TransformConfig

open PointConvertible (base pointType transform)

instance : PointConvertible TelemetryPoint where
  base := TelemetryPoint.base
  pointType := .telemetry
  transform p := ⟨p.scale, p.offset, p.reverse⟩

-- the derived default of a transformation has the scale 0
instance : PointConvertible SignalPoint where
  base := SignalPoint.base
  pointType := .signal
  transform p := ⟨0, 0, p.reverse⟩

instance : PointConvertible ControlPoint where
  base := ControlPoint.base
  pointType := .control
  transform p := ⟨0, 0, p.reverse⟩

instance : PointConvertible AdjustmentPoint where
  base := AdjustmentPoint.base
  pointType := .adjustment
  transform p := ⟨p.scale, p.offset, false⟩

/-- `RuntimeChannelConfig`: the points of a channel, unique by id in each of the four tables. -/
structure RuntimeChannelConfig where
  telemetryPoints : List TelemetryPoint
  signalPoints : List SignalPoint
  controlPoints : List ControlPoint
  adjustmentPoints : List AdjustmentPoint
  telemetry_nodup : (telemetryPoints.map fun p => p.base.pointId).Nodup
  signal_nodup : (signalPoints.map fun p => p.base.pointId).Nodup
  control_nodup : (controlPoints.map fun p => p.base.pointId).Nodup
  adjustment_nodup : (adjustmentPoints.map fun p => p.base.pointId).Nodup

variable (rc : RuntimeChannelConfig)

/-- The points of a type. -/
def RuntimeChannelConfig.points : PointType → List Point
  | .telemetry => rc.telemetryPoints.map base
  | .signal => rc.signalPoints.map base
  | .control => rc.controlPoints.map base
  | .adjustment => rc.adjustmentPoints.map base

/-- Over the four tables. -/
def collectAll {C : Type} (rc : RuntimeChannelConfig)
    (collect : {P : Type} → [PointConvertible P] → List P → List C) : List C :=
  collect rc.telemetryPoints ++ collect rc.signalPoints ++ collect rc.controlPoints ++
    collect rc.adjustmentPoints

/-! ## Modbus points -/

/-- `DataFormat`. -/
inductive DataFormat
  | bool
  | uint16
  | int16
  | uint32
  | int32
  | uint64
  | int64
  | float32
  | float64
  | string
deriving DecidableEq

/-- `ByteOrder`. -/
inductive ByteOrder
  | abcd
  | dcba
  | badc
  | cdab
deriving DecidableEq

/-- `as_str`. -/
def ByteOrder.asStr : ByteOrder → String
  | abcd => "ABCD"
  | dcba => "DCBA"
  | badc => "BADC"
  | cdab => "CDAB"

/-- `ModbusAddress`. -/
structure ModbusAddress where
  slaveId : Nat
  functionCode : Nat
  register : Nat
  format : DataFormat
  byteOrder : ByteOrder
  bitPosition : Option Nat

/-- `ProtocolAddress`. -/
inductive ProtocolAddress
  | modbus (a : ModbusAddress)
  | virtual (tag : String)

/-- `PointConfig`. -/
structure PointConfig where
  id : Nat
  pointType : PointType
  name : Option String
  address : ProtocolAddress
  transform : TransformConfig
  enabled : Bool := true

/-- `convert_points`. -/
def convertPoints (addrFn : Point → Option ProtocolAddress) {P : Type} [PointConvertible P]
    (points : List P) : List PointConfig :=
  points.filterMap fun pt =>
    (addrFn (base pt)).map fun addr =>
      { id := (base pt).pointId, pointType := pointType P, name := some (base pt).signalName,
        address := addr, transform := transform pt }

/-- `parse_u64_field`. -/
def parseU64Field (o : JsonObject) (key : String) : Option Nat :=
  (o.get key).bind fun raw =>
    (raw.asU64.or (raw.asI64.bind fun n => if 0 ≤ n then some n.toNat else none)).or
      (raw.asStr.bind (parseUnsigned 10 (2 ^ 64)))

/-- `parse_data_format`. -/
def parseDataFormat (s : String) : DataFormat :=
  let s := toLowercase s
  if s = "bool" ∨ s = "boolean" then .bool
  else if s = "uint16" ∨ s = "u16" then .uint16
  else if s = "int16" ∨ s = "i16" then .int16
  else if s = "uint32" ∨ s = "u32" then .uint32
  else if s = "int32" ∨ s = "i32" then .int32
  else if s = "float32" ∨ s = "f32" ∨ s = "float" then .float32
  else if s = "float64" ∨ s = "f64" ∨ s = "double" then .float64
  else if s = "uint64" ∨ s = "u64" then .uint64
  else if s = "int64" ∨ s = "i64" then .int64
  else .uint16

/-- `parse_byte_order`. -/
def parseByteOrder (s : String) : ByteOrder :=
  let s := toUppercase s
  if s = "ABCD" ∨ s = "BIG_ENDIAN" ∨ s = "BE" then .abcd
  else if s = "DCBA" ∨ s = "LITTLE_ENDIAN" ∨ s = "LE" then .dcba
  else if s = "BADC" ∨ s = "WORD_SWAP" then .badc
  else if s = "CDAB" ∨ s = "BYTE_SWAP" then .cdab
  else .abcd

/-- `parse_modbus_mapping`, and the address made of it. -/
def parseModbusMapping : MappingText → Option ModbusAddress
  | some (.obj o) => do
    let slaveId ← (parseU64Field o "slave_id").filter (· < 2 ^ 8)
    let functionCode ← (parseU64Field o "function_code").filter (· < 2 ^ 8)
    let register ← (parseU64Field o "register_address").filter (· < 2 ^ 16)
    let dataType := ((JsonObject.get o "data_type").bind Json.asStr).getD "uint16"
    let byteOrder := ((JsonObject.get o "byte_order").bind Json.asStr).getD "ABCD"
    pure ⟨slaveId, functionCode, register, parseDataFormat dataType, parseByteOrder byteOrder,
      (parseU64Field o "bit_position").filter (· < 2 ^ 8)⟩
  | _ => none

/-- `convert_to_modbus_point_configs`. -/
def convertToModbusPointConfigs : List PointConfig :=
  collectAll rc (convertPoints fun b =>
    b.protocolMappings.bind fun text => (parseModbusMapping text).map .modbus)

/-! ## CAN points -/

/-- `CanDataType`. -/
inductive CanDataType
  | uint8
  | uint16
  | int16
  | uint32
  | int32
  | float32
  | ascii
deriving DecidableEq

/-- Its name in JSON. -/
def CanDataType.name : CanDataType → String
  | uint8 => "uint8"
  | uint16 => "uint16"
  | int16 => "int16"
  | uint32 => "uint32"
  | int32 => "int32"
  | float32 => "float32"
  | ascii => "ascii"

/-- By its name. -/
def CanDataType.fromName (s : String) : Option CanDataType :=
  [uint8, uint16, int16, uint32, int32, float32, ascii].find? fun t => t.name == s

/-- The derived deserialiser. -/
def CanDataType.deserialize : Json → Option CanDataType
  | .str s => fromName s
  | .obj [(s, .null)] => fromName s
  | _ => none

/-- `CanProtocolMapping`. -/
structure CanProtocolMapping where
  canId : Nat
  startBit : Nat
  bitLength : Nat
  dataType : CanDataType
  scale : Float
  offset : Float

/-- The derived deserialiser. -/
def CanProtocolMapping.deserialize (v : Json) : Option CanProtocolMapping := do
  let o ← structFields ["can_id", "start_bit", "bit_length", "data_type", "scale", "offset"] v
  let canId ← required (Json.unsigned (2 ^ 32)) (o.get "can_id")
  let startBit ← required (Json.unsigned (2 ^ 32)) (o.get "start_bit")
  let bitLength ← required (Json.unsigned (2 ^ 32)) (o.get "bit_length")
  let dataType ← withDefault CanDataType.deserialize .uint16 (o.get "data_type")
  let scale ← withDefault Json.f64 1 (o.get "scale")
  let offset ← withDefault Json.f64 0 (o.get "offset")
  pure ⟨canId, startBit, bitLength, dataType, scale, offset⟩

/-- `CanPoint`. -/
structure CanPoint where
  pointId : Nat
  pointType : PointType
  canId : Nat
  byteOffset : Nat
  bitPosition : Nat
  bitLength : Nat
  dataType : CanDataType
  scale : Float
  offset : Float

/-- `collect_can_points`. -/
def collectCanPoints {P : Type} [PointConvertible P] (points : List P) : List CanPoint :=
  points.filterMap fun pt => do
    let text ← (base pt).protocolMappings
    let v ← text
    let mapping ← CanProtocolMapping.deserialize v
    pure
      { pointId := (base pt).pointId, pointType := pointType P, canId := mapping.canId
        byteOffset := mapping.startBit / 8 % 2 ^ 8, bitPosition := mapping.startBit % 8 % 2 ^ 8
        bitLength := mapping.bitLength % 2 ^ 8, dataType := mapping.dataType
        scale := mapping.scale, offset := mapping.offset }

/-- `convert_to_can_point_configs`. -/
def convertToCanPointConfigs : List CanPoint :=
  collectAll rc collectCanPoints

end VoltageEMS.Comsrv.Mapping
