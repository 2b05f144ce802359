import VoltageEMS.Lib.Basic
import VoltageEMS.Lib.Bytes
import VoltageEMS.Lib.Text

/-!
# MMS requests and responses

`iec61850/mms.rs` and the BER helpers of `iec61850/transport.rs`: the PDUs of Read and Write over
bytes, with the texts of their errors.  A slice out of range ends the task; it is the error
`panicked` here, which no caller handles.
-/

namespace VoltageEMS.Iec61850

open Lib

/-- The part of `GatewayError` the adapter uses. -/
inductive GatewayError
  | connectionTimeout (ms : Nat)
  | protocol (msg : String)
  | io (msg : String)
  | readTimeout
  | writeTimeout
  /-- not an error value: the task unwinds -/
  | panicked
deriving DecidableEq, Repr

/-- `Display`. -/
def GatewayError.toText : GatewayError → String
  | connectionTimeout ms => "Connection timeout after " ++ toString ms ++ "ms"
  | protocol msg => "Protocol error: " ++ msg
  | io msg => "IO error: " ++ msg
  | readTimeout => "Read timeout"
  | writeTimeout => "Write timeout"
  | panicked => ""

/-- `map_err` with a context. -/
def GatewayError.within (context : String) : GatewayError → GatewayError
  | panicked => panicked
  | e => protocol (context ++ e.toText)

abbrev Bytes := List UInt8

/-! ## BER lengths -/

/-- `push_ber_len`: what is appended. -/
def pushBerLen (len : Nat) : Bytes :=
  if len < 0x80 then [UInt8.ofNat len]
  else if len < 0x100 then [0x81, UInt8.ofNat len]
  else [0x82, UInt8.ofNat (len / 256), UInt8.ofNat len]

/-- `parse_ber_len`: the length and the bytes it takes. -/
def parseBerLen : Bytes → Option (Nat × Nat)
  | [] => none
  | first :: rest =>
    if first < 0x80 then some (first.toNat, 1)
    else if first = 0x81 then
      match rest with
      | b :: _ => some (b.toNat, 2)
      | [] => none
    else if first = 0x82 then
      match rest with
      | hi :: lo :: _ => some (hi.toNat * 256 + lo.toNat, 3)
      | _ => none
    else none

/-- `parse_tlv`: the bytes after the value, and its content. -/
def parseTlv (buf : Bytes) (tag : UInt8) : Option (Bytes × Bytes) :=
  match buf with
  | [] => none
  | t :: body =>
    if t ≠ tag then none
    else
      match parseBerLen body with
      | none => none
      | some (len, hdrSize) =>
        let start := 1 + hdrSize
        let stop := start + len
        if stop > buf.length then none else some (buf.drop stop, (buf.drop start).take len)

/-! ## Values -/

/-- `MmsValue`. -/
inductive MmsValue
  | float32 (f : Float32)
  | float64 (f : Float)
  | boolean (b : Bool)
  | integer (i : Int64)
  | unsigned (u : UInt64)
  | visibleString (s : String)
  | bitString (bytes : Bytes) (unusedBits : UInt8)
  | utcTime (bytes : Bytes)
  | octetString (bytes : Bytes)
  /-- a data-access error -/
  | failure (code : UInt8)
deriving DecidableEq

/-- `{:02X}`. -/
def hexByte (b : UInt8) : String :=
  let digit (n : Nat) : Char := "0123456789ABCDEF".toList.getD n '0'
  String.ofList [digit (b.toNat / 16), digit (b.toNat % 16)]

/-- A byte that continues. -/
def isCont (b : UInt8) : Bool := b &&& 0xC0 == 0x80

/-- The second byte after some leads. -/
def secondByteOk (lead second : UInt8) : Bool :=
  if lead = 0xE0 then 0xA0 ≤ second && second ≤ 0xBF
  else if lead = 0xED then 0x80 ≤ second && second ≤ 0x9F
  else if lead = 0xF0 then 0x90 ≤ second && second ≤ 0xBF
  else if lead = 0xF4 then 0x80 ≤ second && second ≤ 0x8F
  else isCont second

/-- A character and the bytes after its first. -/
def decodeLossyChar (lead : UInt8) (rest : Bytes) : Char × Nat :=
  let bits (b : UInt8) : Nat := (b &&& 0x3F).toNat
  let replacement := Char.ofNat 0xFFFD
  if lead < 0x80 then (Char.ofNat lead.toNat, 0)
  else if 0xC2 ≤ lead && lead ≤ 0xDF then
    match rest with
    | b :: _ =>
      if isCont b then (Char.ofNat ((lead &&& 0x1F).toNat * 64 + bits b), 1) else (replacement, 0)
    | [] => (replacement, 0)
  else if 0xE0 ≤ lead && lead ≤ 0xEF then
    match rest with
    | b :: more =>
      if secondByteOk lead b then
        match more with
        | c :: _ =>
          if isCont c then
            (Char.ofNat ((lead &&& 0x0F).toNat * 4096 + bits b * 64 + bits c), 2)
          else (replacement, 1)
        | [] => (replacement, 1)
      else (replacement, 0)
    | [] => (replacement, 0)
  else if 0xF0 ≤ lead && lead ≤ 0xF4 then
    match rest with
    | b :: more =>
      if secondByteOk lead b then
        match more with
        | c :: more =>
          if isCont c then
            match more with
            | d :: _ =>
              if isCont d then
                (Char.ofNat ((lead &&& 0x07).toNat * 262144 + bits b * 4096 + bits c * 64 + bits d), 3)
              else (replacement, 2)
            | [] => (replacement, 2)
          else (replacement, 1)
        | [] => (replacement, 1)
      else (replacement, 0)
    | [] => (replacement, 0)
  else (replacement, 0)

/-- The loop over the bytes. -/
def decodeLossy : (fuel : Nat) → Bytes → List Char
  | 0, _ | _, [] => []
  | fuel + 1, lead :: rest =>
    let (c, n) := decodeLossyChar lead rest
    c :: decodeLossy fuel (rest.drop n)

/-- `String::from_utf8_lossy`. -/
def fromUtf8Lossy (bytes : Bytes) : String := String.ofList (decodeLossy bytes.length bytes)

/-- Big-endian bytes onto `start`. -/
def beBits {w : Nat} (start : BitVec w) (bytes : Bytes) : BitVec w :=
  bytes.foldl (fun n b => (n <<< 8) ||| (b.toBitVec.setWidth w)) start

/-- `decode_data`. -/
def decodeData (tag : UInt8) (val : Bytes) : Except GatewayError MmsValue :=
  match tag with
  | 0x83 => .ok (.boolean (val.headD 0 != 0))
  | 0x85 =>
    match val with
    | [] => .error (.protocol "MMS: zero-length integer")
    | b :: _ =>
      let start : BitVec 64 := if b &&& 0x80 != 0 then BitVec.allOnes 64 else 0
      .ok (.integer (Int64.ofBitVec (beBits start val)))
  | 0x86 => .ok (.unsigned (UInt64.ofBitVec (beBits 0 val)))
  | 0x87 =>
    if val.length = 5 then
      .ok (.float32 (Float32.ofBits (UInt32.ofBitVec (beBits 0 (val.drop 1)))))
    else if val.length = 9 then
      .ok (.float64 (Float.ofBits (UInt64.ofBitVec (beBits 0 (val.drop 1)))))
    else .error (.protocol ("MMS: unexpected float length " ++ toString val.length))
  | 0x84 =>
    match val with
    | [] => .error .panicked
    | unused :: bytes => .ok (.bitString bytes unused)
  | 0x89 => .ok (.octetString val)
  | 0x8A | 0x90 => .ok (.visibleString (fromUtf8Lossy val))
  | 0x91 =>
    if val.length = 8 then .ok (.utcTime val)
    else .error (.protocol ("MMS: UTC time length " ++ toString val.length ++ " (expected 8)"))
  | other => .error (.protocol ("MMS: unknown Data tag 0x" ++ hexByte other))

/-- `parse_data`. -/
def parseData (buf : Bytes) : Except GatewayError MmsValue :=
  match buf with
  | [] => .error (.protocol "MMS: empty Data")
  | tag :: body =>
    match parseBerLen body with
    | none => .error (.protocol "MMS: BER length error")
    | some (len, hdr) =>
      match field buf (1 + hdr) len with
      | none => .error .panicked
      | some val => decodeData tag val

/-- The tags of plain data. -/
def directDataTags : Bytes := [0x83, 0x84, 0x85, 0x86, 0x87, 0x89, 0x8A, 0x91, 0x90]

/-- `parse_access_result`. -/
def parseAccessResult (buf : Bytes) : Except GatewayError MmsValue :=
  match buf with
  | [] => .error (.protocol "MMS: empty AccessResult")
  | tag :: _ =>
    if tag = 0x80 then .ok (.failure (buf.getD 2 0))
    else if tag = 0xA1 then
      match parseTlv buf 0xA1 with
      | none => .error (.protocol "MMS: malformed AccessResult success")
      | some (_, data) => parseData data
    else if directDataTags.contains tag then parseData buf
    else .error (.protocol ("MMS: unknown AccessResult tag 0x" ++ hexByte tag))

/-! ## Responses -/

/-- `ok_or`. -/
def orProtocol {α : Type} (msg : String) : Option α → Except GatewayError α
  | none => .error (.protocol msg)
  | some a => .ok a

theorem eq_some_of_orProtocol {α : Type} {msg : String} {o : Option α} {a : α}
    (h : orProtocol msg o = .ok a) : o = some a := by
  cases o <;> cases h
  rfl

/-- `parse_read_response`: the invoke id and the first value. -/
def parseReadResponse (pdu : Bytes) : Except GatewayError (UInt8 × MmsValue) := do
  let (_, content) ← orProtocol "MMS: expected confirmedResponsePDU (A1)" (parseTlv pdu 0xA1)
  let (rest, idBytes) ← orProtocol "MMS: missing invokeID" (parseTlv content 0x02)
  let (_, readResp) ← orProtocol "MMS: expected Read-Response (A4)" (parseTlv rest 0xA4)
  let (_, accessResults) ←
    orProtocol "MMS: expected listOfAccessResults (A1)" (parseTlv readResp 0xA1)
  let value ← parseAccessResult accessResults
  pure (idBytes.headD 0, value)

/-- `parse_sbo_select_response`; the text of an unexpected value is left out. -/
def parseSboSelectResponse (pdu : Bytes) : Except GatewayError Bool := do
  match (← parseReadResponse pdu).2 with
  | .visibleString s => pure (!s.isEmpty)
  | .failure code =>
    throw (.protocol ("MMS: SBO select data-access error " ++ toString code.toNat))
  | _ => throw (.protocol "MMS: SBO select unexpected value")

/-- `parse_write_response`: the invoke id of a confirmed write. -/
def parseWriteResponse (pdu : Bytes) : Except GatewayError UInt8 := do
  let (_, content) ← orProtocol "MMS: expected confirmedResponsePDU (A1)" (parseTlv pdu 0xA1)
  let (rest, idBytes) ←
    orProtocol "MMS: missing invokeID in write response" (parseTlv content 0x02)
  let (_, writeResp) ← orProtocol "MMS: expected Write-Response tag (A5)" (parseTlv rest 0xA5)
  match writeResp with
  | 0x81 :: _ => pure (idBytes.headD 0)
  | 0x80 :: _ =>
    throw (.protocol
      ("MMS Write data-access error code " ++ toString (writeResp.getD 2 0).toNat))
  | other :: _ => throw (.protocol ("MMS: unexpected WriteResponse tag 0x" ++ hexByte other))
  | [] => throw (.protocol "MMS: empty Write-Response body")

/-- The invoke id of a response. -/
def invokeIdOf (pdu : Bytes) : Option UInt8 := do
  let (_, content) ← parseTlv pdu 0xA1
  let (_, idBytes) ← parseTlv content 0x02
  pure (idBytes.headD 0)

theorem parseReadResponse_invokeId {pdu : Bytes} {id : UInt8} {value : MmsValue}
    (h : parseReadResponse pdu = .ok (id, value)) : invokeIdOf pdu = some id := by
  unfold parseReadResponse at h
  obtain ⟨⟨_, content⟩, hcontent, h⟩ := bind_eq_ok_iff.mp h
  obtain ⟨⟨rest, idBytes⟩, hid, h⟩ := bind_eq_ok_iff.mp h
  obtain ⟨_, -, h⟩ := bind_eq_ok_iff.mp h
  obtain ⟨_, -, h⟩ := bind_eq_ok_iff.mp h
  obtain ⟨v, -, h⟩ := bind_eq_ok_iff.mp h
  cases h
  simp [invokeIdOf, eq_some_of_orProtocol hcontent, eq_some_of_orProtocol hid]

theorem parseWriteResponse_invokeId {pdu : Bytes} {id : UInt8}
    (h : parseWriteResponse pdu = .ok id) : invokeIdOf pdu = some id := by
  unfold parseWriteResponse at h
  obtain ⟨⟨_, content⟩, hcontent, h⟩ := bind_eq_ok_iff.mp h
  obtain ⟨⟨rest, idBytes⟩, hid, h⟩ := bind_eq_ok_iff.mp h
  obtain ⟨⟨_, writeResp⟩, -, h⟩ := bind_eq_ok_iff.mp h
  dsimp only at h
  split at h <;> cases h
  simp [invokeIdOf, eq_some_of_orProtocol hcontent, eq_some_of_orProtocol hid]

/-! ## Requests -/

/-- `str::as_bytes`. -/
def utf8 (s : String) : Bytes := s.toUTF8.data.toList

/-- Tag, length, content. -/
def tagged (tag : UInt8) (len : Nat) (content : Bytes) : Bytes := tag :: pushBerLen len ++ content

/-- `1A [len] [text]`, with the length cut to a byte. -/
def visibleStr (text : Bytes) : Bytes := 0x1A :: UInt8.ofNat text.length :: text

/-- `build_read_request`; every header is counted as two bytes. -/
def buildReadRequest (invokeId : UInt8) (domain item : String) : Bytes :=
  let d := utf8 domain
  let i := utf8 item
  let a1DomainContent := 2 + d.length + 2 + i.length
  let a0OuterContent := 2 + a1DomainContent
  let seqContent := 2 + a0OuterContent
  let a0VarspecContent := 2 + seqContent
  let a1ListContent := 2 + a0VarspecContent
  let a4ReadContent := 2 + a1ListContent
  let reqInner := 3 + 2 + a4ReadContent
  tagged 0xA0 reqInner <| [0x02, 0x01, invokeId] ++
    (tagged 0xA4 a4ReadContent <| tagged 0xA1 a1ListContent <| tagged 0xA0 a0VarspecContent <|
      tagged 0x30 seqContent <| tagged 0xA0 a0OuterContent <| tagged 0xA1 a1DomainContent <|
        visibleStr d ++ visibleStr i)

/-- `build_write_request`. -/
def buildWriteRequest (invokeId : UInt8) (domain item : String) (dataBytes : Bytes) : Bytes :=
  let d := utf8 domain
  let i := utf8 item
  let a1DomainContent := 2 + d.length + 2 + i.length
  let a0NameContent := 2 + a1DomainContent
  let seqContent := 2 + a0NameContent
  let a0ListContent := 2 + seqContent
  let a0DataContent := dataBytes.length
  let writeInner := (2 + a0ListContent) + (2 + a0DataContent)
  let reqInner := 3 + 2 + writeInner
  tagged 0xA0 reqInner <| [0x02, 0x01, invokeId] ++
    (tagged 0xA5 writeInner <|
      (tagged 0xA0 a0ListContent <| tagged 0x30 seqContent <| tagged 0xA0 a0NameContent <|
        tagged 0xA1 a1DomainContent <| visibleStr d ++ visibleStr i) ++
      tagged 0xA0 a0DataContent dataBytes)

/-- Without `$Oper$ctlVal`. -/
def sboBase (item : String) : String :=
  (stripSuffix ((stripSuffix item "$ctlVal").getD item) "$Oper").getD item

/-- `build_sbo_select_request`. -/
def buildSboSelectRequest (invokeId : UInt8) (domain item : String) : Bytes :=
  buildReadRequest invokeId domain (sboBase item ++ "$SBO")

/-- `encode_oper`; `time` is `utc_time_now`. -/
def encodeOper (ctrlBytes : Bytes) (ctlNum : UInt8) (time : Bytes) : Bytes :=
  let originInner : Bytes := [0x85, 0x01, 0x03, 0x89, 0x00]
  let operContentLen := ctrlBytes.length + (2 + originInner.length) + 3 + (2 + 8) + 3 + 4
  tagged 0xA2 operContentLen <|
    ctrlBytes ++ tagged 0xA2 originInner.length originInner ++ [0x86, 0x01, ctlNum] ++
      (0x91 :: 0x08 :: time) ++ [0x83, 0x01, 0x00] ++ [0x84, 0x02, 0x06, 0x00]

/-- A truth value. -/
def boolByte (value : Bool) : UInt8 := if value then 1 else 0

/-- `build_write_bool_request`. -/
def buildWriteBoolRequest (invokeId : UInt8) (domain item : String) (value : Bool) (time : Bytes) :
    Bytes :=
  let operItem := (stripSuffix item "$ctlVal").getD item
  buildWriteRequest invokeId domain operItem
    (encodeOper [0x83, 0x01, boolByte value] invokeId time)

/-- `build_write_f32_request`. -/
def buildWriteF32Request (invokeId : UInt8) (domain item : String) (value : Float32)
    (time : Bytes) : Bytes :=
  let operItem := ((stripSuffix item "$setMag$f").or (stripSuffix item "$setMag")).getD item
  let fBytes := (leBytes 4 value.toBits.toNat).reverse
  let setmagInner : Bytes := [0x87, 0x05, 0x08] ++ fBytes
  let setmag := tagged 0xA2 setmagInner.length setmagInner
  buildWriteRequest invokeId domain operItem (encodeOper setmag invokeId time)

/-- `build_write_simple_bool`. -/
def buildWriteSimpleBool (invokeId : UInt8) (domain item : String) (value : Bool) : Bytes :=
  buildWriteRequest invokeId domain item [0x83, 0x01, boolByte value]

end VoltageEMS.Iec61850
