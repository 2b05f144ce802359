import VoltageEMS.Comsrv.ModbusPoll

/-!
# CAN points

A CAN point is a field of the latest frame with its id.  Three pieces of code decode such fields: the
adapter that runs (`comsrv/src/protocols/adapters/can/decoder.rs`), its copy with the tests
(`adapters/can_decoder.rs`) and the codec of the core library (`voltage-core/src/codec/can.rs`).
-/

namespace VoltageEMS.Comsrv.Can

open Lib Comsrv.Mapping List Option
open VoltageEMS.Comsrv.ModbusPoll (DataPoint)
open VoltageEMS.Iec61850 (Bytes Value fromUtf8Lossy utf8 decodeLossy decodeLossyChar isCont
  secondByteOk)

/-! ## The decoder of the adapter -/

variable (data : Bytes)

/-- The branches for whole bytes: `count` of them, from bit 0 on. -/
def wholeBytes (byteOffset bitPosition bits count : Nat) : Except String Bytes :=
  if bitPosition ≠ 0 then
    .error (toString bits ++ "-bit field must start at bit position 0, got " ++ toString bitPosition)
  else if data.length < byteOffset + count then
    .error ("Not enough bytes for " ++ toString bits ++ "-bit field at offset " ++ toString byteOffset)
  else .ok ((data.drop byteOffset).take count)

/-- The error past the end. -/
def offsetError (byteOffset : Nat) : String :=
  "Byte offset " ++ toString byteOffset ++ " out of range (data length: " ++ toString data.length ++ ")"

/-- The branch for two bits. -/
def twoBits (b : UInt8) (bitPosition : Nat) : Except String Bytes :=
  if 6 < bitPosition then
    .error ("Invalid bit position " ++ toString bitPosition ++ " for 2-bit field")
  else .ok [b >>> .ofNat bitPosition &&& 3]

/-- `extract_field`. -/
def extractField (byteOffset bitPosition bitLength : Nat) : Except String Bytes :=
  match data[byteOffset]? with
  | none => .error (offsetError data byteOffset)
  | some b =>
    if bitLength = 2 then twoBits b bitPosition
    else if bitLength = 8 then wholeBytes data byteOffset bitPosition 8 1
    else if bitLength = 16 then wholeBytes data byteOffset bitPosition 16 2
    else if bitLength = 32 then wholeBytes data byteOffset bitPosition 32 4
    else if bitLength = 64 then wholeBytes data byteOffset bitPosition 64 8
    else .error ("Unsupported bit length: " ++ toString bitLength)

/-- The text of bytes, without the NULs at its end. -/
def lossyText (raw : Bytes) : Value :=
  .string (.ofList ((fromUtf8Lossy raw).toList.rdropWhile (· = '\x00')))

/-- The `match` on the data type. -/
def decodeRaw : CanDataType → Bytes → Except String Value
  | .uint8, [] => .error "Empty data for uint8"
  | .uint8, a :: _ => .ok (.integer (.ofNat a.toNat))
  | .uint16, a :: b :: _ => .ok (.integer (.ofNat (ofLeBytes [a, b])))
  | .int16, a :: b :: _ => .ok (.integer (UInt16.ofNat (ofLeBytes [a, b])).toInt16.toInt64)
  | .uint32, a :: b :: c :: d :: _ => .ok (.integer (.ofNat (ofLeBytes [a, b, c, d])))
  | .int32, a :: b :: c :: d :: _ =>
    .ok (.integer (UInt32.ofNat (ofLeBytes [a, b, c, d])).toInt32.toInt64)
  | .float32, a :: b :: c :: d :: _ =>
    .ok (.float (Float32.ofBits (.ofNat (ofLeBytes [a, b, c, d]))).toFloat)
  | .ascii, raw => .ok (lossyText raw)
  | t, raw => .error ("Not enough bytes for " ++ t.name ++ ", got " ++ toString raw.length)

/-- Scale and offset, for integers that have one. -/
def scaled (scale offset : Float) : Value → Value
  | .integer i =>
    if scale != 1 || offset != 0 then .float (i.toFloat * scale + offset) else .integer i
  | v => v

/-- `decode_point`. -/
def decodePoint (point : CanPoint) (frame : Bytes) : Except String Value := do
  let raw ← extractField frame point.byteOffset point.bitPosition point.bitLength
  let value ← decodeRaw point.dataType raw
  return scaled point.scale point.offset value

/-! ## The copy with the tests -/

namespace Portable

/-- `extract_multibyte`. -/
def extractMultibyte (byteOffset bitPosition bitLength : Nat) : Except String Bytes :=
  wholeBytes data byteOffset bitPosition bitLength (bitLength / 8)

/-- `extract_field`. -/
def extractField (byteOffset bitPosition bitLength : Nat) : Except String Bytes :=
  match data[byteOffset]? with
  | none => .error (offsetError data byteOffset)
  | some b =>
    if bitLength = 2 then twoBits b bitPosition
    else if bitLength = 8 then wholeBytes data byteOffset bitPosition 8 1
    else if bitLength ∈ [16, 32, 64] then extractMultibyte data byteOffset bitPosition bitLength
    else .error ("Unsupported bit length: " ++ toString bitLength)

/-- `read_le`. -/
def readLe (n : Nat) (bytes : Bytes) (typeName : String) : Except String Bytes :=
  if n ≤ bytes.length then .ok (bytes.take n)
  else .error ("Not enough bytes for " ++ typeName ++ ", got " ++ toString bytes.length)

/-- The `match` of the copy. -/
def decodeRaw (dataType : CanDataType) (raw : Bytes) : Except String Value :=
  match dataType with
  | .uint8 =>
    match raw with
    | [] => .error "Empty data for uint8"
    | a :: _ => .ok (.integer (.ofNat a.toNat))
  | .uint16 => (readLe 2 raw "uint16").map fun bytes => .integer (.ofNat (ofLeBytes bytes))
  | .int16 => (readLe 2 raw "int16").map fun bytes =>
      .integer (UInt16.ofNat (ofLeBytes bytes)).toInt16.toInt64
  | .uint32 => (readLe 4 raw "uint32").map fun bytes => .integer (.ofNat (ofLeBytes bytes))
  | .int32 => (readLe 4 raw "int32").map fun bytes =>
      .integer (UInt32.ofNat (ofLeBytes bytes)).toInt32.toInt64
  | .float32 => (readLe 4 raw "float32").map fun bytes =>
      .float (Float32.ofBits (.ofNat (ofLeBytes bytes))).toFloat
  | .ascii => .ok (lossyText raw)

/-- `decode_point`. -/
def decodePoint (point : CanPoint) (frame : Bytes) : Except String Value := do
  let raw ← extractField frame point.byteOffset point.bitPosition point.bitLength
  let value ← decodeRaw point.dataType raw
  return scaled point.scale point.offset value

end Portable

/-! ## The codec of the core library -/

namespace Core

/-- `CanDecodeError`. -/
inductive CanDecodeError
  | offsetOutOfRange
  | invalidBitPosition
  | insufficientData
  | unsupportedBitLength

/-- `CanValue`. -/
inductive CanValue
  | integer (i : Int64)
  | float (f : Float)
  | string (bytes : Bytes)

/-- Whole bytes, in the core library. -/
def wholeBytes (byteOffset bitPosition count : Nat) : Except CanDecodeError Bytes :=
  if bitPosition ≠ 0 then .error .invalidBitPosition
  else if data.length < byteOffset + count then .error .insufficientData
  else .ok ((data.drop byteOffset).take count)

/-- `extract_field`. -/
def extractField (byteOffset bitPosition bitLength : Nat) :
    Except CanDecodeError Bytes :=
  match data[byteOffset]? with
  | none => .error .offsetOutOfRange
  | some b =>
    if bitLength = 2 then
      if 6 < bitPosition then .error .invalidBitPosition
      else .ok [b >>> .ofNat bitPosition &&& 3]
    else if bitLength = 8 then wholeBytes data byteOffset bitPosition 1
    else if bitLength = 16 then wholeBytes data byteOffset bitPosition 2
    else if bitLength = 32 then wholeBytes data byteOffset bitPosition 4
    else if bitLength = 64 then wholeBytes data byteOffset bitPosition 8
    else .error .unsupportedBitLength

/-- `decode_value`; a text is its bytes up to the first NUL. -/
def decodeValue : Bytes → CanDataType → Except CanDecodeError CanValue
  | a :: _, .uint8 => .ok (.integer (.ofNat a.toNat))
  | a :: b :: _, .uint16 => .ok (.integer (.ofNat (ofLeBytes [a, b])))
  | a :: b :: _, .int16 => .ok (.integer (UInt16.ofNat (ofLeBytes [a, b])).toInt16.toInt64)
  | a :: b :: c :: d :: _, .uint32 => .ok (.integer (.ofNat (ofLeBytes [a, b, c, d])))
  | a :: b :: c :: d :: _, .int32 =>
    .ok (.integer (UInt32.ofNat (ofLeBytes [a, b, c, d])).toInt32.toInt64)
  | a :: b :: c :: d :: _, .float32 =>
    .ok (.float (Float32.ofBits (.ofNat (ofLeBytes [a, b, c, d]))).toFloat)
  | bytes, .ascii => .ok (.string ((bytes.takeWhile (· ≠ 0)).take 8))
  | _, _ => .error .insufficientData

/-- `decode`. -/
def decode (point : CanPoint) (frame : Bytes) : Except CanDecodeError CanValue := do
  let field ← extractField frame point.byteOffset point.bitPosition point.bitLength
  decodeValue field point.dataType

end Core

/-! ## Texts -/

theorem decodeLossyChar_nul (lead : UInt8) (rest r : Bytes) :
    decodeLossyChar lead (rest ++ 0 :: r) = decodeLossyChar lead rest ∧
      (decodeLossyChar lead rest).2 ≤ rest.length := by
  have hcont : isCont 0 = false := by decide
  have hsecond : secondByteOk lead 0 = false := by
    unfold secondByteOk
    split_ifs <;> decide
  unfold decodeLossyChar
  rcases rest with _ | ⟨a, _ | ⟨b, _ | ⟨c, rest⟩⟩⟩
  · simp [hcont, hsecond]
    split_ifs <;> simp
  · simp [hcont]
    split_ifs <;> simp
  · simp [hcont]
    split_ifs <;> simp
  simp
  split_ifs <;> simp

theorem decodeLossy_succ (fuel : Nat) (lead : UInt8) (rest : Bytes) :
    decodeLossy (fuel + 1) (lead :: rest) = (decodeLossyChar lead rest).1 ::
      decodeLossy fuel (rest.drop (decodeLossyChar lead rest).2) := rfl

theorem decodeLossy_fuel (fuel : Nat) {bytes : Bytes} (h : bytes.length ≤ fuel) :
    decodeLossy fuel bytes = decodeLossy bytes.length bytes := by
  induction fuel using Nat.strong_induction_on generalizing bytes with
  | _ fuel ih =>
    match fuel, bytes, h with
    | 0, [], _ | _ + 1, [], _ => rfl
    | fuel + 1, lead :: rest, h =>
      have hdrop : (rest.drop (decodeLossyChar lead rest).2).length ≤ rest.length := by simp
      have hfuel : rest.length ≤ fuel := by simpa using h
      rw [length_cons, decodeLossy_succ, decodeLossy_succ,
        ih fuel (by omega) (hdrop.trans hfuel), ih rest.length (by omega) hdrop]

theorem decodeLossy_cons (lead : UInt8) (rest : Bytes) :
    decodeLossy (lead :: rest).length (lead :: rest) = (decodeLossyChar lead rest).1 ::
      decodeLossy (rest.drop (decodeLossyChar lead rest).2).length
        (rest.drop (decodeLossyChar lead rest).2) :=
  congrArg (_ :: ·) (decodeLossy_fuel _ (by simp))

theorem decodeLossy_nul (t r : Bytes) :
    decodeLossy (t ++ 0 :: r).length (t ++ 0 :: r) =
      decodeLossy t.length t ++ '\x00' :: decodeLossy r.length r := by
  induction hn : t.length using Nat.strong_induction_on generalizing t with
  | _ n ih =>
    subst hn
    cases t with
    | nil => rfl
    | cons lead rest =>
      obtain ⟨hchar, hle⟩ := decodeLossyChar_nul lead rest r
      rw [cons_append, decodeLossy_cons, hchar, drop_append_of_le_length hle,
        ih _ (by simp) _ rfl, decodeLossy_cons, cons_append]

theorem secondByteOk_bounds {lead b : UInt8} (h : secondByteOk lead b = true) :
    (lead.toNat = 224 → 160 ≤ b.toNat ∧ b.toNat ≤ 191) ∧
      (lead.toNat = 237 → 128 ≤ b.toNat ∧ b.toNat ≤ 159) ∧
      (lead.toNat = 240 → 144 ≤ b.toNat ∧ b.toNat ≤ 191) ∧
      (lead.toNat = 244 → 128 ≤ b.toNat ∧ b.toNat ≤ 143) := by
  simp only [secondByteOk, ← UInt8.toNat_inj] at h
  split_ifs at h <;> simp_all [UInt8.le_iff_toNat_le]

theorem toNat_between {lo hi b : UInt8} (h : (decide (lo ≤ b) && decide (b ≤ hi)) = true) :
    lo.toNat ≤ b.toNat ∧ b.toNat ≤ hi.toNat := by
  simpa [UInt8.le_iff_toNat_le] using h

theorem toNat_low (b : UInt8) : (b &&& 0x3F).toNat = b.toNat % 64 :=
  (UInt8.toNat_and b 0x3F).trans (Nat.and_two_pow_sub_one_eq_mod b.toNat 6)

/-- Every character is a scalar value, and NUL comes from the byte 0 only. -/
theorem decodeLossyChar_scalar (lead : UInt8) (rest : Bytes) :
    ∃ n, (decodeLossyChar lead rest).1 = Char.ofNat n ∧ n.isValidChar ∧ (n = 0 → lead = 0) := by
  have hscalar : ∀ n, 0 < n → n < 0xD800 ∨ 0xDFFF < n ∧ n < 0x110000 →
      ∃ m, Char.ofNat n = Char.ofNat m ∧ m.isValidChar ∧ (m = 0 → lead = 0) :=
    fun n hpos hvalid => ⟨n, rfl, hvalid, fun h => absurd h hpos.ne'⟩
  fun_cases decodeLossyChar lead rest with
  | case1 rest h =>
    exact ⟨lead.toNat, rfl, .inl ((UInt8.lt_iff_toNat_lt.mp h).trans (by decide)),
      fun h => UInt8.toNat_inj.mp h⟩
  | case2 bits _ hlead b =>
    have hlead : 0xC2 ≤ _ ∧ _ ≤ 0xDF := toNat_between hlead
    have hhigh : (lead &&& 0x1F).toNat = lead.toNat % 32 :=
      (UInt8.toNat_and lead 0x1F).trans (Nat.and_two_pow_sub_one_eq_mod lead.toNat 5)
    have hb : bits b = _ := toNat_low b
    refine hscalar _ ?_ (.inl ?_) <;> omega
  | case5 bits _ _ hlead b hok c =>
    have hlead : 0xE0 ≤ _ ∧ _ ≤ 0xEF := toNat_between hlead
    have hhigh : (lead &&& 0x0F).toNat = lead.toNat % 16 :=
      (UInt8.toNat_and lead 0x0F).trans (Nat.and_two_pow_sub_one_eq_mod lead.toNat 4)
    have hb : bits b = _ := toNat_low b
    have hc : bits c = _ := toNat_low c
    obtain ⟨hE0, hED, -, -⟩ := secondByteOk_bounds hok
    refine hscalar _ ?_ ?_ <;> omega
  | case10 bits _ _ _ hlead b hok c _ d =>
    have hlead : 0xF0 ≤ _ ∧ _ ≤ 0xF4 := toNat_between hlead
    have hhigh : (lead &&& 0x07).toNat = lead.toNat % 8 :=
      (UInt8.toNat_and lead 0x07).trans (Nat.and_two_pow_sub_one_eq_mod lead.toNat 3)
    have hb : bits b = _ := toNat_low b
    have hc : bits c = _ := toNat_low c
    have hd : bits d = _ := toNat_low d
    obtain ⟨-, -, hF0, hF4⟩ := secondByteOk_bounds hok
    refine hscalar _ ?_ (.inr ?_) <;> omega
  -- every other case is the replacement character
  | _ => exact hscalar 0xFFFD (by decide) (by decide)

theorem eq_zero_of_decodeLossyChar {lead : UInt8} {rest : Bytes}
    (h : (decodeLossyChar lead rest).1 = '\x00') : lead = 0 := by
  obtain ⟨n, heq, hvalid, hzero⟩ := decodeLossyChar_scalar lead rest
  have hn := congrArg Char.toNat (heq.symm.trans h)
  rw [Char.toNat_ofNat, if_pos hvalid] at hn
  exact hzero hn

theorem zero_of_nul_mem {bytes : Bytes} (h : '\x00' ∈ decodeLossy bytes.length bytes) :
    (0 : UInt8) ∈ bytes := by
  induction hn : bytes.length using Nat.strong_induction_on generalizing bytes with
  | _ n ih =>
    subst hn
    cases bytes with
    | nil => cases h
    | cons lead rest =>
      rw [decodeLossy_cons] at h
      rcases mem_cons.mp h with heq | hrest
      · rw [eq_zero_of_decodeLossyChar heq.symm]
        exact .head _
      · exact .tail _ (mem_of_mem_drop (ih _ (by simp) hrest rfl))

theorem nul_iff_zero (bytes : Bytes) :
    (∀ c ∈ decodeLossy bytes.length bytes, c = '\x00') ↔ ∀ b ∈ bytes, b = 0 := by
  induction bytes with
  | nil => simp [decodeLossy]
  | cons lead rest ih =>
    by_cases hlead : lead = 0
    · have hnul := decodeLossy_nul [] rest
      rw [nil_append] at hnul
      rw [hlead, hnul, forall_mem_cons, ← ih]
      simp [decodeLossy]
    refine iff_of_false (fun h => hlead ?_) fun h => hlead (h lead (.head _))
    rw [decodeLossy_cons] at h
    exact eq_zero_of_decodeLossyChar (h _ (.head _))

theorem rdropWhile_nul {front tail : List Char} (hfront : '\x00' ∉ front)
    (htail : ∀ c ∈ tail.head?, c = '\x00') :
    ((∀ c ∈ tail, c = '\x00') → (front ++ tail).rdropWhile (· = '\x00') = front) ∧
      ('\x00' ∉ (front ++ tail).rdropWhile (· = '\x00') → ∀ c ∈ tail, c = '\x00') := by
  constructor
  · intro hall
    have hkeep : (front.reverse).dropWhile (· = '\x00') = front.reverse :=
      List.dropWhile_eq_self_iff.mpr fun hpos hlast =>
        hfront (List.mem_reverse.mp (of_decide_eq_true hlast ▸ getElem_mem hpos))
    rw [rdropWhile, reverse_append, dropWhile_append_of_pos (by simpa using hall), hkeep,
      reverse_reverse]
  intro hnone
  cases tail with
  | nil => exact nofun
  | cons c tail =>
    obtain rfl := htail c rfl
    have hsplit : (front ++ '\x00' :: tail).rdropWhile (· = '\x00') ++ _ = _ :=
      rdropWhile_append_rtakeWhile
    have hsuffix : ∀ c ∈ (front ++ '\x00' :: tail).rtakeWhile (· = '\x00'), c = '\x00' :=
      fun c hc => by simpa using mem_rtakeWhile_imp hc
    generalize (front ++ '\x00' :: tail).rdropWhile (· = '\x00') = kept at *
    generalize (front ++ '\x00' :: tail).rtakeWhile (· = '\x00') = suffix at *
    cases suffix with
    | nil =>
      rw [append_nil] at hsplit
      exact absurd (hsplit ▸ mem_append_right _ (.head _)) hnone
    | cons d suffix =>
      obtain rfl := hsuffix d (.head _)
      rw [← (append_cons_inj hnone hfront hsplit).2]
      exact hsuffix

/-- Nothing but NUL follows the first NUL, and `from_utf8_lossy` keeps what precedes it. -/
def CleanText (raw : Bytes) : Prop :=
  (∀ b ∈ raw.dropWhile (· ≠ 0), b = 0) ∧
    utf8 (fromUtf8Lossy (raw.takeWhile (· ≠ 0))) = raw.takeWhile (· ≠ 0)

theorem utf8_ofList (cs : List Char) :
    utf8 (String.ofList cs) = cs.flatMap String.utf8EncodeChar := by
  simp [utf8, String.toUTF8, utf8Encode]

theorem text_iff (raw : Bytes) :
    utf8 (.ofList ((fromUtf8Lossy raw).toList.rdropWhile (· = '\x00'))) = raw.takeWhile (· ≠ 0) ↔
      CleanText raw := by
  unfold CleanText
  have hraw := takeWhile_append_dropWhile (p := (· ≠ (0 : UInt8))) (l := raw)
  have hzero : (0 : UInt8) ∉ raw.takeWhile (· ≠ 0) := fun h => by
    simpa using mem_takeWhile_imp h
  have htail : raw.dropWhile (· ≠ 0) = [] ∨ ∃ r, raw.dropWhile (· ≠ 0) = 0 :: r := by
    cases hw : raw.dropWhile (· ≠ 0) with
    | nil => exact .inl rfl
    | cons b r =>
      have hb := head?_dropWhile_not (· ≠ (0 : UInt8)) raw
      rw [hw] at hb
      exact .inr ⟨r, by rw [of_not_not (of_decide_eq_false hb)]⟩
  generalize raw.takeWhile (· ≠ 0) = t at *
  generalize raw.dropWhile (· ≠ 0) = w at *
  subst hraw
  have hnul : '\x00' ∉ decodeLossy t.length t := fun h => hzero (zero_of_nul_mem h)
  have hdecode : decodeLossy (t ++ w).length (t ++ w) =
      decodeLossy t.length t ++ decodeLossy w.length w := by
    rcases htail with rfl | ⟨r, rfl⟩
    · simp [decodeLossy]
    rw [decodeLossy_nul, ← nil_append (0 :: r), decodeLossy_nul]
    rfl
  have hhead : ∀ c ∈ (decodeLossy w.length w).head?, c = '\x00' := by
    rcases htail with rfl | ⟨r, rfl⟩
    · exact nofun
    rw [← nil_append (0 :: r), decodeLossy_nul]
    exact fun c hc => (some.inj hc).symm
  obtain ⟨hdrop, hall⟩ := rdropWhile_nul hnul hhead
  rw [fromUtf8Lossy, fromUtf8Lossy, String.toList_ofList, hdecode]
  constructor
  · intro heq
    have hw := hall fun hmem => hzero (by
      rw [← heq, utf8_ofList]
      exact mem_flatMap.mpr ⟨_, hmem, by decide⟩)
    exact ⟨(nul_iff_zero w).mp hw, by rwa [hdrop hw] at heq⟩
  rintro ⟨hw, heq⟩
  rwa [hdrop ((nul_iff_zero w).mpr hw)]

/-! ## Agreement -/

theorem portable_extractField (byteOffset bitPosition bitLength : Nat) :
    Portable.extractField data byteOffset bitPosition bitLength =
      extractField data byteOffset bitPosition bitLength := by
  unfold Portable.extractField extractField
  cases data[byteOffset]? with
  | none => rfl
  | some b =>
    dsimp only
    split_ifs <;> simp_all [Portable.extractMultibyte]

theorem portable_decodeRaw (dataType : CanDataType) (raw : Bytes) :
    Portable.decodeRaw dataType raw = decodeRaw dataType raw := by
  rcases raw with _ | ⟨a, _ | ⟨b, _ | ⟨c, _ | ⟨d, raw⟩⟩⟩⟩ <;> cases dataType <;>
    simp [Portable.decodeRaw, Portable.readLe, decodeRaw, Except.map, CanDataType.name]

theorem core_extractField (byteOffset bitPosition bitLength : Nat) :
    (∃ field, extractField data byteOffset bitPosition bitLength = .ok field ∧
      Core.extractField data byteOffset bitPosition bitLength = .ok field ∧ field.length ≤ 8) ∨
    ∃ text e, extractField data byteOffset bitPosition bitLength = .error text ∧
      Core.extractField data byteOffset bitPosition bitLength = .error e := by
  have hwhole : ∀ bits count, count ≤ 8 →
      (∃ field, wholeBytes data byteOffset bitPosition bits count = .ok field ∧
        Core.wholeBytes data byteOffset bitPosition count = .ok field ∧ field.length ≤ 8) ∨
      ∃ text e, wholeBytes data byteOffset bitPosition bits count = .error text ∧
        Core.wholeBytes data byteOffset bitPosition count = .error e := by
    intro bits count hcount
    unfold wholeBytes Core.wholeBytes
    split_ifs
    · exact .inr ⟨_, _, rfl, rfl⟩
    · exact .inr ⟨_, _, rfl, rfl⟩
    · exact .inl ⟨_, rfl, rfl, (length_take_le ..).trans hcount⟩
  unfold Core.extractField extractField twoBits
  cases data[byteOffset]? with
  | none => exact .inr ⟨_, _, rfl, rfl⟩
  | some b =>
    dsimp only
    split_ifs
    · exact .inr ⟨_, _, rfl, rfl⟩
    · exact .inl ⟨_, rfl, rfl, by simp⟩
    · exact hwhole 8 1 (by decide)
    · exact hwhole 16 2 (by decide)
    · exact hwhole 32 4 (by decide)
    · exact hwhole 64 8 le_rfl
    · exact .inr ⟨_, _, rfl, rfl⟩

theorem decodeRaw_cases {dataType : CanDataType} (htype : dataType ≠ .float32) {field : Bytes}
    (hlen : field.length ≤ 8) :
    (dataType ≠ .ascii ∧ ∃ i, decodeRaw dataType field = .ok (.integer i) ∧
      Core.decodeValue field dataType = .ok (.integer i)) ∨
    (dataType ≠ .ascii ∧ ∃ text e, decodeRaw dataType field = .error text ∧
      Core.decodeValue field dataType = .error e) ∨
    dataType = .ascii ∧ decodeRaw dataType field = .ok (lossyText field) ∧
      Core.decodeValue field dataType = .ok (.string (field.takeWhile (· ≠ 0))) := by
  have htake : (field.takeWhile (· ≠ 0)).take 8 = field.takeWhile (· ≠ 0) :=
    take_of_length_le ((List.takeWhile_prefix _).length_le.trans hlen)
  cases dataType with
  | float32 => exact absurd rfl htype
  | ascii =>
    refine .inr (.inr ⟨rfl, ?_, ?_⟩)
    · cases field <;> rfl
    rw [← htake]
    rcases field with _ | ⟨a, _ | ⟨b, _ | ⟨c, _ | ⟨d, field⟩⟩⟩⟩ <;> rfl
  | uint8 =>
    cases field with
    | nil => exact .inr (.inl ⟨nofun, _, _, rfl, rfl⟩)
    | cons a field =>
      refine .inl ⟨nofun, _, rfl, ?_⟩
      rcases field with _ | ⟨b, _ | ⟨c, _ | ⟨d, field⟩⟩⟩ <;> rfl
  | uint16 | int16 =>
    rcases field with _ | ⟨a, _ | ⟨b, field⟩⟩
    · exact .inr (.inl ⟨nofun, _, _, rfl, rfl⟩)
    · exact .inr (.inl ⟨nofun, _, _, rfl, rfl⟩)
    · exact .inl ⟨nofun, _, rfl, by rcases field with _ | ⟨c, _ | ⟨d, field⟩⟩ <;> rfl⟩
  | uint32 | int32 =>
    rcases field with _ | ⟨a, _ | ⟨b, _ | ⟨c, _ | ⟨d, field⟩⟩⟩⟩
    · exact .inr (.inl ⟨nofun, _, _, rfl, rfl⟩)
    · exact .inr (.inl ⟨nofun, _, _, rfl, rfl⟩)
    · exact .inr (.inl ⟨nofun, _, _, rfl, rfl⟩)
    · exact .inr (.inl ⟨nofun, _, _, rfl, rfl⟩)
    · exact .inl ⟨nofun, _, rfl, rfl⟩

/-- The same integer, or texts with the same bytes. -/
def SameValue : Value → Core.CanValue → Prop
  | .integer i, .integer j => i = j
  | .string s, .string bytes => utf8 s = bytes
  | _, _ => False

/-- All three decoders fail, or all succeed with the same integer or text. -/
def Agree (point : CanPoint) (frame : Bytes) : Prop :=
  match decodePoint point frame, Portable.decodePoint point frame, Core.decode point frame with
  | .error _, .error _, .error _ => True
  | .ok v, .ok w, .ok c => v = w ∧ SameValue v c
  | _, _, _ => False

/-- **The decoders agree**, for points without scale and offset that are no floats: on all numbers,
and on a text exactly if its field is clean. -/
theorem decoders_agree_iff {point : CanPoint} (hscale : point.scale = 1) (hoffset : point.offset = 0)
    (htype : point.dataType ≠ .float32) (frame : Bytes) :
    Agree point frame ↔ (point.dataType = .ascii → ∀ field,
      extractField frame point.byteOffset point.bitPosition point.bitLength = .ok field →
        CleanText field) := by
  have hscaled : ∀ v, scaled 1 0 v = v := by
    intro v
    have hone : ((1 : Float) != 1 || (0 : Float) != 0) = false := by decide +kernel
    cases v with
    | integer i =>
      rw [scaled, hone]
      rfl
    | float | bool | string | null => rfl
  unfold Agree decodePoint Portable.decodePoint Core.decode
  rw [portable_extractField, hscale, hoffset]
  obtain ⟨field, hfield, hcore, hlen⟩ | ⟨text, e, hfield, hcore⟩ :=
    core_extractField frame point.byteOffset point.bitPosition point.bitLength
  · rw [hfield, hcore]
    have hclean : (point.dataType = .ascii → ∀ field', Except.ok (ε := String) field = .ok field' →
        CleanText field') ↔ (point.dataType = .ascii → CleanText field) := by simp
    rw [hclean]
    dsimp only [bind, Except.bind, pure, Except.pure]
    rw [portable_decodeRaw]
    obtain ⟨hnot, i, hraw, hvalue⟩ | ⟨hnot, text, e, hraw, hvalue⟩ | ⟨hascii, hraw, hvalue⟩ :=
      decodeRaw_cases htype hlen
    · rw [hraw, hvalue]
      exact iff_of_true ⟨rfl, by rw [hscaled]; rfl⟩ fun h => absurd h hnot
    · rw [hraw, hvalue]
      exact iff_of_true trivial fun h => absurd h hnot
    rw [hraw, hvalue, hascii]
    simp only [hscaled, true_and, forall_const]
    exact text_iff field
  rw [hfield, hcore]
  exact iff_of_true trivial fun _ field h => by cases h

/-! ## The read task -/

/-- `add_point`: the points are kept by their ids, the latest of each. -/
def addPoint (points : List CanPoint) (p : CanPoint) : List CanPoint :=
  points.filter (·.pointId ≠ p.pointId) ++ [p]

/-- The points added one after the other. -/
def pointManager (points : List CanPoint) : List CanPoint := points.foldl addPoint []

/-- The value of a point, if its frame is cached and can be decoded. -/
def reading (cache : Nat → Option Bytes) (p : CanPoint) : Option Value :=
  (cache p.canId).bind fun frame => (decodePoint p frame).toOption

/-- `apply_mappings`. -/
def applyMappings (points : List CanPoint) (cache : Nat → Option Bytes) : List (Nat × Value) :=
  points.filterMap fun p => (reading cache p).map (p.pointId, ·)

/-- One cycle of the read task: the batch it sends, if any; `order` is that of the hash map. -/
def readCycle (order : List (Nat × Value) → List (Nat × Value)) (points : List CanPoint)
    (cache : Nat → Option Bytes) : Option (List DataPoint) :=
  let decoded := order (applyMappings (pointManager points) cache)
  if decoded.isEmpty then none else some (decoded.map fun d => ⟨d.1, .telemetry, d.2⟩)

/-- The data point of a point, with its own type and id. -/
def ownData (cache : Nat → Option Bytes) (p : CanPoint) : Option DataPoint :=
  (reading cache p).map (⟨p.pointId, p.pointType, ·⟩)

section Cycle

variable {cache : Nat → Option Bytes} {points : List CanPoint}

theorem pointManager_concat (points : List CanPoint) (p : CanPoint) :
    pointManager (points ++ [p]) = (pointManager points).filter (·.pointId ≠ p.pointId) ++ [p] := by
  rw [pointManager, foldl_append]
  rfl

theorem subset_pointManager : pointManager points ⊆ points := by
  induction points using reverseRecOn with
  | nil => exact fun _ h => h
  | append_singleton points p ih =>
    rw [pointManager_concat]
    exact List.append_subset.mpr ⟨fun q hq => mem_append_left _ (ih (mem_of_mem_filter hq)),
      subset_append_right ..⟩

theorem filterMap_pointManager {β : Type} {f : CanPoint → Option β}
    (h : points.Pairwise fun p q => (f p).isSome = true → p.pointId ≠ q.pointId) :
    (pointManager points).filterMap f = points.filterMap f := by
  induction points using reverseRecOn with
  | nil => rfl
  | append_singleton points p ih =>
    obtain ⟨hpoints, -, hlast⟩ := pairwise_append.mp h
    rw [pointManager_concat, filterMap_append, filterMap_append, ← ih hpoints,
      filterMap_filter]
    refine congrArg (· ++ _) (filterMap_congr fun q hq => ?_)
    cases hq' : f q with
    | none => simp
    | some b =>
      have := hlast q (subset_pointManager hq) p (.head _) (by rw [hq']; rfl)
      simp [this]

theorem pairwise_of_pointManager {P : CanPoint → Prop} (hnodup : points.Nodup)
    (h : ∀ p ∈ points, P p → p ∈ pointManager points) :
    points.Pairwise fun p q => P p → p.pointId ≠ q.pointId := by
  induction points using reverseRecOn with
  | nil => exact .nil
  | append_singleton points q ih =>
    obtain ⟨hpoints, -, hdisjoint⟩ := List.nodup_append.mp hnodup
    have hkept : ∀ p ∈ points, P p → p ∈ pointManager points ∧ p.pointId ≠ q.pointId := by
      intro p hp hP
      have hmem := h p (mem_append_left _ hp) hP
      rw [pointManager_concat] at hmem
      rcases mem_append.mp hmem with hmem | hmem
      · obtain ⟨hmem, hid⟩ := mem_filter.mp hmem
        exact ⟨hmem, of_decide_eq_true hid⟩
      · exact absurd (mem_singleton.mp hmem) (hdisjoint p hp q (.head _))
    refine pairwise_append.mpr ⟨ih hpoints fun p hp hP => (hkept p hp hP).1, .cons nofun .nil, ?_⟩
    intro p hp q' hq' hP
    rw [mem_singleton.mp hq']
    exact (hkept p hp hP).2

theorem readCycle_getD {order : List (Nat × Value) → List (Nat × Value)}
    (horder : ∀ l, (order l).Perm l) (points : List CanPoint) (cache : Nat → Option Bytes) :
    ((readCycle order points cache).getD []).Perm
      ((pointManager points).filterMap fun p => (reading cache p).map (⟨p.pointId, .telemetry, ·⟩)) := by
  have hmap : (readCycle order points cache).getD [] =
      (order (applyMappings (pointManager points) cache)).map fun d => ⟨d.1, .telemetry, d.2⟩ := by
    unfold readCycle
    dsimp only
    split
    · rename_i hempty
      rw [List.isEmpty_iff.mp hempty]
      rfl
    · rfl
  rw [hmap]
  refine ((horder _).map _).trans (.of_eq ?_)
  rw [applyMappings, map_filterMap]
  simp only [Option.map_map, Function.comp_def]

/-- **A cycle of the read task is exact**: it sends every decodable point once, as itself, exactly
if these are telemetry points and none is replaced by a later point with its id. -/
theorem cycle_exact_iff {order : List (Nat × Value) → List (Nat × Value)}
    (horder : ∀ l, (order l).Perm l)
    (hkeys : (points.map fun p => (p.pointType, p.pointId)).Nodup) (cache : Nat → Option Bytes) :
    ((readCycle order points cache).getD []).Perm (points.filterMap (ownData cache)) ↔
      (∀ p ∈ points, (reading cache p).isSome = true → p.pointType = .telemetry) ∧
        points.Pairwise fun p q => (reading cache p).isSome = true → p.pointId ≠ q.pointId := by
  have hsent := readCycle_getD horder points cache
  constructor
  · intro hexact
    have hboth := hsent.symm.trans hexact
    have hown : ∀ p ∈ points, (reading cache p).isSome = true →
        p.pointType = .telemetry ∧ ∃ q ∈ pointManager points, q.pointId = p.pointId ∧
          (reading cache q).isSome = true := by
      intro p hp hread
      obtain ⟨v, hv⟩ := isSome_iff_exists.mp hread
      have hmem : (⟨p.pointId, p.pointType, v⟩ : DataPoint) ∈ points.filterMap (ownData cache) :=
        mem_filterMap.mpr ⟨p, hp, by rw [ownData, hv]; rfl⟩
      obtain ⟨q, hq, heq⟩ := mem_filterMap.mp (hboth.mem_iff.mpr hmem)
      obtain ⟨w, hw, heq⟩ := map_eq_some_iff.mp heq
      injection heq with hid htype
      exact ⟨htype.symm, q, hq, hid, by rw [hw]; rfl⟩
    refine ⟨fun p hp hread => (hown p hp hread).1,
      pairwise_of_pointManager (hkeys.of_map _) fun p hp hread => ?_⟩
    obtain ⟨htype, q, hq, hid, hread'⟩ := hown p hp hread
    have hq' := subset_pointManager hq
    have hsame := inj_on_of_nodup_map hkeys hq' hp
      (Prod.ext ((hown q hq' hread').1.trans htype.symm) hid)
    exact hsame ▸ hq
  rintro ⟨htype, hpairwise⟩
  refine hsent.trans (.of_eq ?_)
  rw [filterMap_pointManager (by simpa using hpairwise)]
  refine filterMap_congr fun p hp => ?_
  cases hread : reading cache p with
  | none => simp [ownData, hread]
  | some v => simp [ownData, hread, htype p hp (by rw [hread]; rfl)]

end Cycle

namespace SampleCan

def point (id : Nat) (pointType : PointType) (dataType : CanDataType) (bits : Nat) : CanPoint where
  pointId := id
  pointType := pointType
  canId := 0x351
  byteOffset := 0
  bitPosition := 0
  bitLength := bits
  dataType := dataType
  scale := 1
  offset := 0

/-- `A`, NUL, `B` and five NULs. -/
def frame : Bytes := [0x41, 0, 0x42, 0, 0, 0, 0, 0]

/-- One frame has come. -/
def cache (canId : Nat) : Option Bytes := if canId = 0x351 then some frame else none

def signals : List CanPoint :=
  [{ point 1 .signal .uint8 8 with canId := 0x352 }, point 1 .telemetry .uint16 16,
   point 2 .telemetry .uint8 8]

end SampleCan

open SampleCan in
/-- A text that ends with its field, and a number. -/
theorem decoders_agree_text :
    Agree (point 1 .telemetry .ascii 16) frame ∧ Agree (point 1 .telemetry .uint16 16) frame := by
  refine ⟨(decoders_agree_iff rfl rfl (by decide) frame).mpr fun _ field hfield => ?_,
    (decoders_agree_iff rfl rfl (by decide) frame).mpr fun h => absurd h (by decide)⟩
  obtain rfl : [0x41, 0] = field := Except.ok.inj hfield
  unfold CleanText
  decide +kernel

open SampleCan in
/-- A byte after the first NUL: only the text of the adapter goes on. -/
theorem text_past_nul :
    decodePoint (point 1 .telemetry .ascii 64) frame = .ok (.string "A\x00B") ∧
      (Core.decode (point 1 .telemetry .ascii 64) frame).toOption.map (fun
        | .string bytes => bytes
        | _ => []) = some [0x41] := by
  decide +kernel

open SampleCan in
/-- A signal of a frame that did not come, and two telemetry points of one that did. -/
theorem cycle_exact_silent_signal :
    ((readCycle List.reverse signals cache).getD []).Perm (signals.filterMap (ownData cache)) ∧
      (signals.filterMap (ownData cache)).length = 2 :=
  ⟨(cycle_exact_iff reverse_perm (by decide) cache).mpr (by decide +kernel), by decide +kernel⟩

open SampleCan in
/-- A signal with the id of a telemetry point replaces it, and is sent as telemetry. -/
theorem namesake_replaces_point :
    ([point 1 .telemetry .uint16 16, point 1 .signal .uint8 8].map
        fun p => (p.pointType, p.pointId)).Nodup ∧
      ((readCycle id [point 1 .telemetry .uint16 16, point 1 .signal .uint8 8] cache).getD []).map
          (fun d => (d.id, d.pointType)) = [(1, .telemetry)] ∧
      ([point 1 .telemetry .uint16 16, point 1 .signal .uint8 8].filterMap (ownData cache)).map
          (fun d => (d.id, d.pointType)) = [(1, .telemetry), (1, .signal)] := by
  decide +kernel

end VoltageEMS.Comsrv.Can
