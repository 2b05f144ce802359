import VoltageEMS.Comsrv.PointMapping
import VoltageEMS.Iec61850.Channel

/-!
# Values in 16-bit registers

A Modbus value occupies one, two, four or eight registers; the bytes of wider numbers come in one of
four orders (`comsrv/src/protocols/codec/byte_order.rs`).
-/

namespace VoltageEMS.Comsrv.Registers

open Lib Comsrv.Mapping Iec61850 List

/-! ## Bytes -/

/-- The high byte. -/
def hi (r : UInt16) : UInt8 := (r >>> 8).toUInt8

/-- The low byte. -/
def lo (r : UInt16) : UInt8 := (r &&& 0xFF).toUInt8

/-- The register of two bytes. -/
def word (hi lo : UInt8) : UInt16 := hi.toUInt16 <<< 8 ||| lo.toUInt16

/-- `from_be_bytes`, before it is read as signed. -/
def fromBeBytes (bytes : List UInt8) : Nat := ofLeBytes bytes.reverse

/-- `to_be_bytes`. -/
def toBeBytes (w n : Nat) : List UInt8 := (leBytes w n).reverse

/-- The table of `reorder_bytes_32`, and again of `reorder_to_registers_32`. -/
def permute32 : ByteOrder → List UInt8 → List UInt8
  | .dcba, [a, b, c, d] => [d, c, b, a]
  | .badc, [a, b, c, d] => [b, a, d, c]
  | .cdab, [a, b, c, d] => [c, d, a, b]
  | _, bytes => bytes

/-- The same for 64 bits. -/
def permute64 : ByteOrder → List UInt8 → List UInt8
  | .dcba, bytes => bytes.reverse
  | .badc, [a, b, c, d, e, f, g, h] => [b, a, d, c, f, e, h, g]
  | .cdab, [a, b, c, d, e, f, g, h] => [c, d, a, b, g, h, e, f]
  | _, bytes => bytes

/-- The bytes of registers. -/
def bytesOf (registers : List UInt16) : List UInt8 := registers.flatMap fun r => [hi r, lo r]

/-- The registers of bytes. -/
def registersOf : List UInt8 → List UInt16
  | a :: b :: bytes => word a b :: registersOf bytes
  | [a] => [word a 0]
  | [] => []

/-- `reorder_bytes_32`. -/
def reorderBytes32 (r0 r1 : UInt16) (order : ByteOrder) : List UInt8 :=
  permute32 order (bytesOf [r0, r1])

/-- `reorder_bytes_64`. -/
def reorderBytes64 (registers : List UInt16) (order : ByteOrder) : List UInt8 :=
  permute64 order (bytesOf (registers.take 4))

/-- `reorder_to_registers_32`. -/
def reorderToRegisters32 (bytes : List UInt8) (order : ByteOrder) : List UInt16 :=
  registersOf (permute32 order bytes)

/-- `reorder_to_registers_64`. -/
def reorderToRegisters64 (bytes : List UInt8) (order : ByteOrder) : List UInt16 :=
  registersOf (permute64 order bytes)

/-! ## Decoding -/

/-- The character of a byte, but NUL. -/
def latin (b : UInt8) : List Char := if b = 0 then [] else [Char.ofNat b.toNat]

/-- `decode_registers`. -/
def decodeRegisters (registers : List UInt16) (format : DataFormat) (byteOrder : ByteOrder)
    (bitPosition : Option Nat) : Except String Value :=
  match format, registers with
  | .bool, [] => .error "No registers for bool"
  | .bool, r :: _ =>
    let bit := bitPosition.getD 0
    if 15 < bit then .error "Bit position must be 0-15"
    else .ok (.bool (r >>> .ofNat bit &&& 1 == 1))
  | .uint16, [] => .error "No registers for uint16"
  | .uint16, r :: _ => .ok (.integer (.ofNat r.toNat))
  | .int16, [] => .error "No registers for int16"
  | .int16, r :: _ => .ok (.integer r.toInt16.toInt64)
  | .uint32, r0 :: r1 :: _ => .ok (.integer (.ofNat (fromBeBytes (reorderBytes32 r0 r1 byteOrder))))
  | .int32, r0 :: r1 :: _ =>
    .ok (.integer (UInt32.ofNat (fromBeBytes (reorderBytes32 r0 r1 byteOrder))).toInt32.toInt64)
  | .uint32, _ | .int32, _ => .error "Need 2 registers for 32-bit value"
  | .float32, r0 :: r1 :: _ =>
    let value := Float32.ofBits (.ofNat (fromBeBytes (reorderBytes32 r0 r1 byteOrder)))
    if value.isFinite then .ok (.float value.toFloat) else .error "Invalid float32 value"
  | .float32, _ => .error "Need 2 registers for float32"
  -- both 64-bit formats are read with `i64::from_be_bytes`
  | .uint64, r0 :: r1 :: r2 :: r3 :: _ | .int64, r0 :: r1 :: r2 :: r3 :: _ =>
    .ok (.integer (.ofNat (fromBeBytes (reorderBytes64 [r0, r1, r2, r3] byteOrder))))
  | .uint64, _ | .int64, _ => .error "Need 4 registers for 64-bit value"
  | .float64, r0 :: r1 :: r2 :: r3 :: _ =>
    let value := Float.ofBits (.ofNat (fromBeBytes (reorderBytes64 [r0, r1, r2, r3] byteOrder)))
    if value.isFinite then .ok (.float value) else .error "Invalid float64 value"
  | .float64, _ => .error "Need 4 registers for float64"
  -- no zero is left at the end for the code to remove
  | .string, registers => .ok (.string (.ofList ((bytesOf registers).flatMap latin)))

/-! ## Encoding -/

/-- `as_bool`. -/
def asBool : Value → Option Bool
  | .bool b => some b
  | .integer i => some (i != 0)
  | .float f => some (f != 0)
  | _ => none

/-- `as_i64`. -/
def asI64 : Value → Option Int64
  | .integer i => some i
  | .float f => some f.toInt64
  | .bool b => some (if b then 1 else 0)
  | _ => none

/-- `as_f64`. -/
def asF64 : Value → Option Float
  | .float f => some f
  | .integer i => some i.toFloat
  | .bool b => some (if b then 1 else 0)
  | _ => none

/-- The integer of a value, refused outside a range. -/
def integerIn (value : Value) (low high : Int) (range : String) : Except String Int64 :=
  match asI64 value with
  | none => .error "Cannot convert to integer"
  | some v =>
    if v.toInt < low ∨ high < v.toInt then
      .error ("Value " ++ toString v.toInt ++ " out of " ++ range)
    else .ok v

/-- The float of a value, if finite. -/
def finiteOf (value : Value) (format : String) : Except String Float :=
  match asF64 value with
  | none => .error "Cannot convert to float"
  | some v => if v.isFinite then .ok v else .error ("Cannot encode NaN/Infinity as " ++ format)

/-- The bits of an integer, as an unsigned number of `w` bytes. -/
def wrap (w : Nat) (v : Int64) : Nat := (v.toInt % 256 ^ w).toNat

/-- `encode_registers`. -/
def encodeRegisters (value : Value) (format : DataFormat) (byteOrder : ByteOrder) :
    Except String (List UInt16) :=
  match format with
  | .bool =>
    match asBool value with
    | none => .error "Cannot convert to bool"
    | some b => .ok [if b then 1 else 0]
  | .uint16 => (integerIn value 0 65535 "u16 range [0, 65535]").map fun v => [.ofNat (wrap 2 v)]
  | .int16 =>
    (integerIn value (-32768) 32767 "i16 range [-32768, 32767]").map fun v => [.ofNat (wrap 2 v)]
  | .uint32 => (integerIn value 0 4294967295 "u32 range [0, 4294967295]").map fun v =>
      reorderToRegisters32 (toBeBytes 4 (wrap 4 v)) byteOrder
  | .int32 => (integerIn value (-2147483648) 2147483647 "i32 range [-2147483648, 2147483647]").map
      fun v => reorderToRegisters32 (toBeBytes 4 (wrap 4 v)) byteOrder
  | .float32 => (finiteOf value "float32").map fun v =>
      reorderToRegisters32 (toBeBytes 4 v.toFloat32.toBits.toNat) byteOrder
  | .uint64 | .int64 =>
    match asI64 value with
    | none => .error "Cannot convert to integer"
    | some v => .ok (reorderToRegisters64 (toBeBytes 8 (wrap 8 v)) byteOrder)
  | .float64 => (finiteOf value "float64").map fun v =>
      reorderToRegisters64 (toBeBytes 8 v.toBits.toNat) byteOrder
  | .string =>
    match value with
    | .string s => .ok (registersOf (utf8 s))
    | _ => .error "Cannot convert to string"

/-! ## What byte orders and formats mean -/

/-- The bytes of each word. -/
def swapBytes : List UInt8 → List UInt8
  | a :: b :: bytes => b :: a :: swapBytes bytes
  | bytes => bytes

/-- The words of each pair. -/
def swapWords : List UInt8 → List UInt8
  | a :: b :: c :: d :: bytes => c :: d :: a :: b :: swapWords bytes
  | bytes => bytes

/-- The bytes of a number, most significant first, from the order they are sent in. -/
def arrange : ByteOrder → List UInt8 → List UInt8
  | .abcd, bytes => bytes
  | .dcba, bytes => bytes.reverse
  | .badc, bytes => swapBytes bytes
  | .cdab, bytes => swapWords bytes

/-- Whether an integer format is signed, and its registers. -/
def integerShape : DataFormat → Option (Bool × Nat)
  | .uint16 => some (false, 1)
  | .int16 => some (true, 1)
  | .uint32 => some (false, 2)
  | .int32 => some (true, 2)
  | .uint64 => some (false, 4)
  | .int64 => some (true, 4)
  | _ => none

/-- The bytes of a number of `k` registers; a single register is a number as it is. -/
def content (order : ByteOrder) (k : Nat) (registers : List UInt16) : List UInt8 :=
  if k = 1 then bytesOf (registers.take 1) else arrange order (bytesOf (registers.take k))

/-- The integer that bytes stand for: unsigned, or in two's complement. -/
def assigned (signed : Bool) (bytes : List UInt8) : Int :=
  if signed then (fromBeBytes bytes : Int).bmod (256 ^ bytes.length) else fromBeBytes bytes

/-- The format has the integer. -/
def inRange (signed : Bool) (k : Nat) (n : Int) : Prop :=
  if signed then -(2 ^ (16 * k - 1)) ≤ n ∧ n < 2 ^ (16 * k - 1) else 0 ≤ n ∧ n < 2 ^ (16 * k)

variable (order : ByteOrder)

theorem permute32_eq (a b c d : UInt8) :
    permute32 order [a, b, c, d] = arrange order [a, b, c, d] := by
  cases order <;> rfl

theorem permute64_eq (a b c d e f g h : UInt8) :
    permute64 order [a, b, c, d, e, f, g, h] = arrange order [a, b, c, d, e, f, g, h] := by
  cases order <;> rfl

/-! ## Registers and their bytes -/

theorem toNat_word (a b : UInt8) : (word a b).toNat = a.toNat * 256 + b.toNat := by
  have ha := a.toNat_lt
  have hb := b.toNat_lt
  have hshift : a.toNat <<< 8 = a.toNat * 256 := Nat.shiftLeft_eq ..
  have hor := Nat.shiftLeft_add_eq_or_of_lt (i := 8) (by omega : b.toNat < 2 ^ 8) a.toNat
  have hlt : a.toNat * 256 < 65536 := by omega
  simp only [word, UInt16.toNat_or, UInt16.toNat_shiftLeft, UInt8.toNat_toUInt16]
  rw [show UInt16.toNat 8 % 16 = 8 from rfl, hshift, Nat.mod_eq_of_lt hlt, ← hshift, ← hor, hshift]

theorem toNat_hi (r : UInt16) : (hi r).toNat = r.toNat / 256 := by
  have := r.toNat_lt
  simp [hi, UInt16.toNat_toUInt8, UInt16.toNat_shiftRight, Nat.shiftRight_eq_div_pow]
  omega

theorem toNat_lo (r : UInt16) : (lo r).toNat = r.toNat % 256 := by
  have := Nat.and_two_pow_sub_one_eq_mod (r.toNat % 256) 8
  simpa [lo, UInt16.toNat_toUInt8] using this

theorem bytesOf_registersOf : ∀ {k : Nat} {bytes : List UInt8}, bytes.length = 2 * k →
    (registersOf bytes).length = k ∧ bytesOf (registersOf bytes) = bytes
  | 0, [], _ => ⟨rfl, rfl⟩
  | k + 1, a :: b :: bytes, h => by
    obtain ⟨hlength, hrest⟩ := bytesOf_registersOf
      (show bytes.length = 2 * k by simp at h; omega)
    have hb := b.toNat_lt
    have hhi : hi (word a b) = a := UInt8.toNat_inj.mp (by rw [toNat_hi, toNat_word]; omega)
    have hlo : lo (word a b) = b := UInt8.toNat_inj.mp (by rw [toNat_lo, toNat_word]; omega)
    refine ⟨congrArg (· + 1) hlength, ?_⟩
    rw [registersOf, bytesOf, flatMap_cons, hhi, hlo]
    exact congrArg ([a, b] ++ ·) hrest

theorem fromBeBytes_lt (bytes : List UInt8) : fromBeBytes bytes < 256 ^ bytes.length := by
  rw [fromBeBytes, ← length_reverse]
  exact ofLeBytes_lt _

theorem fromBeBytes_toBeBytes (w n : Nat) : fromBeBytes (toBeBytes w n) = n % 256 ^ w := by
  rw [fromBeBytes, toBeBytes, reverse_reverse, ofLeBytes_leBytes]

theorem fromBeBytes_register (r : UInt16) : fromBeBytes (bytesOf [r]) = r.toNat := by
  simp only [fromBeBytes, bytesOf, flatMap_cons, flatMap_nil, append_nil,
    reverse_cons, reverse_nil, nil_append, cons_append, ofLeBytes, toNat_hi,
    toNat_lo]
  omega

theorem content_registersOf {k : Nat} {sent : List UInt8} (hk : k ≠ 1)
    (hlength : sent.length = 2 * k) :
    (registersOf sent).length = k ∧ content order k (registersOf sent) = arrange order sent := by
  obtain ⟨hcount, hback⟩ := bytesOf_registersOf hlength
  rw [content, if_neg hk, take_of_length_le hcount.le, hback]
  exact ⟨hcount, rfl⟩

theorem content_reorder32 (n : Nat) :
    (reorderToRegisters32 (toBeBytes 4 n) order).length = 2 ∧
      fromBeBytes (content order 2 (reorderToRegisters32 (toBeBytes 4 n) order)) = n % 256 ^ 4 := by
  obtain ⟨a, b, c, d, hbytes⟩ : ∃ a b c d, toBeBytes 4 n = [a, b, c, d] := ⟨_, _, _, _, rfl⟩
  rw [← fromBeBytes_toBeBytes, hbytes]
  obtain ⟨hcount, hcontent⟩ := content_registersOf order (by decide)
    (show (permute32 order [a, b, c, d]).length = 2 * 2 by cases order <;> rfl)
  have htwice : arrange order (permute32 order [a, b, c, d]) = [a, b, c, d] := by cases order <;> rfl
  exact ⟨hcount, congrArg fromBeBytes (hcontent.trans htwice)⟩

theorem content_reorder64 (n : Nat) :
    (reorderToRegisters64 (toBeBytes 8 n) order).length = 4 ∧
      fromBeBytes (content order 4 (reorderToRegisters64 (toBeBytes 8 n) order)) = n % 256 ^ 8 := by
  obtain ⟨a, b, c, d, e, f, g, h, hbytes⟩ :
      ∃ a b c d e f g h, toBeBytes 8 n = [a, b, c, d, e, f, g, h] := ⟨_, _, _, _, _, _, _, _, rfl⟩
  rw [← fromBeBytes_toBeBytes, hbytes]
  obtain ⟨hcount, hcontent⟩ := content_registersOf order (by decide)
    (show (permute64 order [a, b, c, d, e, f, g, h]).length = 2 * 4 by cases order <;> rfl)
  have htwice : arrange order (permute64 order [a, b, c, d, e, f, g, h]) =
      [a, b, c, d, e, f, g, h] := by cases order <;> rfl
  exact ⟨hcount, congrArg fromBeBytes (hcontent.trans htwice)⟩

theorem wrap_mod (w : Nat) (v : Int64) : wrap w v % 256 ^ w = wrap w v := by
  have hpos : (0 : Int) < 256 ^ w := by positivity
  refine Nat.mod_eq_of_lt ((Int.toNat_lt (Int.emod_nonneg _ hpos.ne')).mpr ?_)
  exact_mod_cast Int.emod_lt_of_pos v.toInt hpos

theorem length_arrange (bytes : List UInt8) :
    (arrange order bytes).length = bytes.length := by
  cases order with
  | abcd => rfl
  | dcba => exact length_reverse
  | badc =>
    change (swapBytes bytes).length = _
    fun_induction swapBytes <;> simp_all
  | cdab =>
    change (swapWords bytes).length = _
    fun_induction swapWords <;> simp_all

variable {registers : List UInt16}

theorem length_content {k : Nat} (hlen : k ≤ registers.length) :
    (content order k registers).length = 2 * k := by
  have hbytes : ∀ registers, (bytesOf registers).length = registers.length * 2 := fun registers =>
    length_flatMap_eq_mul (k := 2) fun _ _ => rfl
  rw [content]
  split
  · rw [hbytes, length_take]
    omega
  rw [length_arrange, hbytes, length_take]
  omega

theorem coe_wrap (w : Nat) (v : Int64) : (wrap w v : Int) = v.toInt % (256 ^ w : Nat) := by
  push_cast
  exact Int.toNat_of_nonneg (Int.emod_nonneg _ (by positivity))

/-! ## Integers -/

section Integers

variable {format : DataFormat} {signed : Bool} {k : Nat}
  (hshape : integerShape format = some (signed, k)) (order : ByteOrder)

include hshape

theorem decode_integer (hlen : k ≤ registers.length) (bit : Option Nat) :
    ∃ v, decodeRegisters registers format order bit = .ok (.integer v) ∧
      v.toInt = if signed = true ∨ k = 4 then
        (fromBeBytes (content order k registers) : Int).bmod (256 ^ (2 * k))
      else fromBeBytes (content order k registers) := by
  cases format with
  | bool | float32 | float64 | string => cases hshape
  | uint16 =>
    cases hshape
    obtain _ | ⟨r, rest⟩ := registers
    · cases hlen
    refine ⟨_, rfl, ?_⟩
    have := r.toNat_lt
    rw [if_neg (by decide), Int64.toInt_ofNat_of_lt (by omega)]
    exact congrArg _ (fromBeBytes_register r).symm
  | int16 =>
    cases hshape
    obtain _ | ⟨r, rest⟩ := registers
    · cases hlen
    refine ⟨_, rfl, ?_⟩
    rw [if_pos (.inl rfl), Int16.toInt_toInt64]
    refine (BitVec.toInt_eq_toNat_bmod r.toBitVec).trans ?_
    exact congrArg (fun n : Nat => (n : Int).bmod (2 ^ 16)) (fromBeBytes_register r).symm
  | uint32 =>
    cases hshape
    obtain _ | ⟨r0, _ | ⟨r1, rest⟩⟩ := registers
    · cases hlen
    · simp at hlen
    refine ⟨_, rfl, ?_⟩
    have hbytes : reorderBytes32 r0 r1 order = content order 2 (r0 :: r1 :: rest) := permute32_eq ..
    have hlt := fromBeBytes_lt (content order 2 (r0 :: r1 :: rest))
    have hlength : (content order 2 (r0 :: r1 :: rest)).length = 4 := by cases order <;> rfl
    rw [hlength] at hlt
    rw [if_neg (by decide), hbytes, Int64.toInt_ofNat_of_lt (by omega)]
  | int32 =>
    cases hshape
    obtain _ | ⟨r0, _ | ⟨r1, rest⟩⟩ := registers
    · cases hlen
    · simp at hlen
    refine ⟨_, rfl, ?_⟩
    have hbytes : reorderBytes32 r0 r1 order = content order 2 (r0 :: r1 :: rest) := permute32_eq ..
    rw [if_pos (.inl rfl), hbytes, Int32.toInt_toInt64]
    generalize fromBeBytes (content order 2 (r0 :: r1 :: rest)) = n
    refine (BitVec.toInt_eq_toNat_bmod (UInt32.ofNat n).toBitVec).trans ?_
    simp [← Int.emod_bmod (n : Int)]
  | uint64 | int64 =>
    cases hshape
    obtain _ | ⟨r0, _ | ⟨r1, _ | ⟨r2, _ | ⟨r3, rest⟩⟩⟩⟩ := registers
    · cases hlen
    · simp at hlen
    · simp at hlen
    · simp at hlen
    refine ⟨_, rfl, ?_⟩
    have hbytes : reorderBytes64 [r0, r1, r2, r3] order =
        content order 4 (r0 :: r1 :: r2 :: r3 :: rest) := permute64_eq ..
    rw [if_pos (.inr rfl), hbytes]
    exact Int64.toInt_ofNat

theorem encode_integer {v : Int64} (hrange : inRange signed k v.toInt) :
    ∃ registers, encodeRegisters (.integer v) format order = .ok registers ∧
      k ≤ registers.length ∧ fromBeBytes (content order k registers) = wrap (2 * k) v := by
  have hin : ∀ {low high : Int} (range : String), low ≤ v.toInt ∧ v.toInt ≤ high →
      integerIn (.integer v) low high range = .ok v := by
    intro low high range h
    exact if_neg (by omega)
  obtain ⟨hlength32, hcontent32⟩ := content_reorder32 order (wrap 4 v)
  obtain ⟨hlength64, hcontent64⟩ := content_reorder64 order (wrap 8 v)
  cases format with
  | bool | float32 | float64 | string => cases hshape
  | uint16 | int16 =>
    cases hshape
    refine ⟨[.ofNat (wrap 2 v)], ?_, le_rfl,
      (fromBeBytes_register _).trans (UInt16.toNat_ofNat'.trans (wrap_mod 2 v))⟩
    norm_num [inRange] at hrange
    rw [encodeRegisters, hin _ (by omega)]
    rfl
  | uint32 | int32 =>
    cases hshape
    refine ⟨_, ?_, hlength32.ge, hcontent32.trans (wrap_mod 4 v)⟩
    norm_num [inRange] at hrange
    rw [encodeRegisters, hin _ (by omega)]
    rfl
  | uint64 | int64 =>
    cases hshape
    exact ⟨_, rfl, hlength64.ge, hcontent64.trans (wrap_mod 8 v)⟩

/-- Registers are decoded as the integer that the format assigns to their bytes. -/
def Decodes (format : DataFormat) (order : ByteOrder) (bit : Option Nat) (signed : Bool) (k : Nat)
    (registers : List UInt16) : Prop :=
  ∃ v, decodeRegisters registers format order bit = .ok (.integer v) ∧
    v.toInt = assigned signed (content order k registers)

/-- An integer comes back from the registers it is encoded in. -/
def RoundTrips (format : DataFormat) (order : ByteOrder) (n : Int) : Prop :=
  ∃ v : Int64, v.toInt = n ∧ ∃ registers, encodeRegisters (.integer v) format order = .ok registers ∧
    decodeRegisters registers format order none = .ok (.integer v)

/-- **Integers in registers.**  For every integer format and byte order: registers are decoded as
the integer assigned to their bytes, and integers come back from the registers they are encoded in,
exactly if the format is not unsigned with 64 bits or the integer is below `2 ^ 63`. -/
theorem integer_registers_iff :
    (∀ registers bit, k ≤ registers.length → (Decodes format order bit signed k registers ↔
      (format = .uint64 → fromBeBytes (content order k registers) < 2 ^ 63))) ∧
    ∀ n, inRange signed k n → (RoundTrips format order n ↔ (format = .uint64 → n < 2 ^ 63)) := by
  have hwide : format = .uint64 ↔ signed = false ∧ k = 4 := by
    cases format <;> cases hshape <;> decide
  refine ⟨fun registers bit hlen => ?_, fun n hn => ?_⟩
  · obtain ⟨v, hv, hint⟩ := decode_integer hshape order hlen bit
    have hlength := length_content order hlen
    have hdecodes : Decodes format order bit signed k registers ↔
        v.toInt = assigned signed (content order k registers) := by
      simp [Decodes, hv]
    rw [hdecodes, hint, assigned, hlength]
    cases signed with
    | true => simp [hwide]
    | false =>
      by_cases hk : k = 4
      · subst hk
        have hbound := v.toInt_lt
        rw [hint] at hbound
        simp only [or_true, if_true, hwide, and_self, true_imp_iff, Bool.false_eq_true, if_false]
          at hbound ⊢
        constructor
        · intro heq
          rw [heq] at hbound
          exact_mod_cast hbound
        · exact fun hlt => Int.bmod_eq_of_le (by omega) (by norm_num; omega)
      · simp [hwide, hk]
  · constructor
    · rintro ⟨v, rfl, -⟩ -
      exact v.toInt_lt
    intro hwideOk
    obtain ⟨v, rfl⟩ : ∃ v : Int64, v.toInt = n := by
      refine ⟨.ofInt n, Int64.toInt_ofInt_of_le ?_ ?_⟩ <;>
        (cases format <;> cases hshape <;> norm_num [inRange] at hn hwideOk ⊢ <;> omega)
    obtain ⟨registers, henc, hlen, hbits⟩ := encode_integer hshape order hn
    obtain ⟨v', hdec, hint⟩ := decode_integer hshape order hlen none
    rw [hbits] at hint
    refine ⟨v, rfl, registers, henc, ?_⟩
    rw [hdec, Int64.toInt_inj.mp (hint.trans ?_)]
    cases format with
    | bool | float32 | float64 | string => cases hshape
    | uint16 | uint32 =>
      cases hshape
      norm_num [inRange] at hn
      rw [if_neg (by decide), coe_wrap]
      exact Int.emod_eq_of_lt hn.1 hn.2
    | int16 | int32 | uint64 | int64 =>
      cases hshape
      norm_num [inRange] at hn hwideOk
      rw [if_pos (by decide), coe_wrap]
      refine (Int.emod_bmod v.toInt _).trans (Int.bmod_eq_of_le ?_ ?_) <;> norm_num <;> omega

end Integers

theorem int32_word_swapped :
    Decodes .int32 .cdab none true 2 [0xFFFE, 0xFFFF] ∧ RoundTrips .int32 .cdab (-2) := by
  obtain ⟨hdecodes, hround⟩ :=
    integer_registers_iff (show integerShape .int32 = some (true, 2) from rfl) .cdab
  exact ⟨(hdecodes _ _ (by decide)).mpr nofun, (hround _ (by norm_num [inRange])).mpr nofun⟩

/-- An unsigned number with its highest bit set is decoded as a negative one. -/
theorem uint64_high_bit :
    decodeRegisters [0x8000, 0, 0, 0] .uint64 .abcd none = .ok (.integer (-9223372036854775808)) ∧
      assigned false (content .abcd 4 [0x8000, 0, 0, 0]) = 9223372036854775808 := by
  decide +kernel

end VoltageEMS.Comsrv.Registers
