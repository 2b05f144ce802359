import Mathlib.Data.List.Basic
import Mathlib.Data.List.OfFn

/-!
# DL/T 645-2007 frames

Model of the meter codec of voltage-core (`codec/dl645.rs`).  Slices are lists of bytes, fixed
buffers are vectors; an index or a slice out of bounds is a panic of its own.

* `decodeResponse_safe_iff` — the decoder returns, and accepts well-formed frames only, exactly for
  the slices that are not a data response whose length byte exceeds the buffer of 64 bytes.
* `decodeResponse_responseFrame` — **round trip** of data responses; bytes in front of the first
  start marker are not skipped.
-/

namespace VoltageEMS.Core.Dl645

/-! ## Constants and types -/

/-- `FRAME_START`. -/
def frameStart : UInt8 := 0x68

/-- `FRAME_END`. -/
def frameEnd : UInt8 := 0x16

/-- `CTRL_READ_DATA_RESP`. -/
def ctrlReadDataResp : UInt8 := 0x91

/-- `CTRL_READ_DATA_ERR`. -/
def ctrlReadDataErr : UInt8 := 0xD1

/-- `DATA_OFFSET`. -/
def dataOffset : UInt8 := 0x33

/-- `Dl645Error`. -/
inductive Dl645Error
  | noData
  | dateError
  | noPermission
  | frameError
  | checksumError
  | invalidLength
  | invalidMarkers
  | addressError
  | otherError
deriving DecidableEq, Repr

/-- A call that gives no value: `Err`, or an index or slice out of bounds. -/
inductive Halt
  | err (e : Dl645Error)
  | panicked
deriving DecidableEq, Repr

/-- A call that may panic. -/
abbrev Checked := Except Halt

/-- `bytes[i]`. -/
def index (bytes : List UInt8) (i : Nat) : Checked UInt8 :=
  match bytes[i]? with
  | some b => .ok b
  | none => .error .panicked

/-- `&bytes[start..stop]`. -/
def slice (bytes : List UInt8) (start stop : Nat) : Checked (List UInt8) :=
  if start ≤ stop ∧ stop ≤ bytes.length then .ok ((bytes.drop start).take (stop - start))
  else .error .panicked

/-- `MeterAddress`, in display order. -/
structure MeterAddress where
  bytes : Vector UInt8 6
deriving DecidableEq

/-- `from_wire_bytes`. -/
def MeterAddress.fromWireBytes (wire : List UInt8) : Checked MeterAddress :=
  if h : wire.length < 6 then .error (.err .addressError)
  else .ok ⟨.ofFn fun i => wire[5 - i.val]⟩

/-- `to_wire_bytes`. -/
def MeterAddress.toWireBytes (a : MeterAddress) : Vector UInt8 6 := .ofFn fun i => a.bytes[5 - i.val]

/-- `DataIdentifier`, in display order. -/
structure DataIdentifier where
  bytes : Vector UInt8 4
deriving DecidableEq

/-- `to_wire_bytes`. -/
def DataIdentifier.toWireBytes (d : DataIdentifier) : Vector UInt8 4 :=
  .ofFn fun i => d.bytes[3 - i.val]

/-- `Dl645Frame`. -/
structure Dl645Frame where
  meterAddr : MeterAddress
  dataId : DataIdentifier
  data : Vector UInt8 64
  dataLen : Nat
deriving DecidableEq

/-! ## Data bytes and checksum -/

/-- The bytes mapped into a buffer of 64. -/
def transcode (f : UInt8 → UInt8) (data : List UInt8) : Vector UInt8 64 :=
  .ofFn fun i => if h : i.val < data.length then f data[i.val] else 0

/-- `decode_data`. -/
def decodeData : List UInt8 → Vector UInt8 64 := transcode (· - dataOffset)

/-- `calculate_checksum`. -/
def calculateChecksum (frame : List UInt8) : UInt8 :=
  (frame.foldl (fun (sum : UInt16) b => sum + b.toUInt16) 0 &&& 0xFF).toUInt8

/-- `copy_from_slice` into a buffer of 64. -/
def copyFromSlice (src : List UInt8) : Checked (Vector UInt8 64) :=
  if src.length ≤ 64 then .ok (transcode id src) else .error .panicked

/-! ## Frames -/

/-- The error of an error frame. -/
def errorOf (errorCode : UInt8) : Dl645Error :=
  if errorCode = 0x01 then .noData
  else if errorCode = 0x02 then .dateError
  else if errorCode = 0x04 then .noPermission
  else if errorCode = 0x08 then .frameError
  else .otherError

/-- `decode_response`, a data response. -/
def decodePayload (meterAddr : MeterAddress) (encodedData : List UInt8) (dataLen : Nat) :
    Checked Dl645Frame := do
  let decoded := decodeData encodedData
  if dataLen < 4 then throw (.err .invalidLength)
  let dataId : DataIdentifier := ⟨.ofFn fun i => decoded[3 - i.val]⟩
  let actualDataLen := dataLen - 4
  let data ← copyFromSlice (← slice decoded.toList 4 (4 + actualDataLen))
  return { meterAddr, dataId, data, dataLen := actualDataLen }

/-- `decode_response`. -/
def decodeResponse (frame : List UInt8) : Checked Dl645Frame := do
  if frame.length < 14 then throw (.err .invalidLength)
  if (← index frame 0) ≠ frameStart ∨ (← index frame 7) ≠ frameStart then
    throw (.err .invalidMarkers)
  let frameEndIdx := frame.length - 1
  if (← index frame frameEndIdx) ≠ frameEnd then throw (.err .invalidMarkers)
  let csIdx := frameEndIdx - 1
  let expectedCs := calculateChecksum (← slice frame 0 csIdx)
  if (← index frame csIdx) ≠ expectedCs then throw (.err .checksumError)
  let meterAddr ← MeterAddress.fromWireBytes (← slice frame 1 7)
  let ctrl ← index frame 8
  let dataLen := (← index frame 9).toNat
  if frame.length ≠ 10 + dataLen + 2 then throw (.err .invalidLength)
  if ctrl = ctrlReadDataErr then
    if dataLen > 0 then throw (.err (errorOf ((← index frame 10) - dataOffset)))
    throw (.err .otherError)
  if ctrl ≠ ctrlReadDataResp then throw (.err .frameError)
  decodePayload meterAddr (← slice frame 10 (10 + dataLen)) dataLen

/-! ## Bounds -/

theorem index_of_getElem? {bytes : List UInt8} {i : Nat} {b : UInt8} (h : bytes[i]? = some b) :
    index bytes i = .ok b := by
  rw [index, h]

theorem slice_of_le {bytes : List UInt8} {start stop : Nat} (hstart : start ≤ stop)
    (hstop : stop ≤ bytes.length) :
    slice bytes start stop = .ok ((bytes.drop start).take (stop - start)) :=
  if_pos ⟨hstart, hstop⟩

theorem slice_of_lt {bytes : List UInt8} {start stop : Nat} (hstop : bytes.length < stop) :
    slice bytes start stop = .error .panicked :=
  if_neg fun h => absurd h.2 (by omega)

theorem toList_transcode (f : UInt8 → UInt8) {data : List UInt8} (h : data.length ≤ 64) :
    (transcode f data).toList = data.map f ++ List.replicate (64 - data.length) 0 := by
  refine List.ext_getElem (by simp; omega) fun i hi _ => ?_
  rw [Vector.length_toList] at hi
  simp only [transcode, Vector.getElem_toList, Vector.getElem_ofFn, List.getElem_append,
    List.length_map, List.getElem_map, List.getElem_replicate]

/-! ## What the decoder accepts -/

/-- The format: both start markers, the end marker, the checksum, a length byte for the whole slice.
-/
structure WellFramed (frame : List UInt8) : Prop where
  start : frame[0]? = some frameStart
  start' : frame[7]? = some frameStart
  stop : frame[frame.length - 1]? = some frameEnd
  checksum : frame[frame.length - 2]? = some (calculateChecksum (frame.take (frame.length - 2)))
  dataLen : ∃ n : UInt8, frame[9]? = some n ∧ frame.length = 10 + n.toNat + 2

/-- The bytes the decoder looks at; a slice of 14 bytes or more has them. -/
structure Header (frame : List UInt8) where
  long : 14 ≤ frame.length
  start : UInt8
  start' : UInt8
  stop : UInt8
  checksum : UInt8
  ctrl : UInt8
  dataLen : UInt8
  firstData : UInt8
  addr : MeterAddress
  start_eq : frame[0]? = some start
  start'_eq : frame[7]? = some start'
  stop_eq : frame[frame.length - 1]? = some stop
  checksum_eq : frame[frame.length - 2]? = some checksum
  ctrl_eq : frame[8]? = some ctrl
  dataLen_eq : frame[9]? = some dataLen
  firstData_eq : frame[10]? = some firstData
  addr_eq : MeterAddress.fromWireBytes ((frame.drop 1).take 6) = .ok addr

variable {frame : List UInt8}

theorem nonempty_header (h : 14 ≤ frame.length) : Nonempty (Header frame) := by
  have haddr : ¬((frame.drop 1).take 6).length < 6 := by
    simp only [List.length_take, List.length_drop]
    omega
  exact ⟨⟨h, _, _, _, _, _, _, _, _, List.getElem?_eq_getElem (by omega),
    List.getElem?_eq_getElem (by omega), List.getElem?_eq_getElem (by omega),
    List.getElem?_eq_getElem (by omega), List.getElem?_eq_getElem (by omega),
    List.getElem?_eq_getElem (by omega), List.getElem?_eq_getElem (by omega), dif_neg haddr⟩⟩

theorem Header.decodeResponse_eq (h : Header frame) :
    decodeResponse frame =
      if h.start ≠ frameStart ∨ h.start' ≠ frameStart then .error (.err .invalidMarkers)
      else if h.stop ≠ frameEnd then .error (.err .invalidMarkers)
      else if h.checksum ≠ calculateChecksum (frame.take (frame.length - 2)) then
        .error (.err .checksumError)
      else if frame.length ≠ 10 + h.dataLen.toNat + 2 then .error (.err .invalidLength)
      else if h.ctrl = ctrlReadDataErr then .error (.err (errorOf (h.firstData - dataOffset)))
      else if h.ctrl ≠ ctrlReadDataResp then .error (.err .frameError)
      else decodePayload h.addr ((frame.drop 10).take h.dataLen.toNat) h.dataLen.toNat := by
  have hlong := h.long
  have hcs : frame.length - 1 - 1 = frame.length - 2 := by omega
  have hsum := slice_of_le (Nat.zero_le _) (show frame.length - 2 ≤ frame.length by omega)
  have haddr := slice_of_le (show 1 ≤ 7 by omega) (show 7 ≤ frame.length by omega)
  simp only [Nat.reduceSub, Nat.sub_zero, List.drop_zero] at hsum haddr
  simp only [decodeResponse, if_neg (show ¬frame.length < 14 by omega), hcs, hsum, haddr,
    index_of_getElem? h.start_eq, index_of_getElem? h.start'_eq, index_of_getElem? h.stop_eq,
    index_of_getElem? h.checksum_eq, index_of_getElem? h.ctrl_eq, index_of_getElem? h.dataLen_eq,
    index_of_getElem? h.firstData_eq, bind, Except.bind, h.addr_eq, throw, throwThe,
    MonadExceptOf.throw]
  by_cases hdata : frame.length ≠ 10 + h.dataLen.toNat + 2
  · simp only [if_pos hdata]
  rw [not_not] at hdata
  have hfield : slice frame 10 (10 + h.dataLen.toNat) = .ok ((frame.drop 10).take _) :=
    slice_of_le (by omega) (by omega)
  rw [Nat.add_sub_cancel_left] at hfield
  simp only [hfield, if_pos (show h.dataLen.toNat > 0 by omega)]

variable (addr : MeterAddress)

theorem decodePayload_of_lt (encoded : List UInt8) {n : Nat} (h : n < 4) :
    decodePayload addr encoded n = .error (.err .invalidLength) := by
  simp only [decodePayload, if_pos h]
  rfl

theorem decodePayload_of_gt (encoded : List UInt8) {n : Nat} (h : 64 < n) :
    decodePayload addr encoded n = .error .panicked := by
  have hslice : slice (decodeData encoded).toList 4 (4 + (n - 4)) = .error .panicked :=
    slice_of_lt (by rw [Vector.length_toList]; omega)
  simp only [decodePayload, if_neg (show ¬n < 4 by omega), hslice]
  rfl

theorem decodePayload_of_le (encoded : List UInt8) {n : Nat} (h : 4 ≤ n) (h' : n ≤ 64) :
    decodePayload addr encoded n = .ok {
      meterAddr := addr
      dataId := ⟨.ofFn fun i => (decodeData encoded)[3 - i.val]⟩
      data := transcode id (((decodeData encoded).toList.drop 4).take (n - 4))
      dataLen := n - 4 } := by
  have hslice : slice (decodeData encoded).toList 4 (4 + (n - 4)) = .ok (List.take _ _) :=
    slice_of_le (by omega) (by rw [Vector.length_toList]; omega)
  rw [Nat.add_sub_cancel_left] at hslice
  have hcopy : (((decodeData encoded).toList.drop 4).take (n - 4)).length ≤ 64 :=
    (List.length_take_le _ _).trans (by omega)
  simp only [decodePayload, if_neg (show ¬n < 4 by omega), hslice, bind, Except.bind, copyFromSlice,
    if_pos hcopy]
  rfl

/-- Refused with an error. -/
def Rejected (frame : List UInt8) : Prop := ∃ e, decodeResponse frame = .error (.err e)

theorem rejected_of_lt (h : frame.length < 14) : Rejected frame := by
  refine ⟨.invalidLength, ?_⟩
  simp only [decodeResponse, if_pos h]
  rfl

theorem Header.wellFramed_iff (h : Header frame) :
    WellFramed frame ↔ (h.start = frameStart ∧ h.start' = frameStart) ∧ h.stop = frameEnd ∧
      h.checksum = calculateChecksum (frame.take (frame.length - 2)) ∧
      frame.length = 10 + h.dataLen.toNat + 2 := by
  constructor
  · rintro ⟨h0, h7, hstop, hsum, n, hn, hlen⟩
    rw [h.start_eq, Option.some.injEq] at h0
    rw [h.start'_eq, Option.some.injEq] at h7
    rw [h.stop_eq, Option.some.injEq] at hstop
    rw [h.checksum_eq, Option.some.injEq] at hsum
    rw [h.dataLen_eq, Option.some.injEq] at hn
    exact ⟨⟨h0, h7⟩, hstop, hsum, hn ▸ hlen⟩
  rintro ⟨⟨h0, h7⟩, hstop, hsum, hlen⟩
  exact ⟨h0 ▸ h.start_eq, h7 ▸ h.start'_eq, hstop ▸ h.stop_eq, hsum ▸ h.checksum_eq, h.dataLen,
    h.dataLen_eq, hlen⟩

/-- **Every other slice is rejected.** -/
theorem rejected_of_not_wellFramed (hframe : ¬WellFramed frame) : Rejected frame := by
  by_cases hlong : 14 ≤ frame.length
  · obtain ⟨h⟩ := nonempty_header hlong
    rw [Rejected, h.decodeResponse_eq]
    split_ifs with hstart hstop hsum hlen
    · exact ⟨_, rfl⟩
    · exact ⟨_, rfl⟩
    · exact ⟨_, rfl⟩
    · exact ⟨_, rfl⟩
    all_goals
      push Not at hstart hstop hsum hlen
      exact absurd (h.wellFramed_iff.mpr ⟨hstart, hstop, hsum, hlen⟩) hframe
  · exact rejected_of_lt (by omega)

theorem Header.decodeResponse_of_wellFramed (h : Header frame) (hframe : WellFramed frame) :
    decodeResponse frame =
      if h.ctrl = ctrlReadDataErr then .error (.err (errorOf (h.firstData - dataOffset)))
      else if h.ctrl ≠ ctrlReadDataResp then .error (.err .frameError)
      else decodePayload h.addr ((frame.drop 10).take h.dataLen.toNat) h.dataLen.toNat := by
  obtain ⟨hstart, hstop, hsum, hlen⟩ := h.wellFramed_iff.mp hframe
  rw [h.decodeResponse_eq, if_neg (by tauto), if_neg (not_not.mpr hstop), if_neg (not_not.mpr hsum),
    if_neg (not_not.mpr hlen)]

/-- A well-formed data response whose length byte exceeds the decoder's buffer. -/
structure Oversized (frame : List UInt8) : Prop where
  framed : WellFramed frame
  ctrl : frame[8]? = some ctrlReadDataResp
  dataLen : ∃ n : UInt8, frame[9]? = some n ∧ 64 < n.toNat

theorem Oversized.panics (h : Oversized frame) : decodeResponse frame = .error .panicked := by
  obtain ⟨hframe, hctrl, n, hn, hbig⟩ := h
  obtain ⟨m, hm, hlen⟩ := hframe.dataLen
  obtain rfl : n = m := Option.some.inj (hn.symm.trans hm)
  obtain ⟨h⟩ : Nonempty (Header frame) := nonempty_header (by omega)
  obtain rfl : n = h.dataLen := Option.some.inj (hn.symm.trans h.dataLen_eq)
  have hresp : h.ctrl = ctrlReadDataResp := Option.some.inj (h.ctrl_eq.symm.trans hctrl)
  rw [h.decodeResponse_of_wellFramed hframe, if_neg (hresp ▸ by decide), if_neg (not_not.mpr hresp),
    decodePayload_of_gt _ _ hbig]

theorem oversized_of_panics (hpanic : decodeResponse frame = .error .panicked) :
    Oversized frame := by
  have hnot : ¬Rejected frame := by
    rintro ⟨e, he⟩
    rw [he] at hpanic
    cases hpanic
  have hframe : WellFramed frame := by
    by_contra hframe
    exact hnot (rejected_of_not_wellFramed hframe)
  have hlong : 14 ≤ frame.length := by
    by_contra hshort
    exact hnot (rejected_of_lt (by omega))
  obtain ⟨h⟩ := nonempty_header hlong
  rw [h.decodeResponse_of_wellFramed hframe] at hpanic
  by_cases herr : h.ctrl = ctrlReadDataErr
  · rw [if_pos herr] at hpanic
    cases hpanic
  by_cases hresp : h.ctrl = ctrlReadDataResp
  · rw [if_neg herr, if_neg (not_not.mpr hresp)] at hpanic
    refine ⟨hframe, hresp ▸ h.ctrl_eq, h.dataLen, h.dataLen_eq, ?_⟩
    by_contra hsmall
    by_cases hshort : h.dataLen.toNat < 4
    · rw [decodePayload_of_lt _ _ hshort] at hpanic
      cases hpanic
    rw [decodePayload_of_le _ _ (Nat.not_lt.mp hshort) (Nat.not_lt.mp hsmall)] at hpanic
    cases hpanic
  rw [if_neg herr, if_pos hresp] at hpanic
  cases hpanic

/-- **Safety of the decoder**: it returns, and returns `Ok` for well-formed frames only, except for
data responses of more than 64 bytes. -/
theorem decodeResponse_safe_iff (frame : List UInt8) :
    (decodeResponse frame ≠ .error .panicked ∧
        ∀ r, decodeResponse frame = .ok r → WellFramed frame) ↔ ¬Oversized frame := by
  constructor
  · rintro ⟨hsafe, -⟩ hsize
    exact hsafe hsize.panics
  intro hsize
  refine ⟨fun hpanic => hsize (oversized_of_panics hpanic), fun r hr => ?_⟩
  by_contra hframe
  obtain ⟨e, he⟩ := rejected_of_not_wellFramed hframe
  rw [he] at hr
  cases hr

/-! ## Frames as they are built -/

/-- A frame up to its checksum. -/
def frameBody (ctrl : UInt8) (addr : MeterAddress) (data : List UInt8) : List UInt8 :=
  [frameStart] ++ addr.toWireBytes.toList ++ [frameStart, ctrl, UInt8.ofNat data.length] ++
    data.map (· + dataOffset)

/-- A frame. -/
def frameOf (ctrl : UInt8) (addr : MeterAddress) (data : List UInt8) : List UInt8 :=
  frameBody ctrl addr data ++ [calculateChecksum (frameBody ctrl addr data), frameEnd]

/-- A data response. -/
def responseFrame (addr : MeterAddress) (dataId : DataIdentifier) (payload : List UInt8) : List UInt8 :=
  frameOf ctrlReadDataResp addr (dataId.toWireBytes.toList ++ payload)

theorem toList_toWireBytes :
    addr.toWireBytes.toList = [addr.bytes[5], addr.bytes[4], addr.bytes[3], addr.bytes[2],
      addr.bytes[1], addr.bytes[0]] := by
  rw [MeterAddress.toWireBytes, Vector.toList_ofFn]
  rfl

theorem fromWireBytes_toWireBytes :
    MeterAddress.fromWireBytes addr.toWireBytes.toList = .ok addr := by
  have hlen : ¬addr.toWireBytes.toList.length < 6 := by
    rw [Vector.length_toList]
    omega
  rw [MeterAddress.fromWireBytes, dif_neg hlen]
  obtain ⟨bytes⟩ := addr
  congr 2
  refine Vector.ext fun i hi => ?_
  simp only [MeterAddress.toWireBytes, Vector.getElem_ofFn, Vector.getElem_toList]
  congr 1
  omega

section Built

variable (ctrl : UInt8) (addr : MeterAddress) (data : List UInt8)

theorem length_frameBody : (frameBody ctrl addr data).length = 10 + data.length := by
  simp [frameBody]
  omega

theorem length_frameOf : (frameOf ctrl addr data).length = 10 + data.length + 2 := by
  rw [frameOf, List.length_append, length_frameBody]
  rfl

theorem frameOf_eq :
    frameOf ctrl addr data = frameStart :: addr.toWireBytes.toList ++
      (frameStart :: ctrl :: UInt8.ofNat data.length :: (data.map (· + dataOffset) ++
        [calculateChecksum (frameBody ctrl addr data), frameEnd])) := by
  simp [frameOf, frameBody]

theorem frameOf_ctrl : (frameOf ctrl addr data)[8]? = some ctrl := by
  rw [frameOf_eq, toList_toWireBytes]
  rfl

theorem frameOf_dataLen : (frameOf ctrl addr data)[9]? = some (UInt8.ofNat data.length) := by
  rw [frameOf_eq, toList_toWireBytes]
  rfl

theorem frameOf_addr : ((frameOf ctrl addr data).drop 1).take 6 = addr.toWireBytes.toList := by
  rw [frameOf_eq, toList_toWireBytes]
  rfl

theorem frameOf_data :
    ((frameOf ctrl addr data).drop 10).take data.length = data.map (· + dataOffset) := by
  rw [frameOf_eq, toList_toWireBytes]
  exact List.take_left' (List.length_map _)

/-- **Frames as they are built are well formed**, up to the longest field a length byte can tell. -/
theorem wellFramed_frameOf (h : data.length < 256) : WellFramed (frameOf ctrl addr data) where
  start := by
    rw [frameOf_eq]
    rfl
  start' := by
    rw [frameOf_eq, toList_toWireBytes]
    rfl
  stop := by
    rw [length_frameOf, frameOf, List.getElem?_append_right (by rw [length_frameBody]; omega),
      length_frameBody, show 10 + data.length + 2 - 1 - (10 + data.length) = 1 by omega]
    rfl
  checksum := by
    have hbody : (frameOf ctrl addr data).take (10 + data.length) = frameBody ctrl addr data :=
      List.take_left' (length_frameBody ctrl addr data)
    rw [length_frameOf, Nat.add_sub_cancel, hbody, frameOf,
      List.getElem?_append_right (by rw [length_frameBody]), length_frameBody, Nat.sub_self]
    rfl
  dataLen := by
    refine ⟨_, frameOf_dataLen ctrl addr data, ?_⟩
    rw [length_frameOf, UInt8.toNat_ofNat_of_lt' h]

theorem decodeResponse_frameOf (hctrl : ctrl ≠ ctrlReadDataErr) (h2 : 2 ≤ data.length)
    (h : data.length < 256) :
    decodeResponse (frameOf ctrl addr data) =
      if ctrl ≠ ctrlReadDataResp then .error (.err .frameError)
      else decodePayload addr (data.map (· + dataOffset)) data.length := by
  obtain ⟨header⟩ : Nonempty (Header (frameOf ctrl addr data)) :=
    nonempty_header (by rw [length_frameOf]; omega)
  have hc : header.ctrl = ctrl :=
    Option.some.inj (header.ctrl_eq.symm.trans (frameOf_ctrl ctrl addr data))
  have hn : header.dataLen = UInt8.ofNat data.length :=
    Option.some.inj (header.dataLen_eq.symm.trans (frameOf_dataLen ctrl addr data))
  have ha : header.addr = addr := by
    have haddr := header.addr_eq
    rw [frameOf_addr, fromWireBytes_toWireBytes] at haddr
    exact (Except.ok.inj haddr).symm
  rw [header.decodeResponse_of_wellFramed (wellFramed_frameOf ctrl addr data h), hc, hn, ha,
    if_neg hctrl, UInt8.toNat_ofNat_of_lt' h, frameOf_data]

end Built

/-- A meter. -/
def sampleMeter : MeterAddress := ⟨#v[0x12, 0x34, 0x56, 0x78, 0x90, 0x12]⟩

/-- A data response with a field of 65 bytes. -/
theorem oversized_response_panics :
    decodeResponse (frameOf ctrlReadDataResp sampleMeter (List.replicate 65 0)) =
      .error .panicked := by
  decide +kernel

/-- `&frame.data[..frame.data_len]`. -/
def Dl645Frame.payload (r : Dl645Frame) : List UInt8 := r.data.toList.take r.dataLen

theorem map_sub_add (data : List UInt8) :
    (data.map (· + dataOffset)).map (· - dataOffset) = data := by
  rw [List.map_map]
  exact List.map_id'' (fun b => UInt8.add_sub_cancel b dataOffset) data

theorem toList_decodeData {data : List UInt8} (h : data.length ≤ 64) :
    (decodeData (data.map (· + dataOffset))).toList =
      data ++ List.replicate (64 - data.length) 0 := by
  rw [decodeData, toList_transcode _ (by rwa [List.length_map]), map_sub_add, List.length_map]

variable (dataId : DataIdentifier)

theorem getElem_decodeData {data : List UInt8} {i : Nat} (hi : i < data.length) (h64 : i < 64) :
    (decodeData (data.map (· + dataOffset)))[i] = data[i] := by
  rw [decodeData, transcode, Vector.getElem_ofFn, dif_pos (by rwa [List.length_map]),
    List.getElem_map]
  exact UInt8.add_sub_cancel _ _

theorem decodeData_dataId (payload : List UInt8) :
    (Vector.ofFn fun i : Fin 4 =>
      (decodeData ((dataId.toWireBytes.toList ++ payload).map (· + dataOffset)))[3 - i.val]) =
        dataId.bytes := by
  have hwire : dataId.toWireBytes.toList.length = 4 := Vector.length_toList
  refine Vector.ext fun i hi => ?_
  rw [Vector.getElem_ofFn, getElem_decodeData (by rw [List.length_append]; omega) (by omega),
    List.getElem_append_left (by omega), Vector.getElem_toList]
  simp only [DataIdentifier.toWireBytes, Vector.getElem_ofFn]
  congr 1
  omega

theorem decodePayload_encoded {payload : List UInt8} (h : payload.length ≤ 60) :
    decodePayload addr ((dataId.toWireBytes.toList ++ payload).map (· + dataOffset))
        (dataId.toWireBytes.toList ++ payload).length =
      .ok ⟨addr, dataId, transcode id payload, payload.length⟩ := by
  have hwire : dataId.toWireBytes.toList.length = 4 := Vector.length_toList
  have hlen : (dataId.toWireBytes.toList ++ payload).length = 4 + payload.length := by
    rw [List.length_append, hwire]
  have hdecoded := toList_decodeData (show (dataId.toWireBytes.toList ++ payload).length ≤ 64 by omega)
  have hid := decodeData_dataId dataId payload
  rw [decodePayload_of_le _ _ (by omega) (by omega), hid, hdecoded, hlen, List.append_assoc,
    List.drop_left' hwire, Nat.add_sub_cancel_left, List.take_left]

/-- **Round trip** of data responses of up to 60 bytes.  Wake-up bytes in front of the start marker
are not skipped: the callers look for the marker first. -/
theorem decodeResponse_responseFrame (addr : MeterAddress) (dataId : DataIdentifier)
    (payload : List UInt8) (wakeup : Nat) (h : payload.length ≤ 60) :
    let frame := List.replicate wakeup 0xFE ++ responseFrame addr dataId payload
    (wakeup = 0 → ∃ r, decodeResponse frame = .ok r ∧ r.meterAddr = addr ∧ r.dataId = dataId ∧
      r.payload = payload ∧ r.dataLen = payload.length) ∧
    (0 < wakeup → decodeResponse frame = .error (.err .invalidMarkers)) := by
  intro frame
  have hlen : (dataId.toWireBytes.toList ++ payload).length = 4 + payload.length := by
    rw [List.length_append, Vector.length_toList]
  constructor
  · rintro rfl
    refine ⟨_, (decodeResponse_frameOf _ _ _ (by decide) (by omega) (by omega)).trans
      (decodePayload_encoded addr dataId h), rfl, rfl, ?_, rfl⟩
    rw [Dl645Frame.payload, toList_transcode _ (by omega), List.map_id, List.take_left]
  intro hpos
  obtain ⟨header⟩ : Nonempty (Header frame) := by
    refine nonempty_header ?_
    rw [List.length_append, responseFrame, length_frameOf]
    omega
  have hstart : header.start = 0xFE := by
    have hget := header.start_eq
    rw [List.getElem?_append_left (by rwa [List.length_replicate]),
      List.getElem?_replicate_of_lt hpos] at hget
    exact (Option.some.inj hget).symm
  have hmarker : header.start ≠ frameStart := by
    rw [hstart]
    decide
  rw [header.decodeResponse_eq, if_pos (.inl hmarker)]

/-- The identifier of the active energy. -/
def activeEnergy : DataIdentifier := ⟨#v[0x00, 0x01, 0x00, 0x00]⟩

theorem decodeResponse_responseFrame_energy :
    [0x78, 0x56, 0x34, 0x12].length ≤ 60 ∧
      ∃ r, decodeResponse (responseFrame sampleMeter activeEnergy [0x78, 0x56, 0x34, 0x12]) = .ok r ∧
        r.meterAddr = sampleMeter ∧ r.dataId = activeEnergy ∧
        r.payload = [0x78, 0x56, 0x34, 0x12] ∧ r.dataLen = 4 :=
  ⟨by decide, (decodeResponse_responseFrame sampleMeter activeEnergy _ 0 (by decide)).1 rfl⟩

/-- A wake-up byte before the frame, and the shortest error frame (no data), which has 13 bytes. -/
theorem refused_frames :
    decodeResponse (0xFE :: responseFrame sampleMeter activeEnergy [0x78, 0x56, 0x34, 0x12]) =
        .error (.err .invalidMarkers) ∧
      decodeResponse (frameOf ctrlReadDataErr sampleMeter [0x01]) =
        .error (.err .invalidLength) := by
  decide +kernel

end VoltageEMS.Core.Dl645
