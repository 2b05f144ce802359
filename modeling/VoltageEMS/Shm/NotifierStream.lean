import VoltageEMS.Lib.Run
import VoltageEMS.Lib.Framing
import VoltageEMS.Shm.Notifier

/-!
# Command notifications as bytes on the socket

`ShmNotifier::notify` writes each notification as 48 bytes with `write_all`, up to three times on
one stream; `handle_connection` on the other side reads block after block of 48 bytes.
-/

namespace VoltageEMS.Shm

open Lib List

/-- `ShmNotification` as it lies in memory; `_padding` is its 7 bytes as one number. -/
structure ShmFrame where
  channelId : UInt32
  pointId : UInt32
  pointType : UInt8
  padding : BitVec 56
  valueBits : UInt64
  timestampMs : UInt64
  producerId : UInt64
  seq : UInt64
deriving DecidableEq

namespace ShmFrame

/-- `SIZE`. -/
abbrev size : Nat := 48

/-- `to_bytes`. -/
def toBytes (f : ShmFrame) : List UInt8 :=
  leBytes 4 f.channelId.toNat ++ (leBytes 4 f.pointId.toNat ++ (leBytes 1 f.pointType.toNat ++
    (leBytes 7 f.padding.toNat ++ (leBytes 8 f.valueBits.toNat ++
      (leBytes 8 f.timestampMs.toNat ++ (leBytes 8 f.producerId.toNat ++
        leBytes 8 f.seq.toNat))))))

/-- The number in `len` bytes from `start` on. -/
def readLe (bytes : List UInt8) (start len : Nat) : Nat := ofLeBytes ((bytes.drop start).take len)

/-- The cast of 48 bytes, with the offsets of the `repr(C)` layout. -/
def ofBytes (bytes : List UInt8) : ShmFrame where
  channelId := UInt32.ofNat (readLe bytes 0 4)
  pointId := UInt32.ofNat (readLe bytes 4 4)
  pointType := UInt8.ofNat (readLe bytes 8 1)
  padding := BitVec.ofNat 56 (readLe bytes 9 7)
  valueBits := UInt64.ofNat (readLe bytes 16 8)
  timestampMs := UInt64.ofNat (readLe bytes 24 8)
  producerId := UInt64.ofNat (readLe bytes 32 8)
  seq := UInt64.ofNat (readLe bytes 40 8)

/-- `from_bytes` of a buffer at the address: `bytemuck::from_bytes` panics (`none`) unless it is
aligned to 8 bytes. -/
def fromBytes (address : Nat) (bytes : List UInt8) : Option ShmFrame :=
  if address % 8 = 0 then some (ofBytes bytes) else none

theorem length_toBytes (f : ShmFrame) : f.toBytes.length = size := by
  simp only [toBytes, length_append, length_leBytes, size]

theorem readLe_head {w n : Nat} (rest : List UInt8) :
    readLe (leBytes w n ++ rest) 0 w = n % 256 ^ w := by
  rw [readLe, drop_zero, take_left' (length_leBytes w n), ofLeBytes_leBytes]

theorem readLe_tail {head rest : List UInt8} {start len : Nat} (h : head.length ≤ start) :
    readLe (head ++ rest) start len = readLe rest (start - head.length) len := by
  rw [readLe, drop_append, drop_eq_nil_of_le h, nil_append, readLe]

theorem ofBytes_toBytes (f : ShmFrame) : ofBytes f.toBytes = f := by
  have hlast : readLe (leBytes 8 f.seq.toNat) 0 8 = f.seq.toNat % 256 ^ 8 := by
    simpa using readLe_head (w := 8) (n := f.seq.toNat) []
  -- each field is reached by skipping the ones before it
  simp (disch := simp) only [ofBytes, toBytes, readLe_tail, length_leBytes, readLe_head,
    Nat.reduceSub, hlast]
  simp only [Nat.reducePow, Nat.mod_eq_of_lt f.channelId.toNat_lt,
    Nat.mod_eq_of_lt f.pointId.toNat_lt, Nat.mod_eq_of_lt f.pointType.toNat_lt,
    Nat.mod_eq_of_lt f.padding.isLt, Nat.mod_eq_of_lt f.valueBits.toNat_lt,
    Nat.mod_eq_of_lt f.timestampMs.toNat_lt, Nat.mod_eq_of_lt f.producerId.toNat_lt,
    Nat.mod_eq_of_lt f.seq.toNat_lt, UInt32.ofNat_toNat, UInt8.ofNat_toNat, UInt64.ofNat_toNat,
    BitVec.ofNat_toNat, BitVec.setWidth_eq]

/-- Frames as messages of one size. -/
def codec : Codec ShmFrame where
  size := size
  size_pos := by decide
  encode := toBytes
  decode := ofBytes
  length_encode := length_toBytes
  decode_encode := ofBytes_toBytes

/-- The frames `handle_connection` gets from a stream with its buffer at the address; `none` if it
panics. -/
def receive (address : Nat) (stream : List UInt8) : Option (List ShmFrame) :=
  if stream.length < size then some []
  else (fromBytes address (stream.take size)).bind fun f =>
    (receive address (stream.drop size)).map (f :: ·)
termination_by stream.length
decreasing_by
  rename_i h
  unfold size at h ⊢
  rw [length_drop]
  omega

/-- **What the receiver gets**: the frames that were written, in their order, if its buffer is
aligned; otherwise it panics at the first. -/
theorem receive_toBytes (address : Nat) (fs : List ShmFrame) :
    receive address (fs.flatMap toBytes) =
      if fs = [] ∨ address % 8 = 0 then some fs else none := by
  induction fs with
  | nil =>
    rw [receive]
    simp
  | cons f fs ih =>
    have hlen := length_toBytes f
    rw [receive, flatMap_cons, if_neg (by rw [length_append]; omega), take_left' hlen,
      drop_left' hlen, ih, fromBytes, ofBytes_toBytes]
    by_cases haligned : address % 8 = 0 <;> simp [haligned]

/-- The notification a frame stands for. -/
def toNotification (f : ShmFrame) : ShmNotification where
  channelId := f.channelId.toNat
  pointId := f.pointId.toNat
  pointType := f.pointType.toNat
  value := Float.ofBits f.valueBits
  timestampMs := f.timestampMs.toNat
  producerId := f.producerId.toNat
  seq := f.seq.toNat

end ShmFrame

/-- The arguments of one `notify` call; the value is given by its bits. -/
structure NotifyCall where
  channelId : UInt32
  pointType : PointType
  pointId : UInt32
  valueBits : UInt64
  timestampMs : UInt64
deriving DecidableEq

/-- `ShmNotification::new`. -/
def NotifyCall.frame (c : NotifyCall) (producerId seq : Nat) : ShmFrame where
  channelId := c.channelId
  pointId := c.pointId
  pointType := UInt8.ofNat c.pointType.toU8
  padding := 0
  valueBits := c.valueBits
  timestampMs := c.timestampMs
  producerId := UInt64.ofNat producerId
  seq := UInt64.ofNat seq

/-- One `write_all` of a frame: done, or failed after some of its bytes. -/
inductive Attempt
  | ok
  | failed (written : Fin ShmFrame.size)
deriving DecidableEq

/-- What the socket does during one `notify`. -/
structure StreamIo where
  reconnects : Bool
  attempts : Fin 3 → Attempt

namespace StreamIo

/-- The three attempts, in order. -/
def tries (io : StreamIo) : List Attempt := (finRange 3).map io.attempts

/-- The same, without the bytes. -/
def outcome (io : StreamIo) : NotifyIo where
  reconnects := io.reconnects
  writes i := io.attempts i = .ok

end StreamIo

/-- The retry loop: the bytes it leaves on the stream, and whether an attempt went through. -/
def writeRetrying (bytes : List UInt8) : List Attempt → List UInt8 × Bool
  | [] => ([], false)
  | .ok :: _ => (bytes, true)
  | .failed k :: tries =>
    let (more, sent) := writeRetrying bytes tries
    (bytes.take k ++ more, sent)

/-- Every attempt that is followed by another had written nothing. -/
def CleanRetry : List Attempt → Prop
  | .failed k :: next :: tries => k.val = 0 ∧ CleanRetry (next :: tries)
  | _ => True

instance CleanRetry.decidable : ∀ tries : List Attempt, Decidable (CleanRetry tries)
  | [] => inferInstanceAs (Decidable True)
  | .ok :: _ => inferInstanceAs (Decidable True)
  | [.failed _] => inferInstanceAs (Decidable True)
  | .failed k :: next :: tries =>
    have := CleanRetry.decidable (next :: tries)
    inferInstanceAs (Decidable (k.val = 0 ∧ CleanRetry (next :: tries)))

theorem writeRetrying_snd (bytes : List UInt8) :
    ∀ tries : List Attempt, (writeRetrying bytes tries).2 = tries.any (· = .ok)
  | [] => rfl
  | .ok :: _ => by simp [writeRetrying]
  | .failed k :: tries => by simp [writeRetrying, writeRetrying_snd bytes tries]

theorem writeRetrying_clean {f : ShmFrame} :
    ∀ {tries : List Attempt}, CleanRetry tries →
      let r := writeRetrying f.toBytes tries
      (r.2 = true ∧ r.1 = f.toBytes) ∨ (r.2 = false ∧ r.1.length < ShmFrame.size)
  | [], _ => .inr ⟨rfl, Nat.succ_pos 47⟩
  | .ok :: _, _ => .inl ⟨rfl, rfl⟩
  | [.failed k], _ => .inr ⟨rfl, by
      simp only [writeRetrying, append_nil, length_take, ShmFrame.length_toBytes]
      omega⟩
  | .failed k :: next :: tries, h => by
    have ih := writeRetrying_clean (f := f) h.2
    simp only [writeRetrying, h.1, take_zero, nil_append] at ih ⊢
    exact ih

/-! ## The connections of a notifier -/

/-- The notifier and the bytes on its connections: those it gave up, oldest first, and the present
one. -/
structure NotifierWorld where
  notifier : ShmNotifier
  closed : List (List UInt8)
  stream : List UInt8
deriving DecidableEq

namespace NotifierWorld

/-- All connections, the present one last. -/
def connections (w : NotifierWorld) : List (List UInt8) := w.closed ++ [w.stream]

/-- The call has a stream to write to. -/
def Opens (w : NotifierWorld) (io : StreamIo) : Prop :=
  w.notifier.path.isEmpty = false ∧ (w.notifier.connected || io.reconnects) = true

instance (w : NotifierWorld) (io : StreamIo) : Decidable (w.Opens io) := instDecidableAnd

/-- `notify`, with the call and the number it was given if a frame was built. -/
def notify (w : NotifierWorld) (io : StreamIo) (c : NotifyCall) :
    NotifierWorld × List (NotifyCall × Nat) :=
  if w.Opens io then
    let n := w.notifier
    let numbered := { n with connected := true, nextSeq := ShmNotifier.seqAfter n.nextSeq }
    let (out, sent) := writeRetrying (c.frame n.producerId n.nextSeq).toBytes io.tries
    if sent then
      ({ notifier := numbered, closed := w.closed, stream := w.stream ++ out }, [(c, n.nextSeq)])
    else
      -- the stream is dropped after the last attempt
      ({ notifier := { numbered with connected := false }
         closed := w.closed ++ [w.stream ++ out]
         stream := [] }, [(c, n.nextSeq)])
  else (w, [])

/-- Runs of `notify` calls. -/
def machine : Machine NotifierWorld (StreamIo × NotifyCall) (NotifyCall × Nat) where
  step w x := w.notify x.1 x.2

/-- A notifier before its first call. -/
def start (n : ShmNotifier) : NotifierWorld := ⟨n, [], []⟩

/-- When the call has a stream, its retries are clean. -/
def Clean (w : NotifierWorld) (x : StreamIo × NotifyCall) : Prop :=
  w.Opens x.1 → CleanRetry x.1.tries

instance (w : NotifierWorld) (x : StreamIo × NotifyCall) : Decidable (w.Clean x) :=
  inferInstanceAs (Decidable (_ → _))

variable {w : NotifierWorld}

/-- The connections given up carry whole frames and a part at most, the present one whole frames;
all together a part of the frames built, in their order. -/
structure Framed (producerId : Nat) (w : NotifierWorld) (built : List (NotifyCall × Nat)) :
    Prop where
  producer : w.notifier.producerId = producerId
  streams : ∃ (done : List (List ShmFrame)) (current : List ShmFrame),
    List.Forall₂ ShmFrame.codec.Written done w.closed ∧
      w.stream = current.flatMap ShmFrame.toBytes ∧
      (done.flatten ++ current).Sublist (built.map fun e => e.1.frame producerId e.2)

theorem Framed.step {p : Nat} {built : List (NotifyCall × Nat)} {x : StreamIo × NotifyCall}
    (h : Framed p w built) (hclean : w.Clean x) :
    Framed p (machine.step w x).1 (built ++ (machine.step w x).2) := by
  obtain ⟨io, c⟩ := x
  obtain ⟨hp, done, current, hdone, hcurrent, hsub⟩ := h
  simp only [machine, notify]
  by_cases hopen : w.Opens io
  · rw [if_pos hopen]
    have hlast : [c.frame p w.notifier.nextSeq] =
        [(c, w.notifier.nextSeq)].map fun e => e.1.frame p e.2 := rfl
    rcases writeRetrying_clean (f := c.frame w.notifier.producerId w.notifier.nextSeq)
        (hclean hopen) with ⟨hsent, hout⟩ | ⟨hsent, hout⟩
    · -- the frame is on the stream in full
      simp only [hsent, hout, if_true]
      refine ⟨hp, done, current ++ [c.frame p w.notifier.nextSeq], hdone, ?_, ?_⟩
      · rw [hcurrent, flatMap_append, flatMap_singleton, hp]
      rw [map_append, ← append_assoc]
      exact hsub.append (.refl _)
    -- the stream is given up with a part of the frame at its end
    simp only [hsent, Bool.false_eq_true, if_false]
    refine ⟨hp, done ++ [current], [], ?_, rfl, ?_⟩
    · rw [hcurrent]
      exact rel_append hdone (.cons (.of_part hout) .nil)
    rw [map_append, flatten_append, flatten_singleton, append_nil]
    exact hsub.trans (sublist_append_left _ _)
  rw [if_neg hopen, append_nil]
  exact ⟨hp, done, current, hdone, hcurrent, hsub⟩

theorem trace_sublist : ∀ (w : NotifierWorld) (xs : List (StreamIo × NotifyCall)),
    ((machine.trace w xs).map Prod.fst).Sublist (xs.map Prod.snd)
  | _, [] => .slnil
  | w, x :: xs => by
    have hstep : ((machine.step w x).2.map Prod.fst).Sublist [x.2] := by
      simp only [machine, notify]
      split
      · split <;> exact .refl _
      · exact nil_sublist _
    simp only [Machine.trace_cons, map_append, map_cons]
    exact hstep.append (trace_sublist _ xs)

/-- **No frame is mixed.**  Over every run whose retries are clean, what a receiver has read of each
connection decodes to the notifications of some of the calls, in their order. -/
theorem frames_subsequence (n : ShmNotifier) (xs : List (StreamIo × NotifyCall))
    (received : List (List UInt8)) (hclean : machine.Along Clean (start n) xs)
    (hreceived : List.Forall₂ (· <+: ·) received (machine.run (start n) xs).connections) :
    ∃ delivered : List (NotifyCall × Nat),
      received.flatMap ShmFrame.codec.frames =
        delivered.map (fun e => e.1.frame n.producerId e.2) ∧
      (delivered.map Prod.fst).Sublist (xs.map Prod.snd) := by
  have hstart : Framed n.producerId (start n) [] := ⟨rfl, [], [], .nil, rfl, .slnil⟩
  obtain ⟨-, done, current, hdone, hcurrent, hsub⟩ :=
    machine.invariant (Framed n.producerId) (fun _ _ _ h hx => h.step hx) hstart hclean
  have hwritten : List.Forall₂ ShmFrame.codec.Written (done ++ [current])
      (machine.run (start n) xs).connections := by
    refine rel_append hdone (.cons ⟨[], ShmFrame.codec.size_pos, ?_⟩ .nil)
    rw [hcurrent, append_nil]
    rfl
  have hdecoded := Codec.flatMap_frames_sublist hwritten hreceived
  rw [flatten_append, flatten_singleton] at hdecoded
  obtain ⟨delivered, hdelivered, heq⟩ := List.sublist_map_iff.mp (hdecoded.trans hsub)
  exact ⟨delivered, heq, (hdelivered.map Prod.fst).trans (trace_sublist _ xs)⟩

/-- A connected notifier. -/
private def sampleNotifier : ShmNotifier := ⟨true, "/tmp/comsrv.sock", 7, 1⟩

/-- A control command. -/
private def sampleCall (channelId : UInt32) : NotifyCall := ⟨channelId, .control, 4, 0, 1000⟩

/-- A retry that succeeds, a stream that is lost, and a reconnect. -/
private def cleanRun : List (StreamIo × NotifyCall) :=
  [(⟨false, ![.failed 0, .ok, .ok]⟩, sampleCall 1),
   (⟨false, ![.failed 0, .failed 0, .failed 5]⟩, sampleCall 2),
   (⟨true, ![.ok, .ok, .ok]⟩, sampleCall 3)]

theorem frames_subsequence_lost_stream :
    machine.Along Clean (start sampleNotifier) cleanRun ∧
      (machine.run (start sampleNotifier) cleanRun).connections.map List.length = [53, 48] ∧
      ∃ delivered : List (NotifyCall × Nat),
        (machine.run (start sampleNotifier) cleanRun).connections.flatMap
            ShmFrame.codec.frames = delivered.map (fun e => e.1.frame 7 e.2) ∧
          (delivered.map Prod.fst).Sublist (cleanRun.map Prod.snd) := by
  have hclean : machine.Along Clean (start sampleNotifier) cleanRun := by decide
  exact ⟨hclean, by decide, frames_subsequence sampleNotifier cleanRun _ hclean
    (List.forall₂_same.mpr fun _ _ => prefix_rfl)⟩

/-- One byte is written before the retry. -/
private def shortWriteRun : List (StreamIo × NotifyCall) :=
  [(⟨false, ![.failed 1, .ok, .ok]⟩, sampleCall 1)]

/-- **A short write mixes frames**: the block read is the first byte of one attempt and the first 47
of the next, a command for channel 257 nobody sent. -/
theorem short_write_mixes :
    ((machine.run (start sampleNotifier) shortWriteRun).connections.flatMap
        ShmFrame.codec.frames).map ShmFrame.channelId = [257] ∧
      ¬ ∃ delivered : List (NotifyCall × Nat),
        (machine.run (start sampleNotifier) shortWriteRun).connections.flatMap
            ShmFrame.codec.frames = delivered.map (fun e => e.1.frame 7 e.2) ∧
          (delivered.map Prod.fst).Sublist (shortWriteRun.map Prod.snd) := by
  have hchannel : ((machine.run (start sampleNotifier) shortWriteRun).connections.flatMap
      ShmFrame.codec.frames).map ShmFrame.channelId = [257] := by decide
  refine ⟨hchannel, ?_⟩
  rintro ⟨delivered, heq, hsub⟩
  -- a frame of the one call is for channel 1
  have hmem : (257 : UInt32) ∈ (delivered.map Prod.fst).map NotifyCall.channelId := by
    rw [heq, map_map] at hchannel
    rw [map_map, show NotifyCall.channelId ∘ Prod.fst =
      ShmFrame.channelId ∘ fun e : NotifyCall × Nat => e.1.frame 7 e.2 from rfl, hchannel]
    exact mem_singleton_self _
  exact absurd ((hsub.map NotifyCall.channelId).subset hmem) (by decide)

end NotifierWorld

end VoltageEMS.Shm
