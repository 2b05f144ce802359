import VoltageEMS.Model.Point

/-!
# Command notifications

`ShmNotification` and `ShmNotifier::notify`, the sender of the command notifications modsrv writes to
the socket of comsrv.
-/

namespace VoltageEMS.Shm

/-- `ShmNotification`; `pointType` is the wire byte. -/
structure ShmNotification where
  channelId : Nat
  pointId : Nat
  pointType : Nat
  value : Float
  timestampMs : Nat
  producerId : Nat
  seq : Nat
deriving DecidableEq

/-- `get_point_type`: commands only. -/
def ShmNotification.getPointType (n : ShmNotification) : Option PointType :=
  match n.pointType with
  | 2 => some .control
  | 3 => some .adjustment
  | _ => none

/-- `ShmNotifier`; whether a reconnect is due and works is up to the environment. -/
structure ShmNotifier where
  connected : Bool
  path : String
  producerId : Nat
  nextSeq : Nat
deriving DecidableEq

/-- `NotifyResult`. -/
inductive NotifyResult
  | sent
  | degraded
  | off
deriving DecidableEq

/-- What the socket does during one call: whether a missing connection comes back, and which of the
three attempts succeeds. -/
structure NotifyIo where
  reconnects : Bool
  writes : Fin 3 → Bool

namespace ShmNotifier

/-- `next_seq.wrapping_add(1).max(1)`. -/
def seqAfter (seq : Nat) : Nat := max ((seq + 1) % 2 ^ 64) 1

/-- `notify`, with the notification that was written to the socket, if one was. -/
def notify (n : ShmNotifier) (io : NotifyIo) (channelId : Nat) (pointType : PointType)
    (pointId : Nat) (value : Float) (timestampMs : Nat) :
    ShmNotifier × NotifyResult × Option ShmNotification :=
  if n.path.isEmpty then (n, .off, none)
  else if !(n.connected || io.reconnects) then (n, .degraded, none)
  else
    let notification : ShmNotification := {
      channelId
      pointId
      pointType := pointType.toU8
      value
      timestampMs
      producerId := n.producerId
      seq := n.nextSeq }
    let numbered := { n with connected := true, nextSeq := seqAfter n.nextSeq }
    if (List.finRange 3).any io.writes then (numbered, .sent, some notification)
    else ({ numbered with connected := false }, .degraded, none)

theorem notify_spec (n : ShmNotifier) (io : NotifyIo) (channelId : Nat) (pointType : PointType)
    (pointId : Nat) (value : Float) (ts : Nat) :
    let r := n.notify io channelId pointType pointId value ts
    (r.1.nextSeq = n.nextSeq ∨ r.1.nextSeq = seqAfter n.nextSeq) ∧
      (r.2.1 = .sent ↔ r.2.2.isSome) ∧
      ∀ m, r.2.2 = some m → m.value = value ∧ m.seq = n.nextSeq ∧
        r.1.nextSeq = seqAfter n.nextSeq := by
  unfold notify
  split
  · simp
  split
  · simp
  dsimp only
  split
  · refine ⟨.inr rfl, by simp, ?_⟩
    rintro m ⟨⟩
    exact ⟨rfl, rfl, rfl⟩
  · simp

end ShmNotifier

end VoltageEMS.Shm
