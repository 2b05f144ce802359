import VoltageEMS.Model.Point

/-!
# Triggers of a rule

The decision part of `voltage-rules/src/scheduler.rs`: what a rule subscribes to and when it is due.
Instants are nanoseconds on the monotonic clock.
-/

namespace VoltageEMS.Rules

open Lib

/-- `now.duration_since(earlier).as_millis() as u64`; zero when `earlier` lies in the future. -/
def elapsedMs (now earlier : Nat) : Nat := (now - earlier) / 10 ^ 6 % 2 ^ 64

theorem le_of_le_elapsedMs {now earlier ms : Nat} (hpos : 0 < ms) (h : ms ≤ elapsedMs now earlier) :
    earlier + ms * 10 ^ 6 ≤ now := by
  have hle : ms ≤ (now - earlier) / 10 ^ 6 := h.trans (Nat.mod_le _ _)
  have := (Nat.le_div_iff_mul_le (by decide)).mp hle
  omega

/-! ## Subscribed points -/

/-- `PointKind`. -/
inductive PointKind
  | measurement
  | action
deriving DecidableEq, Repr

/-- `PointRef`: a point of an instance. -/
structure PointRef where
  inst : Nat
  pointType : PointKind
  point : Nat
deriving DecidableEq, Repr

/-- Its letter in keys. -/
def PointKind.keyTag : PointKind → Char
  | measurement => 'M'
  | action => 'A'

/-- `PointRef::cache_key`. -/
def PointRef.cacheKey (p : PointRef) : String := pairKey p.pointType.keyTag p.inst p.point

theorem PointRef.cacheKey_injective : Function.Injective PointRef.cacheKey := by
  rintro ⟨i, k, p⟩ ⟨i', k', p'⟩ h
  obtain ⟨hk, rfl, rfl⟩ := pairKey_inj h
  cases k <;> cases k' <;> first | rfl | simp [PointKind.keyTag] at hk

/-! ## Deadbands -/

/-- `ValueDeadband`. -/
inductive ValueDeadband
  | absolute (threshold : Float)
  | percent (threshold : Float)

/-- `ValueDeadband::exceeds`. -/
def ValueDeadband.exceeds (vd : ValueDeadband) (last new : Float) : Bool :=
  let delta := (new - last).abs
  match vd with
  | absolute threshold => decide (delta > threshold)
  | percent threshold =>
    let basis := last.abs
    -- crossing zero: any non-zero new value is a change
    if basis == 0.0 then new != 0.0 else decide ((delta / basis) * 100.0 > threshold)

/-- `TriggerConfig`. -/
inductive TriggerConfig
  | interval (intervalMs : Nat)
  | onChange (pointRefs : List PointRef) (timeDeadbandMs : Option Nat)
      (valueDeadband : Option ValueDeadband)

/-- It is triggered by changes. -/
def TriggerConfig.isOnChange : TriggerConfig → Bool
  | interval _ => false
  | onChange .. => true

/-- The points it watches. -/
def TriggerConfig.pointRefs : TriggerConfig → List PointRef
  | interval _ => []
  | onChange pointRefs _ _ => pointRefs

/-- `OnChangeState`: the values of the last trigger, by cache key, and its instant. -/
structure OnChangeState where
  lastValue : String → Option Float := fun _ => none
  lastTrigger : Option Nat := none

/-- `HashMap<String, Option<f64>>`: `some none` is a point without a usable value. -/
abbrev Snapshot := String → Option (Option Float)

/-- The time deadband is over. -/
def timeDeadbandOpen (state : OnChangeState) (timeDeadbandMs : Option Nat) (now : Nat) : Bool :=
  match timeDeadbandMs, state.lastTrigger with
  | some td, some last => decide (td ≤ elapsedMs now last)
  | _, _ => true

/-- The point is past its deadband. -/
def pointChanged (state : OnChangeState) (valueDeadband : Option ValueDeadband)
    (snapshot : Snapshot) (p : PointRef) : Bool :=
  match snapshot p.cacheKey with
  | some (some v) =>
    v.isFinite &&
      match state.lastValue p.cacheKey with
      | none => true
      | some last =>
        match valueDeadband with
        | some vd => vd.exceeds last v
        | none => totalCmp last v != .eq
  | _ => false

/-- `should_trigger_onchange`. -/
def shouldTriggerOnchange (state : OnChangeState) (pointRefs : List PointRef)
    (timeDeadbandMs : Option Nat) (valueDeadband : Option ValueDeadband) (snapshot : Snapshot)
    (now : Nat) : Bool :=
  timeDeadbandOpen state timeDeadbandMs now && pointRefs.any (pointChanged state valueDeadband snapshot)

/-! ## Rules -/

/-- `Rule`, with its trigger configuration as parsed (`none` when absent or malformed). -/
structure Rule where
  id : Int
  name : String
  enabled : Bool
  cooldownMs : Nat
  triggerConfig : Option TriggerConfig

/-- The trigger, by default an interval. -/
def Rule.trigger (r : Rule) : TriggerConfig :=
  r.triggerConfig.getD (.interval (if 0 < r.cooldownMs then r.cooldownMs else 1000))

/-- The rule is not resting. -/
def Rule.cooldownOk (r : Rule) (lastCooldownStart : Option Nat) (now : Nat) : Bool :=
  if 0 < r.cooldownMs then
    match lastCooldownStart with
    | none => true
    | some start => decide (r.cooldownMs ≤ elapsedMs now start)
  else true

theorem Rule.cooldownOk_some {r : Rule} {start now : Nat} (hpos : 0 < r.cooldownMs)
    (h : r.cooldownOk (some start) now = true) : start + r.cooldownMs * 10 ^ 6 ≤ now := by
  simp only [cooldownOk, if_pos hpos, decide_eq_true_eq] at h
  exact le_of_le_elapsedMs hpos h

end VoltageEMS.Rules
