import VoltageEMS.Lib.Run

/-!
# Reconnection attempts

A helper grants a number of attempts to reconnect; when they are used up, it may recover after a while
and grant as many again, for a number of rounds (`comsrv/src/runtime/reconnect.rs`).
-/

namespace VoltageEMS.Comsrv.Reconnect

open Lib List

/-- `ReconnectState`. -/
inductive ReconnectState
  | connected
  | disconnected
  | reconnecting
  | failed
deriving DecidableEq

/-- `AutoRecoveryPolicy`. -/
structure AutoRecoveryPolicy where
  cooldown : Nat
  maxRecoveryRounds : Nat

/-- `ReconnectHelper`, with its context. -/
structure ReconnectHelper where
  maxAttempts : Nat
  currentAttempt : Nat := 0
  connectionState : ReconnectState := .disconnected
  autoRecovery : Option AutoRecoveryPolicy := none
  failedAt : Option Nat := none
  recoveryRounds : Nat := 0

namespace ReconnectHelper

variable (h : ReconnectHelper)

/-- `with_auto_recovery`. -/
def withAutoRecovery (policy : AutoRecoveryPolicy) : ReconnectHelper :=
  if 0 < policy.maxRecoveryRounds then { h with autoRecovery := some policy } else h

/-- `reset`. -/
def reset : ReconnectHelper :=
  { h with
    currentAttempt := 0
    connectionState := if h.connectionState = .connected then .connected else .disconnected }

/-- `check_auto_recovery`, which reads the clock twice. -/
def checkAutoRecovery (now later : Nat) : ReconnectHelper × Bool :=
  match h.autoRecovery with
  | none => (h, false)
  | some policy =>
    if h.connectionState ≠ .failed then (h, false)
    else
      let failedAt := h.failedAt.getD now
      if policy.maxRecoveryRounds ≤ h.recoveryRounds ∨ later - failedAt < policy.cooldown then
        ({ h with failedAt := some failedAt }, false)
      else
        ({ h with recoveryRounds := h.recoveryRounds + 1, failedAt := none }.reset, true)

/-- `mark_disconnected`. -/
def markDisconnected : ReconnectHelper := { h with connectionState := .disconnected }

/-- The attempts are used up. -/
def exhausted : Bool := 0 < h.maxAttempts && h.maxAttempts ≤ h.currentAttempt

/-- From then on it waits. -/
def fail (now : Nat) : ReconnectHelper :=
  { h with connectionState := .failed, failedAt := some (h.failedAt.getD now) }

/-- `record_attempt`. -/
def recordAttempt (now : Nat) : ReconnectHelper × Bool :=
  if h.exhausted then (h.fail now, false)
  else
    ({ h with currentAttempt := h.currentAttempt + 1, connectionState := .reconnecting }, true)

/-- `record_failure`. -/
def recordFailure (now : Nat) : ReconnectHelper :=
  if h.exhausted then h.fail now else h.markDisconnected

end ReconnectHelper

/-- The calls of a run without a connection, with the times they read. -/
inductive Call
  | recordAttempt (now : Nat)
  | recordFailure (now : Nat)
  | markDisconnected
  | checkAutoRecovery (now later : Nat)

/-- The events are the answers to the attempts. -/
def machine : Machine ReconnectHelper Call Bool where
  step h
    | .recordAttempt now => ((h.recordAttempt now).1, [(h.recordAttempt now).2])
    | .recordFailure now => (h.recordFailure now, [])
    | .markDisconnected => (h.markDisconnected, [])
    | .checkAutoRecovery now later => ((h.checkAutoRecovery now later).1, [])

/-- The attempts granted so far: all of every round that is over, and those of this one. -/
structure Counted (maxAttempts maxRounds : Nat) (h : ReconnectHelper) (answers : List Bool) : Prop where
  limit : h.maxAttempts = maxAttempts
  policy : ∀ p ∈ h.autoRecovery, p.maxRecoveryRounds ≤ maxRounds
  round : h.recoveryRounds ≤ maxRounds
  attempt : h.currentAttempt ≤ maxAttempts
  granted : answers.count true ≤ maxAttempts * h.recoveryRounds + h.currentAttempt

theorem ReconnectHelper.exhausted_iff {h : ReconnectHelper} (hmax : 0 < h.maxAttempts) :
    h.exhausted ↔ h.maxAttempts ≤ h.currentAttempt := by
  simp [exhausted, hmax]

namespace Counted

variable {maxAttempts maxRounds : Nat} {h : ReconnectHelper} {answers : List Bool}

theorem checkAutoRecovery (hc : Counted maxAttempts maxRounds h answers) (now later : Nat) :
    Counted maxAttempts maxRounds (h.checkAutoRecovery now later).1 answers := by
  unfold ReconnectHelper.checkAutoRecovery
  split
  · exact hc
  rename_i policy hpolicy
  split
  · exact hc
  dsimp only
  split
  · exact { hc with }
  rename_i hready
  have hround := hc.policy policy hpolicy
  have hattempt := hc.attempt
  have hgranted := hc.granted
  refine ⟨hc.limit, hc.policy, ?_, Nat.zero_le _, ?_⟩
  · dsimp only [ReconnectHelper.reset]
    omega
  -- the attempts of the round that is over
  dsimp only [ReconnectHelper.reset]
  rw [Nat.mul_succ]
  omega

theorem step (hc : Counted maxAttempts maxRounds h answers) (hmax : 0 < maxAttempts) (c : Call) :
    Counted maxAttempts maxRounds (machine.step h c).1 (answers ++ (machine.step h c).2) := by
  cases c with
  | recordAttempt now =>
    dsimp only [machine, ReconnectHelper.recordAttempt]
    obtain rfl := hc.limit
    split
    · refine { hc with granted := ?_ }
      rw [count_append]
      exact hc.granted
    rename_i hleft
    rw [ReconnectHelper.exhausted_iff hmax, Nat.not_le] at hleft
    refine { hc with attempt := hleft, granted := ?_ }
    rw [count_append]
    exact Nat.succ_le_succ hc.granted
  | recordFailure now =>
    rw [machine, append_nil]
    dsimp only [ReconnectHelper.recordFailure]
    split <;> exact { hc with }
  | markDisconnected =>
    rw [machine, append_nil]
    exact { hc with }
  | checkAutoRecovery now later =>
    rw [machine, append_nil]
    exact hc.checkAutoRecovery now later

theorem run (hc : Counted maxAttempts maxRounds h []) (hmax : 0 < maxAttempts) (calls : List Call) :
    (machine.trace h calls).count true ≤ maxAttempts * (maxRounds + 1) := by
  have hend := machine.invariant (Counted maxAttempts maxRounds) (fun _ _ c hc _ => hc.step hmax c) hc
    (machine.along_true h calls)
  calc (machine.trace h calls).count true
      ≤ maxAttempts * (machine.run h calls).recoveryRounds + (machine.run h calls).currentAttempt :=
        hend.granted
    _ ≤ maxAttempts * maxRounds + maxAttempts :=
        Nat.add_le_add (Nat.mul_le_mul_left _ hend.round) hend.attempt
    _ = maxAttempts * (maxRounds + 1) := (Nat.mul_succ ..).symm

end Counted

/-- **The attempts are bounded**: without a connection or a reset, every round grants at most the
attempts of the policy, and none once its counter is exhausted. -/
theorem attempts_bounded (maxAttempts : Nat) (hmax : 0 < maxAttempts) (auto : AutoRecoveryPolicy)
    (calls : List Call) :
    let alone : ReconnectHelper := { maxAttempts }
    (machine.trace alone calls).count true ≤ maxAttempts ∧
      (machine.trace (alone.withAutoRecovery auto) calls).count true ≤
        maxAttempts * (auto.maxRecoveryRounds + 1) ∧
      ∀ h : ReconnectHelper, h.maxAttempts = maxAttempts → maxAttempts ≤ h.currentAttempt →
        ∀ now, (h.recordAttempt now).2 = false := by
  have halone : Counted maxAttempts 0 { maxAttempts } [] :=
    ⟨rfl, nofun, Nat.le_refl _, Nat.zero_le _, Nat.zero_le _⟩
  refine ⟨?_, Counted.run ?_ hmax calls, ?_⟩
  · simpa using halone.run hmax calls
  · unfold ReconnectHelper.withAutoRecovery
    split
    · refine { halone with policy := fun p hp => ?_, round := Nat.zero_le _ }
      cases hp
      exact Nat.le_refl _
    · exact { halone with policy := nofun, round := Nat.zero_le _ }
  rintro h rfl hused now
  rw [ReconnectHelper.recordAttempt, if_pos ((ReconnectHelper.exhausted_iff hmax).mpr hused)]

theorem attempts_bounded_two :
    let alone : ReconnectHelper := { maxAttempts := 2 }
    let calls : List Call := [.recordAttempt 0, .recordAttempt 1, .recordFailure 2,
      .checkAutoRecovery 20 20, .recordAttempt 21]
    (machine.trace alone calls).count true ≤ 2 ∧
      (machine.trace (alone.withAutoRecovery ⟨10, 1⟩) calls).count true ≤ 2 * (1 + 1) ∧
      ∀ h : ReconnectHelper, h.maxAttempts = 2 → 2 ≤ h.currentAttempt →
        ∀ now, (h.recordAttempt now).2 = false :=
  attempts_bounded 2 (by decide) ⟨10, 1⟩ _

end VoltageEMS.Comsrv.Reconnect
