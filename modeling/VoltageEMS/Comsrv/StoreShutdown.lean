import VoltageEMS.Rtdb.WriteBuffer

/-!
# Shutting down the store of a channel

`RedisDataStore::shutdown` signals the task that flushes the write buffer, waits five seconds for it
to end, and if it does not, flushes the buffer itself and aborts the task.  The channel has been
stopped before, so nothing is buffered any more.
-/

namespace VoltageEMS.Comsrv

open Lib Rtdb Option

variable {κ φ β : Type} [DecidableEq κ] [DecidableEq φ] {sharding : Sharding κ}

/-! ## The task and its caller -/

/-- `flush_loop_with_shutdown` after the signal has been given. -/
inductive Task (κ φ β : Type) (sharding : Sharding κ)
  /-- In the loop; the flush is idle while the task waits. -/
  | running (f : Flush κ φ β sharding)
  /-- In the flush that follows the signal. -/
  | final (f : Flush κ φ β sharding)
  | stopped
  | aborted

/-- `shutdown`. -/
inductive Caller (κ φ β : Type) (sharding : Sharding κ)
  | waiting
  /-- In `flush_now`. -/
  | flushing (f : Flush κ φ β sharding)
  | aborting
  | returned

/-- The store with both. -/
structure Shutdown (κ φ β : Type) (sharding : Sharding κ) where
  world : World κ φ β
  task : Task κ φ β sharding
  caller : Caller κ φ β sharding

/-- Their steps. -/
inductive ShutdownStep (κ φ : Type)
  | task (x : FlushStep κ φ)
  | joined
  | expired
  | caller (x : FlushStep κ φ)
  /-- The task is dropped; the store may still carry out some of the call it was in. -/
  | abort (landed : κ × φ → Bool)

namespace Task

/-- The flush under way. -/
def flush : Task κ φ β sharding → Flush κ φ β sharding
  | running f | final f => f
  | stopped | aborted => .idle

/-- No flush is under way. -/
def resting : Task κ φ β sharding → Bool
  | running .idle | stopped | aborted => true
  | _ => false

/-- The select is biased: a waiting task takes the signal first. -/
def step (w : World κ φ β) : Task κ φ β sharding → FlushStep κ φ → World κ φ β × Task κ φ β sharding
  | running .idle, .start => (w, final (.draining .begin))
  | running f, x => ((f.step w x).world, running (f.step w x).flush)
  | final f, x =>
    ((f.step w x).world, if (f.step w x).result.isSome then stopped else final (f.step w x).flush)
  | t, _ => (w, t)

end Task

namespace Shutdown

/-- The signal is given. -/
def begin (s : State κ φ β sharding) : Shutdown κ φ (Write β) sharding :=
  ⟨s.world, .running s.flush, .waiting⟩

variable (s : Shutdown κ φ β sharding)

/-- One step. -/
def step : ShutdownStep κ φ → Shutdown κ φ β sharding
  | .task x => { s with world := (s.task.step s.world x).1, task := (s.task.step s.world x).2 }
  | .joined =>
    match s.caller, s.task with
    | .waiting, .stopped => { s with caller := .returned }
    | _, _ => s
  | .expired =>
    match s.caller with
    | .waiting => { s with caller := .flushing (.draining .begin) }
    | _ => s
  | .caller x =>
    match s.caller with
    | .flushing f =>
      let r := f.step s.world x
      { s with world := r.world, caller := if r.result.isSome then .aborting else .flushing r.flush }
    | _ => s
  | .abort landed =>
    match s.caller with
    | .aborting =>
      let store := fun kf =>
        if landed kf then (s.task.flush.batch.get kf).or (s.world.store kf) else s.world.store kf
      { world := { s.world with store }, task := .aborted, caller := .returned }
    | _ => s

/-- The shutdown as a machine. -/
def machine : Machine (Shutdown κ φ β sharding) (ShutdownStep κ φ) Empty :=
  ⟨fun s x => (s.step x, [])⟩

/-- The calls of both last flushes are accepted. -/
def accepts : ShutdownStep κ φ → Bool
  | .task (.failed _) =>
    match s.task with
    | .final _ => false
    | _ => true
  | .caller (.failed _) => false
  | _ => true

/-- No flush of the task is under way when the wait expires, and none is started afterwards. -/
def undisturbed : ShutdownStep κ φ → Bool
  | .expired => s.task.resting
  | .task .start =>
    match s.caller with
    | .waiting => true
    | _ => false
  | _ => true

end Shutdown

/-! ## A flush that nothing interferes with -/

section Emptying

/-- `last` is what the layers over the store show. -/
def Covers (last : κ × φ → Option β) (w : World κ φ β) (f : Flush κ φ β sharding) : Prop :=
  ∀ kf, (layers w f kf).overlay = last kf

/-- What is pending is in shards that the flush has still to visit. -/
def Emptying (w : World κ φ β) : Flush κ φ β sharding → Prop
  | .idle => False
  | .draining d => ∀ k ∈ w.buffer.pending, d.next ≤ sharding.shardOf k
  | .sent _ => ∀ k, k ∉ w.buffer.pending

/-- Everything is in the store. -/
structure Settled (last : κ × φ → Option β) (w : World κ φ β) : Prop where
  pending : ∀ k, k ∉ w.buffer.pending
  stored : ∀ kf, w.store kf = last kf

variable {last : κ × φ → Option β} {w : World κ φ β}

omit [DecidableEq κ] [DecidableEq φ] in
theorem emptying_begin : Emptying w (.draining (.begin : Drain κ φ β sharding)) :=
  fun _ _ => Nat.zero_le _

theorem covers_begin : Covers last w (.draining (.begin : Drain κ φ β sharding)) ↔
    Covers last w (.idle : Flush κ φ β sharding) := Iff.rfl

theorem Settled.covers (h : Settled last w) : Covers last w (.idle : Flush κ φ β sharding) := by
  intro kf
  have hpending := Hashes.get_eq_none_of_notMem (h.pending kf.1)
  simp only [layers, Layers.overlay, hpending, none_or]
  exact h.stored kf

variable {f : Flush κ φ β sharding}

theorem Covers.step (h : Covers last w f) (x : FlushStep κ φ) :
    Covers last (f.step w x).world (f.step w x).flush :=
  fun kf => (Flush.moved_step w f x kf).overlay_eq.trans (h kf)

theorem settled_of_covers (h : Covers last w (.idle : Flush κ φ β sharding))
    (hpending : ∀ k, k ∉ w.buffer.pending) : Settled last w where
  pending := hpending
  stored := by
    intro kf
    have hnone := Hashes.get_eq_none_of_notMem (hpending kf.1)
    have hlast := h kf
    simp only [layers, Layers.overlay, hnone, none_or] at hlast
    exact hlast

theorem emptying_drain {d : Drain κ φ β sharding} (hc : Covers last w (.draining d))
    (he : Emptying w (.draining d)) :
    let r := Flush.drainNext w d
    (r.result = none ∧ Emptying r.world r.flush) ∨ (r.result.isSome ∧ Settled last r.world) := by
  have hleft : ∀ k ∈ (w.buffer.drainShard fun k => sharding.shardOf k == d.next).1.pending,
      d.next + 1 ≤ sharding.shardOf k := by
    intro k hk
    obtain ⟨hmem, hother⟩ := Hashes.mem_select.mp hk
    have hvisit := he k hmem
    simp only [Bool.not_eq_true', beq_eq_false_iff_ne] at hother
    omega
  have hcovers : Covers last (Flush.drainNext w d).world (Flush.drainNext w d).flush := hc.step .drain
  unfold Flush.drainNext at hcovers ⊢
  dsimp only at hcovers ⊢
  split
  · exact .inl ⟨rfl, hleft⟩
  rename_i hshards
  -- that was the last shard
  have hnone : ∀ k, k ∉ (w.buffer.drainShard fun k => sharding.shardOf k == d.next).1.pending :=
    fun k hk => hshards (lt_of_le_of_lt (hleft k hk) (sharding.lt k))
  rw [if_neg hshards] at hcovers
  split
  · rename_i hbatch
    rw [if_pos hbatch] at hcovers
    exact .inr ⟨rfl, settled_of_covers hcovers hnone⟩
  · exact .inl ⟨rfl, hnone⟩

/-- **A flush with no writer beside it**, whose call is accepted, leaves nothing behind. -/
theorem emptying_step {x : FlushStep κ φ} (hc : Covers last w f) (he : Emptying w f)
    (hx : ∀ applied, x ≠ .failed applied) :
    ((f.step w x).result = none ∧ Emptying (f.step w x).world (f.step w x).flush) ∨
      ((f.step w x).result.isSome ∧ Settled last (f.step w x).world) := by
  have hcovers := hc.step x
  cases f with
  | idle => exact he.elim
  | draining d =>
    cases x with
    | drain => exact emptying_drain hc he
    | _ => exact .inl ⟨rfl, he⟩
  | sent batch =>
    cases x with
    | accepted => exact .inr ⟨rfl, settled_of_covers hcovers he⟩
    | failed applied => exact absurd rfl (hx applied)
    | _ => exact .inl ⟨rfl, he⟩

end Emptying

/-! ## Shutdowns -/

/-- Where an undisturbed shutdown can be: at any time one flush at most is under way. -/
inductive Orderly (last : κ × φ → Option β) : Shutdown κ φ β sharding → Prop
  | running {w : World κ φ β} {f : Flush κ φ β sharding} (hc : Covers last w f) :
      Orderly last ⟨w, .running f, .waiting⟩
  | final {w : World κ φ β} {f : Flush κ φ β sharding} (hc : Covers last w f) (he : Emptying w f) :
      Orderly last ⟨w, .final f, .waiting⟩
  | stopped {w : World κ φ β} (hs : Settled last w) : Orderly last ⟨w, .stopped, .waiting⟩
  | flushing {w : World κ φ β} {t : Task κ φ β sharding} {f : Flush κ φ β sharding}
      (ht : t.resting) (hc : Covers last w f) (he : Emptying w f) :
      Orderly last ⟨w, t, .flushing f⟩
  | aborting {w : World κ φ β} {t : Task κ φ β sharding} (ht : t.resting) (hs : Settled last w) :
      Orderly last ⟨w, t, .aborting⟩
  | returned {w : World κ φ β} {t : Task κ φ β sharding} (ht : t.resting) (hs : Settled last w) :
      Orderly last ⟨w, t, .returned⟩

section Orderly

variable {last : κ × φ → Option β} {t : Task κ φ β sharding} {w : World κ φ β}

theorem step_of_resting (ht : t.resting) {x : FlushStep κ φ} (hx : x ≠ .start) :
    t.step w x = (w, t) := by
  cases t with
  | running f =>
    cases f with
    | idle =>
      cases x with
      | start => exact absurd rfl hx
      | _ => rfl
    | _ => cases ht
  | final f => cases f <;> cases ht
  | stopped | aborted => cases x <;> rfl

omit [DecidableEq κ] [DecidableEq φ] in
theorem batch_of_resting (ht : t.resting) : t.flush.batch = ∅ := by
  cases t with
  | running f =>
    cases f with
    | idle => rfl
    | _ => cases ht
  | final f => cases f <;> cases ht
  | stopped | aborted => rfl

variable {f : Flush κ φ β sharding} {x : FlushStep κ φ}

theorem orderly_running (hc : Covers last w f) (x : FlushStep κ φ) :
    Orderly last (Shutdown.step ⟨w, .running f, .waiting⟩ (.task x)) := by
  cases f with
  | idle =>
    cases x with
    | start => exact .final (covers_begin.mpr hc) emptying_begin
    | _ => exact .running hc
  | draining | sent => exact .running (hc.step x)

theorem orderly_final (hc : Covers last w f) (he : Emptying w f) {x : FlushStep κ φ}
    (hx : ∀ applied, x ≠ .failed applied) :
    Orderly last (Shutdown.step ⟨w, .final f, .waiting⟩ (.task x)) := by
  simp only [Shutdown.step, Task.step]
  rcases emptying_step hc he hx with ⟨hresult, hrest⟩ | ⟨hresult, hsettled⟩
  · simp only [hresult, isSome_none, Bool.false_eq_true, if_false]
    exact .final (hc.step x) hrest
  simp only [hresult, if_true]
  exact .stopped hsettled

theorem orderly_flushing (ht : t.resting) (hc : Covers last w f) (he : Emptying w f)
    {x : FlushStep κ φ} (hx : ∀ applied, x ≠ .failed applied) :
    Orderly last (Shutdown.step ⟨w, t, .flushing f⟩ (.caller x)) := by
  simp only [Shutdown.step]
  rcases emptying_step hc he hx with ⟨hresult, hrest⟩ | ⟨hresult, hsettled⟩
  · simp only [hresult, isSome_none, Bool.false_eq_true, if_false]
    exact .flushing ht (hc.step x) hrest
  simp only [hresult, if_true]
  exact .aborting ht hsettled

theorem orderly_abort (ht : t.resting) (hs : Settled last w) (landed : κ × φ → Bool) :
    Orderly last (Shutdown.step ⟨w, t, .aborting⟩ (.abort landed)) := by
  refine .returned rfl ⟨hs.pending, fun kf => ?_⟩
  simp only [batch_of_resting ht, Hashes.get_empty, none_or, ite_self]
  exact hs.stored kf

variable {s : Shutdown κ φ β sharding}

theorem orderly_task (h : Orderly last s) (ha : s.accepts (.task x))
    (hu : s.undisturbed (.task x)) : Orderly last (s.step (.task x)) := by
  have hrests : ∀ {w : World κ φ β} {t : Task κ φ β sharding} {c : Caller κ φ β sharding},
      t.resting → (x ≠ .start) → Shutdown.step ⟨w, t, c⟩ (.task x) = ⟨w, t, c⟩ := by
    intro w t c ht hx
    simp only [Shutdown.step, step_of_resting ht hx]
  cases h with
  | running hc => exact orderly_running hc x
  | final hc he =>
    refine orderly_final hc he ?_
    rintro applied rfl
    cases ha
  | stopped hs => cases x <;> exact .stopped hs
  | flushing ht hc he =>
    rw [hrests ht (by rintro rfl; cases hu)]
    exact .flushing ht hc he
  | aborting ht hs =>
    rw [hrests ht (by rintro rfl; cases hu)]
    exact .aborting ht hs
  | returned ht hs =>
    rw [hrests ht (by rintro rfl; cases hu)]
    exact .returned ht hs

theorem orderly_step {x : ShutdownStep κ φ} (h : Orderly last s) (ha : s.accepts x)
    (hu : s.undisturbed x) : Orderly last (s.step x) := by
  cases x with
  | task x => exact orderly_task h ha hu
  | joined =>
    have hstay := h
    cases h with
    | stopped hs => exact .returned rfl hs
    | _ => exact hstay
  | expired =>
    have hstay := h
    cases h with
    | @running w f hc =>
      cases f with
      | idle => exact .flushing rfl (covers_begin.mpr hc) emptying_begin
      | _ => cases hu
    | @final w f hc he => cases f <;> cases hu
    | stopped hs => exact .flushing rfl (covers_begin.mpr hs.covers) emptying_begin
    | _ => exact hstay
  | caller x =>
    have hstay := h
    cases h with
    | flushing ht hc he => exact orderly_flushing ht hc he (by rintro applied rfl; cases ha)
    | _ => exact hstay
  | abort landed =>
    have hstay := h
    cases h with
    | aborting ht hs => exact orderly_abort ht hs landed
    | _ => exact hstay

end Orderly

theorem Orderly.settled {last : κ × φ → Option β} {s : Shutdown κ φ β sharding}
    (h : Orderly last s) (hreturned : s.caller = .returned) : Settled last s.world := by
  cases h with
  | returned _ hs => exact hs
  | _ => cases hreturned

/-- **Nothing is lost in an undisturbed shutdown**, wherever the task was when it was called: the
store has the newest accepted value of every field. -/
theorem stored_of_shutdown (config : WriteBufferConfig) (sharding : Sharding κ)
    (store : κ × φ → Option β) (inputs : List (Input κ φ β)) (steps : List (ShutdownStep κ φ)) :
    let M := Rtdb.machine config sharding
    let writes := acceptedWrites (M.trace (State.init sharding store) inputs)
    let called := Shutdown.begin (M.run (State.init sharding store) inputs)
    let done := Shutdown.machine.run called steps
    Shutdown.machine.Along (fun s x => s.accepts x ∧ s.undisturbed x) called steps →
    done.caller = .returned →
    ∀ kf, done.world.store kf = insertAll (initialWrites store) writes kf := by
  intro M writes called done hsteps hreturned
  have hbuffer : Accounted store (M.run (State.init sharding store) inputs) writes :=
    accounted_run config sharding store inputs
  have hcalled : Orderly (insertAll (initialWrites store) writes) called := .running hbuffer.overlay
  have hdone : Orderly (insertAll (initialWrites store) writes) done :=
    Shutdown.machine.invariant (fun s (_ : List Empty) => Orderly _ s)
      (fun _ _ _ h hx => orderly_step h hx.1 hx.2) (l := []) hcalled hsteps
  exact (hdone.settled hreturned).stored

private def oneShard : Sharding Nat := ⟨1, fun _ => 0, fun _ => Nat.one_pos⟩

private def busyTask : List (Input Nat Nat Nat) :=
  [.hashSet 0 0 7, .flush .start, .flush .drain, .hashSet 0 0 8]

/-- The call that was under way is answered in time, and the last flush follows. -/
theorem stored_after_busy_task :
    let M := Rtdb.machine {} oneShard
    let called := Shutdown.begin (M.run (State.init oneShard fun _ => none) busyTask)
    let done := Shutdown.machine.run called [.task .accepted, .task .start, .task .drain,
      .task .accepted, .joined]
    done.caller = .returned ∧ done.world.store (0, 0) = some ⟨2, 8⟩ := by
  refine ⟨rfl, ?_⟩
  exact (stored_of_shutdown {} oneShard (fun _ => none) busyTask _ (by decide) rfl (0, 0)).trans rfl

/-- The call takes longer than the wait: what the aborted task held is gone, or lands on top of the
newer value. -/
theorem lost_with_aborted_batch :
    let M := Rtdb.machine {} oneShard
    let init : State Nat Nat Nat oneShard := State.init oneShard fun _ => none
    let called := Shutdown.begin (M.run init busyTask)
    let landing := [.expired, .caller .drain, .caller .accepted, .abort fun _ => true]
    let called' := Shutdown.begin (M.run init (busyTask.take 3))
    let losing := [.expired, .caller .drain, .abort fun _ => false]
    (Shutdown.machine.Along (fun s x => s.accepts x) called landing ∧
        (Shutdown.machine.run called landing).caller = .returned ∧
        (Shutdown.machine.run called landing).world.store (0, 0) = some ⟨1, 7⟩) ∧
      Shutdown.machine.Along (fun s x => s.accepts x) called' losing ∧
        (Shutdown.machine.run called' losing).caller = .returned ∧
        (Shutdown.machine.run called' losing).world.store (0, 0) = none := by
  exact ⟨⟨by decide, rfl, rfl⟩, by decide, rfl, rfl⟩

end VoltageEMS.Comsrv
