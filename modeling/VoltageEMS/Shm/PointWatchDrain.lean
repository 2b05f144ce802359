import VoltageEMS.Shm.PointWatch

/-!
# Where PointWatch events end

`drain_task` next to the emitting side: the task's own steps, one for each `recv`, `try_recv`,
`try_connect` and `write_all`, with emits and changes of the subscriptions between any two of them.
-/

namespace VoltageEMS.Shm

open Lib List

/-! ## The task -/

/-- `MIN_BACKOFF_MS`. -/
def minBackoffMs : Nat := 1000

/-- `MAX_BACKOFF_MS`. -/
def maxBackoffMs : Nat := 5000

/-- Where `drain_task` is, with the events it has taken from the queue and not written yet. -/
inductive DrainPhase
  | starting
  | waiting
  | collecting (batch : List PointWatchEvent)
  | reconnecting (batch : List PointWatchEvent)
  | sending (batch : List PointWatchEvent)
  | stopped

/-- The events it holds. -/
def DrainPhase.held : DrainPhase → List PointWatchEvent
  | collecting batch | reconnecting batch | sending batch => batch
  | starting | waiting | stopped => []

/-- It is about to write. -/
def DrainPhase.writes : DrainPhase → Bool
  | sending (_ :: _) => true
  | _ => false

/-- The variables of `drain_task`; times in milliseconds. -/
structure DrainTask where
  phase : DrainPhase
  /-- `stream.is_some()` -/
  connected : Bool
  backoffMs : Nat
  lastConnectAttempt : Option Nat
  reconnectAttempts : Nat

/-- `should_retry`. -/
def DrainTask.shouldRetry (t : DrainTask) (nowMs : Nat) : Bool :=
  match t.lastConnectAttempt with
  | some since => decide (t.backoffMs ≤ nowMs - since)
  | none => true

/-- The signaler with its task. -/
structure Pipeline where
  signaler : PointWatchSignaler
  watch : WatchState
  task : DrainTask
  /-- `shutdown` is cancelled -/
  cancelled : Bool
  /-- the signaler is dropped, and the sender with it -/
  closed : Bool

/-- What can happen next; `advance` is a step of the task, with the clock and the answer of the
socket. -/
inductive PipelineInput
  | emit (slot : Nat) (value raw : Float) (timestampMs : Nat)
  | setWatched (slot : Nat)
  | clearWatched (slot : Nat)
  | clearAll
  | advance (nowMs : Nat) (ok : Bool)
  | shutdown
  | dropSignaler

/-- What is observed. -/
inductive PipelineEvent
  /-- `emit` on a watched slot with an origin, and the event if it got into the queue -/
  | emitted (queued : Option PointWatchEvent)
  /-- `write_all` went through -/
  | written (ev : PointWatchEvent)
  /-- the task let go of these without counting them -/
  | abandoned (evs : List PointWatchEvent)

variable (p : Pipeline)

namespace Pipeline

/-- `new_with_drain`. -/
def start (signaler : PointWatchSignaler) (subs : List Nat) : Pipeline where
  signaler
  watch := ⟨subs, [], true, 0⟩
  task := ⟨.starting, false, minBackoffMs, none, 0⟩
  cancelled := false
  closed := false

/-- Only the phase changes. -/
def goTo (phase : DrainPhase) : Pipeline := { p with task := { p.task with phase } }

/-- One event more in the batch. -/
def take (rest batch : List PointWatchEvent) : Pipeline :=
  { p.goTo (.collecting batch) with watch := { p.watch with queue := rest } }

variable (batch : List PointWatchEvent) (nowMs : Nat)

/-- The batch is counted as dropped. -/
def dropBatch : Pipeline :=
  { p.goTo .waiting with
    watch := { p.watch with droppedCount := p.watch.droppedCount + batch.length } }

/-- The task ends. -/
def stop : Pipeline :=
  { p.goTo .stopped with watch := { p.watch with queue := [], receiving := false } }

/-- The batch is full, or the queue empty. -/
def handle : Pipeline :=
  if p.task.connected then p.goTo (.sending batch)
  else if p.task.shouldRetry nowMs then p.goTo (.reconnecting batch)
  else p.dropBatch batch

/-- An attempt to connect ends. -/
def reconnected : Bool → Pipeline
  | true =>
    { p with task := {
        phase := .sending batch
        connected := true
        backoffMs := minBackoffMs
        lastConnectAttempt := none
        reconnectAttempts := 0 } }
  | false =>
    { p with task := { p.task with
        backoffMs := min (p.task.backoffMs * 2) maxBackoffMs
        lastConnectAttempt := some nowMs
        reconnectAttempts := (p.task.reconnectAttempts + 1) % 2 ^ 32 } }.dropBatch batch

/-- A write fails. -/
def disconnected : Pipeline :=
  { p with task := {
      phase := .waiting
      connected := false
      backoffMs := minBackoffMs
      lastConnectAttempt := some nowMs
      reconnectAttempts := 0 } }

/-- One step of `drain_task`. -/
def advance (ok : Bool) : Pipeline × List PipelineEvent :=
  match p.task.phase with
  | .starting => ({ p with task := { p.task with phase := .waiting, connected := ok } }, [])
  | .waiting =>
    -- biased: the cancellation is looked at first
    if p.cancelled then (p.stop, [.abandoned p.watch.queue])
    else
      match p.watch.queue with
      | [] => (if p.closed then p.stop else p, [])
      | ev :: rest => (p.take rest [ev], [])
  | .collecting batch =>
    if batch.length < maxBatch then
      match p.watch.queue with
      | [] => (p.handle batch nowMs, [])
      | ev :: rest => (p.take rest (batch ++ [ev]), [])
    else (p.handle batch nowMs, [])
  | .reconnecting batch => (p.reconnected batch nowMs ok, [])
  | .sending [] => (p.goTo .waiting, [])
  | .sending (ev :: rest) =>
    if ok then (p.goTo (.sending rest), [.written ev])
    else (p.disconnected nowMs, [.abandoned (ev :: rest)])
  | .stopped => (p, [])

/-- An emit on the slot makes an event. -/
def emits (slot : Nat) : Bool :=
  p.watch.isWatched slot && (p.signaler.reverseIndex.get slot).isSome

/-- One step. -/
def step : PipelineInput → Pipeline × List PipelineEvent
  | .emit slot value raw timestampMs =>
    if p.closed then (p, [])
    else
      let r := p.signaler.emit p.watch slot value raw timestampMs
      ({ p with watch := r.1 }, if p.emits slot then [.emitted r.2] else [])
  | .setWatched slot => ({ p with watch := p.watch.setWatched slot }, [])
  | .clearWatched slot => ({ p with watch := p.watch.clearWatched slot }, [])
  | .clearAll => ({ p with watch := p.watch.clearAll }, [])
  | .advance nowMs ok => p.advance nowMs ok
  | .shutdown => ({ p with cancelled := true }, [])
  | .dropSignaler => ({ p with closed := true }, [])

end Pipeline

/-- The pipeline as a machine. -/
def pipeline : Machine Pipeline PipelineInput PipelineEvent where
  step := Pipeline.step

/-! ## The account -/

namespace PipelineEvent

/-- An emit. -/
@[simp] def isEmitted : PipelineEvent → Bool
  | emitted _ => true
  | _ => false

/-- What it put into the queue. -/
@[simp] def queuedEvents : PipelineEvent → List PointWatchEvent
  | emitted (some ev) => [ev]
  | _ => []

/-- What was written. -/
@[simp] def writtenEvents : PipelineEvent → List PointWatchEvent
  | written ev => [ev]
  | _ => []

/-- What was let go. -/
@[simp] def abandonedEvents : PipelineEvent → List PointWatchEvent
  | abandoned evs => evs
  | _ => []

end PipelineEvent

variable (log : List PipelineEvent)

/-- The emits. -/
def emitCount : Nat := log.countP PipelineEvent.isEmitted

/-- All that was queued. -/
def queuedEvents : List PointWatchEvent :=
  log.flatMap PipelineEvent.queuedEvents

/-- All that was written. -/
def writtenEvents : List PointWatchEvent :=
  log.flatMap PipelineEvent.writtenEvents

/-- All that was let go. -/
def abandonedEvents : List PointWatchEvent :=
  log.flatMap PipelineEvent.abandonedEvents

section Concat

variable (log : List PipelineEvent) (e : PipelineEvent)

@[simp] theorem emitCount_concat :
    emitCount (log ++ [e]) = emitCount log + if e.isEmitted then 1 else 0 := by
  rw [emitCount, countP_append, countP_singleton]
  rfl

@[simp] theorem queuedEvents_concat :
    queuedEvents (log ++ [e]) = queuedEvents log ++ e.queuedEvents := by
  rw [queuedEvents, flatMap_append, flatMap_singleton]
  rfl

@[simp] theorem writtenEvents_concat :
    writtenEvents (log ++ [e]) = writtenEvents log ++ e.writtenEvents := by
  rw [writtenEvents, flatMap_append, flatMap_singleton]
  rfl

@[simp] theorem abandonedEvents_concat :
    abandonedEvents (log ++ [e]) = abandonedEvents log ++ e.abandonedEvents := by
  rw [abandonedEvents, flatMap_append, flatMap_singleton]
  rfl

end Concat

/-- Every emit is accounted for, and the events are in the order of their emits. -/
structure Accounted (p : Pipeline) (log : List PipelineEvent) : Prop where
  counted : emitCount log = (writtenEvents log).length + p.watch.droppedCount +
    p.watch.queue.length + p.task.phase.held.length + (abandonedEvents log).length
  inOrder : (writtenEvents log ++ (p.task.phase.held ++ p.watch.queue)).Sublist (queuedEvents log)

namespace Accounted

variable {p : Pipeline} {log : List PipelineEvent}

variable {p' : Pipeline} (h : Accounted p log)
include h

theorem quiet (hdropped : p'.watch.droppedCount = p.watch.droppedCount)
    (hevents : p'.task.phase.held ++ p'.watch.queue = p.task.phase.held ++ p.watch.queue) :
    Accounted p' (log ++ []) := by
  rw [append_nil]
  have hlen := congrArg List.length hevents
  rw [length_append, length_append] at hlen
  refine ⟨?_, hevents ▸ h.inOrder⟩
  have := h.counted
  omega

theorem dropBatch {q : Pipeline} (hwatch : q.watch = p.watch) :
    Accounted (q.dropBatch p.task.phase.held) (log ++ []) := by
  rw [append_nil]
  constructor
  · have := h.counted
    show emitCount log = (writtenEvents log).length + (q.watch.droppedCount + p.task.phase.held.length)
      + q.watch.queue.length + 0 + (abandonedEvents log).length
    rw [hwatch]
    omega
  refine List.Sublist.trans ?_ h.inOrder
  show (writtenEvents log ++ q.watch.queue).Sublist _
  rw [hwatch]
  exact (List.Sublist.refl _).append (sublist_append_right _ _)

theorem handle (nowMs : Nat) : Accounted (p.handle p.task.phase.held nowMs) (log ++ []) := by
  unfold Pipeline.handle
  split
  · exact h.quiet rfl rfl
  split
  · exact h.quiet rfl rfl
  · exact h.dropBatch rfl

theorem abandon {evs : List PointWatchEvent}
    (hdropped : p'.watch.droppedCount = p.watch.droppedCount)
    (hevents : evs.length + (p'.task.phase.held ++ p'.watch.queue).length =
      (p.task.phase.held ++ p.watch.queue).length)
    (hrest : (p'.task.phase.held ++ p'.watch.queue).Sublist (p.task.phase.held ++ p.watch.queue)) :
    Accounted p' (log ++ [.abandoned evs]) := by
  constructor
  · have := h.counted
    simp at hevents ⊢
    omega
  simpa using ((List.Sublist.refl _).append hrest).trans h.inOrder

theorem write {ev : PointWatchEvent} (hdropped : p'.watch.droppedCount = p.watch.droppedCount)
    (hevents : p.task.phase.held ++ p.watch.queue = ev :: (p'.task.phase.held ++ p'.watch.queue)) :
    Accounted p' (log ++ [.written ev]) := by
  constructor
  · have := h.counted
    have hlen := congrArg List.length hevents
    simp at hlen ⊢
    omega
  have horder := h.inOrder
  rw [hevents] at horder
  simpa using horder

theorem emit {queued : Option PointWatchEvent} (hheld : p'.task.phase.held = p.task.phase.held)
    (hqueue : p'.watch.queue = p.watch.queue ++ queued.toList)
    (hdropped : p'.watch.droppedCount + queued.toList.length = p.watch.droppedCount + 1) :
    Accounted p' (log ++ [.emitted queued]) := by
  constructor
  · have := h.counted
    simp [hheld, hqueue] at hdropped ⊢
    omega
  have hnew : (PipelineEvent.emitted queued).queuedEvents = queued.toList := by
    cases queued <;> rfl
  rw [writtenEvents_concat, queuedEvents_concat, hnew, hheld, hqueue, ← append_assoc,
    ← append_assoc]
  simpa using h.inOrder.append (List.Sublist.refl queued.toList)

end Accounted

theorem PointWatchSignaler.emit_cases (pw : PointWatchSignaler) (st : WatchState) (slot : Nat)
    (value raw : Float) (ts : Nat) :
    let r := pw.emit st slot value raw ts
    ((st.isWatched slot && (pw.reverseIndex.get slot).isSome) = true →
      r.1.queue = st.queue ++ r.2.toList ∧
        r.1.droppedCount + r.2.toList.length = st.droppedCount + 1) ∧
    ((st.isWatched slot && (pw.reverseIndex.get slot).isSome) = false → r.1 = st) := by
  intro r
  cases hwatched : st.isWatched slot with
  | false => simp [r, emit, hwatched]
  | true =>
    cases horigin : pw.reverseIndex.get slot with
    | none => simp [r, emit, hwatched, horigin]
    | some origin =>
      by_cases hroom : (st.receiving && decide (st.queue.length < drainChannelCapacity)) = true
      · simp [r, emit, hwatched, horigin, WatchState.trySend, hroom]
      · simp [r, emit, hwatched, horigin, WatchState.trySend, hroom]

theorem accounted_advance {p : Pipeline} {log : List PipelineEvent} (h : Accounted p log)
    (nowMs : Nat) (ok : Bool) :
    Accounted (p.advance nowMs ok).1 (log ++ (p.advance nowMs ok).2) := by
  have hheld : ∀ {batch : List PointWatchEvent}, p.task.phase.held = batch →
      Accounted (p.handle batch nowMs) (log ++ []) := fun hb => hb ▸ h.handle nowMs
  unfold Pipeline.advance
  cases hphase : p.task.phase with
  | starting => exact h.quiet rfl (by rw [hphase]; rfl)
  | waiting =>
    by_cases hcancelled : p.cancelled = true
    · rw [if_pos hcancelled]
      exact h.abandon rfl (by rw [hphase]; rfl) (nil_sublist _)
    rw [if_neg hcancelled]
    cases hqueue : p.watch.queue with
    | nil =>
      cases hclosed : p.closed with
      | false => exact h.quiet rfl rfl
      | true => exact h.quiet rfl (by rw [hphase, hqueue]; rfl)
    | cons ev rest => exact h.quiet rfl (by rw [hphase, hqueue]; rfl)
  | collecting batch =>
    by_cases hroom : batch.length < maxBatch
    · simp only [if_pos hroom]
      cases hqueue : p.watch.queue with
      | nil => exact hheld (by rw [hphase]; rfl)
      | cons ev rest =>
        refine h.quiet rfl ?_
        rw [hphase, hqueue]
        exact append_assoc batch [ev] rest
    simp only [if_neg hroom]
    exact hheld (by rw [hphase]; rfl)
  | reconnecting batch =>
    cases ok with
    | false =>
      have hb : batch = p.task.phase.held := by rw [hphase]; rfl
      rw [hb]
      exact h.dropBatch rfl
    | true => exact h.quiet rfl (by rw [hphase]; rfl)
  | sending batch =>
    cases batch with
    | nil => exact h.quiet rfl (by rw [hphase]; rfl)
    | cons ev rest =>
      cases ok with
      | false =>
        have hlost : Accounted (p.disconnected nowMs) (log ++ [.abandoned (ev :: rest)]) := by
          refine h.abandon rfl ?_ (sublist_append_right _ _)
          rw [hphase]
          show (ev :: rest).length + p.watch.queue.length = (ev :: rest ++ p.watch.queue).length
          rw [length_append]
        exact hlost
      | true => exact h.write rfl (by rw [hphase]; rfl)
  | stopped => exact h.quiet rfl rfl

theorem accounted_step {p : Pipeline} {log : List PipelineEvent} (h : Accounted p log)
    (x : PipelineInput) : Accounted (pipeline.step p x).1 (log ++ (pipeline.step p x).2) := by
  cases x with
  | emit slot value raw ts =>
    obtain ⟨hevent, hnone⟩ := p.signaler.emit_cases p.watch slot value raw ts
    simp only [pipeline, Pipeline.step]
    by_cases hclosed : p.closed = true
    · rw [if_pos hclosed]
      exact h.quiet rfl rfl
    rw [if_neg hclosed]
    cases hemits : p.emits slot with
    | true => exact h.emit rfl (hevent hemits).1 (hevent hemits).2
    | false =>
      rw [hnone hemits]
      exact h.quiet rfl rfl
  | setWatched | clearWatched | clearAll | shutdown | dropSignaler => exact h.quiet rfl rfl
  | advance nowMs ok => exact accounted_advance h nowMs ok

/-- **The account of a run.** -/
theorem accounted_run (signaler : PointWatchSignaler) (subs : List Nat) (xs : List PipelineInput) :
    Accounted (pipeline.run (.start signaler subs) xs)
      (pipeline.trace (.start signaler subs) xs) := by
  have hstart : Accounted (.start signaler subs) [] := ⟨rfl, List.Sublist.refl _⟩
  exact pipeline.invariant Accounted (fun _ _ x h _ => accounted_step h x) hstart
    (pipeline.along_true _ xs)

/-! ## Runs without a shutdown -/

/-- The step is not a write to the socket that fails. -/
def WriteSucceeds : PipelineInput → Prop
  | .advance _ ok => p.task.phase.writes = true → ok = true
  | _ => True

instance (p : Pipeline) : ∀ x, Decidable (WriteSucceeds p x)
  | .advance _ ok => inferInstanceAs (Decidable (p.task.phase.writes = true → ok = true))
  | .emit .. | .setWatched _ | .clearWatched _ | .clearAll | .shutdown | .dropSignaler => .isTrue trivial

theorem abandoned_step {p : Pipeline} (hrunning : p.cancelled = false) (x : PipelineInput) :
    abandonedEvents (pipeline.step p x).2 = [] ↔ WriteSucceeds p x := by
  cases x with
  | emit slot value raw ts =>
    simp only [pipeline, Pipeline.step, WriteSucceeds, iff_true]
    split
    · rfl
    dsimp only
    split <;> rfl
  | advance nowMs ok =>
    simp only [pipeline, Pipeline.step, Pipeline.advance, WriteSucceeds]
    cases hphase : p.task.phase with
    | waiting =>
      rw [hrunning]
      cases p.watch.queue <;> simp [abandonedEvents, DrainPhase.writes]
    | collecting batch =>
      dsimp only
      split
      · cases p.watch.queue <;> simp [abandonedEvents, DrainPhase.writes]
      · simp [abandonedEvents, DrainPhase.writes]
    | sending batch =>
      cases batch with
      | nil => simp [abandonedEvents, DrainPhase.writes]
      | cons ev rest =>
        cases ok <;> simp [abandonedEvents, DrainPhase.writes]
    | _ => simp [abandonedEvents, DrainPhase.writes]
  | _ => exact ⟨fun _ => trivial, fun _ => rfl⟩

theorem cancelled_handle (batch : List PointWatchEvent) (nowMs : Nat) :
    (p.handle batch nowMs).cancelled = p.cancelled := by
  unfold Pipeline.handle
  split
  · rfl
  · split <;> rfl

theorem cancelled_advance (nowMs : Nat) (ok : Bool) :
    (p.advance nowMs ok).1.cancelled = p.cancelled := by
  unfold Pipeline.advance
  cases p.task.phase with
  | waiting =>
    dsimp only
    split
    · rfl
    cases p.watch.queue with
    | nil => cases hclosed : p.closed <;> rfl
    | cons ev rest => rfl
  | collecting batch =>
    dsimp only
    split
    · cases p.watch.queue with
      | nil => exact cancelled_handle p batch nowMs
      | cons ev rest => rfl
    · exact cancelled_handle p batch nowMs
  | reconnecting batch => cases ok <;> rfl
  | sending batch =>
    cases batch with
    | nil => rfl
    | cons ev rest => cases ok <;> rfl
  | _ => rfl

theorem cancelled_step {p : Pipeline} (hrunning : p.cancelled = false) {x : PipelineInput}
    (hx : x ≠ .shutdown) : (pipeline.step p x).1.cancelled = false := by
  cases x with
  | shutdown => exact absurd rfl hx
  | advance nowMs ok => exact (cancelled_advance p nowMs ok).trans hrunning
  | emit slot value raw ts =>
    simp only [pipeline, Pipeline.step]
    split <;> exact hrunning
  | _ => exact hrunning

theorem abandoned_run {xs : List PipelineInput} (hxs : .shutdown ∉ xs) : ∀ {p : Pipeline},
    p.cancelled = false →
    (abandonedEvents (pipeline.trace p xs) = [] ↔ pipeline.Along WriteSucceeds p xs) := by
  induction xs with
  | nil => exact fun _ => ⟨fun _ => trivial, fun _ => rfl⟩
  | cons x xs ih =>
    intro p hrunning
    rw [mem_cons, not_or] at hxs
    have hnext := cancelled_step hrunning (Ne.symm hxs.1)
    rw [pipeline.trace_cons, abandonedEvents, flatMap_append, append_eq_nil_iff]
    exact and_congr (abandoned_step hrunning x) (ih hxs.2 hnext)

/-- The queue is empty and the task holds nothing. -/
structure Pipeline.Emptied (p : Pipeline) : Prop where
  queue : p.watch.queue = []
  held : p.task.phase.held = []

/-- **Exact accounting**: once the queue is emptied without a shutdown, every emit on a watched slot
with an origin was written to a socket or counted as dropped, exactly if no write has failed. -/
theorem settled_iff (signaler : PointWatchSignaler) (subs : List Nat) (xs : List PipelineInput)
    (hxs : .shutdown ∉ xs)
    (hempty : (pipeline.run (Pipeline.start signaler subs) xs).Emptied) :
    emitCount (pipeline.trace (.start signaler subs) xs) =
        (writtenEvents (pipeline.trace (.start signaler subs) xs)).length +
          (pipeline.run (.start signaler subs) xs).watch.droppedCount ↔
      pipeline.Along WriteSucceeds (.start signaler subs) xs := by
  have hcounted := (accounted_run signaler subs xs).counted
  rw [hempty.queue, hempty.held, length_nil] at hcounted
  have hlost := abandoned_run hxs (show (Pipeline.start signaler subs).cancelled = false from rfl)
  rw [← hlost, ← length_eq_zero_iff, hcounted]
  omega

def oneWatchedSlot : Pipeline := .start ⟨⟨[some ⟨1, .telemetry, 7⟩]⟩, 1⟩ [1]

def twoEmits : List PipelineInput :=
  [.emit 0 1.0 1.0 100, .emit 0 2.0 2.0 200, .advance 300 true, .advance 301 true, .advance 302 true,
    .advance 303 true]

/-- Both events are written. -/
theorem settled_iff_two_emits :
    let xs := twoEmits ++ [.advance 304 true, .advance 305 true]
    .shutdown ∉ xs ∧ (pipeline.run oneWatchedSlot xs).Emptied ∧
      emitCount (pipeline.trace oneWatchedSlot xs) =
        (writtenEvents (pipeline.trace oneWatchedSlot xs)).length +
          (pipeline.run oneWatchedSlot xs).watch.droppedCount := by
  intro xs
  have hxs : .shutdown ∉ xs := by simp [xs, twoEmits]
  have hempty : (pipeline.run oneWatchedSlot xs).Emptied := ⟨by decide +kernel, by decide +kernel⟩
  have hwrites : pipeline.Along WriteSucceeds oneWatchedSlot xs := by decide +kernel
  exact ⟨hxs, hempty, (settled_iff _ _ xs hxs hempty).mpr hwrites⟩

/-- The socket fails between the two writes of a batch: one event of two is written, none counted. -/
theorem batch_lost_uncounted :
    let xs := twoEmits ++ [.advance 304 true, .advance 305 false]
    (pipeline.run oneWatchedSlot xs).Emptied ∧
      emitCount (pipeline.trace oneWatchedSlot xs) = 2 ∧
      (writtenEvents (pipeline.trace oneWatchedSlot xs)).length = 1 ∧
      (pipeline.run oneWatchedSlot xs).watch.droppedCount = 0 := by
  refine ⟨⟨?_, ?_⟩, ?_, ?_, ?_⟩ <;> decide +kernel

end VoltageEMS.Shm
