import Mathlib.Data.List.Basic

/-!
# The history buffer

Collections append points to a buffer; the flush task takes it over, writes it in chunks, and puts the
chunks that failed back in front (`hissrv/src/scheduler.rs`).  Collections and changes of the storage
may come between any two writes.

* `points_kept` — **every collected point is in one place, and the buffer is in order**.
-/

namespace VoltageEMS.Hissrv

open List

variable {α β : Type}

/-- A flush under way: its backend, the points to write, those of the chunks that failed. -/
structure Flush (α β : Type) where
  backend : β
  batchSize : {n : Nat // 0 < n}
  points : List α
  failed : List α

/-- The buffer, the flush under way, and what the backends have stored. -/
structure State (α β : Type) where
  enabled : Bool
  backend : β
  buffer : List α := []
  flush : Option (Flush α β) := none
  stored : List (β × α) := []

/-- What can happen to the buffer. -/
inductive Input (α β : Type)
  /-- `collector_task`: what one tick has collected. -/
  | collect (points : List α)
  /-- The storage is enabled, disabled or switched. -/
  | configure (enabled : Bool) (backend : β)
  | flush (batchSize : {n : Nat // 0 < n})
  /-- The answer to the next `write_batch`. -/
  | write (ok : Bool)

/-- The points the inputs collect. -/
def collected (inputs : List (Input α β)) : List α :=
  inputs.flatMap fun
    | .collect points => points
    | _ => []

namespace State

variable (s : State α β)

/-- `flush_buffer` up to the first write. -/
def startFlush (batchSize : {n : Nat // 0 < n}) : State α β :=
  if s.enabled = false ∨ s.buffer = [] then s
  else { s with buffer := [], flush := some ⟨s.backend, batchSize, s.buffer, []⟩ }

/-- The end of `flush_buffer`: what failed goes back in front. -/
def endFlush (f : Flush α β) : State α β :=
  if f.points = [] then { s with buffer := f.failed ++ s.buffer, flush := none }
  else { s with flush := some f }

/-- One `write_batch` of `flush_buffer`. -/
def writeChunk (f : Flush α β) (ok : Bool) : State α β :=
  let chunk := f.points.take f.batchSize.1
  let f := { f with points := f.points.drop f.batchSize.1 }
  if ok then { s with stored := s.stored ++ chunk.map (Prod.mk f.backend) }.endFlush f
  else s.endFlush { f with failed := f.failed ++ chunk }

/-- The state after the input; there is one flush task. -/
def step : Input α β → State α β
  | .collect points => { s with buffer := s.buffer ++ points }
  | .configure enabled backend => { s with enabled, backend }
  | .flush batchSize => if s.flush.isNone then s.startFlush batchSize else s
  | .write ok => (s.flush.map fun f => s.writeChunk f ok).getD s

/-- The state after the inputs. -/
def run (inputs : List (Input α β)) : State α β := inputs.foldl step s

/-- The points of the flush under way. -/
def inFlush : List α := (s.flush.map fun f => f.failed ++ f.points).getD []

end State

/-- Each of the points is in one place, and those not stored are in order. -/
structure Kept (s : State α β) (points : List α) : Prop where
  once : (s.stored.map Prod.snd ++ (s.inFlush ++ s.buffer)).Perm points
  inOrder : (s.inFlush ++ s.buffer).Sublist points

variable {s : State α β} {points : List α}

theorem Kept.endFlush {f : Flush α β}
    (honce : (s.stored.map Prod.snd ++ (f.failed ++ f.points ++ s.buffer)).Perm points)
    (hinOrder : (f.failed ++ f.points ++ s.buffer).Sublist points) :
    Kept (s.endFlush f) points := by
  unfold State.endFlush
  split
  · rename_i hnone
    rw [hnone, append_nil] at honce hinOrder
    exact ⟨honce, hinOrder⟩
  · exact ⟨honce, hinOrder⟩

theorem Kept.writeChunk (h : Kept s points) {f : Flush α β} (hf : s.flush = some f) (ok : Bool) :
    Kept (s.writeChunk f ok) points := by
  have hflush : s.inFlush = f.failed ++ f.points := by rw [State.inFlush, hf]; rfl
  have hsplit := take_append_drop f.batchSize.1 f.points
  obtain ⟨honce, hinOrder⟩ := h
  rw [hflush, ← hsplit, append_assoc, append_assoc] at honce hinOrder
  unfold State.writeChunk
  cases ok with
  | true =>
    refine Kept.endFlush (Perm.trans ?_ honce) (Sublist.trans ?_ hinOrder)
    · -- the chunk moves from behind the failed points to the stored ones
      simp only [map_append, map_map, Function.comp_def, map_id', append_assoc]
      exact perm_append_comm_assoc .. |>.append_left _
    rw [append_assoc]
    exact (sublist_append_right _ _).append_left _
  | false =>
    refine Kept.endFlush ?_ ?_
    · rwa [append_assoc, append_assoc]
    · rwa [append_assoc, append_assoc]

theorem Kept.step (h : Kept s points) (x : Input α β) :
    Kept (s.step x) (points ++ collected [x]) := by
  rw [collected, flatMap_singleton]
  cases x with
  | collect new =>
    refine ⟨?_, ?_⟩
    · simpa only [State.step, State.inFlush, append_assoc] using h.once.append_right new
    · simpa only [State.step, State.inFlush, append_assoc] using h.inOrder.append_right new
  | configure enabled backend =>
    rw [append_nil]
    exact ⟨h.once, h.inOrder⟩
  | flush batchSize =>
    rw [append_nil]
    dsimp only [State.step, State.startFlush]
    split
    · rename_i hnone
      split
      · exact h
      have hflush : s.inFlush = [] := by rw [State.inFlush, Option.isNone_iff_eq_none.mp hnone]; rfl
      obtain ⟨honce, hinOrder⟩ := h
      rw [hflush, nil_append] at honce hinOrder
      refine ⟨?_, ?_⟩
      · simpa [State.inFlush] using honce
      · simpa [State.inFlush] using hinOrder
    · exact h
  | write ok =>
    rw [append_nil, State.step]
    cases hf : s.flush with
    | none => exact h
    | some f => exact h.writeChunk hf ok

theorem Kept.run (h : Kept s points) (inputs : List (Input α β)) :
    Kept (s.run inputs) (points ++ collected inputs) := by
  induction inputs generalizing s points with
  | nil => simpa [State.run, collected] using h
  | cons x inputs ih =>
    have hsplit : collected (x :: inputs) = collected [x] ++ collected inputs := by simp [collected]
    rw [hsplit, ← append_assoc]
    exact ih (h.step x)

/-- **Every collected point is in one place**, in the buffer, the flush under way or a backend, and
the buffer is in the order of the collections. -/
theorem points_kept (enabled : Bool) (backend : β) (inputs : List (Input α β)) :
    let s := State.run { enabled, backend } inputs
    (s.stored.map Prod.snd ++ (s.inFlush ++ s.buffer)).Perm (collected inputs) ∧
      s.buffer.Sublist (collected inputs) := by
  have hkept := Kept.run (s := ({ enabled, backend } : State α β)) ⟨.nil, .slnil⟩ inputs
  exact ⟨hkept.once, (sublist_append_right _ _).trans hkept.inOrder⟩

/-- The write of 1 and 2 fails, 4 comes in between, the storage is switched. -/
theorem points_kept_switched :
    let inputs : List (Input Nat Bool) := [.collect [1, 2, 3], .flush ⟨2, by decide⟩, .write false,
      .collect [4], .configure true true, .write true, .flush ⟨2, by decide⟩, .write true, .collect [5]]
    let s := State.run { enabled := true, backend := false } inputs
    s.stored = [(false, 3), (true, 1), (true, 2)] ∧ s.inFlush = [4] ∧ s.buffer = [5] ∧
      (s.stored.map Prod.snd ++ (s.inFlush ++ s.buffer)).Perm [1, 2, 3, 4, 5] := by
  refine ⟨rfl, rfl, rfl, ?_⟩
  exact (points_kept true false _).1

end VoltageEMS.Hissrv
