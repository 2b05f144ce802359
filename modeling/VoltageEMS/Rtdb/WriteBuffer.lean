import VoltageEMS.Lib.Run
import VoltageEMS.Lib.Hashes
import VoltageEMS.Lib.Layers

/-!
# The write buffer in front of Redis

`WriteBuffer` gathers hash writes and flushes them to the store in one pipeline.  A writer calls
`bufferHashSet` and `bufferHashMset`; the flusher drains the pending map shard by shard, as a
`DashMap` is traversed, sends the batch, and puts it back when the store refuses it.
-/

namespace VoltageEMS.Rtdb

open Lib List

/-! ## The buffer -/

/-- `WriteBufferConfig`. -/
structure WriteBufferConfig where
  maxFieldsPerKey : Nat := 1000
  maxPendingKeys : Nat := 10000

/-- `BufferOverflow`. -/
structure BufferOverflow (κ : Type) where
  key : κ
  droppedFields : Nat
  pendingKeys : Nat
  maxPendingKeys : Nat

/-- `WriteBufferStats`. -/
structure WriteBufferStats where
  bufferedWrites : Nat := 0
  flushCount : Nat := 0
  fieldsFlushed : Nat := 0
  forcedFlushes : Nat := 0
  overflowDrops : Nat := 0

/-- Keys, fields and values are texts and bytes in the code, which only compares the first two. -/
structure WriteBuffer (κ φ β : Type) where
  pending : Hashes κ φ β
  stats : WriteBufferStats

/-- How a `DashMap` spreads its keys. -/
structure Sharding (κ : Type) where
  count : Nat
  shardOf : κ → Nat
  lt : ∀ k, shardOf k < count

variable {κ φ β : Type} [DecidableEq κ] [DecidableEq φ] (config : WriteBufferConfig)

variable (b : WriteBuffer κ φ β)

namespace WriteBuffer

/-- `pending_keys`. -/
def pendingKeys : Nat := b.pending.keys.length

/-- Rejected as a whole when the key is new and there is no room for another one. -/
def bufferHashMset (key : κ)
    (fields : List (φ × β)) : WriteBuffer κ φ β × Except (BufferOverflow κ) Unit :=
  if fields.isEmpty then (b, .ok ())
  else if config.maxPendingKeys ≤ b.pendingKeys ∧ key ∉ b.pending then
    let stats := { b.stats with overflowDrops := b.stats.overflowDrops + fields.length }
    ({ b with stats }, .error ⟨key, fields.length, b.pendingKeys, config.maxPendingKeys⟩)
  else
    let pending := b.pending.putAll key fields
    let forced := if config.maxFieldsPerKey ≤ (pending.fields key).keys.length then 1 else 0
    let stats := { b.stats with
      bufferedWrites := b.stats.bufferedWrites + fields.length
      forcedFlushes := b.stats.forcedFlushes + forced }
    ({ pending, stats }, .ok ())

/-- `buffer_hash_set`. -/
def bufferHashSet (key : κ) (field : φ)
    (value : β) : WriteBuffer κ φ β × Except (BufferOverflow κ) Unit :=
  b.bufferHashMset config key [(field, value)]

/-- Newer values stay; there is no limit on the keys that come back. -/
def requeueFailed (operations : Hashes κ φ β) : WriteBuffer κ φ β :=
  { b with pending := b.pending.fill operations }

/-- One shard is emptied. -/
def drainShard (inShard : κ → Bool) : WriteBuffer κ φ β × Hashes κ φ β :=
  ({ b with pending := b.pending.select fun k => !inShard k },
    b.pending.select fun k => inShard k && !(b.pending.fields k).entries.isEmpty)

end WriteBuffer

/-! ## A flush -/

/-- The shards before `next` are visited. -/
structure Drain (κ φ β : Type) (sharding : Sharding κ) where
  next : Nat
  batch : Hashes κ φ β
  visited : ∀ k ∈ batch, sharding.shardOf k < next

/-- Where a flush is. -/
inductive Flush (κ φ β : Type) (sharding : Sharding κ)
  | idle
  | draining (d : Drain κ φ β sharding)
  | sent (batch : Hashes κ φ β)

/-- Its steps. -/
inductive FlushStep (κ φ : Type)
  | start
  | drain
  | accepted
  | failed (applied : κ × φ → Bool)

/-- The buffer and the store. -/
structure World (κ φ β : Type) where
  buffer : WriteBuffer κ φ β
  store : κ × φ → Option β

variable {sharding : Sharding κ}

namespace Drain

/-- No shard is visited. -/
def begin : Drain κ φ β sharding := ⟨0, ∅, fun _ h => absurd h (AList.notMem_empty _)⟩

/-- The next one is. -/
def visit (d : Drain κ φ β sharding) (b : WriteBuffer κ φ β) : Drain κ φ β sharding where
  next := d.next + 1
  batch := d.batch ∪ (b.drainShard fun k => sharding.shardOf k == d.next).2
  visited := by
    intro k hk
    rcases AList.mem_union.mp hk with hk | hk
    · exact Nat.lt_succ_of_lt (d.visited k hk)
    have hshard := (Hashes.mem_select.mp hk).2
    simp only [Bool.and_eq_true, beq_iff_eq] at hshard
    omega

end Drain

variable (w : World κ φ β)

namespace Flush

/-- What the flush holds. -/
def batch : Flush κ φ β sharding → Hashes κ φ β
  | idle => ∅
  | draining d => d.batch
  | sent batch => batch

/-- What a step of a flush leaves behind, and what the flush returns when it ends. -/
structure Stepped (κ φ β : Type) (sharding : Sharding κ) where
  world : World κ φ β
  flush : Flush κ φ β sharding
  result : Option (Except Unit Nat) := none

/-- The next shard. -/
def drainNext (d : Drain κ φ β sharding) : Stepped κ φ β sharding :=
  let world := { w with buffer := (w.buffer.drainShard fun k => sharding.shardOf k == d.next).1 }
  let d' := d.visit w.buffer
  if d'.next < sharding.count then ⟨world, draining d', none⟩
  else if d'.batch.entries.isEmpty then ⟨world, idle, some (.ok 0)⟩
  else ⟨world, sent d'.batch, none⟩

/-- One step of `flush`; a step that does not fit where the flush is does nothing. -/
def step : Flush κ φ β sharding → FlushStep κ φ → Stepped κ φ β sharding
  | idle, .start => ⟨w, draining .begin, none⟩
  | draining d, .drain => drainNext w d
  | sent batch, .accepted =>
    let fieldCount := (batch.entries.map fun e => e.2.entries.length).sum
    let stats := { w.buffer.stats with
      flushCount := w.buffer.stats.flushCount + 1
      fieldsFlushed := w.buffer.stats.fieldsFlushed + fieldCount }
    let store := fun kf => (batch.get kf).or (w.store kf)
    ⟨{ buffer := { w.buffer with stats }, store }, idle, some (.ok fieldCount)⟩
  | sent batch, .failed applied =>
    let store := fun kf => if applied kf then (batch.get kf).or (w.store kf) else w.store kf
    ⟨{ buffer := w.buffer.requeueFailed batch, store }, idle, some (.error ())⟩
  | f, _ => ⟨w, f, none⟩

end Flush

/-! ## What a flush does to a cell -/

/-- The places where the value of a field may be. -/
def layers (f : Flush κ φ β sharding) (kf : κ × φ) : Layers β :=
  ⟨w.buffer.pending.get kf, f.batch.get kf, w.store kf⟩

namespace Flush

theorem get_drainShard (inShard : κ → Bool) (kf : κ × φ) :
    (b.drainShard inShard).1.pending.get kf = (if inShard kf.1 then none else b.pending.get kf) ∧
      (b.drainShard inShard).2.get kf = if inShard kf.1 then b.pending.get kf else none := by
  constructor
  · refine (Hashes.get_select _ _ _).trans ?_
    cases inShard kf.1 <;> rfl
  refine (Hashes.get_select _ _ _).trans ?_
  cases inShard kf.1 with
  | false => rfl
  | true =>
    -- a hash that is left out has no fields
    rw [Bool.true_and, if_pos rfl, ← Hashes.lookup_fields]
    cases hfields : (b.pending.fields kf.1).entries with
    | nil =>
      rw [AList.lookup, hfields]
      rfl
    | cons => rfl

variable (d : Drain κ φ β sharding) (kf : κ × φ)

theorem get_visit (b : WriteBuffer κ φ β) (kf : κ × φ) : (d.visit b).batch.get kf =
      if sharding.shardOf kf.1 = d.next then b.pending.get kf else d.batch.get kf := by
  refine (Hashes.get_union _ _ _).trans ?_
  rw [(get_drainShard b _ kf).2]
  by_cases hk : kf.1 ∈ d.batch
  · have hlt := d.visited kf.1 hk
    rw [if_pos hk, if_neg (by omega)]
  rw [if_neg hk, Hashes.get_eq_none_of_notMem hk]
  simp only [beq_iff_eq]

theorem drainNext_spec : (drainNext w d).world.store = w.store ∧
      (drainNext w d).world.buffer.pending =
        (w.buffer.drainShard fun k => sharding.shardOf k == d.next).1.pending ∧
      ∀ kf, (drainNext w d).flush.batch.get kf = (d.visit w.buffer).batch.get kf := by
  unfold drainNext
  dsimp only
  split
  · exact ⟨rfl, rfl, fun _ => rfl⟩
  split
  · rename_i hempty
    refine ⟨rfl, rfl, fun kf => ?_⟩
    have hlookup : (d.visit w.buffer).batch.lookup kf.1 = none := by
      rw [AList.lookup, List.isEmpty_iff.mp hempty]
      rfl
    exact (Hashes.get_eq_none_of_notMem (AList.lookup_eq_none.mp hlookup)).symm
  · exact ⟨rfl, rfl, fun _ => rfl⟩

theorem moved_drain :
    (layers w (draining d) kf).Moved (layers (drainNext w d).world (drainNext w d).flush kf) := by
  obtain ⟨hstore, hpending, hbatch⟩ := drainNext_spec w d
  have hlayers : layers (drainNext w d).world (drainNext w d).flush kf =
      ⟨if sharding.shardOf kf.1 = d.next then none else w.buffer.pending.get kf,
        if sharding.shardOf kf.1 = d.next then w.buffer.pending.get kf else d.batch.get kf,
        w.store kf⟩ := by
    unfold layers
    rw [hpending, hbatch, hstore, get_visit, (get_drainShard _ _ kf).1]
    simp only [beq_iff_eq]
  rw [hlayers]
  by_cases hshard : sharding.shardOf kf.1 = d.next
  · have hnew : d.batch.get kf = none :=
      Hashes.get_eq_none_of_notMem fun hk => absurd (d.visited kf.1 hk) (by omega)
    rw [if_pos hshard, if_pos hshard, layers, batch, hnew]
    exact .taken _ _
  rw [if_neg hshard, if_neg hshard]
  exact .same _

/-- **What a step of a flush does to a cell.** -/
theorem moved_step (f : Flush κ φ β sharding) (x : FlushStep κ φ) (kf : κ × φ) :
    (layers w f kf).Moved (layers (step w f x).world (step w f x).flush kf) := by
  cases f with
  | idle => cases x <;> exact .same _
  | draining d =>
    cases x with
    | drain => exact moved_drain w d kf
    | _ => exact .same _
  | sent batch =>
    cases x with
    | accepted => exact .stored _ _ _
    | failed applied =>
      have hpending : (w.buffer.requeueFailed batch).pending.get kf =
          (w.buffer.pending.get kf).or (batch.get kf) := Hashes.get_fill _ _ _
      simp only [step, layers, hpending]
      cases applied kf
      · exact .putBack _ _ _
      · exact .storedAndPutBack _ _ _
    | _ => exact .same _

end Flush

/-! ## Runs -/

/-- An accepted value, numbered to tell newer ones from older ones; no operation looks at `seq`. -/
structure Write (β : Type) where
  seq : Nat
  value : β

instance : Preorder (Write β) := Preorder.lift Write.seq

/-- The world with its flusher. -/
structure State (κ φ β : Type) (sharding : Sharding κ) where
  world : World κ φ (Write β)
  flush : Flush κ φ (Write β) sharding
  /-- The number the next accepted value gets. -/
  nextSeq : Nat

/-- What is done to it. -/
inductive Input (κ φ β : Type)
  | hashSet (key : κ) (field : φ) (value : β)
  | hashMset (key : κ) (fields : List (φ × β))
  | flush (x : FlushStep κ φ)

/-- What is observed. -/
inductive Event (κ φ β : Type)
  | accepted (writes : List ((κ × φ) × Write β))
  | overflow (e : BufferOverflow κ)
  | flushed (result : Except Unit Nat)

namespace State

/-- An empty buffer. -/
def init (sharding : Sharding κ) (store : κ × φ → Option β) : State κ φ β sharding where
  world := ⟨⟨∅, {}⟩, fun kf => (store kf).map (Write.mk 0)⟩
  flush := .idle
  nextSeq := 1

variable (s : State κ φ β sharding)

/-- The layers of a field. -/
def cell (kf : κ × φ) : Layers (Write β) := layers s.world s.flush kf

/-- With the numbers they get. -/
def numbered (fields : List (φ × β)) : List (φ × Write β) :=
  fields.mapIdx fun i fv => (fv.1, ⟨s.nextSeq + i, fv.2⟩)

/-- What the writer is told. -/
def answered (key : κ) (writes : List (φ × Write β)) :
    WriteBuffer κ φ (Write β) × Except (BufferOverflow κ) Unit →
      State κ φ β sharding × List (Event κ φ β)
  | (b, .ok ()) =>
    ({ s with world := { s.world with buffer := b }, nextSeq := s.nextSeq + writes.length },
      [.accepted (writes.map fun fw => ((key, fw.1), fw.2))])
  | (b, .error e) => ({ s with world := { s.world with buffer := b } }, [.overflow e])

/-- One step. -/
def step (config : WriteBufferConfig) (s : State κ φ β sharding) :
    Input κ φ β → State κ φ β sharding × List (Event κ φ β)
  | .hashSet key field value =>
    let write := ⟨s.nextSeq, value⟩
    s.answered key [(field, write)] (s.world.buffer.bufferHashSet config key field write)
  | .hashMset key fields =>
    let writes := s.numbered fields
    s.answered key writes (s.world.buffer.bufferHashMset config key writes)
  | .flush x =>
    let r := s.flush.step s.world x
    ({ s with world := r.world, flush := r.flush }, (r.result.map Event.flushed).toList)

end State

/-- The buffer as a machine. -/
def machine (sharding : Sharding κ) :
    Machine (State κ φ β sharding) (Input κ φ β) (Event κ φ β) :=
  ⟨State.step config⟩

/-- All that was accepted. -/
def acceptedWrites (log : List (Event κ φ β)) : List ((κ × φ) × Write β) :=
  log.flatMap fun
    | .accepted writes => writes
    | _ => []

omit [DecidableEq κ] [DecidableEq φ] in
theorem acceptedWrites_append (log log' : List (Event κ φ β)) :
    acceptedWrites (log ++ log') = acceptedWrites log ++ acceptedWrites log' := flatMap_append

/-! ## What a call of the writer does -/

theorem bufferHashMset_cases (key : κ) (fields : List (φ × β)) :
    (∃ b' e, b.bufferHashMset config key fields = (b', .error e) ∧ b'.pending = b.pending) ∨
      (fields = [] ∧ b.bufferHashMset config key fields = (b, .ok ())) ∨
      ∃ b', b.bufferHashMset config key fields = (b', .ok ()) ∧
        b'.pending = b.pending.putAll key fields ∧
        (key ∈ b.pending ∨ b.pendingKeys < config.maxPendingKeys) := by
  unfold WriteBuffer.bufferHashMset
  split
  · rename_i hempty
    exact .inr (.inl ⟨List.isEmpty_iff.mp hempty, rfl⟩)
  split
  · exact .inl ⟨_, _, rfl, rfl⟩
  rename_i hroom
  refine .inr (.inr ⟨_, rfl, rfl, ?_⟩)
  by_cases hkey : key ∈ b.pending
  · exact .inl hkey
  · exact .inr (by by_contra hfull; exact hroom ⟨Nat.le_of_not_lt hfull, hkey⟩)

variable {key : κ} {fields : List (φ × β)}

theorem get_of_bufferHashMset_ok {config : WriteBufferConfig} {b b' : WriteBuffer κ φ β}
    (h : b.bufferHashMset config key fields = (b', .ok ())) :
    b'.pending.get = insertAll b.pending.get (fields.map fun fv => ((key, fv.1), fv.2)) := by
  rcases bufferHashMset_cases config b key fields with
    ⟨_, _, hr, -⟩ | ⟨rfl, hr⟩ | ⟨_, hr, hpending, -⟩
  · exact nomatch (hr.symm.trans h)
  · cases hr.symm.trans h
    rfl
  cases hr.symm.trans h
  rw [hpending, Hashes.get_putAll]

theorem pending_of_bufferHashMset_error {config : WriteBufferConfig} {b b' : WriteBuffer κ φ β}
    {e : BufferOverflow κ} (h : b.bufferHashMset config key fields = (b', .error e)) :
    b'.pending = b.pending := by
  rcases bufferHashMset_cases config b key fields with ⟨_, _, hr, hpending⟩ | ⟨-, hr⟩ | ⟨_, hr, -⟩
  · cases hr.symm.trans h
    exact hpending
  · exact nomatch (hr.symm.trans h)
  · exact nomatch (hr.symm.trans h)

/-! ## The last accepted value -/

section Accounted

variable (store : κ × φ → Option β)

/-- What was there before. -/
def initialWrites (kf : κ × φ) : Option (Write β) := (store kf).map (Write.mk 0)

/-- Every value is accounted for by the writes that were accepted. -/
structure Accounted (s : State κ φ β sharding) (writes : List ((κ × φ) × Write β)) : Prop where
  numbered : writes.map (fun e => e.2.seq) = range' 1 writes.length
  next : s.nextSeq = writes.length + 1
  overlay : ∀ kf, (s.cell kf).overlay = insertAll (initialWrites store) writes kf
  ordered : ∀ kf, (s.cell kf).Ordered
  known : ∀ kf w, (s.cell kf).Has w → initialWrites store kf = some w ∨ (kf, w) ∈ writes

variable {store} {s : State κ φ β sharding} {writes : List ((κ × φ) × Write β)}

theorem accounted_init : Accounted store (State.init sharding store) [] where
  numbered := rfl
  next := rfl
  overlay := fun _ => rfl
  ordered := fun _ => ⟨.none_left _, .none_right _, .none_right _⟩
  known := by
    rintro kf w (h | h | h)
    · cases h
    · cases h
    · exact .inl h

theorem Accounted.seq_lt (h : Accounted store s writes) {kf : κ × φ} {w : Write β}
    (hw : (s.cell kf).Has w) : w.seq < s.nextSeq := by
  rw [h.next]
  rcases h.known kf w hw with hw | hw
  · obtain ⟨v, -, rfl⟩ := Option.map_eq_some_iff.mp hw
    exact Nat.succ_pos _
  have hseq : w.seq ∈ writes.map fun e => e.2.seq := mem_map.mpr ⟨_, hw, rfl⟩
  rw [h.numbered, mem_range'_1] at hseq
  omega

theorem Accounted.flush (h : Accounted store s writes) (x : FlushStep κ φ) :
    Accounted store { s with world := (s.flush.step s.world x).world
                             flush := (s.flush.step s.world x).flush } writes := by
  have hmoved := Flush.moved_step s.world s.flush x
  exact
    { numbered := h.numbered
      next := h.next
      overlay := fun kf => (hmoved kf).overlay_eq.trans (h.overlay kf)
      ordered := fun kf => (hmoved kf).ordered (h.ordered kf)
      known := fun kf w hw => h.known kf w ((hmoved kf).has hw) }

variable {added : List ((κ × φ) × Write β)}

theorem Accounted.ordered_write (h : Accounted store s writes) {kf : κ × φ}
    (hnew : ∀ e ∈ added, s.nextSeq ≤ e.2.seq) :
    Layers.Ordered ⟨insertAll s.world.buffer.pending.get added kf, s.flush.batch.get kf,
      s.world.store kf⟩ := by
  have hcell := h.ordered kf
  cases hvalue : insertAll s.world.buffer.pending.get added kf with
  | none => exact ⟨.none_right _, .none_right _, hcell.stored_held⟩
  | some w =>
    rcases mem_of_insertAll hvalue with hw | hw
    · exact hcell.write fun x hx => le_of_lt ((h.seq_lt hx).trans_le (hnew _ hw))
    have hsame : s.cell kf = ⟨some w, s.flush.batch.get kf, s.world.store kf⟩ := by
      rw [← hw]
      rfl
    exact hsame ▸ hcell

theorem Accounted.write (h : Accounted store s writes) {b' : WriteBuffer κ φ (Write β)}
    (hseqs : added.map (fun e => e.2.seq) = range' s.nextSeq added.length)
    (hpending : b'.pending.get = insertAll s.world.buffer.pending.get added) :
    Accounted store { s with world := { s.world with buffer := b' }
                             nextSeq := s.nextSeq + added.length } (writes ++ added) where
  numbered := by
    rw [map_append, h.numbered, hseqs, h.next, length_append, Nat.add_comm _ 1,
      range'_append_1]
  next := by
    change s.nextSeq + added.length = (writes ++ added).length + 1
    rw [length_append, h.next]
    omega
  overlay := by
    intro kf
    have hlower : insertAll (initialWrites store) writes kf =
        (s.world.buffer.pending.get kf).or ((s.flush.batch.get kf).or (s.world.store kf)) :=
      (h.overlay kf).symm
    change (b'.pending.get kf).or ((s.flush.batch.get kf).or (s.world.store kf)) = _
    rw [insertAll_append, hpending, insertAll_or hlower]
  ordered := by
    intro kf
    have hnew : ∀ e ∈ added, s.nextSeq ≤ e.2.seq := by
      intro e he
      have hmem : e.2.seq ∈ added.map fun e => e.2.seq := mem_map.mpr ⟨e, he, rfl⟩
      rw [hseqs, mem_range'_1] at hmem
      exact hmem.1
    change Layers.Ordered ⟨b'.pending.get kf, _, _⟩
    rw [hpending]
    exact h.ordered_write hnew
  known := by
    rintro kf w (hw | hw | hw)
    · change b'.pending.get kf = some w at hw
      rw [hpending] at hw
      rcases mem_of_insertAll hw with hw | hw
      · exact .inr (mem_append_right _ hw)
      · exact (h.known kf w (.inl hw)).imp_right (mem_append_left _)
    · exact (h.known kf w (.inr (.inl hw))).imp_right (mem_append_left _)
    · exact (h.known kf w (.inr (.inr hw))).imp_right (mem_append_left _)

variable {log : List (Event κ φ β)}

theorem Accounted.answered {config : WriteBufferConfig} {fields : List (φ × Write β)}
    (h : Accounted store s (acceptedWrites log))
    (hseqs : fields.map (fun fw => fw.2.seq) = range' s.nextSeq fields.length)
    {r : WriteBuffer κ φ (Write β) × Except (BufferOverflow κ) Unit}
    (hr : s.world.buffer.bufferHashMset config key fields = r) :
    Accounted store (s.answered key fields r).1
      (acceptedWrites (log ++ (s.answered key fields r).2)) := by
  obtain ⟨b', result⟩ := r
  rw [acceptedWrites_append]
  cases result with
  | error e =>
    have hpending : b'.pending.get = insertAll s.world.buffer.pending.get [] := by
      rw [pending_of_bufferHashMset_error hr]
      rfl
    exact h.write rfl hpending
  | ok u =>
    have hwrite := h.write (by rw [map_map, length_map]; exact hseqs)
      (get_of_bufferHashMset_ok hr)
    rw [length_map] at hwrite
    simpa [State.answered, acceptedWrites] using hwrite

omit [DecidableEq κ] [DecidableEq φ] in
theorem map_seq_numbered (s : State κ φ β sharding) (fields : List (φ × β)) :
    (s.numbered fields).map (fun fw => fw.2.seq) =
      range' s.nextSeq (s.numbered fields).length := by
  apply ext_getElem
  · simp
  intro i _ _
  simp [State.numbered]

theorem accounted_step (x : Input κ φ β) (h : Accounted store s (acceptedWrites log)) :
    Accounted store (s.step config x).1 (acceptedWrites (log ++ (s.step config x).2)) := by
  cases x with
  | hashSet key field value => exact h.answered rfl rfl
  | hashMset key fields => exact h.answered (map_seq_numbered s fields) rfl
  | flush x =>
    have hevents : acceptedWrites ((s.flush.step s.world x).result.map Event.flushed).toList =
        ([] : List ((κ × φ) × Write β)) := by
      cases (s.flush.step s.world x).result <;> rfl
    rw [acceptedWrites_append]
    simp only [State.step, hevents, append_nil]
    exact h.flush x

theorem Accounted.storedLe_step (x : Input κ φ β) (h : Accounted store s writes) (kf : κ × φ) :
    Layers.StoredLe (s.world.store kf) ((s.step config x).1.world.store kf) := by
  have hanswered : ∀ key fields r, (s.answered key fields r).1.world.store = s.world.store := by
    rintro key fields ⟨b', _ | _⟩ <;> rfl
  cases x with
  | hashSet | hashMset =>
    rw [State.step, hanswered]
    exact .refl _
  | flush x => exact (Flush.moved_step s.world s.flush x kf).storedLe (h.ordered kf)

theorem accounted_run (sharding : Sharding κ)
    (store : κ × φ → Option β) (inputs : List (Input κ φ β)) :
    Accounted store ((machine config sharding).run (State.init sharding store) inputs)
      (acceptedWrites ((machine config sharding).trace (State.init sharding store) inputs)) :=
  (machine config sharding).invariant (fun s log => Accounted store s (acceptedWrites log))
    (fun _ _ x h _ => accounted_step config x h) (l := []) accounted_init
    (Machine.along_true _ _ _)

end Accounted

/-- **Last write wins.**  Over every run: the accepted values are numbered in order, the layers over
the store show the last of them, and the store only moves forward. -/
theorem overlay_of_run (config : WriteBufferConfig) (sharding : Sharding κ)
    (store : κ × φ → Option β) (inputs : List (Input κ φ β)) :
    let M := machine config sharding
    let s := M.run (State.init sharding store) inputs
    let writes := acceptedWrites (M.trace (State.init sharding store) inputs)
    writes.map (fun e => e.2.seq) = range' 1 writes.length ∧
      (∀ kf w, s.world.store kf = some w →
        (w.seq = 0 ∧ store kf = some w.value) ∨ (kf, w) ∈ writes) ∧
      (∀ kf, (s.cell kf).overlay.map Write.value =
        insertAll store (writes.map fun e => (e.1, e.2.value)) kf) ∧
      M.Along (fun s x => ∀ kf, Layers.StoredLe (s.world.store kf) ((M.step s x).1.world.store kf))
        (State.init sharding store) inputs := by
  intro M s writes
  have hrun : Accounted store s writes := accounted_run config sharding store inputs
  refine ⟨hrun.numbered, ?_, ?_, ?_⟩
  · intro kf w hw
    refine (hrun.known kf w (.inr (.inr hw))).imp_left fun hinit => ?_
    obtain ⟨v, hv, rfl⟩ := Option.map_eq_some_iff.mp hinit
    exact ⟨rfl, hv⟩
  · intro kf
    rw [hrun.overlay, ← insertAll_map_val]
    congr 1
    funext kf
    simp [initialWrites, Function.comp_def]
  exact M.along_of_invariant (fun s => ∃ log, Accounted store s (acceptedWrites log))
    (fun s x ⟨log, h⟩ _ => ⟨log ++ (s.step config x).2, accounted_step config x h⟩)
    (fun s x ⟨_, h⟩ _ => h.storedLe_step config x) ⟨[], accounted_init⟩
    (M.along_true _ _)

/-! ## The number of pending keys -/

section Limit

variable (config : WriteBufferConfig)

/-- The pending keys. -/
def WithinLimit (s : State κ φ β sharding) : Prop :=
  s.world.buffer.pendingKeys ≤ config.maxPendingKeys

instance (s : State κ φ β sharding) : Decidable (WithinLimit config s) :=
  inferInstanceAs (Decidable (_ ≤ _))

/-- A batch that is put back fits in beside the keys buffered since it was drained. -/
def requeueFits (s : State κ φ β sharding) : Input κ φ β → Bool
  | .flush (.failed _) =>
    match s.flush with
    | .sent batch => (s.world.buffer.pending.keys ∪ batch.keys).length ≤ config.maxPendingKeys
    | _ => true
  | _ => true

variable {config}

theorem pendingKeys_bufferHashMset {b : WriteBuffer κ φ β} (key : κ) (fields : List (φ × β))
    (h : b.pendingKeys ≤ config.maxPendingKeys) :
    (b.bufferHashMset config key fields).1.pendingKeys ≤ config.maxPendingKeys := by
  rcases bufferHashMset_cases config b key fields with
    ⟨b', _, hr, hpending⟩ | ⟨-, hr⟩ | ⟨b', hr, hpending, hroom⟩
  · rw [hr, WriteBuffer.pendingKeys, hpending]
    exact h
  · rw [hr]
    exact h
  have hlength := Hashes.keys_length_insert b.pending key ((b.pending.fields key).insertFields fields)
  rw [hr, WriteBuffer.pendingKeys, hpending, Hashes.putAll, hlength]
  split
  · exact h
  rename_i hnew
  exact hroom.resolve_left hnew

variable {s : State κ φ β sharding}

theorem withinLimit_answered {fields : List (φ × Write β)} (h : WithinLimit config s) :
    WithinLimit config
      (s.answered key fields (s.world.buffer.bufferHashMset config key fields)).1 := by
  have hbuffer := pendingKeys_bufferHashMset key fields h
  revert hbuffer
  cases s.world.buffer.bufferHashMset config key fields with
  | mk b' result => cases result <;> exact id

theorem withinLimit_flush_iff (x : FlushStep κ φ) (h : WithinLimit config s) :
    WithinLimit config (s.step config (.flush x)).1 ↔ requeueFits config s (.flush x) := by
  obtain ⟨w, f, n⟩ := s
  cases f with
  | idle => cases x <;> exact iff_of_true h rfl
  | draining d =>
    cases x with
    | drain =>
      have hpending := (Flush.drainNext_spec w d).2.1
      refine iff_of_true ?_ rfl
      change (Flush.drainNext w d).world.buffer.pending.keys.length ≤ _
      rw [hpending]
      exact (Hashes.keys_length_select _ _).trans h
    | _ => exact iff_of_true h rfl
  | sent batch =>
    cases x with
    | failed applied =>
      change (w.buffer.pending.fill batch).keys.length ≤ _ ↔ _
      rw [Hashes.keys_length_fill]
      exact decide_eq_true_iff.symm
    | _ => exact iff_of_true h rfl

theorem withinLimit_step_iff (x : Input κ φ β) (h : WithinLimit config s) :
    WithinLimit config (s.step config x).1 ↔ requeueFits config s x := by
  cases x with
  | hashSet | hashMset => exact iff_of_true (withinLimit_answered h) rfl
  | flush x => exact withinLimit_flush_iff x h

/-- **The limit on pending keys** holds after every step of a run exactly when every batch that is
put back fits in. -/
theorem pending_bounded_iff (config : WriteBufferConfig) (sharding : Sharding κ)
    (store : κ × φ → Option β) (inputs : List (Input κ φ β)) :
    let M := machine config sharding
    M.Along (fun s x => WithinLimit config (M.step s x).1) (State.init sharding store) inputs ↔
      M.Along (fun s x => requeueFits config s x) (State.init sharding store) inputs := by
  intro M
  have hinit : WithinLimit config (State.init sharding store) := Nat.zero_le _
  constructor
  · exact M.along_of_invariant (WithinLimit config) (fun _ _ _ h => h)
      (fun _ x hs h => (withinLimit_step_iff x hs).mp h) hinit
  exact M.along_of_invariant (WithinLimit config)
    (fun _ x hs h => (withinLimit_step_iff x hs).mpr h)
    (fun _ x hs h => (withinLimit_step_iff x hs).mpr h) hinit

/-- With room for one key: it is drained, another one takes its place, and the store fails. -/
theorem requeued_beside_new_key :
    let oneShard : Sharding Nat := ⟨1, fun _ => 0, fun _ => Nat.one_pos⟩
    let M : Machine (State Nat Nat Nat oneShard) _ _ := machine { maxPendingKeys := 1 } oneShard
    ¬ M.Along (fun s x => WithinLimit { maxPendingKeys := 1 } (M.step s x).1)
      (State.init oneShard fun _ => none)
      [.hashSet 0 0 7, .flush .start, .flush .drain, .hashSet 1 0 8,
        .flush (.failed fun _ => false)] := by
  decide

end Limit

end VoltageEMS.Rtdb
