import VoltageEMS.Lib.Run
import VoltageEMS.Shm.Handle

/-!
# PointWatch events of comsrv

`SubscriptionBitmap`, `PointWatchSignaler::emit`, the emitting writes of `UnifiedWriter` and the
comsrv process around them: rebuilds of the layout, slot writes, subscriptions set by modsrv, and the
task that drains the event queue, in any order.
-/

namespace VoltageEMS.Shm

open Lib List

/-! ## Subscriptions and the queue -/

/-- `WATCH_WORDS_COUNT`. -/
def watchWordsCount : Nat := 1563

/-- `DRAIN_CHANNEL_CAPACITY`. -/
def drainChannelCapacity : Nat := 2048

/-- `MAX_BATCH`. -/
def maxBatch : Nat := 64

/-- The words of the subscription bitmap, the bounded queue, whether its receiver is alive, and the
number of dropped events. -/
structure WatchState where
  subs : List Nat
  queue : List PointWatchEvent
  receiving : Bool
  droppedCount : Nat

namespace WatchState

variable (st : WatchState)

/-- `SubscriptionBitmap::is_watched`. -/
def isWatched (slot : Nat) : Bool :=
  if watchWordsCount ≤ slot / 64 then false
  else (st.subs.getD (slot / 64) 0).testBit (slot % 64)

/-- `set_watched`. -/
def setWatched (slot : Nat) : WatchState :=
  { st with subs := st.subs.modify (slot / 64) fun w => w ||| 2 ^ (slot % 64) }

/-- `clear_watched`: `w & !bit` on a `u64`. -/
def clearWatched (slot : Nat) : WatchState :=
  { st with subs := st.subs.modify (slot / 64) fun w => w &&& (2 ^ 64 - 1 - 2 ^ (slot % 64)) }

/-- `clear_all`. -/
def clearAll : WatchState := { st with subs := st.subs.map fun _ => 0 }

/-- `try_send`: the new state, and whether the event is in the queue. -/
def trySend (ev : PointWatchEvent) : WatchState × Bool :=
  if st.receiving && decide (st.queue.length < drainChannelCapacity) then
    ({ st with queue := st.queue ++ [ev] }, true)
  else (st, false)

/-- The task takes a batch. -/
def drain (n : Nat) : WatchState :=
  { st with queue := st.queue.drop (min n maxBatch) }

theorem isWatched_clearAll (slot : Nat) : st.clearAll.isWatched slot = false := by
  unfold isWatched clearAll
  split
  · rfl
  · cases st.subs[slot / 64]? <;> simp [getD_eq_getElem?_getD]

theorem isWatched_setWatched {st : WatchState} (hlen : st.subs.length = watchWordsCount)
    (i slot : Nat) : (st.setWatched i).isWatched slot = true ↔
      st.isWatched slot = true ∨ (slot = i ∧ slot / 64 < watchWordsCount) := by
  unfold isWatched setWatched
  split
  case isTrue hout =>
    simp only [Bool.false_eq_true, false_or, false_iff]
    omega
  case isFalse hin =>
    by_cases hi : i / 64 < st.subs.length
    · rw [testBit_mark hi, Bool.or_eq_true, decide_eq_true_eq]
      simp only [Nat.not_le.mp hin, and_true]
    rw [modify_eq_self (by omega)]
    constructor
    · exact .inl
    rintro (h | ⟨rfl, hlt⟩)
    · exact h
    · omega

theorem isWatched_foldl_setWatched (slot : Nat) :
    ∀ (slots : List Nat) {st : WatchState}, st.subs.length = watchWordsCount →
      ((slots.foldl setWatched st).isWatched slot = true ↔
        st.isWatched slot = true ∨ (slot ∈ slots ∧ slot / 64 < watchWordsCount))
  | [], _, _ => by simp
  | i :: slots, st, hlen => by
    have hnext : (st.setWatched i).subs.length = watchWordsCount := by
      simpa [setWatched] using hlen
    rw [foldl_cons, isWatched_foldl_setWatched slot slots hnext, isWatched_setWatched hlen,
      mem_cons]
    constructor
    · rintro ((h | ⟨rfl, hlt⟩) | ⟨hmem, hlt⟩)
      · exact .inl h
      · exact .inr ⟨.inl rfl, hlt⟩
      · exact .inr ⟨.inr hmem, hlt⟩
    rintro (h | ⟨rfl | hmem, hlt⟩)
    · exact .inl (.inl h)
    · exact .inl (.inr ⟨rfl, hlt⟩)
    · exact .inr ⟨hmem, hlt⟩

theorem length_foldl_setWatched (slots : List Nat) (st : WatchState) :
    (slots.foldl setWatched st).subs.length = st.subs.length := by
  induction slots generalizing st with
  | nil => rfl
  | cons i slots ih => rw [foldl_cons, ih]; simp [setWatched]

end WatchState

/-- `PointWatchSignaler::emit`, with the event it sent, if it sent one. -/
def PointWatchSignaler.emit (pw : PointWatchSignaler) (st : WatchState) (slot : Nat)
    (value raw : Float) (timestampMs : Nat) : WatchState × Option PointWatchEvent :=
  if !st.isWatched slot then (st, none)
  else
    match pw.reverseIndex.get slot with
    | none => (st, none)
    | some origin =>
      let event : PointWatchEvent := {
        channelId := origin.channelId
        pointId := origin.pointId
        pointType := origin.pointType
        value
        raw
        slotIndex := slot
        timestampMs
        producerId := pw.producerId }
      match st.trySend event with
      | (st, true) => (st, some event)
      | (st, false) => ({ st with droppedCount := st.droppedCount + 1 }, none)

variable {slot ts : Nat}

theorem PointWatchSignaler.emit_source {pw : PointWatchSignaler} {st st' : WatchState}
    {value raw : Float} {ev : PointWatchEvent} (h : pw.emit st slot value raw ts = (st', some ev)) :
    pw.reverseIndex.get slot = some ev.source := by
  unfold emit at h
  split at h
  · cases h
  split at h
  · cases h
  rename_i origin horigin
  dsimp only at h
  split at h <;> cases h
  exact horigin

/-! ## The process -/

/-- The layout and the signaler's state. -/
structure Comsrv where
  handle : ShmHandle
  watch : WatchState

/-- What happens to comsrv. -/
inductive ComsrvInput
  | rebuild (env : ShmEnv) (io : SwapIo) (cp : ChannelPointCounts)
  | set (p : ChannelPoint) (value raw : Float) (timestampMs : Nat)
  | setDirect (slot : Nat) (value raw : Float) (timestampMs : Nat)
  | setWatched (slot : Nat)
  | clearWatched (slot : Nat)
  | clearAll
  | drain (n : Nat)
  | shutdown

/-- An event that was sent for a write: the slot, and the layout table current at the write. -/
structure Emission where
  layouts : List ChannelLayout
  slot : Nat
  event : PointWatchEvent

/-- `UnifiedWriter::set_direct` on the current layout: the slot is written, then the event is
emitted. -/
def Comsrv.write (c : Comsrv) (slot : Nat) (value raw : Float) (timestampMs : Nat) :
    Comsrv × List Emission :=
  match c.handle.layout with
  | none => (c, [])
  | some layout =>
    if layout.writer.slotCount ≤ slot then (c, [])
    else
      let layout' := { layout with writer := layout.writer.setDirect slot value raw timestampMs }
      let c' := { c with handle := { c.handle with layout := some layout' } }
      match layout.pointWatch with
      | none => (c', [])
      | some pw =>
        match pw.emit c.watch slot value raw timestampMs with
        | (watch, none) => ({ c' with watch }, [])
        | (watch, some event) => ({ c' with watch }, [⟨layout.writer.layouts, slot, event⟩])

/-- One step. -/
def Comsrv.step (c : Comsrv) : ComsrvInput → Comsrv × List Emission
  | .rebuild env io cp =>
    match rebuildViaSwap env io c.handle cp with
    | .ok handle => ({ c with handle }, [])
    | .error _ => (c, [])
  | .set p value raw timestampMs =>
    match c.handle.layout.bind fun l => lookup l.writer.layouts p with
    | some slot => c.write slot value raw timestampMs
    | none => (c, [])
  | .setDirect slot value raw timestampMs => c.write slot value raw timestampMs
  | .setWatched slot => ({ c with watch := c.watch.setWatched slot }, [])
  | .clearWatched slot => ({ c with watch := c.watch.clearWatched slot }, [])
  | .clearAll => ({ c with watch := c.watch.clearAll }, [])
  | .drain n => ({ c with watch := c.watch.drain n }, [])
  | .shutdown => ({ c with watch := { c.watch with receiving := false } }, [])

/-- comsrv as a machine. -/
def Comsrv.machine : Machine Comsrv ComsrvInput Emission := ⟨Comsrv.step⟩

/-- The startup in `main.rs`: the signaler gets the reverse index of the first writer and is
registered. -/
def Comsrv.start (writer : UnifiedWriter) (producerId : Nat) : Comsrv :=
  let index := ChannelToSlotIndex.fromUnifiedWriter writer
  let signaler : PointWatchSignaler :=
    ⟨.fromForward index.entries writer.slotCount, producerId⟩
  { handle := ⟨some (.new writer (some signaler)), some signaler⟩
    watch := ⟨replicate watchWordsCount 0, [], true, 0⟩ }

/-! ## Attribution -/

/-- The table of `cp` gives the slots of the table of `cp₀` to the same points, if to any. -/
def SlotsAgree (cp₀ cp : ChannelPointCounts) : Prop :=
  ∀ lay₀ n₀ lay n, allocateLayouts cp₀ = some (lay₀, n₀) → allocateLayouts cp = some (lay, n) →
    ∀ p₀ p slot, lookup lay₀ p₀ = some slot → lookup lay p = some slot → p₀ = p

variable {cp : ChannelPointCounts}

theorem slotsAgree_self (h : cp.Fits) : SlotsAgree cp cp := by
  intro lay₀ n₀ lay n hlay₀ hlay p₀ p slot hp₀ hp
  rw [hlay₀] at hlay
  cases hlay
  obtain ⟨layouts, n, halloc, -, hpl⟩ := allocateLayouts_spec h
  rw [hlay₀] at halloc
  cases halloc
  exact hpl.soundLayout.injective p₀ p (declares_of_lookup h hlay₀ hp₀)
    (declares_of_lookup h hlay₀ hp) (hp₀.trans hp.symm)

/-- The event names the point that had the written slot. -/
def Emission.NamesPoint (e : Emission) : Prop :=
  ∀ p, lookup e.layouts p = some e.slot → e.event.source = p

/-- The configuration of a rebuild agrees with the startup configuration. -/
def RebuildsAgree (cp₀ : ChannelPointCounts) (_ : Comsrv) : ComsrvInput → Prop
  | .rebuild _ _ cp => SlotsAgree cp₀ cp
  | _ => True

/-- The signaler is the one of the startup writer, and the current writer is laid out from a
configuration that agrees with the startup one. -/
structure Attributed (cp₀ : ChannelPointCounts) (lay₀ : List ChannelLayout) (c : Comsrv) : Prop where
  signaler : ∀ pw, c.handle.pointWatcher = some pw →
    ∀ slot p, pw.reverseIndex.get slot = some p → lookup lay₀ p = some slot
  attached : ∀ l, c.handle.layout = some l → l.pointWatch = c.handle.pointWatcher
  current : ∀ l, c.handle.layout = some l →
    ∃ cp n, allocateLayouts cp = some (l.writer.layouts, n) ∧ SlotsAgree cp₀ cp

variable {cp₀ : ChannelPointCounts} {lay₀ : List ChannelLayout} {c : Comsrv}

theorem Attributed.of_handle {c' : Comsrv} (h : Attributed cp₀ lay₀ c) (heq : c'.handle = c.handle) :
    Attributed cp₀ lay₀ c' :=
  ⟨heq ▸ h.signaler, heq ▸ h.attached, heq ▸ h.current⟩

theorem Attributed.write (h : Attributed cp₀ lay₀ c) (slot : Nat) (value raw : Float) (ts : Nat) :
    Attributed cp₀ lay₀ (c.write slot value raw ts).1 := by
  unfold Comsrv.write
  cases hl : c.handle.layout with
  | none => exact h
  | some l =>
    have hwritten : ∀ watch, Attributed cp₀ lay₀ ⟨{ c.handle with
        layout := some { l with writer := l.writer.setDirect slot value raw ts } }, watch⟩ := by
      intro watch
      refine ⟨h.signaler, ?_, ?_⟩
      · rintro l' ⟨⟩
        exact h.attached l hl
      rintro l' ⟨⟩
      exact h.current l hl
    dsimp only
    split
    · exact h
    split
    · exact hwritten _
    · split <;> exact hwritten _

theorem write_emission {value raw : Float} {e : Emission} (he : e ∈ (c.write slot value raw ts).2) :
    ∃ l pw, c.handle.layout = some l ∧ l.pointWatch = some pw ∧ e.layouts = l.writer.layouts ∧
      pw.reverseIndex.get e.slot = some e.event.source := by
  unfold Comsrv.write at he
  cases hl : c.handle.layout with
  | none => simp [hl] at he
  | some l =>
    simp only [hl] at he
    split at he
    · cases he
    split at he
    · cases he
    rename_i pw hpw
    split at he
    · cases he
    rename_i watch event hemit
    cases mem_singleton.mp he
    exact ⟨l, pw, rfl, hpw, rfl, PointWatchSignaler.emit_source hemit⟩

variable {n₀ : Nat}

theorem Attributed.namesPoint (halloc : allocateLayouts cp₀ = some (lay₀, n₀))
    (h : Attributed cp₀ lay₀ c) {value raw : Float} {e : Emission}
    (he : e ∈ (c.write slot value raw ts).2) : e.NamesPoint := by
  obtain ⟨l, pw, hl, hpw, hlay, hget⟩ := write_emission he
  obtain ⟨cp, n, hcp, hagree⟩ := h.current l hl
  have horigin := h.signaler pw ((h.attached l hl).symm.trans hpw) _ _ hget
  intro p hp
  exact hagree _ _ _ _ halloc hcp _ _ _ horigin (hlay ▸ hp)

theorem Attributed.rebuild (h : Attributed cp₀ lay₀ c) (hagree : SlotsAgree cp₀ cp) {env : ShmEnv}
    {io : SwapIo} {handle : ShmHandle} (hrun : rebuildViaSwap env io c.handle cp = .ok handle) :
    Attributed cp₀ lay₀ { c with handle } := by
  obtain ⟨w, hw, rfl⟩ := rebuildViaSwap_ok hrun
  obtain ⟨n, halloc, -⟩ := create_ok hw
  refine ⟨h.signaler, ?_, ?_⟩
  · rintro l ⟨⟩
    rfl
  rintro l ⟨⟩
  exact ⟨cp, n, halloc, hagree⟩

theorem attributed_step (halloc : allocateLayouts cp₀ = some (lay₀, n₀)) {input : ComsrvInput}
    (h : Attributed cp₀ lay₀ c) (hinput : RebuildsAgree cp₀ c input) :
    Attributed cp₀ lay₀ (c.step input).1 ∧ ∀ e ∈ (c.step input).2, e.NamesPoint := by
  cases input with
  | rebuild env io cp =>
    unfold Comsrv.step
    dsimp only
    split
    · rename_i handle hrun
      exact ⟨h.rebuild hinput hrun, by simp⟩
    · exact ⟨h, by simp⟩
  | set p value raw ts =>
    unfold Comsrv.step
    dsimp only
    split
    · exact ⟨h.write .., fun e he => h.namesPoint halloc he⟩
    · exact ⟨h, by simp⟩
  | setDirect slot value raw ts => exact ⟨h.write .., fun e he => h.namesPoint halloc he⟩
  | setWatched | clearWatched | clearAll | drain | shutdown =>
    exact ⟨h.of_handle rfl, by simp [Comsrv.step]⟩

theorem attributed_start {w : UnifiedWriter} (halloc : allocateLayouts cp₀ = some (w.layouts, n₀))
    (hself : SlotsAgree cp₀ cp₀) (producerId : Nat) :
    Attributed cp₀ w.layouts (Comsrv.start w producerId) := by
  refine ⟨?_, ?_, ?_⟩
  · rintro pw ⟨⟩ slot p hget
    obtain ⟨l, -, -, hslot⟩ := (ChannelToSlotIndex.mem_fromUnifiedWriter
      (length_of_allocateLayouts halloc)).mp (ReverseSlotIndex.mem_of_get hget)
    exact hslot
  · rintro l ⟨⟩
    rfl
  rintro l ⟨⟩
  exact ⟨cp₀, n₀, halloc, hself⟩

/-- **Events name the written point**, in every run in which the table of every rebuild agrees with
the startup table. -/
theorem events_name_their_point {cp₀ : ChannelPointCounts} {w : UnifiedWriter} {n₀ : Nat}
    (halloc : allocateLayouts cp₀ = some (w.layouts, n₀)) (hself : SlotsAgree cp₀ cp₀)
    (producerId : Nat) (inputs : List ComsrvInput)
    (hagree : Comsrv.machine.Along (RebuildsAgree cp₀) (Comsrv.start w producerId) inputs) :
    ∀ e ∈ Comsrv.machine.trace (Comsrv.start w producerId) inputs, e.NamesPoint := by
  have hrun := Comsrv.machine.invariant
    (fun c l => Attributed cp₀ w.layouts c ∧ ∀ e ∈ l, e.NamesPoint) (P := RebuildsAgree cp₀)
    (fun c l input ⟨hc, hl⟩ hinput => by
      obtain ⟨hc', hnew⟩ := attributed_step halloc hc hinput
      exact ⟨hc', fun e he => (mem_append.mp he).elim (hl e) (hnew e)⟩)
    (l := []) ⟨attributed_start halloc hself producerId, by simp⟩ hagree
  simpa using hrun.2

def oneTelemetry (channel : Nat) : ChannelPointCounts :=
  ⟨[(channel, ![1, 0, 0, 0])], pairwise_singleton ..⟩

def plainSwap : SwapIo where
  stagingPath := "\"/shm/rtdb/voltage-rtdb-1.shm\""
  canonicalPath := "\"/shm/rtdb/voltage-rtdb.shm\""

/-- A reload that keeps the counts: the watched point is written before and after it. -/
theorem events_name_their_point_reload :
    ∃ w, create telemetryEnv (oneTelemetry 1) = .ok w ∧
      (Comsrv.machine.trace (Comsrv.start w 9) [.setWatched 0, .setDirect 0 4.0 4.0 6,
        .rebuild telemetryEnv plainSwap (oneTelemetry 1), .setDirect 0 5.0 5.0 7]).length = 2 ∧
      ∀ e ∈ Comsrv.machine.trace (Comsrv.start w 9) [.setWatched 0, .setDirect 0 4.0 4.0 6,
        .rebuild telemetryEnv plainSwap (oneTelemetry 1), .setDirect 0 5.0 5.0 7], e.NamesPoint := by
  have hself : SlotsAgree (oneTelemetry 1) (oneTelemetry 1) :=
    slotsAgree_self ⟨by decide, by decide⟩
  exact ⟨_, rfl, by decide, events_name_their_point rfl hself 9 _
    ⟨trivial, trivial, hself, trivial, trivial⟩⟩

/-- After a rebuild gave slot 0 to channel 2, the event of its write still names telemetry 0 of
channel 1. -/
theorem event_names_former_point :
    ∃ w, create telemetryEnv (oneTelemetry 1) = .ok w ∧
      ∃ e ∈ Comsrv.machine.trace (Comsrv.start w 9) [.setWatched 0,
        .rebuild telemetryEnv plainSwap (oneTelemetry 2), .setDirect 0 5.0 5.0 7],
        lookup e.layouts ⟨2, .telemetry, 0⟩ = some e.slot ∧
          e.event.source = ⟨1, .telemetry, 0⟩ := by
  refine ⟨_, rfl, _, List.Mem.head _, ?_, ?_⟩ <;> decide

/-! ## The capacity of the subscription bitmap -/

/-- The fields of `SharedConfig` that give the number of slots, with their defaults. -/
structure SharedConfig where
  maxChannels : Nat := 1024
  maxPointsPerChannel : Nat := 65536

namespace SharedConfig

/-- `max_slots`: a `usize` product, cast to `u32`.  It is never `None`, so `DEFAULT_MAX_SLOTS` is
not used. -/
def maxSlots (c : SharedConfig) : Nat := c.maxChannels * c.maxPointsPerChannel % 2 ^ 64 % 2 ^ 32

/-- `with_max_slots`, applied to `shared_memory.max_slots` when that is set. -/
def withMaxSlots (_ : SharedConfig) (maxSlots : Nat) : SharedConfig := ⟨maxSlots, 1⟩

end SharedConfig

/-- After `set_watched` the slot is watched, whatever is subscribed later, and no other slot by it.
-/
def Watchable (slot : Nat) : Prop :=
  ∀ st : WatchState, st.subs.length = watchWordsCount →
    (∀ later : List Nat, (later.foldl WatchState.setWatched (st.setWatched slot)).isWatched slot = true) ∧
      ∀ other, other ≠ slot → (st.setWatched slot).isWatched other = st.isWatched other

theorem watchable_iff (slot : Nat) : Watchable slot ↔ slot < 100032 := by
  have hwords : slot < 100032 ↔ slot / 64 < watchWordsCount := by
    rw [watchWordsCount]
    omega
  rw [hwords]
  constructor
  · intro h
    -- subscribe the slot in an empty bitmap
    let empty : WatchState := ⟨replicate watchWordsCount 0, [], true, 0⟩
    have hlen : empty.subs.length = watchWordsCount := length_replicate
    have hset := (WatchState.isWatched_setWatched hlen slot slot).mp ((h empty hlen).1 [])
    rcases hset with hbefore | ⟨-, hlt⟩
    · have hclear := WatchState.isWatched_clearAll empty slot
      have hempty : empty.clearAll = empty := by simp [WatchState.clearAll, empty]
      rw [hempty, hbefore] at hclear
      cases hclear
    · exact hlt
  intro hlt st hlen
  have hset : (st.setWatched slot).isWatched slot = true :=
    (WatchState.isWatched_setWatched hlen slot slot).mpr (.inr ⟨rfl, hlt⟩)
  refine ⟨fun later => ?_, fun other hne => ?_⟩
  · have hlen' : (st.setWatched slot).subs.length = watchWordsCount :=
      (length_modify ..).trans hlen
    exact (WatchState.isWatched_foldl_setWatched slot later hlen').mpr (.inl hset)
  rw [Bool.eq_iff_iff, WatchState.isWatched_setWatched hlen]
  exact ⟨fun h => h.resolve_right fun hboth => hne hboth.1, .inl⟩

/-- **Which slots can be watched**: of the slots a configuration allows those the fixed size of the
subscription bitmap has a bit for, and all of them when it allows no more. -/
theorem SharedConfig.watchable_slots (config : SharedConfig) :
    (∀ slot < config.maxSlots, Watchable slot ↔ slot < 100032) ∧
      ((∀ slot < config.maxSlots, Watchable slot) ↔ config.maxSlots ≤ 100032) := by
  refine ⟨fun slot _ => watchable_iff slot, fun h => ?_, fun hle slot hslot => ?_⟩
  · by_contra hmore
    exact absurd ((watchable_iff 100032).mp (h 100032 (Nat.not_le.mp hmore))) (by decide)
  · exact (watchable_iff slot).mpr (by omega)

/-- The default configuration, and one with a slot more than there are bits, allow slot 100 032. -/
theorem allowed_slot_unwatchable :
    100032 < ({} : SharedConfig).maxSlots ∧
      100032 < (SharedConfig.withMaxSlots {} 100033).maxSlots ∧
      ∀ st : WatchState, (st.setWatched 100032).isWatched 100032 = false :=
  ⟨by decide, by decide, fun _ => if_pos (by decide)⟩

end VoltageEMS.Shm
