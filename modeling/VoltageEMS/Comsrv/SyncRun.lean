import VoltageEMS.Comsrv.SyncInvariant

/-!
# Runs of the synchronisation

What holds of every slot along a run of `SyncWorld.machine` in which the layout and the routes
stay as they are.
-/

namespace VoltageEMS.Comsrv

open Lib Lib.Seqlock Shm List

/-- A writer nothing was written to: what `create` returns. -/
structure Blank (w : UnifiedWriter) : Prop where
  slots : w.segment.slots = replicate w.slotCount .new
  words : w.dirtyWords = replicate (dirtyWordCount w.slotCount) 0
  even : w.segment.header.writerGeneration % 2 = 0

/-- One of `n` slots. -/
def blankWriter (n : Nat) : UnifiedWriter where
  segment := {
    header := ⟨unifiedMagic, unifiedVersion, n, n, 0, 0, 0, 2⟩
    slots := replicate n .new }
  dirtyWords := replicate (dirtyWordCount n) 0
  layouts := []

theorem blank_blankWriter (n : Nat) : Blank (blankWriter n) := by
  refine ⟨?_, ?_, ?_⟩ <;> simp [blankWriter, UnifiedWriter.slotCount]

/-- The task on a new writer. -/
def SyncWorld.start (ptr : Nat) (writer : UnifiedWriter) (reverseIndex : ReverseSlotIndex)
    (routing : RoutingCache) : SyncWorld :=
  .init ⟨ptr, reverseIndex, .ofWriter writer⟩ routing

/-! ## The invariant -/

/-- The slots of a steady layout; those in `kept` are never lost sight of. -/
structure SyncInv (ext : Prop) (kept : Nat → Prop) (hash : Nat) (l : SyncLayout) (σ : ShmRedisSync)
    (accepted : Nat → Accepted) : Prop where
  steady : Steady l hash σ
  wf : l.shared.Wf
  even : l.shared.generation % 2 = 0
  retry_lt : ∀ r ∈ σ.retrySlots, r < l.shared.slotCount
  tracked : ∀ s < l.shared.slotCount,
    Tracked l.reverseIndex s (accepted s) l.shared (σ.lastSeq s)
  covered : ∀ s < l.shared.slotCount, kept s → (l.shared.cell s).Unwrapped 32 →
    s ∈ σ.retrySlots ∨ Shared.Covered ext (Fresh l.reverseIndex s (accepted s)) s l.shared

variable {ext : Prop} {kept : Nat → Prop} {hash : Nat} {l : SyncLayout} {σ : ShmRedisSync}
  {accepted : Nat → Accepted}

theorem isFinite_slotUnwritten : slotUnwritten.isFinite = false := by decide

theorem slot_of_blank {w : UnifiedWriter} (h : Blank w) (s : Nat) :
    (Shared.ofWriter w).slot s = .new := by
  simp only [Shared.slot, Shared.ofWriter]
  rw [h.slots, getD_eq_getElem?_getD, List.getElem?_replicate]
  split <;> rfl

theorem syncInv_of_blank (ext : Prop) (kept : Nat → Prop) {w : UnifiedWriter} (h : Blank w)
    (ptr hash : Nat) (rev : ReverseSlotIndex) :
    SyncInv ext kept hash ⟨ptr, rev, .ofWriter w⟩ .new (fun _ => none) := by
  have hfresh : ∀ s v, Fresh rev s none ((Shared.ofWriter w).slot s).data v := fun s v => by
    rw [slot_of_blank h]
    exact .inr (.inl (by simp [PointSlot.data, PointSlot.new, SlotData.isFinite,
      isFinite_slotUnwritten]))
  refine ⟨⟨.inl rfl, .inl rfl⟩, ⟨?_, ?_, fun _ _ h => by cases h⟩, h.even, fun _ h => (by cases h),
    fun s hs => ⟨⟨?_, fun h => by cases h⟩, fun _ => ?_⟩,
    fun s hs _ _ => .inr (.inr (.inr (.inr (hfresh s _))))⟩
  · simp only [Shared.ofWriter, Shared.slotCount]
    rw [h.words, length_replicate]
  · intro x hx
    simp only [Shared.ofWriter] at hx
    rw [h.words] at hx
    rw [eq_of_mem_replicate hx]
    decide
  · simp only [Shared.cell]
    rw [slot_of_blank h]
    rfl
  · exact ⟨Nat.zero_le _, fun _ => hfresh s _, fun _ h => (by cases h), fun _ h => by cases h⟩

theorem SyncInv.write (h : SyncInv ext kept hash l σ accepted) {st : WriterStep}
    (hext : st.isExternal = true → ext) :
    SyncInv ext kept hash { l with shared := l.shared.step st } σ accepted := by
  have hshape := Shared.shape_step l.shared st
  have hcount := Shared.slotCount_of_shape hshape
  have hlater := fun s => Shared.later_step (s := s) h.wf hext
  refine ⟨⟨h.steady.ptr, h.steady.hash_eq⟩, h.wf.step st, ?_, ?_, fun s hs => ?_,
    fun s hs hk hun => ?_⟩
  · rw [Shared.generation_of_shape hshape]
    exact h.even
  · dsimp only
    rw [hcount]
    exact h.retry_lt
  · exact (h.tracked s (hcount ▸ hs)).later (hlater s).cell
  exact (h.covered s (hcount ▸ hs) hk ((hlater s).cell.unwrapped hun)).imp_right
    (hlater s).covered

variable {routing : RoutingCache}

theorem Steady.publish {redisOk : Bool} {g : Gathered} (h : Steady l hash g.sync) :
    Steady l hash (publish l routing redisOk g).sync := by
  unfold Comsrv.publish sendPipeline
  dsimp only
  split
  · exact ⟨h.ptr, h.hash_eq⟩
  split
  · exact ⟨h.ptr, h.hash_eq⟩
  · split <;> exact ⟨h.ptr, h.hash_eq⟩

theorem Steady.flushOnce (h : Steady l hash σ) (routing : RoutingCache) (schedule : Schedule)
    (redisOk : Bool) : Steady l hash (flushOnce l routing hash schedule redisOk σ).sync := by
  unfold Comsrv.flushOnce
  split
  · exact h
  split
  · exact ⟨h.ptr, h.hash_eq⟩
  refine Steady.publish ?_
  rw [h.gather]
  exact ⟨.inr rfl, .inr rfl⟩

theorem SyncInv.slotAfter_true (h : SyncInv ext kept hash l σ accepted) (routing : RoutingCache)
    (schedule : Schedule) (redisOk : Bool) {s : Nat} (hs : s < l.shared.slotCount) :
    SlotAfter True l.reverseIndex s accepted l.shared.shape
      (flushOnce l routing hash schedule redisOk σ) :=
  flushOnce_slot h.steady h.wf h.even (fun _ _ _ _ _ => trivial) hs (h.tracked s hs)
    (.inr fun _ => .inr (.inl trivial)) (.inl trivial)

theorem SyncInv.flush_shared (h : SyncInv ext kept hash l σ accepted) (routing : RoutingCache)
    (schedule : Schedule) (redisOk : Bool) :
    (flushOnce l routing hash schedule redisOk σ).shared.Wf ∧
      (flushOnce l routing hash schedule redisOk σ).shared.shape = l.shared.shape := by
  rcases Nat.eq_zero_or_pos l.shared.slotCount with hzero | hpos
  · rw [flushOnce, if_pos hzero]
    exact ⟨h.wf, rfl⟩
  have hafter := h.slotAfter_true routing schedule redisOk hpos
  exact ⟨hafter.wf, hafter.shape_eq⟩

variable {schedule : Schedule}

theorem SyncInv.flush_retry_lt (h : SyncInv ext kept hash l σ accepted) {redisOk : Bool} :
    ∀ r ∈ (flushOnce l routing hash schedule redisOk σ).sync.retrySlots, r < l.shared.slotCount := by
  unfold flushOnce
  split
  · exact h.retry_lt
  split
  · exact h.retry_lt
  intro r hr
  refine h.steady.candidates_lt h.wf schedule h.retry_lt r ((publish_subset ?_).1 r hr)
  rw [h.steady.gather]

/-- **A call**, if no kept slot is dropped and every kept slot was covered before or it is a full
scan. -/
theorem SyncInv.flush {kept' : Nat → Prop} (h : SyncInv ext kept hash l σ accepted)
    (routing : RoutingCache) (redisOk : Bool) (hadmits : Shared.Admits ext schedule)
    (hkept : ∀ s, kept' s → kept s ∨ σ.fullScan = true)
    (hkeep : ∀ s < l.shared.slotCount, kept' s → NotDropped s (gather l hash schedule σ).candidates) :
    SyncInv ext kept' hash
      { l with shared := (flushOnce l routing hash schedule redisOk σ).shared }
      (flushOnce l routing hash schedule redisOk σ).sync
      (recordAccepted accepted (flushOnce l routing hash schedule redisOk σ).accepted) := by
  obtain ⟨hwf, hshape⟩ := h.flush_shared routing schedule redisOk
  have hcount := Shared.slotCount_of_shape hshape
  have hsteady := h.steady.flushOnce routing schedule redisOk
  refine ⟨⟨hsteady.ptr, hsteady.hash_eq⟩, hwf, ?_, ?_, fun s hs => ?_, fun s hs hk => ?_⟩
  · rw [Shared.generation_of_shape hshape]
    exact h.even
  · dsimp only
    rw [hcount]
    exact h.flush_retry_lt
  · exact (h.slotAfter_true routing schedule redisOk (hcount ▸ hs)).kept.tracked
  have hlt : s < l.shared.slotCount := hcount ▸ hs
  refine (flushOnce_slot h.steady h.wf h.even hadmits hlt (h.tracked s hlt) ?_
    (.inr (hkeep s hlt hk))).kept.covered
  rcases hkept s hk with hold | hfull
  · exact .inr (h.covered s hlt hold)
  · exact .inl hfull

/-! ## Runs -/

/-- Neither layout nor routes change. -/
def Allowed (ext : Prop) : SyncInput → Prop
  | .write st => st.isExternal = true → ext
  | .flush schedule _ => Shared.Admits ext schedule
  | .rebuild .. | .reroute _ => False

/-- The candidates of a call. -/
def candidatesOf (contentHash : RoutingCache → Nat) (w : SyncWorld) : SyncInput → List Nat
  | .flush schedule _ =>
    match w.layout with
    | some l => (gather l (contentHash w.routing) schedule w.sync).candidates
    | none => []
  | .write _ | .rebuild .. | .reroute _ => []

/-- A world whose slots satisfy the invariant, on the layout it started with. -/
def WorldInv (ext : Prop) (kept : Nat → Prop) (contentHash : RoutingCache → Nat)
    (rev : ReverseSlotIndex) (n : Nat) (w : SyncWorld) : Prop :=
  ∃ l, w.layout = some l ∧ l.reverseIndex = rev ∧ l.shared.slotCount = n ∧
    SyncInv ext kept (contentHash w.routing) l w.sync w.accepted

variable {contentHash : RoutingCache → Nat} {w : SyncWorld} {rev : ReverseSlotIndex}

theorem WorldInv.step {n : Nat} (h : WorldInv ext kept contentHash rev n w) {x : SyncInput}
    (hx : Allowed ext x) (hkeep : ∀ s < n, kept s → NotDropped s (candidatesOf contentHash w x)) :
    WorldInv ext kept contentHash rev n (w.step contentHash x).1 := by
  obtain ⟨l, hl, hrev, hn, hinv⟩ := h
  cases x with
  | write st =>
    have hcount := Shared.slotCount_of_shape (Shared.shape_step l.shared st)
    exact ⟨{ l with shared := l.shared.step st }, by simp [SyncWorld.step, hl], hrev,
      hcount.trans hn, hinv.write hx⟩
  | rebuild | reroute => exact hx.elim
  | flush schedule redisOk =>
    obtain ⟨-, hshape⟩ := hinv.flush_shared w.routing schedule redisOk
    simp only [candidatesOf, hl] at hkeep
    have hflush := hinv.flush w.routing redisOk hx
      (fun _ => .inl) fun s hs => hkeep s (hn ▸ hs)
    simp only [SyncWorld.step, hl]
    exact ⟨_, rfl, hrev, (Shared.slotCount_of_shape hshape).trans hn, hflush⟩

theorem worldInv_start (ext : Prop) (kept : Nat → Prop) {writer : UnifiedWriter} (h : Blank writer)
    (contentHash : RoutingCache → Nat) (ptr : Nat) (rev : ReverseSlotIndex) (routing : RoutingCache) :
    WorldInv ext kept contentHash rev writer.slotCount (.start ptr writer rev routing) :=
  ⟨_, rfl, rfl, rfl, syncInv_of_blank ext kept h ptr _ rev⟩

theorem worldInv_run {n : Nat} (h : WorldInv ext kept contentHash rev n w) {inputs : List SyncInput}
    (halong : (SyncWorld.machine contentHash).Along (fun w x => Allowed ext x ∧
      ∀ s < n, kept s → NotDropped s (candidatesOf contentHash w x)) w inputs) :
    WorldInv ext kept contentHash rev n ((SyncWorld.machine contentHash).run w inputs) :=
  (SyncWorld.machine contentHash).invariant (fun w _ => WorldInv ext kept contentHash rev n w)
    (fun _ _ _ hi hx => hi.step hx.1 hx.2) (l := []) h halong

/-! ## What Redis accepted -/

/-- The fields of a channel point in Redis: value, time and raw value. -/
def channelOps (origin : ChannelPoint) (data : SlotData) : List HashOp :=
  let field := toString origin.pointId
  [⟨KeySpace.channelKey origin.channelId origin.pointType, field, .f64 data.value⟩,
    ⟨KeySpace.channelTsKey origin.channelId origin.pointType, field,
      .i64 (Int.bmod data.timestamp (2 ^ 64))⟩,
    ⟨KeySpace.channelRawKey origin.channelId origin.pointType, field, .f64 data.raw⟩]

/-- Redis has accepted a pipeline with the fields of the point. -/
def Sent (origin : ChannelPoint) (data : SlotData) (ps : List Pipeline) : Prop :=
  ∃ p ∈ ps, p.accepted = true ∧ channelOps origin data ⊆ p.ops

theorem Sent.append {origin : ChannelPoint} {data : SlotData} {ps : List Pipeline}
    (h : Sent origin data ps) (qs : List Pipeline) : Sent origin data (ps ++ qs) := by
  obtain ⟨p, hp, hsent⟩ := h
  exact ⟨p, mem_append_left _ hp, hsent⟩

theorem flushOnce_accepted (l : SyncLayout) (routing : RoutingCache) (hash : Nat)
    (schedule : Schedule) (redisOk : Bool) (σ : ShmRedisSync) :
    ∀ e ∈ (flushOnce l routing hash schedule redisOk σ).accepted, redisOk = true ∧
      l.reverseIndex.get e.slot = some e.origin ∧
      slotOps routing e ⊆ (flushOnce l routing hash schedule redisOk σ).pipeline := by
  unfold flushOnce
  split
  · exact nofun
  split
  · exact nofun
  · exact (publish_subset rfl).2

/-- What is recorded as accepted was sent. -/
def AcceptedSent (rev : ReverseSlotIndex) (w : SyncWorld) (ps : List Pipeline) : Prop :=
  (∀ l ∈ w.layout, l.reverseIndex = rev) ∧ ∀ s a origin, w.accepted s = some a →
    rev.get s = some origin → Sent origin a.1 ps

theorem AcceptedSent.step {ps : List Pipeline} (h : AcceptedSent rev w ps) {x : SyncInput}
    (hx : Allowed ext x) :
    AcceptedSent rev (w.step contentHash x).1 (ps ++ (w.step contentHash x).2) := by
  obtain ⟨hrev, hsent⟩ := h
  cases x with
  | rebuild | reroute => exact hx.elim
  | write st =>
    refine ⟨fun l hl => ?_, fun s a origin ha ho => (hsent s a origin ha ho).append _⟩
    obtain ⟨l', hl', rfl⟩ := Option.map_eq_some_iff.mp hl
    exact hrev l' hl'
  | flush schedule redisOk =>
    cases hl : w.layout with
    | none =>
      simp only [SyncWorld.step, hl, append_nil]
      exact ⟨by simp [hl], hsent⟩
    | some l =>
      simp only [SyncWorld.step, hl]
      refine ⟨by simpa using hrev l hl, fun s a origin ha ho => ?_⟩
      rcases record_slot (s := s) (flushOnce l w.routing (contentHash w.routing) schedule redisOk
        w.sync).accepted w.sync.lastSeq w.accepted with ⟨-, -, hacc⟩ | ⟨e, he, rfl, -, hacc⟩
      · exact (hsent s a origin (hacc ▸ ha) ho).append _
      obtain ⟨hok, horigin, hops⟩ := flushOnce_accepted l w.routing (contentHash w.routing) schedule
        redisOk w.sync e he
      obtain rfl : (e.data, e.version) = a := Option.some.inj (hacc.symm.trans ha)
      obtain rfl : e.origin = origin :=
        Option.some.inj (horigin.symm.trans ((hrev l hl).symm ▸ ho))
      have hne := ne_nil_of_mem (hops (mem_cons_self ..))
      refine ⟨_, mem_append_right _ (by rw [if_neg hne]; exact mem_singleton_self _), hok, ?_⟩
      exact fun op hop => hops (mem_append_left _ hop)

theorem accepted_sent (contentHash : RoutingCache → Nat) (ptr : Nat) (writer : UnifiedWriter)
    (rev : ReverseSlotIndex) (routing : RoutingCache) {inputs : List SyncInput}
    (halong : (SyncWorld.machine contentHash).Along (fun _ x => Allowed ext x)
      (.start ptr writer rev routing) inputs) :
    AcceptedSent rev ((SyncWorld.machine contentHash).run (.start ptr writer rev routing) inputs)
      ((SyncWorld.machine contentHash).trace (.start ptr writer rev routing) inputs) :=
  (SyncWorld.machine contentHash).invariant (AcceptedSent rev)
    (fun _ _ _ hi hx => hi.step hx) (l := []) ⟨by simp [SyncWorld.start, SyncWorld.init], nofun⟩
    halong

/-! ## No update is forgotten -/

/-- Redis is behind on slot `s`: no write of it is under way, it has finite numbers and an origin,
and its latest write is newer than what was accepted. -/
structure Owed (w : SyncWorld) (l : SyncLayout) (s : Nat) : Prop where
  idle : l.shared.pending s = none
  finite : (l.shared.slot s).data.isFinite = true
  origin : l.reverseIndex.get s ≠ none
  newer : ∀ a ∈ w.accepted s, a.2 < l.shared.writes s

theorem Owed.not_fresh {s : Nat} (h : Owed w l s) :
    ¬ Fresh l.reverseIndex s (w.accepted s) (l.shared.slot s).data (l.shared.writes s) := by
  rintro (horigin | hfinite | ⟨a, ha, hv⟩)
  · exact h.origin horigin
  · rw [h.finite] at hfinite
    cases hfinite
  · exact (h.newer a ha).ne hv

theorem notDropped_of_length_le {candidates : List Nat} (h : candidates.length ≤ maxPipelineSlots)
    (s : Nat) : NotDropped s candidates := fun hs => .inl (by rwa [take_of_length_le h])

instance (x : SyncInput) : Decidable (Allowed False x) :=
  match x with
  | .write st => inferInstanceAs (Decidable (st.isExternal = true → False))
  | .flush schedule _ => inferInstanceAs
    (Decidable (∀ steps ∈ schedule, ∀ st ∈ steps, st.isExternal = true → False))
  | .rebuild .. | .reroute _ => isFalse id

def sampleRouting : RoutingCache := ⟨[(⟨1, .telemetry, 3⟩, ⟨9, 4⟩)], by decide⟩

def sampleReverse : ReverseSlotIndex := ⟨[some ⟨1, .telemetry, 3⟩]⟩

def sampleStart : SyncWorld := .start 1 (blankWriter 1) sampleReverse sampleRouting

/-- A read that is torn. -/
def tornRun : List SyncInput :=
  .flush [] true :: (Shared.setDirectSteps 0 ⟨1.5, 15, 100⟩).map .write ++
  [.flush [[], [], [.start 0 ⟨2.5, 25, 200⟩, .next 0]] true] ++
  replicate 6 (.write (.next 0))

end VoltageEMS.Comsrv
