import VoltageEMS.Comsrv.SyncRun

/-!
# A change of the routes

A call of `flush_once` that sees another content of the routing cache forgets the counters it has
recorded, so that slots whose counter did not move are read again and go to the instance the new
routes give them.  It forgets the slots kept for a retry as well, and is a full scan only if its turn
has come: a slot that was written and published long ago is not marked in the bitmap.
-/

namespace VoltageEMS.Comsrv

open Lib Lib.Seqlock Shm Shm.Cursor List Option

variable {hash : Nat} {l : SyncLayout} {σ : ShmRedisSync}

/-! ## Runs on one layout -/

/-- Writers have gone on: every slot is as it was or was written since. -/
structure Follows (c c' : Cursor) : Prop where
  ready : c'.Ready True
  shape : c'.shared.shape = c.shared.shape
  later : ∀ s, Cell.Later 32 (c.shared.cell s) (c'.shared.cell s)

variable {c : Cursor}

theorem Follows.refl (h : c.Ready True) : Follows c c := ⟨h, rfl, fun _ => .refl _⟩

theorem Follows.trans {a b : Cursor} (hab : Follows a b) (hbc : Follows b c) : Follows a c :=
  ⟨hbc.ready, hbc.shape.trans hab.shape, fun s => (hab.later s).trans (hbc.later s)⟩

theorem Follows.of_onward {c' : Cursor} (h : ∀ s, Onward True s c c') : Follows c c' :=
  ⟨(h 0).ready, (h 0).shape, fun s => (h s).later.cell⟩

theorem follows_advance (h : c.Ready True) : Follows c c.advance :=
  .of_onward fun _ => h.advance

theorem follows_collect (h : c.Ready True) (full : Bool) : Follows c (collect c full).1 := by
  cases full with
  | true => exact .refl h
  | false =>
    have hd := fun s => takeDirtySlots_spec (s := s) h
    exact ⟨(hd 0).ready, (hd 0).shape, fun s => (hd s).cell⟩

theorem follows_scanSlot (rev : ReverseSlotIndex) {scan : Scan} (h : scan.cursor.Ready True)
    (i : Nat) : Follows scan.cursor (scanSlot rev scan i).cursor := by
  have hadv := follows_advance h
  have hload := hadv.trans (.of_onward fun _ => hadv.ready.tryLoadConsistent i)
  rcases scanSlot_cases rev scan i with ⟨-, he⟩ | ⟨-, he⟩ | he | ⟨d, v, -, ⟨-, he⟩ | ⟨_, -, he⟩⟩ <;>
    rw [he]
  · exact .refl h
  · exact hadv
  · exact hload
  · exact hload
  · exact hload

theorem follows_foldl_scanSlot (rev : ReverseSlotIndex) (is : List Nat) :
    ∀ scan : Scan, scan.cursor.Ready True →
      Follows scan.cursor (is.foldl (scanSlot rev) scan).cursor := by
  induction is with
  | nil => exact fun _ h => .refl h
  | cons i is ih =>
    intro scan h
    have hstep := follows_scanSlot rev h i
    exact hstep.trans (ih (scanSlot rev scan i) hstep.ready)

theorem follows_scanCandidates (rev : ReverseSlotIndex) {g : Gathered}
    (h : g.cursor.Ready True) : Follows g.cursor (scanCandidates rev g).cursor :=
  follows_foldl_scanSlot rev (g.candidates.take maxPipelineSlots) ⟨g.cursor, g.sync.lastSeq,
    keepLast maxRetrySlots (g.candidates.drop maxPipelineSlots), []⟩ h

theorem gather_cursor (l : SyncLayout) (hash : Nat) (schedule : Schedule) (σ : ShmRedisSync) :
    ∃ full, (gather l hash schedule σ).cursor = (collect ⟨l.shared, schedule⟩ full).1 := ⟨_, rfl⟩

theorem flushOnce_cases (l : SyncLayout) (routing : RoutingCache) (hash : Nat) (schedule : Schedule)
    (redisOk : Bool) (σ : ShmRedisSync) :
    let c := (scanCandidates l.reverseIndex (gather l hash schedule σ)).cursor
    let f := flushOnce l routing hash schedule redisOk σ
    (f.sync.lastLayoutPtr = σ.lastLayoutPtr ∧ f.shared = l.shared) ∨
      (f.sync.lastLayoutPtr = l.ptr ∧ (f.shared = (gather l hash schedule σ).cursor.shared ∨
        f.shared = c.shared ∨ f.shared = c.advance.shared)) := by
  have hptr : (gather l hash schedule σ).sync.lastLayoutPtr = l.ptr := rfl
  unfold flushOnce publish sendPipeline
  dsimp only
  split
  · exact .inl ⟨rfl, rfl⟩
  split
  · exact .inl ⟨rfl, rfl⟩
  split
  · exact .inr ⟨hptr, .inl rfl⟩
  split
  · exact .inr ⟨hptr, .inr (.inl rfl)⟩
  split <;> exact .inr ⟨hptr, .inr (.inr rfl)⟩

theorem follows_flushOnce (hwf : l.shared.Wf) (routing : RoutingCache) (hash : Nat)
    (schedule : Schedule) (redisOk : Bool) (σ : ShmRedisSync) :
    ∃ c, Follows ⟨l.shared, schedule⟩ c ∧
      (flushOnce l routing hash schedule redisOk σ).shared = c.shared := by
  have hready : Ready True ⟨l.shared, schedule⟩ := ⟨hwf, fun _ _ _ _ _ => trivial⟩
  obtain ⟨full, hcursor⟩ := gather_cursor l hash schedule σ
  have hgather : Follows ⟨l.shared, schedule⟩ (gather l hash schedule σ).cursor :=
    hcursor ▸ follows_collect hready full
  have hscan := hgather.trans (follows_scanCandidates l.reverseIndex hgather.ready)
  rcases flushOnce_cases l routing hash schedule redisOk σ with ⟨-, hsh⟩ | ⟨-, hsh | hsh | hsh⟩
  · exact ⟨_, .refl hready, hsh⟩
  · exact ⟨_, hgather, hsh⟩
  · exact ⟨_, hscan, hsh⟩
  · exact ⟨_, hscan.trans (follows_advance hscan.ready), hsh⟩

/-- A segment every call can work on: no writer was left in the middle of a generation. -/
structure Sound (sh : Shared) : Prop where
  wf : sh.Wf
  even : sh.generation % 2 = 0
  cells : ∀ s < sh.slotCount, (sh.cell s).Ok 32

variable {sh : Shared}

theorem Sound.of_later {sh' : Shared} (h : Sound sh) (hwf : sh'.Wf) (hshape : sh'.shape = sh.shape)
    (hlater : ∀ s, Cell.Later 32 (sh.cell s) (sh'.cell s)) :
    Sound sh' where
  wf := hwf
  even := by
    rw [Shared.generation_of_shape hshape]
    exact h.even
  cells s hs := (hlater s).ok (h.cells s (Shared.slotCount_of_shape hshape ▸ hs))

/-- No write is under way. -/
def Idle (sh : Shared) : Prop := ∀ s, sh.pending s = none

theorem Sound.seq_even (h : Sound sh) (hidle : Idle sh) :
    ∀ i < sh.slotCount, (sh.slot i).seq % 2 = 0 := fun i hi =>
  (h.cells i hi).seq_even (by decide) (by simp [Shared.cell, Shared.writing, hidle i])

/-- The layout is not swapped. -/
def KeepsLayout : SyncInput → Prop
  | .rebuild .. => False
  | .write _ | .reroute _ | .flush .. => True

instance : DecidablePred KeepsLayout
  | .rebuild .. => .isFalse id
  | .write _ | .reroute _ | .flush .. => .isTrue trivial

/-- The task works on a layout it does not take for a new one. -/
structure SyncWorld.OnLayout (w : SyncWorld) (l : SyncLayout) : Prop where
  layout : w.layout = some l
  sound : Sound l.shared
  ptr : w.sync.lastLayoutPtr = 0 ∨ w.sync.lastLayoutPtr = l.ptr

variable {w : SyncWorld}

theorem SyncWorld.OnLayout.step (h : w.OnLayout l) (contentHash : RoutingCache → Nat)
    {x : SyncInput} (hx : KeepsLayout x) : ∃ l', (w.step contentHash x).1.OnLayout l' := by
  cases x with
  | rebuild ptr layout => exact hx.elim
  | reroute routing => exact ⟨l, h.layout, h.sound, h.ptr⟩
  | write st =>
    have hlater : ∀ s, Shared.Later True s l.shared (l.shared.step st) := fun s =>
      Shared.later_step h.sound.wf fun _ => trivial
    refine ⟨{ l with shared := l.shared.step st }, ?_, ?_, h.ptr⟩
    · simp [SyncWorld.step, h.layout]
    exact h.sound.of_later (h.sound.wf.step st) (Shared.shape_step l.shared st) fun s =>
      (hlater s).cell
  | flush schedule redisOk =>
    obtain ⟨c, hc, hshared⟩ := follows_flushOnce h.sound.wf w.routing (contentHash w.routing)
      schedule redisOk w.sync
    simp only [SyncWorld.step, h.layout]
    refine ⟨_, rfl, ?_, ?_⟩
    · dsimp only
      rw [hshared]
      exact h.sound.of_later hc.ready.wf hc.shape hc.later
    rcases flushOnce_cases l w.routing (contentHash w.routing) schedule redisOk w.sync with
      ⟨hptr, -⟩ | ⟨hptr, -⟩
    · dsimp only
      rw [hptr]
      exact h.ptr
    · exact .inr hptr

theorem onLayout_start {writer : UnifiedWriter} (hblank : Blank writer) (ptr : Nat)
    (rev : ReverseSlotIndex) (routing : RoutingCache) :
    ∃ l, (SyncWorld.start ptr writer rev routing).OnLayout l := by
  have hinv := syncInv_of_blank True (fun _ => False) hblank ptr 0 rev
  exact ⟨_, rfl, ⟨hinv.wf, hinv.even, fun s hs => (hinv.tracked s hs).ok⟩, .inl rfl⟩

/-- **Every run on one layout**: slots written by any process, routes reloaded, pipelines refused. -/
theorem onLayout_run (contentHash : RoutingCache → Nat) {inputs : List SyncInput}
    (hinputs : ∀ x ∈ inputs, KeepsLayout x) (h : w.OnLayout l) :
    ∃ l', ((SyncWorld.machine contentHash).run w inputs).OnLayout l' :=
  (SyncWorld.machine contentHash).invariant (fun w _ => ∃ l, w.OnLayout l)
    (fun _ _ _ ⟨_, hi⟩ hx => hi.step contentHash hx) (l := []) ⟨l, h⟩
    ((SyncWorld.machine contentHash).along_of_mem _ inputs fun x hx _ => hinputs x hx)

/-! ## What a call reads -/

/-- The read of a slot nobody writes. -/
def quietRead (rev : ReverseSlotIndex) (sh : Shared) (lastSeq : Nat → Nat) (i : Nat) :
    Option Synced :=
  if i < sh.slotCount ∧ (sh.slot i).seq ≠ lastSeq i ∧ (sh.slot i).data.isFinite = true then
    (rev.get i).map fun origin => ⟨i, (sh.slot i).seq, origin, (sh.slot i).data, sh.writes i⟩
  else none

theorem scanSlot_quietRead (rev : ReverseSlotIndex) {scan : Scan}
    (hquiet : scan.cursor.schedule = [])
    (heven : ∀ i < scan.cursor.shared.slotCount, (scan.cursor.shared.slot i).seq % 2 = 0) (i : Nat) :
    (scanSlot rev scan i).cursor = scan.cursor ∧
      (scanSlot rev scan i).synced =
        scan.synced ++ (quietRead rev scan.cursor.shared scan.lastSeq i).toList ∧
      ∀ j ≠ i, (scanSlot rev scan i).lastSeq j = scan.lastSeq j := by
  unfold scanSlot quietRead
  by_cases hlt : i < scan.cursor.shared.slotCount
  · rw [if_neg (by omega)]
    simp only [seqRaw, advance_quiet hquiet]
    by_cases hseq : (scan.cursor.shared.slot i).seq = scan.lastSeq i
    · simp [hseq]
    rw [if_neg hseq, tryLoadConsistent_quiet hquiet (heven i hlt)]
    by_cases hfin : (scan.cursor.shared.slot i).data.isFinite = true
    · cases hrev : rev.get i with
      | none =>
        simp only [scanRead, hfin, hrev, if_true]
        refine ⟨trivial, by simp, fun j hj => ?_⟩
        rw [Function.update_of_ne hj]
      | some origin => simp [scanRead, hfin, hrev, hlt, hseq]
    simp only [scanRead, hfin]
    refine ⟨rfl, by simp, fun j hj => ?_⟩
    exact Function.update_of_ne hj _ _
  rw [if_pos (by omega)]
  simp [hlt]

variable {rev : ReverseSlotIndex}

theorem quietRead_congr {seqs seqs' : Nat → Nat} {i : Nat} (h : seqs' i = seqs i) :
    quietRead rev sh seqs' i = quietRead rev sh seqs i := by
  simp only [quietRead, h]

theorem foldl_scanSlot_synced (rev : ReverseSlotIndex) (is : List Nat) :
    ∀ scan : Scan, is.Nodup → scan.cursor.schedule = [] →
      (∀ i < scan.cursor.shared.slotCount, (scan.cursor.shared.slot i).seq % 2 = 0) →
      (is.foldl (scanSlot rev) scan).synced =
        scan.synced ++ is.filterMap (quietRead rev scan.cursor.shared scan.lastSeq) := by
  induction is with
  | nil => simp
  | cons i is ih =>
    intro scan hnodup hquiet heven
    obtain ⟨hfresh, hnodup⟩ := nodup_cons.mp hnodup
    obtain ⟨hcursor, hsynced, hseqs⟩ := scanSlot_quietRead rev hquiet heven i
    -- what slot `i` left behind does not matter to the others
    have hrest : is.filterMap (quietRead rev scan.cursor.shared (scanSlot rev scan i).lastSeq) =
        is.filterMap (quietRead rev scan.cursor.shared scan.lastSeq) :=
      filterMap_congr fun j hj =>
        quietRead_congr (hseqs j fun h => hfresh (h ▸ hj))
    rw [foldl_cons, ih _ hnodup (hcursor ▸ hquiet) (hcursor ▸ heven), hcursor, hrest, hsynced,
      append_assoc]
    cases hread : quietRead rev scan.cursor.shared scan.lastSeq i with
    | none | some => simp [hread]

/-- `routing_changed`. -/
def ShmRedisSync.forgets (σ : ShmRedisSync) (hash : Nat) : Bool :=
  σ.lastRoutingHash ≠ 0 && hash ≠ σ.lastRoutingHash

/-- The counters the call starts with. -/
def ShmRedisSync.recorded (σ : ShmRedisSync) (hash : Nat) : Nat → Nat :=
  if σ.forgets hash then fun _ => 0 else σ.lastSeq

/-- The slots kept for a retry. -/
def ShmRedisSync.waiting (σ : ShmRedisSync) (hash : Nat) : List Nat :=
  if σ.forgets hash then [] else σ.retrySlots

theorem gather_sameLayout (hptr : σ.lastLayoutPtr = 0 ∨ σ.lastLayoutPtr = l.ptr) (hash : Nat)
    (schedule : Schedule) : gather l hash schedule σ =
      ⟨⟨σ.recorded hash, l.ptr, hash, [], σ.tickCount⟩,
        (collect ⟨l.shared, schedule⟩ σ.fullScan).1,
        sortDedup ((collect ⟨l.shared, schedule⟩ σ.fullScan).2 ++ σ.waiting hash)⟩ := by
  have hlayout : (decide (σ.lastLayoutPtr ≠ 0) && decide (l.ptr ≠ σ.lastLayoutPtr)) = false := by
    rcases hptr with h | h <;> simp [h]
  have hroutes : (decide (σ.lastRoutingHash ≠ 0) && decide (hash ≠ σ.lastRoutingHash)) =
      σ.forgets hash := rfl
  simp only [gather, detectChange, hlayout, hroutes, Bool.false_or, ShmRedisSync.recorded,
    ShmRedisSync.waiting]
  cases σ.forgets hash <;> rfl

theorem collect_quiet (hwf : l.shared.Wf) (full : Bool) :
    (collect ⟨l.shared, []⟩ full).1.schedule = [] ∧
      SameSlots l.shared (collect ⟨l.shared, []⟩ full).1.shared ∧
      ∀ i, i ∈ (collect ⟨l.shared, []⟩ full).2 ↔
        i < l.shared.slotCount ∧ (full = true ∨ l.shared.dirty i = true) := by
  cases full with
  | true => exact ⟨rfl, ⟨rfl, rfl, rfl⟩, by simp [collect]⟩
  | false =>
    obtain ⟨hsched, hsame, -, hmem⟩ := takeDirtySlots_quiet (c := ⟨l.shared, []⟩) hwf rfl
    exact ⟨hsched, hsame, by simpa [collect] using hmem⟩

/-- The slots a call reads if nobody writes: the first `MAX_PIPELINE_SLOTS` of those marked, or of
all on a full scan, and those kept for a retry. -/
def batch (l : SyncLayout) (hash : Nat) (σ : ShmRedisSync) : List Nat :=
  (sortDedup ((List.range l.shared.slotCount).filter (fun i => σ.fullScan || l.shared.dirty i) ++
    σ.waiting hash)).take maxPipelineSlots

theorem nodup_batch (l : SyncLayout) (hash : Nat) (σ : ShmRedisSync) : (batch l hash σ).Nodup :=
  ((sortDedup_pairwise _).imp fun h => h.ne).sublist (take_sublist _ _)

theorem take_candidates_quiet (hwf : l.shared.Wf)
    (hptr : σ.lastLayoutPtr = 0 ∨ σ.lastLayoutPtr = l.ptr) (hash : Nat) :
    (gather l hash [] σ).candidates.take maxPipelineSlots = batch l hash σ := by
  rw [gather_sameLayout hptr, batch]
  refine congrArg (List.take maxPipelineSlots) ?_
  refine sortDedup_eq_of_mem_iff (sortDedup_pairwise _) fun i => ?_
  rw [mem_sortDedup, mem_append, mem_append, (collect_quiet hwf σ.fullScan).2.2 i,
    mem_filter, mem_range, Bool.or_eq_true]

theorem quietRead_of_same {sh' : Shared} (h : SameSlots sh sh') (seqs : Nat → Nat) :
    quietRead rev sh' seqs = quietRead rev sh seqs := by
  funext i
  simp only [quietRead, h.slot_eq, h.slotCount_eq, h.writes]

/-- What the call sends. -/
def quietSynced (l : SyncLayout) (hash : Nat) (σ : ShmRedisSync) : List Synced :=
  (batch l hash σ).filterMap (quietRead l.reverseIndex l.shared (σ.recorded hash))

theorem scanCandidates_synced (hsound : Sound l.shared) (hidle : Idle l.shared)
    (hptr : σ.lastLayoutPtr = 0 ∨ σ.lastLayoutPtr = l.ptr) (hash : Nat) :
    (scanCandidates l.reverseIndex (gather l hash [] σ)).synced = quietSynced l hash σ := by
  obtain ⟨hsched, hsame, -⟩ := collect_quiet hsound.wf σ.fullScan
  have hbatch := take_candidates_quiet hsound.wf hptr hash
  have hcursor : (gather l hash [] σ).cursor = (collect ⟨l.shared, []⟩ σ.fullScan).1 := by
    rw [gather_sameLayout hptr]
  have hseqs : (gather l hash [] σ).sync.lastSeq = σ.recorded hash := by
    rw [gather_sameLayout hptr]
  rw [scanCandidates, hbatch, foldl_scanSlot_synced _ _ _ (nodup_batch l hash σ)]
  · simp only [hcursor, hseqs, nil_append, quietRead_of_same hsame]
    rfl
  · rw [hcursor]
    exact hsched
  simp only [hcursor, hsame.slotCount_eq, hsame.slot_eq]
  exact hsound.seq_even hidle

theorem quietSynced_eq_nil (h : l.shared.slotCount = 0) : quietSynced l hash σ = [] := by
  simp [quietSynced, quietRead, h]

/-- **A whole call** on the layout of the call before, when nobody writes and Redis accepts. -/
theorem pipeline_quiet (hsound : Sound l.shared) (hidle : Idle l.shared)
    (hptr : σ.lastLayoutPtr = 0 ∨ σ.lastLayoutPtr = l.ptr) (routing : RoutingCache) (hash : Nat) :
    (flushOnce l routing hash [] true σ).pipeline =
      (quietSynced l hash σ).flatMap (slotOps routing) := by
  have heven := hsound.even
  have hsynced := scanCandidates_synced hsound hidle hptr hash
  unfold flushOnce
  by_cases hzero : l.shared.slotCount = 0
  · rw [if_pos hzero, quietSynced_eq_nil hzero]
    rfl
  rw [if_neg hzero, if_neg (by omega), publish]
  by_cases hnil : (gather l hash [] σ).candidates = []
  · rw [if_pos hnil, ← hsynced, scanCandidates, hnil]
    rfl
  rw [if_neg hnil, sendPipeline, ← hsynced]
  split
  · rename_i hops
    exact hops.symm
  · rfl

/-! ## Where a value is published -/

variable {routing : RoutingCache} {target : C2MTarget}

theorem measurement_mem_slotOps {e : Synced} {value : Float} :
    ⟨KeySpace.instanceMeasurementKey target.instanceId, toString target.pointId, .f64 value⟩ ∈
        slotOps routing e ↔
      routing.lookupC2m e.origin = some target ∧ e.data.value = value := by
  have hkey := KeySpace.instanceMeasurementKey_ne_channelKey target.instanceId e.origin.channelId
    e.origin.pointType
  have hraw := KeySpace.instanceMeasurementKey_ne_channelRawKey target.instanceId
    e.origin.channelId e.origin.pointType
  cases hroute : routing.lookupC2m e.origin with
  | none => simp [slotOps, hroute, hkey, hraw]
  | some t =>
    simp only [slotOps, hroute, mem_append, mem_cons, HashOp.mk.injEq, hkey, hraw,
      FieldValue.f64.injEq, not_mem_nil, false_and, and_false, false_or, or_false, reduceCtorEq,
      some.injEq]
    constructor
    · rintro ⟨hinst, hpoint, hvalue⟩
      have hi : target.instanceId = t.instanceId := KeySpace.instanceMeasurementKey_inj hinst
      have hp : target.pointId = t.pointId := Nat.repr_injective hpoint
      exact ⟨congrArg₂ C2MTarget.mk hi.symm hp.symm, hvalue.symm⟩
    rintro ⟨rfl, hvalue⟩
    exact ⟨rfl, rfl, hvalue.symm⟩

/-- The call sends slot `s`: it is in the batch, its counter is not the recorded one, and its
numbers are finite. -/
structure Reached (l : SyncLayout) (hash : Nat) (σ : ShmRedisSync) (s : Nat) : Prop where
  mem : s ∈ batch l hash σ
  lt : s < l.shared.slotCount
  changed : (l.shared.slot s).seq ≠ σ.recorded hash s
  finite : (l.shared.slot s).data.isFinite = true

instance (l : SyncLayout) (hash : Nat) (σ : ShmRedisSync) (s : Nat) :
    Decidable (Reached l hash σ s) :=
  decidable_of_iff (s ∈ batch l hash σ ∧ s < l.shared.slotCount ∧
      (l.shared.slot s).seq ≠ σ.recorded hash s ∧ (l.shared.slot s).data.isFinite = true)
    ⟨fun ⟨h₁, h₂, h₃, h₄⟩ => ⟨h₁, h₂, h₃, h₄⟩, fun h => ⟨h.mem, h.lt, h.changed, h.finite⟩⟩

theorem mem_quietSynced {e : Synced} : e ∈ quietSynced l hash σ ↔
    ∃ s origin, Reached l hash σ s ∧ l.reverseIndex.get s = some origin ∧
      e = ⟨s, (l.shared.slot s).seq, origin, (l.shared.slot s).data, l.shared.writes s⟩ := by
  simp only [quietSynced, mem_filterMap, quietRead, ite_none_right_eq_some,
    map_eq_some_iff]
  constructor
  · rintro ⟨s, hmem, ⟨hlt, hchanged, hfinite⟩, origin, horigin, he⟩
    exact ⟨s, origin, ⟨hmem, hlt, hchanged, hfinite⟩, horigin, he.symm⟩
  rintro ⟨s, origin, h, horigin, he⟩
  exact ⟨s, h.mem, ⟨h.lt, h.changed, h.finite⟩, origin, horigin, he.symm⟩

theorem measurement_mem_quiet {value : Float} :
    ⟨KeySpace.instanceMeasurementKey target.instanceId, toString target.pointId, .f64 value⟩ ∈
        (quietSynced l hash σ).flatMap (slotOps routing) ↔
      ∃ s origin, Reached l hash σ s ∧ l.reverseIndex.get s = some origin ∧
        routing.lookupC2m origin = some target ∧ (l.shared.slot s).value = value := by
  simp only [mem_flatMap, measurement_mem_slotOps, mem_quietSynced]
  constructor
  · rintro ⟨e, ⟨s, origin, hreached, horigin, rfl⟩, htarget, hvalue⟩
    exact ⟨s, origin, hreached, horigin, htarget, hvalue⟩
  rintro ⟨s, origin, hreached, horigin, htarget, hvalue⟩
  exact ⟨_, ⟨s, origin, hreached, horigin, rfl⟩, htarget, hvalue⟩

/-! ## The call after a change -/

/-- The routes change, nobody writes, and a call follows whose pipeline Redis accepts: the value of
every slot that has one, an origin and a route arrives at the point the route leads to. -/
def Republishes (contentHash : RoutingCache → Nat) (w : SyncWorld) (l : SyncLayout)
    (routing : RoutingCache) : Prop :=
  ∀ s < l.shared.slotCount, (l.shared.slot s).value.isFinite = true →
    ∀ origin target, l.reverseIndex.get s = some origin → routing.lookupC2m origin = some target →
      ∃ p ∈ (SyncWorld.machine contentHash).trace w [.reroute routing, .flush [] true],
        p.accepted = true ∧ ⟨KeySpace.instanceMeasurementKey target.instanceId,
          toString target.pointId, .f64 (l.shared.slot s).value⟩ ∈ p.ops

theorem exists_mem_trace_reroute (hl : w.layout = some l) (contentHash : RoutingCache → Nat)
    (routing : RoutingCache) (op : HashOp) :
    (∃ p ∈ (SyncWorld.machine contentHash).trace w [.reroute routing, .flush [] true],
        p.accepted = true ∧ op ∈ p.ops) ↔
      op ∈ (flushOnce l routing (contentHash routing) [] true w.sync).pipeline := by
  have htrace : (SyncWorld.machine contentHash).trace w [.reroute routing, .flush [] true] =
      if (flushOnce l routing (contentHash routing) [] true w.sync).pipeline = [] then []
      else [⟨(flushOnce l routing (contentHash routing) [] true w.sync).pipeline, true⟩] := by
    simp [SyncWorld.machine, SyncWorld.step, hl]
  rw [htrace]
  split
  · rename_i hnil
    simp [hnil]
  · simp

/-- **Which slots the call has to reach.**  On a fixed layout, after any writes, calls, refused
pipelines and earlier changes of the routes: the call after a change publishes every value under the
new routes exactly if, for every slot with a value, an origin and a route, it reaches that slot or
another one with the same target and value. -/
theorem republishes_iff (contentHash : RoutingCache → Nat) {writer : UnifiedWriter}
    (hblank : Blank writer) (ptr : Nat) (rev : ReverseSlotIndex) (routing routing' : RoutingCache)
    {inputs : List SyncInput} {w : SyncWorld} {l : SyncLayout}
    (hinputs : ∀ x ∈ inputs, KeepsLayout x)
    (hw : (SyncWorld.machine contentHash).run (.start ptr writer rev routing) inputs = w)
    (hl : w.layout = some l) (hidle : Idle l.shared) :
    Republishes contentHash w l routing' ↔
      ∀ s < l.shared.slotCount, (l.shared.slot s).value.isFinite = true →
        ∀ origin target, l.reverseIndex.get s = some origin →
          routing'.lookupC2m origin = some target →
          ∃ t origin', Reached l (contentHash routing') w.sync t ∧
            l.reverseIndex.get t = some origin' ∧ routing'.lookupC2m origin' = some target ∧
            (l.shared.slot t).value = (l.shared.slot s).value := by
  obtain ⟨l₀, hstart⟩ := onLayout_start hblank ptr rev routing
  obtain ⟨l', hon⟩ := onLayout_run contentHash hinputs hstart
  rw [hw] at hon
  obtain rfl : l' = l := some.inj (hon.layout.symm.trans hl)
  simp only [Republishes, exists_mem_trace_reroute hl, measurement_mem_quiet,
    pipeline_quiet hon.sound hidle hon.ptr routing' (contentHash routing')]

/-- A `content_hash`. -/
def instanceSum (routing : RoutingCache) : Nat := (routing.c2m.map fun e => e.2.instanceId).sum

def movedRouting : RoutingCache := ⟨[(⟨1, .telemetry, 3⟩, ⟨5, 4⟩)], by decide⟩

/-- A write and some calls. -/
def publishedRun (k : Nat) : List SyncInput :=
  (Shared.setDirectSteps 0 ⟨1.5, 15, 100⟩).map .write ++ replicate k (.flush [] true)

theorem SyncWorld.OnLayout.idle (h : w.OnLayout l)
    (hnone : ∀ s < l.shared.slotCount, l.shared.pending s = none) : Idle l.shared := by
  intro s
  cases hp : l.shared.pending s with
  | none => rfl
  | some c =>
    have hlt := h.sound.wf.pending_lt s c hp
    rw [hnone s hlt] at hp
    cases hp

theorem republishes_iff_marked :
    let w := (SyncWorld.machine instanceSum).run sampleStart (publishedRun 1)
    ∃ l, w.layout = some l ∧ Idle l.shared ∧ Republishes instanceSum w l movedRouting := by
  intro w
  have hkeep : ∀ x ∈ publishedRun 1, KeepsLayout x := by decide
  obtain ⟨_, hstart⟩ := onLayout_start (blank_blankWriter 1) 1 sampleReverse sampleRouting
  obtain ⟨l, hon⟩ := onLayout_run instanceSum hkeep hstart
  obtain ⟨hcount, hnone, hreached⟩ : l.shared.slotCount = 1 ∧ l.shared.pending 0 = none ∧
      Reached l (instanceSum movedRouting) w.sync 0 := by
    obtain rfl := some.inj hon.layout
    decide +kernel
  have hidle : Idle l.shared := hon.idle fun s hs => by
    obtain rfl : s = 0 := by omega
    exact hnone
  refine ⟨l, hon.layout, hidle, ?_⟩
  refine (republishes_iff instanceSum (blank_blankWriter 1) 1 sampleReverse sampleRouting movedRouting
    hkeep rfl hon.layout hidle).mpr fun s hs _ origin target horigin htarget => ?_
  obtain rfl : s = 0 := by omega
  exact ⟨0, origin, hreached, horigin, htarget, rfl⟩

/-- **A published slot is left behind.**  The second call has taken it out of the bitmap; the call
that sees the new routes forgets its counter, finds no candidate and sends nothing. -/
theorem published_slot_left_behind :
    let w := (SyncWorld.machine instanceSum).run sampleStart (publishedRun 2)
    ∃ l, w.layout = some l ∧ Idle l.shared ∧ l.shared.slotCount = 1 ∧
      w.sync.forgets (instanceSum movedRouting) = true ∧
      (SyncWorld.machine instanceSum).trace w [.reroute movedRouting, .flush [] true] = [] ∧
      ¬ Republishes instanceSum w l movedRouting := by
  intro w
  have hkeep : ∀ x ∈ publishedRun 2, KeepsLayout x := by decide
  obtain ⟨_, hstart⟩ := onLayout_start (blank_blankWriter 1) 1 sampleReverse sampleRouting
  obtain ⟨l, hon⟩ := onLayout_run instanceSum hkeep hstart
  obtain ⟨hcount, hnone, hfinite, horigin, hforgets, htrace⟩ : l.shared.slotCount = 1 ∧
      l.shared.pending 0 = none ∧ (l.shared.slot 0).value.isFinite = true ∧
      l.reverseIndex.get 0 = some ⟨1, .telemetry, 3⟩ ∧
      w.sync.forgets (instanceSum movedRouting) = true ∧
      (SyncWorld.machine instanceSum).trace w [.reroute movedRouting, .flush [] true] = [] := by
    obtain rfl := some.inj hon.layout
    exact ⟨by decide +kernel, by decide +kernel, by decide +kernel, by decide +kernel,
      by decide +kernel, by rfl⟩
  have hidle : Idle l.shared := hon.idle fun s hs => by
    obtain rfl : s = 0 := by omega
    exact hnone
  refine ⟨l, hon.layout, hidle, hcount, hforgets, htrace, fun h => ?_⟩
  obtain ⟨p, hp, -⟩ := h 0 (by omega) hfinite _ ⟨5, 4⟩ horigin (by decide)
  rw [htrace] at hp
  cases hp

end VoltageEMS.Comsrv
