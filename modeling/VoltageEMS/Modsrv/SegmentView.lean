import VoltageEMS.Rules.Scheduler
import VoltageEMS.Shm.Dispatch
import VoltageEMS.Shm.PointWatch

/-!
# What modsrv sees of the published segment

modsrv's side of a segment swap (`services/modsrv/src/main.rs`): the shared reader and the
channel-to-slot index opened at startup, the inode watcher, the rebuild task, `reload_rules` with the
subscription bitmap, and `fetch_point_snapshot`; next to it comsrv swaps segments and both services
write slots.
-/

namespace VoltageEMS.Modsrv

open Lib Shm Rules

/-! ## Routes and reads -/

/-- The tables a read by instance point consults.  They are replaced one by one, so nothing ties
them together. -/
structure InstanceRoutes where
  cache : RoutingCache
  c2mReverse : (instanceId pointId : Nat) → Option ChannelPoint
  m2c : (instanceId : Nat) → PointType → (pointId : Nat) → Option ChannelPoint

/-- `UnifiedReader::get_instance`, over what `get_channel` returns; the value alone. -/
def getInstance (routes : InstanceRoutes) (getChannel : ChannelPoint → Option (Float × Nat))
    (instanceId instanceType pointId : Nat) : Option Float :=
  let target :=
    if instanceType = 0 then routes.c2mReverse instanceId pointId
    else (routes.m2c instanceId .control pointId).or (routes.m2c instanceId .adjustment pointId)
  (target.bind getChannel).map Prod.fst

/-- The telemetry and signal points whose C2M route leads to a point that an enabled OnChange rule
watches. -/
def watchedPoints (cache : RoutingCache) (rules : List ScheduledRule) : List ChannelPoint :=
  (rules.filter fun s => s.rule.enabled).flatMap fun s =>
    s.trigger.pointRefs.flatMap fun p =>
      (cache.c2m.filter fun route =>
        route.2 == ⟨p.inst, p.point⟩ && route.1.pointType.isMeasurement).map Prod.fst

/-- `rebuild_from_rules`, the bitmap: cleared, then one bit for every watched point with a slot. -/
def rebuildBitmap (index : ChannelToSlotIndex) (cache : RoutingCache) (rules : List ScheduledRule)
    (watch : WatchState) : WatchState :=
  ((watchedPoints cache rules).filterMap index.lookup).foldl WatchState.setWatched watch.clearAll

/-! ## The services -/

/-- `shared_reader`: the file it mapped and the layout table it was opened with. -/
structure SharedReader where
  inode : Nat
  layouts : List ChannelLayout
deriving DecidableEq

/-- The files, and what modsrv holds of them. -/
structure View where
  files : List UnifiedWriter
  canonical : Nat
  lastInode : Option Nat
  rebuildTrigger : Bool
  reader : SharedReader
  writer : Option ActionWriter
  /-- `pw_channel_slot_index` -/
  slotIndex : ChannelToSlotIndex
  watch : WatchState
  routes : InstanceRoutes
  sched : State

/-- What happens to them. -/
inductive ViewInput
  /-- comsrv creates a file and renames it over the canonical path -/
  | swap (seed : Nat) (cp : ChannelPointCounts)
  | write (inode slot : Nat) (value raw : Float) (timestampMs : Nat)
  /-- the inode watcher wakes up; `stat` may fail -/
  | poll (statOk : Bool)
  /-- an attempt of the rebuild task -/
  | rebuildWriter (cp : ChannelPointCounts)
  | updateRoutes (routes : InstanceRoutes)
  /-- `reload_rules`, with what the repository returned -/
  | reload (loaded : Except String (List Rule))
  | tick (env : StepEnv)

namespace View

/-- Startup of modsrv on the segment comsrv created: reader and writer are opened, and the index is
built once. -/
def startup (env : ShmEnv) (file : UnifiedWriter) (cp : ChannelPointCounts)
    (routes : InstanceRoutes) (watch : WatchState) : Except ShmError View := do
  let reader ← openExisting env file.segment cp
  let writer ← openExisting env file.segment cp
  return {
    files := [file]
    canonical := 0
    lastInode := some 0
    rebuildTrigger := false
    reader := ⟨0, reader.layouts⟩
    writer := some ⟨0, writer.layouts⟩
    slotIndex := .fromUnifiedWriter writer
    watch
    routes
    sched := { rules := [] } }

variable (w : View)

/-- `get_channel` of the shared reader. -/
def readChannel (p : ChannelPoint) : Option (Float × Nat) :=
  (w.files[w.reader.inode]?).bind fun f =>
    UnifiedWriter.getChannel { f with layouts := w.reader.layouts } p

/-- What a tick samples. -/
def snapshot : Snapshot :=
  fetchPointSnapshot (.shm (getInstance w.routes w.readChannel)) (subscriptions w.sched.rules)

/-- `get_channel` on the published file. -/
def publishedChannel (p : ChannelPoint) : Option (Float × Nat) :=
  (w.files[w.canonical]?).bind fun f => f.getChannel p

/-- The published value of a point. -/
def publishedValue (p : PointRef) : Option Float :=
  (SnapshotSource.shm (getInstance w.routes w.publishedChannel)).read p

/-- The slots of the published file. -/
def publishedIndex : ChannelToSlotIndex :=
  match w.files[w.canonical]? with
  | some f => .fromUnifiedWriter f
  | none => ⟨[]⟩

/-- The watcher wakes up. -/
def poll (statOk : Bool) : View :=
  if statOk then
    match w.lastInode with
    | some old =>
      if old ≠ w.canonical then { w with lastInode := some w.canonical, rebuildTrigger := true }
      else w
    | none => { w with lastInode := some w.canonical }
  else w

/-- The rebuild task. -/
def rebuildWriter (env : ShmEnv) (w : View) (cp : ChannelPointCounts) : View :=
  match (w.files[w.canonical]?).map fun f => openExisting env f.segment cp with
  | some (.ok u) => { w with rebuildTrigger := false, writer := some ⟨w.canonical, u.layouts⟩ }
  | some (.error _) | none => { w with rebuildTrigger := false }

/-- `reload_rules`. -/
def reloadRules (rules : List Rule) : View :=
  let scheduled := loadRules rules
  { w with
    sched := { w.sched with rules := scheduled }
    watch := rebuildBitmap w.slotIndex w.routes.cache scheduled w.watch }

/-- One step. -/
def step (env : ShmEnv) (w : View) : ViewInput → View × List Event
  | .swap seed cp =>
    match create { env with seed } cp with
    | .error _ => (w, [])
    | .ok f => ({ w with files := w.files ++ [f], canonical := w.files.length }, [])
  | .write inode slot value raw ts =>
    ({ w with files := w.files.modify inode fun f => f.setDirect slot value raw ts }, [])
  | .poll statOk => (w.poll statOk, [])
  | .rebuildWriter cp => (w.rebuildWriter env cp, [])
  | .updateRoutes routes => ({ w with routes }, [])
  | .reload (.error _) => (w, [])
  | .reload (.ok rules) => (w.reloadRules rules, [])
  | .tick tickEnv =>
    let r := Rules.tick tickEnv (.shm (getInstance w.routes w.readChannel)) w.sched
    ({ w with sched := r.1 }, r.2)

/-- modsrv and comsrv. -/
def machine (env : ShmEnv) : Machine View ViewInput Event := ⟨step env⟩

/-! ## The property and the condition -/

/-- The watcher has seen the latest swap. -/
def Polled : Prop := w.lastInode = some w.canonical

/-- A tick takes the values of the published segment, and after a reload the bits are those of its
layout, once the watcher has seen the latest swap. -/
def Faithful : ViewInput → Prop
  | .tick _ => w.Polled → ∀ p v, w.snapshot p.cacheKey = some (some v) → w.publishedValue p = some v
  | .reload (.ok rules) => w.Polled → ∀ slot,
      (w.reloadRules rules).watch.isWatched slot = true ↔
        ∃ p ∈ watchedPoints w.routes.cache (loadRules rules), w.publishedIndex.lookup p = some slot
  | .reload (.error _) | .swap .. | .write .. | .poll _ | .rebuildWriter _ | .updateRoutes _ => True

/-- For a tick, no swap since the reader was opened.  For a reload, the layout of then, and no
watched slot beyond the bitmap. -/
def Current : ViewInput → Prop
  | .tick _ => w.canonical = w.reader.inode
  | .reload (.ok rules) => (∀ f ∈ w.files[w.canonical]?, f.layouts = w.reader.layouts) ∧
      ∀ p ∈ watchedPoints w.routes.cache (loadRules rules), ∀ slot ∈ w.slotIndex.lookup p,
        slot / 64 < watchWordsCount
  | .reload (.error _) | .swap .. | .write .. | .poll _ | .rebuildWriter _ | .updateRoutes _ => True

instance (w : View) : ∀ x, Decidable (w.Current x)
  | .tick _ => inferInstanceAs (Decidable (w.canonical = w.reader.inode))
  | .reload (.ok _) => inferInstanceAs (Decidable (_ ∧ _))
  | .reload (.error _) | .swap .. | .write .. | .poll _ | .rebuildWriter _ | .updateRoutes _ =>
    .isTrue trivial

/-! ## Files -/

/-- What modsrv holds since startup: the reader's file and table, the index of that table, and the
bitmap. -/
structure Holds (w : View) : Prop where
  mapped : ∃ f, w.files[w.reader.inode]? = some f ∧ f.layouts = w.reader.layouts
  published : ∃ f, w.files[w.canonical]? = some f
  index : ∀ f : UnifiedWriter, f.layouts = w.reader.layouts → .fromUnifiedWriter f = w.slotIndex
  words : w.watch.subs.length = watchWordsCount

variable {w : View}

theorem Holds.of_same {w' : View} (h : Holds w) (hfiles : w'.files = w.files)
    (hcanonical : w'.canonical = w.canonical) (hreader : w'.reader = w.reader)
    (hindex : w'.slotIndex = w.slotIndex) (hwatch : w'.watch.subs.length = w.watch.subs.length) :
    Holds w' where
  mapped := by
    rw [hfiles, hreader]
    exact h.mapped
  published := by
    rw [hfiles, hcanonical]
    exact h.published
  index := by
    rw [hreader, hindex]
    exact h.index
  words := hwatch.trans h.words

theorem Holds.swap (h : Holds w) (f : UnifiedWriter) :
    Holds { w with files := w.files ++ [f], canonical := w.files.length } where
  mapped := by
    obtain ⟨g, hg, hlayouts⟩ := h.mapped
    refine ⟨g, ?_, hlayouts⟩
    exact (List.getElem?_append_left (List.getElem?_eq_some_iff.mp hg).1).trans hg
  published := ⟨f, List.getElem?_concat_length⟩
  index := h.index
  words := h.words

theorem Holds.write (h : Holds w) (inode slot : Nat) (value raw : Float) (ts : Nat) :
    Holds { w with files := w.files.modify inode fun f => f.setDirect slot value raw ts } where
  mapped := by
    obtain ⟨g, hg, hlayouts⟩ := h.mapped
    by_cases hi : inode = w.reader.inode
    · exact ⟨g.setDirect slot value raw ts, by simp [hi, hg], hlayouts⟩
    · exact ⟨g, by simp [hi, hg], hlayouts⟩
  published := by
    obtain ⟨g, hg⟩ := h.published
    by_cases hi : inode = w.canonical
    · exact ⟨g.setDirect slot value raw ts, by simp [hi, hg]⟩
    · exact ⟨g, by simp [hi, hg]⟩
  index := h.index
  words := h.words

/-- **One step keeps what modsrv holds**: the reader and the index are never opened again. -/
theorem Holds.step {env : ShmEnv} (h : Holds w) (x : ViewInput) : Holds (w.step env x).1 := by
  cases x with
  | swap seed cp =>
    simp only [View.step]
    split
    · exact h
    · exact h.swap _
  | write inode slot value raw ts => exact h.write inode slot value raw ts
  | poll statOk =>
    simp only [View.step, View.poll]
    split_ifs
    · split
      · split_ifs
        · exact h.of_same rfl rfl rfl rfl rfl
        · exact h
      · exact h.of_same rfl rfl rfl rfl rfl
    · exact h
  | rebuildWriter cp =>
    simp only [View.step, View.rebuildWriter]
    split <;> exact h.of_same rfl rfl rfl rfl rfl
  | updateRoutes | tick => exact h.of_same rfl rfl rfl rfl rfl
  | reload loaded =>
    cases loaded with
    | error message => exact h
    | ok rules =>
      refine h.of_same rfl rfl rfl rfl ?_
      simp [View.step, reloadRules, rebuildBitmap, WatchState.length_foldl_setWatched,
        WatchState.clearAll]

variable {watch : WatchState}

theorem holds_startup {env : ShmEnv} {cp : ChannelPointCounts} {file : UnifiedWriter}
    {routes : InstanceRoutes} (hcreate : create env cp = .ok file)
    (hstart : startup env file cp routes watch = .ok w)
    (hwatch : watch.subs.length = watchWordsCount) : Holds w := by
  unfold startup at hstart
  rw [openExisting_create hcreate] at hstart
  cases hstart
  exact ⟨⟨file, rfl, rfl⟩, ⟨file, rfl⟩,
    fun f hf => by rw [ChannelToSlotIndex.fromUnifiedWriter, ChannelToSlotIndex.fromUnifiedWriter, hf],
    hwatch⟩

/-! ## Ticks and reloads -/

theorem Holds.readChannel_eq (h : Holds w) (hcurrent : w.canonical = w.reader.inode) :
    w.readChannel = w.publishedChannel := by
  obtain ⟨f, hf, hlayouts⟩ := h.mapped
  funext p
  have hsame : ({ f with layouts := w.reader.layouts } : UnifiedWriter) = f := by
    rw [← hlayouts]
  simp only [readChannel, publishedChannel, hcurrent, hf, Option.bind_some, hsame]

theorem Holds.tick_faithful (h : Holds w) {tickEnv : StepEnv} (hcurrent : w.Current (.tick tickEnv)) :
    w.Faithful (.tick tickEnv) := by
  intro _ p v hv
  rw [publishedValue, ← h.readChannel_eq hcurrent]
  exact (fetchPointSnapshot_eq_some.mp hv).2

/-- **The bits after a rebuild** are the slots the index has for the watched points. -/
theorem isWatched_rebuildBitmap {index : ChannelToSlotIndex} {cache : RoutingCache}
    {rules : List ScheduledRule} (hwords : watch.subs.length = watchWordsCount)
    (hrange : ∀ p ∈ watchedPoints cache rules, ∀ slot ∈ index.lookup p, slot / 64 < watchWordsCount)
    (slot : Nat) : (rebuildBitmap index cache rules watch).isWatched slot = true ↔
      ∃ p ∈ watchedPoints cache rules, index.lookup p = some slot := by
  have hcleared : watch.clearAll.subs.length = watchWordsCount := by
    simpa [WatchState.clearAll] using hwords
  rw [rebuildBitmap, WatchState.isWatched_foldl_setWatched slot _ hcleared,
    WatchState.isWatched_clearAll, List.mem_filterMap]
  constructor
  · rintro (h | ⟨hslot, -⟩)
    · cases h
    · exact hslot
  rintro ⟨p, hp, hslot⟩
  exact .inr ⟨⟨p, hp, hslot⟩, hrange p hp slot hslot⟩

theorem Holds.reload_faithful (h : Holds w) {rules : List Rule}
    (hcurrent : w.Current (.reload (.ok rules))) : w.Faithful (.reload (.ok rules)) := by
  obtain ⟨hlayouts, hrange⟩ := hcurrent
  intro _ slot
  obtain ⟨f, hf⟩ := h.published
  have hindex : w.publishedIndex = w.slotIndex := by
    rw [publishedIndex, hf]
    exact h.index f (hlayouts f hf)
  rw [hindex]
  exact isWatched_rebuildBitmap h.words hrange slot

/-- **A run whose ticks and reloads all meet the condition is faithful.** -/
theorem faithful_of_current {env : ShmEnv} {cp : ChannelPointCounts} {file : UnifiedWriter}
    {routes : InstanceRoutes} {watch : WatchState} {w : View} {steps : List ViewInput}
    (hcreate : create env cp = .ok file) (hstart : startup env file cp routes watch = .ok w)
    (hwatch : watch.subs.length = watchWordsCount)
    (hcurrent : (machine env).Along Current w steps) : (machine env).Along Faithful w steps := by
  refine (machine env).along_of_invariant Holds (fun _ x h _ => h.step x) (fun w x h hx => ?_)
    (holds_startup hcreate hstart hwatch) hcurrent
  cases x with
  | tick tickEnv => exact h.tick_faithful hx
  | reload loaded =>
    cases loaded with
    | error message => trivial
    | ok rules => exact h.reload_faithful hx
  | swap | write | poll | rebuildWriter | updateRoutes => trivial

private def sampleRoutes : InstanceRoutes where
  cache := ⟨[(⟨1, .telemetry, 0⟩, ⟨5, 10⟩)], by decide⟩
  c2mReverse := fun i p => if i = 5 ∧ p = 10 then some ⟨1, .telemetry, 0⟩ else none
  m2c := fun _ _ _ => none

private def samplePoint : PointRef := ⟨5, .measurement, 10⟩

private def sampleRule : Rule := ⟨1, "watch", true, 0, some (.onChange [samplePoint] none none)⟩

private def oneChannel : ChannelPointCounts := ⟨[(1, ![1, 0, 0, 0])], by simp⟩

private def twoChannels : ChannelPointCounts := ⟨[(0, ![2, 0, 0, 0]), (1, ![1, 0, 0, 0])], by simp⟩

private def noBits : WatchState := ⟨List.replicate watchWordsCount 0, [], true, 0⟩

private def quietStep : StepEnv := ⟨0, 0, fun _ => .error "", .inOrder⟩

theorem faithful_of_current_no_swap :
    ∃ file w, create telemetryEnv oneChannel = .ok file ∧
      startup telemetryEnv file oneChannel sampleRoutes noBits = .ok w ∧
      (machine telemetryEnv).Along Faithful w
        [.write 0 0 1.0 1.0 5, .reload (.ok [sampleRule]), .poll true, .tick quietStep] :=
  ⟨_, _, rfl, rfl, @faithful_of_current telemetryEnv oneChannel _ sampleRoutes noBits _ _ rfl rfl
    List.length_replicate (by decide)⟩

/-- comsrv swaps in a segment with one more channel, writes the point there and the watcher sees the
swap: the next tick still takes the old value, and a reload sets the bit of the old slot. -/
theorem stale_after_swap :
    ∃ file w, create telemetryEnv oneChannel = .ok file ∧
      startup telemetryEnv file oneChannel sampleRoutes noBits = .ok w ∧
      ∃ w', (machine telemetryEnv).run w [.reload (.ok [sampleRule]), .write 0 0 1.0 1.0 5,
          .swap 7 twoChannels, .write 1 2 2.0 2.0 6, .poll true, .rebuildWriter twoChannels] = w' ∧
        w'.Polled ∧ ¬ w'.Faithful (.tick quietStep) ∧
        ¬ w'.Faithful (.reload (.ok [sampleRule])) := by
  refine ⟨_, _, rfl, rfl, _, rfl, rfl, fun h => ?_, fun h => ?_⟩
  · have hstale := h rfl samplePoint 1.0 (by decide)
    revert hstale
    decide
  have hbit := (h rfl 0).mp (by decide)
  revert hbit
  decide

end View

end VoltageEMS.Modsrv
