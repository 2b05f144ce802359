import VoltageEMS.Lib.Run
import VoltageEMS.Shm.Handle
import VoltageEMS.Shm.Notifier

/-!
# Action dispatch through the segment

`ShmDispatch` and what happens around it: comsrv replaces the file at the canonical path, modsrv's
inode watcher and rebuild task open the file again, and any number of dispatch calls are under way.
-/

namespace VoltageEMS.Shm

open Lib List

/-! ## Calls -/

/-- The target of a route, as `dispatch` reads it; `targetPointType` is a byte. -/
structure RouteContext where
  targetChannelId : Nat
  targetPointType : Nat
  targetPointId : Nat
  timestampMs : Nat
deriving DecidableEq

/-- `DispatchOutcome`. -/
inductive DispatchOutcome
  | delivered
  | shmOnly (reason : String)
  | noWriter
  | mirrorMiss (reason : String)
  | noop
deriving DecidableEq

/-- The slot `set_action` writes: control and adjustment only. -/
def actionSlot (layouts : List ChannelLayout) (ctx : RouteContext) : Option Nat :=
  if ctx.targetPointType ≠ 2 ∧ ctx.targetPointType ≠ 3 then none
  else layouts[ctx.targetChannelId]?.bind fun l => l.slot ctx.targetPointType ctx.targetPointId

/-- `ActionWriter`: a mapping of the file with that inode, and the layout table of the opener. -/
structure ActionWriter where
  inode : Nat
  layouts : List ChannelLayout
deriving DecidableEq

/-- Where a dispatch call stands. -/
inductive Phase
  | started
  | loaded (aw : ActionWriter)
  /-- passed the generation check, with the expected generation it read -/
  | checked (aw : ActionWriter) (expected : Nat)
  | written (aw : ActionWriter) (expected : Nat)
  | awaitingNotifier
  | notifying
  | done (outcome : DispatchOutcome)
  | panicked
deriving DecidableEq

/-- A `dispatch` call under way. -/
structure Call where
  ctx : RouteContext
  value : Float
  phase : Phase
deriving DecidableEq

/-- What a step of a call gets from its environment. -/
structure CallIo where
  lockTimeout : Bool
  notify : NotifyIo

/-! ## The two services -/

/-- The files by inode, each with its table; the inode at the canonical path; the baseline of the
inode watcher; `ShmDispatch`; the calls, oldest first. -/
structure World where
  files : List UnifiedWriter
  canonical : Option Nat
  lastInode : Option Nat
  writer : Option ActionWriter
  /-- `set_writer` between its two stores -/
  opening : Option ActionWriter
  expectedGeneration : Nat
  rebuildTrigger : Bool
  notifier : Option ShmNotifier
  lockedBy : Option Nat
  calls : List Call

/-- What a run logs. -/
inductive ShmEvent
  | swapped (inode : Nat)
  | opened (inode : Nat)
  | stored (call inode slot : Nat) (value : Float)
  | sent (call : Nat) (notification : ShmNotification)
deriving DecidableEq

/-- What can happen next. -/
inductive ShmInput
  /-- comsrv creates a file and renames it over the canonical path -/
  | swap (seed : Nat) (cp : ChannelPointCounts)
  | watchInode
  /-- an attempt of the startup or of the rebuild task to open the file at the path -/
  | openWriter (cp : ChannelPointCounts)
  /-- the second store of `set_writer` -/
  | publish
  | call (ctx : RouteContext) (value : Float)
  | advance (call : Nat) (io : CallIo)

namespace World

variable (env : ShmEnv) (w : World) (c : Call)

/-- `writer.generation()`. -/
def generation (aw : ActionWriter) : Nat :=
  match w.files[aw.inode]? with
  | some f => f.segment.header.writerGeneration
  | none => 0

/-- The slots of the mapped file. -/
def slotCount (aw : ActionWriter) : Nat :=
  match w.files[aw.inode]? with
  | some f => f.slotCount
  | none => 0

/-- What a step of a call does. -/
structure Effect where
  phase : Phase
  notifier : Option ShmNotifier
  lockedBy : Option Nat
  /-- `writer.store(None)` and `rebuild_trigger.notify_one()` -/
  clearWriter : Bool := false
  /-- inode and slot the value of the call is stored in -/
  store : Option (Nat × Nat) := none
  sent : Option ShmNotification := none

/-- Only the phase changes. -/
def goTo (phase : Phase) : Effect :=
  { phase, notifier := w.notifier, lockedBy := w.lockedBy }

/-- The outcome by the result of `notify`. -/
def outcomeOf : NotifyResult → DispatchOutcome
  | .sent => .delivered
  | .degraded => .shmOnly "UDS degraded"
  | .off => .shmOnly "UDS disabled"

/-- The next step of call `i` of `ShmDispatch::dispatch`. -/
def effect (i : Nat) (c : Call) (io : CallIo) : Effect :=
  match c.phase with
  | .started =>
    match w.writer with
    | none => w.goTo (.done .noWriter)
    | some aw => w.goTo (.loaded aw)
  | .loaded aw =>
    if w.expectedGeneration ≠ 0 ∧ w.generation aw ≠ w.expectedGeneration then
      { w.goTo (.done .noWriter) with clearWriter := true }
    else w.goTo (.checked aw w.expectedGeneration)
  | .checked aw expected =>
    match actionSlot aw.layouts c.ctx with
    | none => w.goTo (.done (.mirrorMiss "SHM action slot missing"))
    | some slot =>
      -- `set_direct` asserts the bound
      if w.slotCount aw ≤ slot then w.goTo .panicked
      else { w.goTo (.written aw expected) with store := some (aw.inode, slot) }
  | .written aw expected =>
    if expected ≠ 0 ∧ w.generation aw ≠ expected then
      { w.goTo (.done (.mirrorMiss "generation changed mid-dispatch")) with clearWriter := true }
    else
      match w.notifier with
      | none => w.goTo (.done (.shmOnly "notifier not configured"))
      | some _ => w.goTo .awaitingNotifier
  | .awaitingNotifier =>
    if io.lockTimeout then w.goTo (.done (.shmOnly "notifier lock timeout"))
    else if w.lockedBy.isNone then { w.goTo .notifying with lockedBy := some i }
    else w.goTo .awaitingNotifier
  | .notifying =>
    match w.notifier, PointType.fromU8 c.ctx.targetPointType with
    | none, _ => w.goTo .notifying
    | some _, none => { w.goTo (.done (.shmOnly "invalid point_type")) with lockedBy := none }
    | some n, some pt =>
      let r := n.notify io.notify c.ctx.targetChannelId pt c.ctx.targetPointId c.value
        c.ctx.timestampMs
      { phase := .done (outcomeOf r.2.1)
        notifier := some r.1
        lockedBy := none
        sent := r.2.2 }
  | .done outcome => w.goTo (.done outcome)
  | .panicked => w.goTo .panicked

/-- `set_direct` on the mapping of another process, whose dirty bits stay as they are. -/
def storeIn (f : UnifiedWriter) (slot : Nat) (value : Float) (timestampMs : Nat) : UnifiedWriter :=
  { f with segment := (f.setDirect slot value value timestampMs).segment }

/-- The files after a store. -/
def filesAfter : Option (Nat × Nat) → List UnifiedWriter
  | none => w.files
  | some (inode, slot) => w.files.modify inode fun f => storeIn f slot c.value c.ctx.timestampMs

/-- A step of call `i`, with its events. -/
def perform (i : Nat) (c : Call) (e : Effect) : World × List ShmEvent :=
  ({ w with
      files := w.filesAfter c e.store
      writer := if e.clearWriter then none else w.writer
      rebuildTrigger := e.clearWriter || w.rebuildTrigger
      notifier := e.notifier
      lockedBy := e.lockedBy
      calls := w.calls.set i { c with phase := e.phase } },
    e.store.toList.map (fun s => .stored i s.1 s.2 c.value) ++ e.sent.toList.map (.sent i))

/-- A tick of the inode watcher. -/
def watchInode : World :=
  match w.lastInode, w.canonical with
  | some old, some new =>
    if old ≠ new then { w with lastInode := some new, rebuildTrigger := true } else w
  | none, some new => { w with lastInode := some new }
  | _, none => w

/-- The file at the path is opened; the first store of `set_writer`. -/
def openWriter (cp : ChannelPointCounts) : World × List ShmEvent :=
  match w.canonical with
  | none => ({ w with rebuildTrigger := false }, [])
  | some inode =>
    match w.files[inode]? with
    | none => ({ w with rebuildTrigger := false }, [])
    | some f =>
      match openExisting env f.segment cp with
      | .error _ => ({ w with rebuildTrigger := false }, [])
      | .ok u =>
        ({ w with
            rebuildTrigger := false
            opening := some ⟨inode, u.layouts⟩
            expectedGeneration := f.segment.header.writerGeneration }, [.opened inode])

/-- One step of a run. -/
def step : ShmInput → World × List ShmEvent
  | .swap seed cp =>
    match create { env with seed } cp with
    | .error _ => (w, [])
    | .ok f =>
      ({ w with files := w.files ++ [f], canonical := some w.files.length },
        [.swapped w.files.length])
  | .watchInode => (w.watchInode, [])
  | .openWriter cp => w.openWriter env cp
  | .publish =>
    match w.opening with
    | none => (w, [])
    | some aw => ({ w with writer := some aw, opening := none }, [])
  | .call ctx value => ({ w with calls := w.calls ++ [⟨ctx, value, .started⟩] }, [])
  | .advance i io =>
    match w.calls[i]? with
    | none => (w, [])
    | some c => w.perform i c (w.effect i c io)

/-- Runs of the two services. -/
def machine : Machine World ShmInput ShmEvent := ⟨step env⟩

/-- Before anything is open. -/
def init (notifier : Option ShmNotifier) : World where
  files := []
  canonical := none
  lastInode := none
  writer := none
  opening := none
  expectedGeneration := 0
  rebuildTrigger := false
  notifier := notifier
  lockedBy := none
  calls := []

end World

/-! ## The log -/

/-- The files put at the path, in order. -/
def swaps (log : List ShmEvent) : List Nat :=
  log.filterMap fun
    | .swapped inode => some inode
    | _ => none

/-- The file at the path, by the log. -/
def canonicalAt (log : List ShmEvent) : Option Nat := (swaps log).getLast?

@[simp] theorem swaps_append (log more : List ShmEvent) :
    swaps (log ++ more) = swaps log ++ swaps more := filterMap_append

/-- The mapping was made of the file that was canonical then, and has its layout table. -/
def OpenedFrom (w : World) (log : List ShmEvent) (aw : ActionWriter) : Prop :=
  ∃ before after f, log = before ++ .opened aw.inode :: after ∧
    canonicalAt before = some aw.inode ∧ w.files[aw.inode]? = some f ∧ f.layouts = aw.layouts

/-- Call `i` stored its value in the slot of its target, in the file that was canonical when its
mapping was made. -/
def StoredFor (w : World) (log : List ShmEvent) (i : Nat) (c : Call) : Prop :=
  ∃ before between after inode slot f,
    log = before ++ .opened inode :: (between ++ .stored i inode slot c.value :: after) ∧
      canonicalAt before = some inode ∧ w.files[inode]? = some f ∧
      actionSlot f.layouts c.ctx = some slot

/-- What the log says of a call in its phase. -/
def CallTraced (w : World) (log : List ShmEvent) (i : Nat) (c : Call) : Prop :=
  match c.phase with
  | .loaded aw | .checked aw _ => OpenedFrom w log aw
  | .written .. | .awaitingNotifier | .notifying | .done .delivered => StoredFor w log i c
  | _ => True

/-- The file was laid out from a known configuration. -/
def FileFrom (env : ShmEnv) (Known : ChannelPointCounts → Prop) (f : UnifiedWriter) : Prop :=
  ∃ cp n, Known cp ∧ allocateLayouts cp = some (f.layouts, n) ∧
    f.segment.header.routingHash = env.layoutHash cp

/-- The world agrees with its log. -/
structure Traced (env : ShmEnv) (Known : ChannelPointCounts → Prop) (w : World)
    (log : List ShmEvent) : Prop where
  swapped : swaps log = List.range w.files.length
  canonical : canonicalAt log = w.canonical
  files : ∀ f ∈ w.files, FileFrom env Known f
  writer : ∀ aw, w.writer = some aw → OpenedFrom w log aw
  opening : ∀ aw, w.opening = some aw → OpenedFrom w log aw
  calls : ∀ i c, w.calls[i]? = some c → CallTraced w log i c

/-- The files keep their layout tables. -/
def Keeps (w w' : World) : Prop :=
  ∀ (i : Nat) (f : UnifiedWriter), w.files[i]? = some f →
    ∃ f' : UnifiedWriter, w'.files[i]? = some f' ∧ f'.layouts = f.layouts

variable {w : World} {w' : World}

theorem Keeps.of_files (h : w'.files = w.files) : Keeps w w' :=
  fun _ f hf => ⟨f, by rw [h]; exact hf, rfl⟩

variable {log : List ShmEvent}

theorem OpenedFrom.mono {aw : ActionWriter} (h : OpenedFrom w log aw) (hkeeps : Keeps w w')
    (more : List ShmEvent) : OpenedFrom w' (log ++ more) aw := by
  obtain ⟨before, after, f, rfl, hcanon, hf, hlay⟩ := h
  obtain ⟨f', hf', hlay'⟩ := hkeeps _ f hf
  exact ⟨before, after ++ more, f', by simp, hcanon, hf', hlay'.trans hlay⟩

variable {c : Call} {i : Nat}

theorem StoredFor.mono (h : StoredFor w log i c) (hkeeps : Keeps w w') (more : List ShmEvent) :
    StoredFor w' (log ++ more) i c := by
  obtain ⟨before, between, after, inode, slot, f, rfl, hcanon, hf, hslot⟩ := h
  obtain ⟨f', hf', hlay'⟩ := hkeeps _ f hf
  exact ⟨before, between, after ++ more, inode, slot, f', by simp, hcanon, hf',
    by rw [hlay']; exact hslot⟩

theorem CallTraced.mono (h : CallTraced w log i c) (hkeeps : Keeps w w') (more : List ShmEvent) :
    CallTraced w' (log ++ more) i c := by
  unfold CallTraced at h ⊢
  split at h
  · exact OpenedFrom.mono h hkeeps more
  · exact OpenedFrom.mono h hkeeps more
  · exact StoredFor.mono h hkeeps more
  · exact StoredFor.mono h hkeeps more
  · exact StoredFor.mono h hkeeps more
  · exact StoredFor.mono h hkeeps more
  · trivial

/-! ## One step -/

theorem keeps_perform (w : World) (i : Nat) (c : Call) (e : World.Effect) :
    Keeps w (w.perform i c e).1 := by
  intro j f hf
  show ∃ f', (w.filesAfter c e.store)[j]? = some f' ∧ f'.layouts = f.layouts
  unfold World.filesAfter
  split
  · exact ⟨f, hf, rfl⟩
  rw [List.getElem?_modify, hf]
  refine ⟨_, rfl, ?_⟩
  split <;> rfl

variable {Known : ChannelPointCounts → Prop} {env : ShmEnv}

theorem fileFrom_perform (h : ∀ f ∈ w.files, FileFrom env Known f) (store : Option (Nat × Nat)) :
    ∀ f ∈ w.filesAfter c store, FileFrom env Known f := by
  intro f hf
  unfold World.filesAfter at hf
  split at hf
  · exact h f hf
  obtain ⟨j, hj⟩ := List.getElem?_of_mem hf
  rw [List.getElem?_modify] at hj
  obtain ⟨f₀, hf₀, rfl⟩ := Option.map_eq_some_iff.mp hj
  have hfrom := h f₀ (mem_of_getElem? hf₀)
  split <;> exact hfrom

/-- What a step of a call may rely on: its mapping is the dispatcher's, and a store goes to the slot
of the target. -/
def EffectTraced (w : World) (log : List ShmEvent) (i : Nat) (c : Call) (e : World.Effect) : Prop :=
  match e.phase with
  | .loaded aw | .checked aw _ => OpenedFrom w log aw
  | .written aw _ => OpenedFrom w log aw ∧
      ∃ slot, actionSlot aw.layouts c.ctx = some slot ∧ e.store = some (aw.inode, slot) ∧
        e.sent = none
  | .awaitingNotifier | .notifying | .done .delivered => StoredFor w log i c
  | _ => True

theorem effectTraced (hwriter : ∀ aw, w.writer = some aw → OpenedFrom w log aw)
    (hc : CallTraced w log i c) (io : CallIo) : EffectTraced w log i c (w.effect i c io) := by
  obtain ⟨ctx, value, phase⟩ := c
  unfold World.effect
  cases phase with
  | started =>
    cases haw : w.writer with
    | none => trivial
    | some aw => exact hwriter aw haw
  | loaded aw =>
    dsimp only
    split
    · trivial
    · exact hc
  | checked aw expected =>
    dsimp only
    split
    · trivial
    rename_i slot hslot
    split
    · trivial
    · exact ⟨hc, slot, hslot, rfl, rfl⟩
  | written aw expected =>
    dsimp only
    split
    · trivial
    cases w.notifier with
    | none => trivial
    | some n => exact hc
  | awaitingNotifier =>
    dsimp only
    split
    · trivial
    split <;> exact hc
  | notifying =>
    dsimp only
    split
    · exact hc
    · trivial
    rename_i n pt _ _
    cases (n.notify io.notify ctx.targetChannelId pt ctx.targetPointId value
      ctx.timestampMs).2.1 with
    | sent => exact hc
    | degraded | off => trivial
  | done outcome =>
    cases outcome with
    | delivered => exact hc
    | shmOnly | noWriter | mirrorMiss | noop => trivial
  | panicked => trivial

theorem callTraced_perform {e : World.Effect} (h : EffectTraced w log i c e) :
    CallTraced (w.perform i c e).1 (log ++ (w.perform i c e).2) i { c with phase := e.phase } := by
  have hkeeps := keeps_perform w i c e
  have hopened : ∀ {aw}, OpenedFrom w log aw →
      OpenedFrom (w.perform i c e).1 (log ++ (w.perform i c e).2) aw := fun h => h.mono hkeeps _
  have hstored : StoredFor w log i c →
      StoredFor (w.perform i c e).1 (log ++ (w.perform i c e).2) i { c with phase := e.phase } :=
    fun h => StoredFor.mono (c := { c with phase := e.phase }) h hkeeps _
  unfold EffectTraced at h
  unfold CallTraced
  dsimp only
  split at h
  case h_1 => exact hopened h
  case h_2 => exact hopened h
  case h_3 aw expected _ =>
    -- the store is the event this step appends
    obtain ⟨hfrom, slot, hslot, hstore, hsent⟩ := h
    obtain ⟨before, after, f, rfl, hcanon, hf, hlay⟩ := hfrom
    obtain ⟨f', hf', hlay'⟩ := hkeeps _ f hf
    refine ⟨before, after, [], aw.inode, slot, f', ?_, hcanon, hf', ?_⟩
    · simp [World.perform, hstore, hsent]
    rw [hlay', hlay]
    exact hslot
  case h_4 => exact hstored h
  case h_5 => exact hstored h
  case h_6 => exact hstored h
  case h_7 => trivial

theorem Traced.perform (h : Traced env Known w log) (hi : w.calls[i]? = some c) (io : CallIo) :
    Traced env Known (w.perform i c (w.effect i c io)).1
      (log ++ (w.perform i c (w.effect i c io)).2) := by
  have hkeeps := keeps_perform w i c (w.effect i c io)
  have hnoswap : swaps (w.perform i c (w.effect i c io)).2 = [] := by
    simp only [World.perform, swaps, filterMap_append, filterMap_map]
    simp
  have hlen : (w.perform i c (w.effect i c io)).1.files.length = w.files.length := by
    simp only [World.perform, World.filesAfter]
    split <;> simp
  refine ⟨?_, ?_, fileFrom_perform h.files _, ?_, ?_, ?_⟩
  · rw [swaps_append, hnoswap, append_nil, hlen]
    exact h.swapped
  · rw [canonicalAt, swaps_append, hnoswap, append_nil]
    exact h.canonical
  · intro aw haw
    have haw' : w.writer = some aw := by
      simp only [World.perform] at haw
      split at haw
      · cases haw
      · exact haw
    exact (h.writer aw haw').mono hkeeps _
  · intro aw haw
    exact (h.opening aw haw).mono hkeeps _
  intro j d hj
  have hj' : (w.calls.set i { c with phase := (w.effect i c io).phase })[j]? = some d := hj
  rw [List.getElem?_set] at hj'
  split at hj'
  · rename_i hij
    subst hij
    split at hj'
    · cases hj'
      exact callTraced_perform (effectTraced h.writer (h.calls i c hi) io)
    · cases hj'
  · exact (h.calls j d hj').mono hkeeps _

theorem Traced.of_eq (h : Traced env Known w log) (hfiles : w'.files = w.files)
    (hcanonical : w'.canonical = w.canonical)
    (hwriter : ∀ aw, w'.writer = some aw → OpenedFrom w log aw)
    (hopening : ∀ aw, w'.opening = some aw → OpenedFrom w log aw)
    (hcalls : ∀ i c, w'.calls[i]? = some c → CallTraced w log i c) : Traced env Known w' log where
  swapped := by rw [hfiles]; exact h.swapped
  canonical := by rw [hcanonical]; exact h.canonical
  files := by rw [hfiles]; exact h.files
  writer aw haw := by simpa using (hwriter aw haw).mono (.of_files hfiles) []
  opening aw haw := by simpa using (hopening aw haw).mono (.of_files hfiles) []
  calls i c hc := by simpa using (hcalls i c hc).mono (.of_files hfiles) []

variable {cp : ChannelPointCounts}

theorem Traced.swap (h : Traced env Known w log) {seed : Nat} (hknown : Known cp)
    {f : UnifiedWriter} (hf : create { env with seed } cp = .ok f) :
    Traced env Known { w with files := w.files ++ [f], canonical := some w.files.length }
      (log ++ [.swapped w.files.length]) := by
  have hkeeps : Keeps w { w with files := w.files ++ [f], canonical := some w.files.length } := by
    intro i g hg
    exact ⟨g, by rw [List.getElem?_append_left (List.getElem?_eq_some_iff.mp hg).1]; exact hg, rfl⟩
  have hswaps : swaps (log ++ [.swapped w.files.length]) = List.range (w.files.length + 1) := by
    rw [swaps_append, h.swapped, range_succ]
    rfl
  refine ⟨?_, ?_, ?_, ?_, ?_, ?_⟩
  · rw [hswaps]
    simp
  · simp [canonicalAt, hswaps, range_succ]
  · intro g hg
    rcases mem_append.mp hg with hg | hg
    · exact h.files g hg
    cases mem_singleton.mp hg
    obtain ⟨n, halloc, -, -, -, -, -, hhash⟩ := create_ok hf
    exact ⟨cp, n, hknown, halloc, hhash⟩
  · intro aw haw
    exact (h.writer aw haw).mono hkeeps _
  · intro aw haw
    exact (h.opening aw haw).mono hkeeps _
  intro i c hc
  exact (h.calls i c hc).mono hkeeps _

/-- The configurations of the run. -/
def tables (inputs : List ShmInput) : List ChannelPointCounts :=
  inputs.filterMap fun
    | .swap _ cp | .openWriter cp => some cp
    | _ => none

/-- The layout hash tells the layouts of these configurations apart. -/
def HashSeparates (env : ShmEnv) (Known : ChannelPointCounts → Prop) : Prop :=
  ∀ cp cp', Known cp → Known cp' → env.layoutHash cp = env.layoutHash cp' →
    allocateLayouts cp = allocateLayouts cp'

/-- The input uses a known configuration. -/
def StepKnown (Known : ChannelPointCounts → Prop) (_ : World) : ShmInput → Prop
  | .swap _ cp | .openWriter cp => Known cp
  | _ => True

theorem Traced.openWriter (hhash : HashSeparates env Known) (h : Traced env Known w log)
    (hknown : Known cp) :
    Traced env Known (w.openWriter env cp).1 (log ++ (w.openWriter env cp).2) := by
  have hfailed : Traced env Known { w with rebuildTrigger := false } (log ++ []) := by
    rw [append_nil]
    exact h.of_eq rfl rfl h.writer h.opening h.calls
  unfold World.openWriter
  split
  · exact hfailed
  rename_i inode hcanon
  split
  · exact hfailed
  rename_i f hf
  split
  · exact hfailed
  rename_i u hu
  obtain ⟨-, hrouting, halloc⟩ := openExisting_ok hu
  obtain ⟨cpf, n, hcpf, hallocf, hroutingf⟩ := h.files f (mem_of_getElem? hf)
  have hlay : f.layouts = u.layouts := by
    have hsame := hhash cpf cp hcpf hknown (hroutingf.symm.trans hrouting)
    rw [hallocf, halloc] at hsame
    exact (Prod.mk.inj (Option.some.inj hsame)).1
  have hopened : OpenedFrom w (log ++ [.opened inode]) ⟨inode, u.layouts⟩ :=
    ⟨log, [], f, rfl, h.canonical.trans hcanon, hf, hlay⟩
  have hnoswap : swaps [.opened inode] = [] := rfl
  have hlog : Traced env Known w (log ++ [.opened inode]) := by
    refine ⟨?_, ?_, h.files, ?_, ?_, ?_⟩
    · rw [swaps_append, hnoswap, append_nil]
      exact h.swapped
    · rw [canonicalAt, swaps_append, hnoswap, append_nil]
      exact h.canonical
    · exact fun aw haw => (h.writer aw haw).mono (.of_files rfl) _
    · exact fun aw haw => (h.opening aw haw).mono (.of_files rfl) _
    · exact fun i c hc => (h.calls i c hc).mono (.of_files rfl) _
  refine hlog.of_eq rfl rfl hlog.writer ?_ hlog.calls
  rintro aw ⟨⟩
  exact hopened

theorem watchInode_eq (w : World) :
    ∃ lastInode rebuildTrigger, w.watchInode = { w with lastInode, rebuildTrigger } := by
  unfold World.watchInode
  split
  · split <;> exact ⟨_, _, rfl⟩
  · exact ⟨_, _, rfl⟩
  · exact ⟨_, _, rfl⟩

theorem traced_step (hhash : HashSeparates env Known) (input : ShmInput)
    (h : Traced env Known w log) (hknown : StepKnown Known w input) :
    Traced env Known (w.step env input).1 (log ++ (w.step env input).2) := by
  have hsame : Traced env Known w (log ++ []) := by
    rw [append_nil]
    exact h
  cases input with
  | swap seed cp =>
    unfold World.step
    dsimp only
    split
    · exact hsame
    rename_i f hf
    exact h.swap hknown hf
  | watchInode =>
    obtain ⟨lastInode, trigger, heq⟩ := watchInode_eq w
    show Traced env Known w.watchInode (log ++ [])
    rw [heq]
    exact hsame.of_eq rfl rfl hsame.writer hsame.opening hsame.calls
  | openWriter cp => exact h.openWriter hhash hknown
  | publish =>
    unfold World.step
    dsimp only
    split
    · exact hsame
    rename_i aw haw
    refine hsame.of_eq rfl rfl ?_ ?_ hsame.calls
    · rintro aw' ⟨⟩
      exact hsame.opening aw haw
    · rintro aw' ⟨⟩
  | call ctx value =>
    refine hsame.of_eq rfl rfl hsame.writer hsame.opening ?_
    intro i c hc
    have hc' : (w.calls ++ [⟨ctx, value, .started⟩])[i]? = some c := hc
    rw [List.getElem?_append] at hc'
    split at hc'
    · exact hsame.calls i c hc'
    cases mem_singleton.mp (mem_of_getElem? hc')
    trivial
  | advance i io =>
    unfold World.step
    dsimp only
    split
    · exact hsame
    rename_i c hc
    exact h.perform hc io

theorem traced_init (env : ShmEnv) (Known : ChannelPointCounts → Prop)
    (notifier : Option ShmNotifier) : Traced env Known (.init notifier) [] where
  swapped := rfl
  canonical := rfl
  files := by simp [World.init]
  writer := by simp [World.init]
  opening := by simp [World.init]
  calls := by simp [World.init]

theorem traced_run {inputs : List ShmInput} (hhash : HashSeparates env (· ∈ tables inputs))
    (notifier : Option ShmNotifier) :
    Traced env (· ∈ tables inputs) ((World.machine env).run (.init notifier) inputs)
      ((World.machine env).trace (.init notifier) inputs) := by
  have hknown : (World.machine env).Along (StepKnown (· ∈ tables inputs)) (.init notifier) inputs := by
    apply Machine.along_of_mem
    intro input hinput w
    cases input with
    | swap | openWriter => exact mem_filterMap.mpr ⟨_, hinput, rfl⟩
    | watchInode | publish | call | advance => trivial
  have hrun := (World.machine env).invariant (Traced env (· ∈ tables inputs))
    (fun w log input h hinput => traced_step hhash input h hinput)
    (traced_init env _ notifier) hknown
  simpa using hrun

/-! ## What the files hold -/

/-- The value last stored in a slot of a file, by the log. -/
def lastStored (inode slot : Nat) (log : List ShmEvent) : Option Float :=
  (log.filterMap fun
    | .stored _ inode' slot' value => if inode' = inode ∧ slot' = slot then some value else none
    | _ => none).getLast?

/-- The value in a slot of a file. -/
def World.valueAt (w : World) (inode slot : Nat) : Option Float :=
  w.files[inode]?.bind fun f => f.segment.slots[slot]?.map PointSlot.value

/-- Every slot holds the value that was last stored in it. -/
def SlotsHold (w : World) (log : List ShmEvent) : Prop :=
  ∀ inode slot v, lastStored inode slot log = some v → w.valueAt inode slot = some v

theorem lastStored_append (inode slot : Nat) (log more : List ShmEvent) :
    lastStored inode slot (log ++ more) =
      (lastStored inode slot more).or (lastStored inode slot log) := by
  rw [lastStored, filterMap_append, getLast?_append]
  rfl

theorem SlotsHold.of_keeps (h : SlotsHold w log) {more : List ShmEvent}
    (hfiles : ∀ (inode : Nat) (f : UnifiedWriter), w.files[inode]? = some f →
      w'.files[inode]? = some f)
    (hmore : ∀ inode slot, lastStored inode slot more = none) : SlotsHold w' (log ++ more) := by
  intro inode slot v hv
  rw [lastStored_append, hmore, Option.none_or] at hv
  have hvalue := h inode slot v hv
  obtain ⟨f, hf, hslot⟩ := Option.bind_eq_some_iff.mp hvalue
  rw [World.valueAt, hfiles inode f hf]
  exact hslot

theorem effect_store {io : CallIo} {inode slot : Nat}
    (h : (w.effect i c io).store = some (inode, slot)) :
    ∃ f, w.files[inode]? = some f ∧ slot < f.segment.slots.length := by
  unfold World.effect at h
  cases hphase : c.phase with
  | checked aw expected =>
    simp only [hphase] at h
    split at h
    · cases h
    split at h
    · cases h
    rename_i hbound
    cases h
    unfold World.slotCount at hbound
    split at hbound
    · rename_i f hf
      exact ⟨f, hf, not_le.mp hbound⟩
    · exact absurd (Nat.zero_le _) hbound
  | started | loaded | written | awaitingNotifier | notifying | done | panicked =>
    simp only [hphase] at h
    repeat' split at h
    all_goals cases h

theorem valueAt_storeIn (inode slot inode' slot' : Nat)
    (hstore : ∃ f, w.files[inode]? = some f ∧ slot < f.segment.slots.length) :
    ({ w with files := w.filesAfter c (some (inode, slot)) } : World).valueAt inode' slot' =
      if inode = inode' ∧ slot = slot' then some c.value else w.valueAt inode' slot' := by
  obtain ⟨f, hf, hlt⟩ := hstore
  simp only [World.valueAt, World.filesAfter, List.getElem?_modify]
  by_cases hinode : inode = inode'
  · subst hinode
    rw [hf]
    by_cases hslot : slot = slot'
    · subst hslot
      simp [World.storeIn, UnifiedWriter.setDirect, hlt, PointSlot.set_eq]
    · simp [World.storeIn, UnifiedWriter.setDirect, hslot]
  · simp [hinode]

theorem SlotsHold.perform (h : SlotsHold w log) (io : CallIo) :
    SlotsHold (w.perform i c (w.effect i c io)).1 (log ++ (w.perform i c (w.effect i c io)).2) := by
  have hsent : ∀ inode slot, lastStored inode slot ((w.effect i c io).sent.toList.map (.sent i)) =
      none := fun inode slot => by cases (w.effect i c io).sent <;> rfl
  cases hstore : (w.effect i c io).store with
  | none =>
    refine h.of_keeps (fun inode f hf => ?_) fun inode slot => ?_
    · simpa [World.perform, hstore, World.filesAfter] using hf
    · simpa [World.perform, hstore] using hsent inode slot
  | some place =>
    obtain ⟨inode, slot⟩ := place
    intro inode' slot' v hv
    have hvalue : (w.perform i c (w.effect i c io)).1.valueAt inode' slot' =
        ({ w with files := w.filesAfter c (some (inode, slot)) } : World).valueAt inode' slot' := by
      simp only [World.perform, World.valueAt, hstore]
    have hevents : lastStored inode' slot' (w.perform i c (w.effect i c io)).2 =
        if inode = inode' ∧ slot = slot' then some c.value else none := by
      simp only [World.perform, hstore, Option.toList_some, map_cons, map_nil, lastStored_append,
        hsent, Option.none_or]
      by_cases hplace : inode = inode' ∧ slot = slot' <;> simp [lastStored, hplace]
    rw [lastStored_append, hevents] at hv
    rw [hvalue, valueAt_storeIn _ _ _ _ (effect_store hstore)]
    split_ifs with hplace
    · simpa [hplace] using hv
    · rw [if_neg hplace, Option.none_or] at hv
      exact h inode' slot' v hv

theorem SlotsHold.step (h : SlotsHold w log) (input : ShmInput) :
    SlotsHold (w.step env input).1 (log ++ (w.step env input).2) := by
  have hsame : ∀ {w' : World} {more : List ShmEvent}, w'.files = w.files →
      (∀ inode slot, lastStored inode slot more = none) → SlotsHold w' (log ++ more) :=
    fun hfiles hmore => h.of_keeps (fun _ _ hf => hfiles ▸ hf) hmore
  cases input with
  | swap seed cp =>
    unfold World.step
    dsimp only
    split
    · exact hsame rfl fun _ _ => rfl
    refine h.of_keeps (fun inode f hf => ?_) fun _ _ => rfl
    rw [List.getElem?_append_left (List.getElem?_eq_some_iff.mp hf).1]
    exact hf
  | watchInode =>
    obtain ⟨lastInode, trigger, heq⟩ := watchInode_eq w
    refine hsame ?_ fun _ _ => rfl
    show w.watchInode.files = w.files
    rw [heq]
  | openWriter cp =>
    show SlotsHold (w.openWriter env cp).1 (log ++ (w.openWriter env cp).2)
    unfold World.openWriter
    split
    · exact hsame rfl fun _ _ => rfl
    split
    · exact hsame rfl fun _ _ => rfl
    split <;> exact hsame rfl fun _ _ => rfl
  | publish =>
    unfold World.step
    dsimp only
    split <;> exact hsame rfl fun _ _ => rfl
  | call ctx value => exact hsame rfl fun _ _ => rfl
  | advance i io =>
    unfold World.step
    dsimp only
    split
    · exact hsame rfl fun _ _ => rfl
    · exact h.perform io

theorem slotsHold_run (env : ShmEnv) (notifier : Option ShmNotifier) (inputs : List ShmInput) :
    SlotsHold ((World.machine env).run (.init notifier) inputs)
      ((World.machine env).trace (.init notifier) inputs) :=
  (World.machine env).invariant SlotsHold (fun _ _ input h _ => h.step input) (l := [])
    (s := .init notifier) nofun ((World.machine env).along_true _ inputs)

/-! ## Where a delivered value is -/

theorem canonicalAt_between {before between : List ShmEvent} {inode : Nat}
    (hnodup : (swaps (before ++ .opened inode :: between)).Nodup)
    (hcanon : canonicalAt before = some inode) :
    canonicalAt (before ++ .opened inode :: between) = some inode ↔ swaps between = [] := by
  have hsplit : swaps (before ++ .opened inode :: between) = swaps before ++ swaps between := by
    rw [swaps_append]
    rfl
  have hmem : inode ∈ swaps before := mem_of_getLast? hcanon
  rw [hsplit] at hnodup
  rw [canonicalAt, hsplit]
  constructor
  · intro hlast
    by_contra hne
    rw [getLast?_append_of_ne_nil _ hne] at hlast
    exact (List.nodup_append.mp hnodup).2.2 inode hmem inode (mem_of_getLast? hlast) rfl
  intro hnil
  rw [hnil, append_nil]
  exact hcanon

/-- **Where a delivered value is.**  A call that reports `Delivered` stored its value in the slot of
its target, in the file that was canonical when the writer it used was opened: the slot holds the
value until a later store replaces it.  The file is still the canonical one at the store exactly
when no swap came in between. -/
theorem delivered_stored_where_opened {env : ShmEnv} {inputs : List ShmInput}
    (hhash : HashSeparates env (· ∈ tables inputs)) (notifier : Option ShmNotifier) (i : Nat)
    (c : Call) (hi : ((World.machine env).run (.init notifier) inputs).calls[i]? = some c)
    (hdone : c.phase = .done .delivered) :
    ∃ before between after inode slot f,
      (World.machine env).trace (.init notifier) inputs =
        before ++ .opened inode :: (between ++ .stored i inode slot c.value :: after) ∧
      canonicalAt before = some inode ∧
      ((World.machine env).run (.init notifier) inputs).files[inode]? = some f ∧
      actionSlot f.layouts c.ctx = some slot ∧
      f.segment.slots[slot]?.map PointSlot.value =
        lastStored inode slot (.stored i inode slot c.value :: after) ∧
      (canonicalAt (before ++ .opened inode :: between) = some inode ↔ swaps between = []) := by
  have htraced := traced_run hhash notifier
  have hcall := htraced.calls i c hi
  unfold CallTraced at hcall
  rw [hdone] at hcall
  obtain ⟨before, between, after, inode, slot, f, hlog, hcanon, hf, hslot⟩ := hcall
  refine ⟨before, between, after, inode, slot, f, hlog, hcanon, hf, hslot, ?_, ?_⟩
  · -- there is a store behind `between`, so the last one is among those
    obtain ⟨v, hv⟩ : ∃ v, lastStored inode slot (.stored i inode slot c.value :: after) = some v := by
      simp [lastStored, getLast?_cons]
    have hvalue := slotsHold_run env notifier inputs inode slot v (by
      rw [hlog, lastStored_append, ← singleton_append, lastStored_append, lastStored_append, hv]
      rfl)
    rw [World.valueAt, hf] at hvalue
    rw [hv]
    exact hvalue
  apply canonicalAt_between _ hcanon
  have hnodup : (swaps ((World.machine env).trace (.init notifier) inputs)).Nodup := by
    rw [htraced.swapped]
    exact nodup_range
  have hcut : (World.machine env).trace (.init notifier) inputs =
      (before ++ .opened inode :: between) ++ .stored i inode slot c.value :: after := by
    rw [hlog]
    simp
  rw [hcut, swaps_append] at hnodup
  exact (List.nodup_append.mp hnodup).1

/-- One control point. -/
def oneControl : ChannelPointCounts := ⟨[(1, ![0, 0, 1, 0])], pairwise_singleton ..⟩

/-- The target of a command to it. -/
def controlCtx : RouteContext := ⟨1, 2, 0, 50⟩

/-- A connected notifier. -/
def connectedNotifier : ShmNotifier := ⟨true, "/tmp/voltage-m2c.sock", 9, 1⟩

/-- Nothing fails. -/
def smoothIo : CallIo := ⟨false, ⟨false, fun _ => true⟩⟩

/-- A call and its six steps. -/
def wholeCall (i : Nat) (value : Float) : List ShmInput :=
  .call controlCtx value :: replicate 6 (.advance i smoothIo)

theorem delivered_stored_oneControl :
    ∃ c before between after inode slot f,
      ((World.machine telemetryEnv).run (.init (some connectedNotifier))
        (.swap 2 oneControl :: .openWriter oneControl :: .publish :: wholeCall 0 7.0)).calls[0]? =
          some c ∧
      (World.machine telemetryEnv).trace (.init (some connectedNotifier))
        (.swap 2 oneControl :: .openWriter oneControl :: .publish :: wholeCall 0 7.0) =
          before ++ .opened inode :: (between ++ .stored 0 inode slot c.value :: after) ∧
      canonicalAt before = some inode ∧
      ((World.machine telemetryEnv).run (.init (some connectedNotifier))
        (.swap 2 oneControl :: .openWriter oneControl :: .publish :: wholeCall 0 7.0)).files[inode]? =
          some f ∧
      actionSlot f.layouts c.ctx = some slot ∧
      f.segment.slots[slot]?.map PointSlot.value =
        lastStored inode slot (.stored 0 inode slot c.value :: after) ∧
      (canonicalAt (before ++ .opened inode :: between) = some inode ↔ swaps between = []) := by
  have hhash : HashSeparates telemetryEnv (· ∈ tables
      (.swap 2 oneControl :: .openWriter oneControl :: .publish :: wholeCall 0 7.0)) := by
    intro cp cp' hcp hcp' _
    simp [tables, wholeCall] at hcp hcp'
    rw [hcp, hcp']
  obtain ⟨before, between, after, inode, slot, f, h⟩ := delivered_stored_where_opened hhash
    (some connectedNotifier) 0 ⟨controlCtx, 7.0, .done .delivered⟩ (by decide) rfl
  exact ⟨_, before, between, after, inode, slot, f, by decide, h⟩

/-- comsrv replaced the file after modsrv opened it: the call reports `Delivered`, but its value is
in file 0 while file 1 is at the path. -/
theorem delivered_to_unlinked_file :
    let w := (World.machine telemetryEnv).run (.init (some connectedNotifier))
      (.swap 2 oneControl :: .openWriter oneControl :: .publish :: .swap 4 oneControl ::
        wholeCall 0 7.0)
    w.calls = [⟨controlCtx, 7.0, .done .delivered⟩] ∧ w.canonical = some 1 ∧
      w.valueAt 0 0 = some 7.0 ∧ w.valueAt 1 0 ≠ some 7.0 := by
  decide

end VoltageEMS.Shm
