import VoltageEMS.Lib.Seqlock
import VoltageEMS.Shm.Segment

/-!
# Slot writes next to a concurrent reader

`set_direct` is not atomic: it is a sequence of stores (`setOps`, then the bit of the dirty bitmap),
and a reader in the same process may look between any two of them.  `Shared.step` performs one store;
a schedule says which steps the writers take before each access of a reader.  A slot has one writer at
a time; a second process that maps the same file has a dirty bitmap of its own.
-/

namespace VoltageEMS.Shm

open Lib Lib.Seqlock List Option Function

/-- Value, raw value and timestamp, as a reader gets them. -/
structure SlotData where
  value : Float
  raw : Float
  timestamp : Nat
deriving DecidableEq

/-- What a reader gets. -/
def PointSlot.data (s : PointSlot) : SlotData := ⟨s.value, s.raw, s.timestamp⟩

/-- Both numbers are finite. -/
def SlotData.isFinite (d : SlotData) : Bool := d.value.isFinite && d.raw.isFinite

/-- A `set_direct` call under way: its arguments and how many of its stores are done. -/
structure Write where
  data : SlotData
  stage : Nat
deriving DecidableEq

/-- Its stores. -/
def Write.ops (w : Write) : List SlotOp := setOps w.data.value w.data.raw w.data.timestamp

/-- A writer and the calls under way on it, at most one for a slot.  `writes` counts the writes
begun on each slot. -/
structure Shared where
  writer : UnifiedWriter
  pending : Nat → Option Write
  writes : Nat → Nat

/-- The steps of writers. -/
inductive WriterStep
  | start (slot : Nat) (data : SlotData)
  | next (slot : Nat)
  | external (slot : Nat) (data : SlotData)

/-- It is of another process. -/
def WriterStep.isExternal : WriterStep → Bool
  | .external .. => true
  | .start .. | .next .. => false

namespace Shared

variable (sh : Shared) (i : Nat)

/-- `slot_count`. -/
def slotCount : Nat := sh.writer.slotCount

/-- The slot. -/
def slot : PointSlot := sh.writer.segment.slots.getD i .new

/-- Its bit in the bitmap. -/
def dirty : Bool :=
  (sh.writer.dirtyWords.getD (i / 64) 0).testBit (i % 64)

/-- One slot is changed. -/
def modifySlot (f : PointSlot → PointSlot) : Shared :=
  { sh with
    writer := { sh.writer with
      segment := { sh.writer.segment with slots := sh.writer.segment.slots.modify i f } } }

/-- The last store of a call. -/
def finish (timestamp : Nat) : Shared :=
  { sh with
    writer := { sh.writer with
      segment := { sh.writer.segment with
        header := { sh.writer.segment.header with writerHeartbeat := timestamp } }
      dirtyWords := UnifiedWriter.markDirtySlot sh.writer.dirtyWords i }
    pending := update sh.pending i none }

/-- Another store of a call. -/
def store (w : Write) (op : SlotOp) : Shared :=
  { sh.modifySlot i (SlotOp.apply · op) with
    pending := update sh.pending i (some { w with stage := w.stage + 1 })
    writes := if w.stage = 0 then update sh.writes i (sh.writes i + 1) else sh.writes }

/-- A write of another process, as one step. -/
def writeExternal (data : SlotData) : Shared :=
  { sh.modifySlot i (·.set data.value data.raw data.timestamp) with
    writes := update sh.writes i (sh.writes i + 1) }

/-- One step. -/
def step : WriterStep → Shared
  | .start i data =>
    if i < sh.slotCount ∧ sh.pending i = none then
      { sh with pending := update sh.pending i (some ⟨data, 0⟩) }
    else sh
  | .next i =>
    match sh.pending i with
    | none => sh
    | some w =>
      match w.ops[w.stage]? with
      | some op => sh.store i w op
      | none => sh.finish i w.data.timestamp
  | .external i data =>
    if i < sh.slotCount ∧ sh.pending i = none then sh.writeExternal i data else sh

/-- Some steps. -/
def run (steps : List WriterStep) : Shared := steps.foldl step sh

/-- `swap(0)` of a word. -/
def clearWord (word : Nat) : Shared :=
  { sh with writer := { sh.writer with dirtyWords := sh.writer.dirtyWords.set word 0 } }

/-- The slots of its bits. -/
def slotsOfWord (word : Nat) : List Nat :=
  ((drainBits 64 (sh.writer.dirtyWords.getD word 0)).map (word * 64 + ·)).filter (· < sh.slotCount)

/-- No call is under way. -/
def ofWriter (w : UnifiedWriter) : Shared := ⟨w, fun _ => none, fun _ => 0⟩

end Shared

/-! ## Reads -/

/-- What the writers do before each access of a reader; nothing once the list is used up. -/
abbrev Schedule := List (List WriterStep)

/-- A reader with its schedule. -/
structure Cursor where
  shared : Shared
  schedule : Schedule

namespace Cursor

/-- Up to its next access. -/
def advance (c : Cursor) : Cursor :=
  ⟨c.shared.run (c.schedule.headD []), c.schedule.tail⟩

/-- `seq_raw`. -/
def seqRaw (c : Cursor) (i : Nat) : Cursor × Nat :=
  let c := c.advance
  (c, (c.shared.slot i).seq)

/-- `try_load_consistent`: five loads.  With the data comes the number of the write they are of. -/
def tryLoadConsistent (c : Cursor) (i : Nat) : Cursor × Option (SlotData × Nat) :=
  let c1 := c.advance
  let seq1 := (c1.shared.slot i).seq
  if seq1 % 2 = 1 then (c1, none)
  else
    let c2 := c1.advance
    let c3 := c2.advance
    let c4 := c3.advance
    let c5 := c4.advance
    if seq1 = (c5.shared.slot i).seq then
      (c5, some (⟨(c2.shared.slot i).value, (c3.shared.slot i).raw, (c4.shared.slot i).timestamp⟩,
        c5.shared.writes i))
    else (c5, none)

/-- The body of the loop of `take_dirty_slots`: `word.swap(0)`, then the bits from the lowest. -/
def takeWord (acc : Cursor × List Nat) (word : Nat) : Cursor × List Nat :=
  let c := acc.1.advance
  ({ c with shared := c.shared.clearWord word }, acc.2 ++ c.shared.slotsOfWord word)

/-- `take_dirty_slots`. -/
def takeDirtySlots (c : Cursor) : Cursor × List Nat :=
  (List.range c.shared.writer.dirtyWords.length).foldl takeWord (c, [])

end Cursor

/-! ## What a step changes -/

namespace Shared

/-- `writer_generation`. -/
def generation (sh : Shared) : Nat := sh.writer.segment.header.writerGeneration

/-- What no step changes. -/
def shape (sh : Shared) : Nat × Nat := (sh.slotCount, sh.generation)

variable {sh : Shared} {sh' : Shared}

theorem slotCount_of_shape (h : sh'.shape = sh.shape) :
    sh'.slotCount = sh.slotCount := congrArg Prod.fst h

theorem generation_of_shape (h : sh'.shape = sh.shape) :
    sh'.generation = sh.generation := congrArg Prod.snd h

/-- The bitmap has a word for every 64 slots, and calls are under way on slots only. -/
structure Wf (sh : Shared) : Prop where
  words : sh.writer.dirtyWords.length = dirtyWordCount sh.slotCount
  word_lt : ∀ w ∈ sh.writer.dirtyWords, w < 2 ^ 64
  pending_lt : ∀ i w, sh.pending i = some w → i < sh.slotCount

/-- The data are being stored. -/
def writing (sh : Shared) (i : Nat) : Bool :=
  match sh.pending i with
  | some w => 1 ≤ w.stage && w.stage ≤ 4
  | none => false

/-- Begun, and not yet marked. -/
def unmarked (sh : Shared) (i : Nat) : Bool :=
  match sh.pending i with
  | some w => 1 ≤ w.stage
  | none => false

/-- The slot as a cell. -/
def cell (sh : Shared) (i : Nat) : Cell SlotData :=
  ⟨(sh.slot i).data, (sh.slot i).seq, sh.writing i, sh.writes i⟩

theorem slot_modifySlot {i s : Nat} {f : PointSlot → PointSlot} (hi : i < sh.slotCount) :
    (sh.modifySlot i f).slot s = if s = i then f (sh.slot s) else sh.slot s := by
  have hlen : i < sh.writer.segment.slots.length := hi
  by_cases hs : s = i
  · subst hs
    simp [slot, modifySlot, getD_eq_getElem?_getD, List.getElem?_eq_getElem hlen]
  · simp [slot, modifySlot, getD_eq_getElem?_getD, hs, Ne.symm hs]

theorem dirty_finish (hwf : sh.Wf) {i s t : Nat} (hi : i < sh.slotCount) :
    (sh.finish i t).dirty s = (sh.dirty s || decide (s = i)) := by
  have hlen : i / 64 < sh.writer.dirtyWords.length := by
    have := hwf.words
    unfold dirtyWordCount at this
    omega
  exact testBit_mark hlen s

/-! ## Between two looks at a slot -/

/-- What the writers may have done to slot `s` while nobody drained the bitmap: a write that began
in between is marked or still to be marked, unless another process made it (`ext`). -/
structure Later (ext : Prop) (s : Nat) (sh sh' : Shared) : Prop where
  cell : Cell.Later 32 (sh.cell s) (sh'.cell s)
  dirty : sh.dirty s = true → sh'.dirty s = true
  unmarked : sh.unmarked s = true → sh'.unmarked s = true ∨ sh'.dirty s = true
  newer : sh.writes s < sh'.writes s → ext ∨ sh'.unmarked s = true ∨ sh'.dirty s = true

variable {ext : Prop} {s : Nat}

theorem Later.of_eq (hcell : sh'.cell s = sh.cell s)
    (hdirty : sh.dirty s = true → sh'.dirty s = true) (hunmarked : sh'.unmarked s = sh.unmarked s) :
    Later ext s sh sh' where
  cell := hcell ▸ .refl _
  dirty := hdirty
  unmarked h := .inl (hunmarked ▸ h)
  newer h := absurd (congrArg Cell.version hcell) (Nat.ne_of_gt h)

theorem Later.refl (sh : Shared) : Later ext s sh sh := .of_eq rfl id rfl

theorem Later.trans {a b c : Shared} (hab : Later ext s a b) (hbc : Later ext s b c) :
    Later ext s a c where
  cell := hab.cell.trans hbc.cell
  dirty h := hbc.dirty (hab.dirty h)
  unmarked h := by
    rcases hab.unmarked h with h | h
    · exact hbc.unmarked h
    · exact .inr (hbc.dirty h)
  newer h := by
    by_cases hlt : b.writes s < c.writes s
    · exact hbc.newer hlt
    have hmid : a.writes s < b.writes s := by
      have := hbc.cell.version_le
      simp only [Shared.cell] at this
      omega
    rcases hab.newer hmid with h | h | h
    · exact .inl h
    · exact .inr (hbc.unmarked h)
    · exact .inr (.inr (hbc.dirty h))

theorem cell_store {w : Write} {op : SlotOp} (hs : s < sh.slotCount) :
    (sh.store s w op).cell s = ⟨(op.apply (sh.slot s)).data, (op.apply (sh.slot s)).seq,
      decide (w.stage + 1 ≤ 4), sh.writes s + if w.stage = 0 then 1 else 0⟩ := by
  have hslot : (sh.store s w op).slot s = op.apply (sh.slot s) :=
    (slot_modifySlot hs).trans (if_pos rfl)
  have hwriting : (sh.store s w op).writing s = decide (w.stage + 1 ≤ 4) := by
    simp [writing, store]
  have hwrites : (sh.store s w op).writes s = sh.writes s + if w.stage = 0 then 1 else 0 := by
    by_cases h : w.stage = 0 <;> simp [store, h]
  simp only [cell, hslot, hwriting, hwrites]

theorem later_start {i : Nat} {data : SlotData} : Later ext s sh (sh.step (.start i data)) := by
  simp only [step]
  split
  · rename_i h
    have hwriting : ({ sh with pending := update sh.pending i (some ⟨data, 0⟩) } :
        Shared).writing s = sh.writing s := by
      by_cases hs : s = i <;> simp [writing, update, hs, h.2]
    refine .of_eq ?_ id ?_
    · simp only [cell, hwriting]
      rfl
    · by_cases hs : s = i <;> simp [unmarked, update, hs, h.2]
  · exact .refl sh

theorem cell_later_store (hs : s < sh.slotCount) {w : Write} {op : SlotOp}
    (hw : sh.pending s = some w) (hop : w.ops[w.stage]? = some op) :
    Cell.Later 32 (sh.cell s) ((sh.store s w op).cell s) := by
  rw [cell_store hs]
  obtain ⟨data, stage⟩ := w
  have hwriting : sh.writing s = (decide (1 ≤ stage) && decide (stage ≤ 4)) := by
    simp [writing, hw]
  match stage with
  | 0 =>
    obtain rfl : .beginWrite = op := some.inj hop
    refine ⟨Nat.le_succ _, fun h => absurd h (Nat.succ_ne_self _), fun hok => ⟨?_, fun _ => ?_⟩⟩
    · have hseq := hok.seq_eq
      simp [cell, Cell.count, SlotOp.apply, hwriting] at hseq ⊢
      omega
    · exact Nat.succ_pos _
  | 1 | 2 | 3 =>
    obtain rfl := some.inj hop
    refine ⟨le_rfl, fun _ h => ?_, fun hok => ⟨?_, fun _ => hok.begun hwriting⟩⟩
    · rw [cell, hwriting] at h
      cases h
    have hseq := hok.seq_eq
    simpa [cell, Cell.count, SlotOp.apply, hwriting] using hseq
  | 4 =>
    obtain rfl : .endWrite = op := some.inj hop
    refine ⟨le_rfl, fun _ h => ?_, fun hok => ⟨?_, fun h => by cases h⟩⟩
    · rw [cell, hwriting] at h
      cases h
    have hseq := hok.seq_eq
    have hpos := hok.begun hwriting
    simp [cell, Cell.count, SlotOp.apply, hwriting] at hseq hpos ⊢
    omega
  | 5 =>
    obtain rfl : .storeDirty = op := some.inj hop
    refine ⟨le_rfl, fun _ _ => ⟨rfl, rfl⟩, fun hok => ⟨?_, fun h => by cases h⟩⟩
    have hseq := hok.seq_eq
    simpa [cell, Cell.count, SlotOp.apply, hwriting] using hseq
  | k + 6 => cases hop

theorem cell_eq_of_ne (sh sh' : Shared) (hslot : sh'.slot s = sh.slot s)
    (hpending : sh'.pending s = sh.pending s) (hwrites : sh'.writes s = sh.writes s) :
    sh'.cell s = sh.cell s ∧ sh'.unmarked s = sh.unmarked s := by
  simp only [cell, writing, unmarked, hslot, hpending, hwrites, and_self]

theorem later_next (hwf : sh.Wf) (i : Nat) : Later ext s sh (sh.step (.next i)) := by
  simp only [step]
  split
  · exact .refl sh
  rename_i w hw
  have hi := hwf.pending_lt i w hw
  split
  · rename_i op hop
    by_cases hs : s = i
    · subst hs
      have hunmarked : (sh.store s w op).unmarked s = true := by simp [unmarked, store]
      exact ⟨cell_later_store hi hw hop, id, fun _ => .inl hunmarked, fun _ => .inr (.inl hunmarked)⟩
    obtain ⟨hcell, hunmarked⟩ := cell_eq_of_ne sh (sh.store i w op) (s := s)
      ((slot_modifySlot hi).trans (if_neg hs)) (by simp [store, hs])
      (by by_cases h : w.stage = 0 <;> simp [store, h, hs])
    exact .of_eq hcell id hunmarked
  rename_i hop
  have hdirty : sh.dirty s = true → (sh.finish i w.data.timestamp).dirty s = true := fun h => by
    simp [dirty_finish hwf hi, h]
  by_cases hs : s = i
  · subst hs
    have hmarked : (sh.finish s w.data.timestamp).dirty s = true := by
      simp [dirty_finish hwf hi]
    have hstage : 6 ≤ w.stage := List.getElem?_eq_none_iff.mp hop
    have hwriting : (sh.finish s w.data.timestamp).writing s = sh.writing s := by
      have h4 : ¬ w.stage ≤ 4 := by omega
      simp [writing, finish, hw, h4]
    refine ⟨?_, hdirty, fun _ => .inr hmarked, fun _ => .inr (.inr hmarked)⟩
    simp only [cell, hwriting]
    exact .refl _
  obtain ⟨hcell, hunmarked⟩ := cell_eq_of_ne sh
    (sh.finish i w.data.timestamp) (s := s) rfl (by simp [finish, hs]) rfl
  exact .of_eq hcell hdirty hunmarked

theorem cell_writeExternal (hs : s < sh.slotCount) (hidle : sh.pending s = none) (data : SlotData) :
    (sh.writeExternal s data).cell s =
      ⟨data, ((sh.slot s).seq + 2) % 2 ^ 32, false, sh.writes s + 1⟩ := by
  have hslot : (sh.writeExternal s data).slot s =
      (sh.slot s).set data.value data.raw data.timestamp :=
    (slot_modifySlot hs).trans (if_pos rfl)
  have hwriting : (sh.writeExternal s data).writing s = false := by
    simp [writing, writeExternal, modifySlot, hidle]
  have hwrites : (sh.writeExternal s data).writes s = sh.writes s + 1 := by simp [writeExternal]
  simp only [cell, hslot, hwriting, hwrites, PointSlot.set_eq, PointSlot.data]

theorem later_external (hext : ext) (i : Nat) (data : SlotData) :
    Later ext s sh (sh.step (.external i data)) := by
  simp only [step]
  split
  · rename_i h
    by_cases hs : s = i
    · subst hs
      refine ⟨?_, id, .inl, fun _ => .inl hext⟩
      rw [cell_writeExternal h.1 h.2]
      refine ⟨Nat.le_succ _, fun hv => absurd hv (Nat.succ_ne_self _), fun hok => ⟨?_, nofun⟩⟩
      have hwriting : sh.writing s = false := by simp [writing, h.2]
      have hseq := hok.seq_eq
      simp [cell, Cell.count, hwriting] at hseq ⊢
      omega
    obtain ⟨hcell, hunmarked⟩ := cell_eq_of_ne sh (sh.writeExternal i data)
      ((slot_modifySlot h.1).trans (if_neg hs)) rfl (by simp [writeExternal, hs])
    exact .of_eq hcell id hunmarked
  · exact .refl sh

/-- **One writer step**, whatever slot it is on. -/
theorem later_step (hwf : sh.Wf) {st : WriterStep} (hext : st.isExternal = true → ext) :
    Later ext s sh (sh.step st) := by
  cases st with
  | start i data => exact later_start
  | next i => exact later_next hwf i
  | external i data => exact later_external (hext rfl) i data

theorem shape_step (sh : Shared) (st : WriterStep) : (sh.step st).shape = sh.shape := by
  have hmodify : ∀ i f, (sh.modifySlot i f).shape = sh.shape := fun i f => by
    simp [shape, slotCount, UnifiedWriter.slotCount, generation, modifySlot]
  cases st <;> simp only [step]
  · split <;> rfl
  · split
    · rfl
    split
    · exact hmodify _ _
    · rfl
  split
  · exact hmodify _ _
  · rfl

theorem word_lt_markDirtySlot {words : List Nat} (h : ∀ w ∈ words, w < 2 ^ 64) (i : Nat) :
    ∀ w ∈ UnifiedWriter.markDirtySlot words i, w < 2 ^ 64 := by
  intro w hw
  obtain ⟨j, hj, rfl⟩ := getElem_of_mem hw
  have hlt := h _ (getElem_mem (by simpa [UnifiedWriter.markDirtySlot] using hj))
  simp only [UnifiedWriter.markDirtySlot, getElem_modify]
  split
  · exact Nat.or_lt_two_pow hlt (Nat.pow_lt_pow_right (by decide) (Nat.mod_lt _ (by decide)))
  · exact hlt

theorem Wf.of_words (hwf : sh.Wf) (hcount : sh'.slotCount = sh.slotCount)
    (hlen : sh'.writer.dirtyWords.length = sh.writer.dirtyWords.length)
    (hword : ∀ w ∈ sh'.writer.dirtyWords, w < 2 ^ 64)
    (hpending : ∀ i, sh'.pending i = sh.pending i ∨ sh'.pending i = none ∨ i < sh.slotCount) :
    sh'.Wf where
  words := by rw [hlen, hcount, hwf.words]
  word_lt := hword
  pending_lt i w h := by
    rw [hcount]
    rcases hpending i with he | he | hlt
    · exact hwf.pending_lt i w (he ▸ h)
    · rw [he] at h
      cases h
    · exact hlt

theorem Wf.step (hwf : sh.Wf) (st : WriterStep) : (sh.step st).Wf := by
  have hcount := slotCount_of_shape (shape_step sh st)
  have hupdate : ∀ {i : Nat} {o : Option Write}, i < sh.slotCount →
      ∀ j, update sh.pending i o j = sh.pending j ∨ update sh.pending i o j = none ∨
        j < sh.slotCount := by
    intro i o hi j
    by_cases hj : j = i
    · exact .inr (.inr (hj ▸ hi))
    · exact .inl (update_of_ne hj _ _)
  cases st with
  | start i data =>
    by_cases h : i < sh.slotCount ∧ sh.pending i = none
    · simp only [Shared.step, if_pos h] at hcount ⊢
      exact hwf.of_words hcount rfl hwf.word_lt (hupdate h.1)
    · simpa only [Shared.step, if_neg h] using hwf
  | next i =>
    simp only [Shared.step] at hcount ⊢
    split at hcount
    · exact hwf
    rename_i w hw
    have hi := hwf.pending_lt i w hw
    split at hcount
    · exact hwf.of_words hcount rfl hwf.word_lt (hupdate hi)
    exact hwf.of_words hcount (by simp [finish, UnifiedWriter.markDirtySlot])
      (word_lt_markDirtySlot hwf.word_lt i) (hupdate hi)
  | external i data =>
    by_cases h : i < sh.slotCount ∧ sh.pending i = none
    · simp only [Shared.step, if_pos h] at hcount ⊢
      exact hwf.of_words hcount rfl hwf.word_lt fun _ => .inl rfl
    · simpa only [Shared.step, if_neg h] using hwf

/-! ## Runs of the writers -/

/-- No step of the schedule is of another process, unless `ext` allows it. -/
def Admits (ext : Prop) (schedule : Schedule) : Prop :=
  ∀ steps ∈ schedule, ∀ st ∈ steps, st.isExternal = true → ext

theorem run_spec {sh : Shared} (hwf : sh.Wf) :
    ∀ {steps : List WriterStep}, (∀ st ∈ steps, st.isExternal = true → ext) →
      (sh.run steps).Wf ∧ (sh.run steps).shape = sh.shape ∧ Later ext s sh (sh.run steps)
  | [], _ => ⟨hwf, rfl, .refl sh⟩
  | st :: steps, hext => by
    obtain ⟨hwf', hshape, hlater⟩ := run_spec (hwf.step st)
      fun st' h => hext st' (mem_cons_of_mem _ h)
    refine ⟨hwf', hshape.trans (shape_step sh st), ?_⟩
    exact (later_step hwf (hext st (mem_cons_self ..))).trans hlater

/-- The steps of one call. -/
def setDirectSteps (i : Nat) (data : SlotData) : List WriterStep :=
  .start i data :: replicate 7 (.next i)

/-- **A call nobody interrupts** is `set_direct`. -/
theorem run_setDirectSteps {i : Nat} (data : SlotData) (hi : i < sh.slotCount)
    (hidle : sh.pending i = none) :
    sh.run (setDirectSteps i data) =
      ⟨sh.writer.setDirect i data.value data.raw data.timestamp, sh.pending,
        update sh.writes i (sh.writes i + 1)⟩ := by
  simp [run, setDirectSteps, step, hi, hidle, store, finish, modifySlot, Write.ops, setOps,
    replicate, modify_modify_eq, UnifiedWriter.setDirect]
  rfl

/-- Slot `s` is marked, or about to be, or what it holds is `fresh`. -/
def Covered (ext : Prop) (fresh : SlotData → Nat → Prop) (s : Nat) (sh : Shared) : Prop :=
  ext ∨ sh.dirty s = true ∨ sh.unmarked s = true ∨ fresh (sh.slot s).data (sh.writes s)

theorem unmarked_of_writing (h : sh.writing s = true) : sh.unmarked s = true := by
  unfold writing at h
  unfold unmarked
  split at h
  · exact (Bool.and_eq_true_iff.mp h).1
  · cases h

variable {fresh : SlotData → Nat → Prop}

theorem Later.covered (h : Later ext s sh sh') (hc : Covered ext fresh s sh) :
    Covered ext fresh s sh' := by
  rcases hc with hext | hdirty | hunmarked | hfresh
  · exact .inl hext
  · exact .inr (.inl (h.dirty hdirty))
  · exact .inr ((h.unmarked hunmarked).symm.imp_right .inl)
  by_cases hwriting : sh.writing s = true
  · exact .inr ((h.unmarked (unmarked_of_writing hwriting)).symm.imp_right .inl)
  rcases h.cell.version_le.lt_or_eq with hlt | heq
  · rcases h.newer hlt with h | h | h
    · exact .inl h
    · exact .inr (.inr (.inl h))
    · exact .inr (.inl h)
  -- no write has begun since: the data are the same
  obtain ⟨-, hdata⟩ := h.cell.stable heq.symm (Bool.not_eq_true _ ▸ hwriting)
  refine .inr (.inr (.inr ?_))
  simp only [Shared.cell] at heq hdata
  rwa [hdata, ← heq]

/-! ## The bitmap -/

theorem dirty_clearWord (sh : Shared) (word s : Nat) :
    (sh.clearWord word).dirty s = (sh.dirty s && decide (s / 64 ≠ word)) := by
  by_cases hword : s / 64 = word
  · subst hword
    by_cases hlt : s / 64 < sh.writer.dirtyWords.length
    · simp [dirty, clearWord, getD_eq_getElem?_getD, hlt]
    · simp [dirty, clearWord, getD_eq_getElem?_getD, hlt]
  · simp [dirty, clearWord, getD_eq_getElem?_getD, Ne.symm hword, hword]

theorem Wf.getD_lt (hwf : sh.Wf) (word : Nat) : sh.writer.dirtyWords.getD word 0 < 2 ^ 64 := by
  rw [getD_eq_getElem?_getD]
  cases h : sh.writer.dirtyWords[word]? with
  | none => decide
  | some w => exact hwf.word_lt w (mem_of_getElem? h)

theorem mem_slotsOfWord (hwf : sh.Wf) {word s : Nat} :
    s ∈ sh.slotsOfWord word ↔ s / 64 = word ∧ sh.dirty s = true ∧ s < sh.slotCount := by
  have hlt := hwf.getD_lt word
  simp only [slotsOfWord, mem_filter, List.mem_map, decide_eq_true_eq,
    mem_drainBits hlt (by omega : ∀ j, j + 64 < 64 → _), dirty]
  constructor
  · rintro ⟨⟨bit, hbit, rfl⟩, hs⟩
    have h64 : bit < 64 := by
      by_contra hge
      rw [Nat.testBit_lt_two_pow (hlt.trans_le (Nat.pow_le_pow_right (by decide) (by omega)))] at hbit
      cases hbit
    have hdiv : (word * 64 + bit) / 64 = word := by omega
    have hmod : (word * 64 + bit) % 64 = bit := by omega
    exact ⟨hdiv, by rw [hdiv, hmod]; exact hbit, hs⟩
  rintro ⟨rfl, hbit, hs⟩
  exact ⟨⟨s % 64, hbit, by omega⟩, hs⟩

theorem Wf.clearWord (hwf : sh.Wf) (word : Nat) : (sh.clearWord word).Wf :=
  hwf.of_words rfl (length_set ..) (fun w hw => by
    rcases mem_or_eq_of_mem_set hw with h | rfl
    · exact hwf.word_lt w h
    · decide) fun _ => .inl rfl

theorem Covered.clearWord (hwf : sh.Wf) (hs : s < sh.slotCount) (h : Covered ext fresh s sh)
    (word : Nat) : s ∈ sh.slotsOfWord word ∨ Covered ext fresh s (sh.clearWord word) := by
  rcases h with h | h | h | h
  · exact .inr (.inl h)
  · by_cases hword : s / 64 = word
    · exact .inl ((mem_slotsOfWord hwf).mpr ⟨hword, h, hs⟩)
    · exact .inr (.inr (.inl (by simp [dirty_clearWord, h, hword])))
  · exact .inr (.inr (.inr (.inl h)))
  · exact .inr (.inr (.inr (.inr h)))

end Shared

/-! ## Reads next to the writers -/

namespace Cursor

open Shared

variable {ext : Prop} {s : Nat}

/-- A reader may look. -/
structure Ready (ext : Prop) (c : Cursor) : Prop where
  wf : c.shared.Wf
  admits : Admits ext c.schedule

/-- From `c` the reader has come to `c'` without draining the bitmap. -/
structure Onward (ext : Prop) (s : Nat) (c c' : Cursor) : Prop where
  ready : c'.Ready ext
  shape : c'.shared.shape = c.shared.shape
  later : Shared.Later ext s c.shared c'.shared

variable {c : Cursor}

theorem Onward.trans {a b : Cursor} (hab : Onward ext s a b) (hbc : Onward ext s b c) :
    Onward ext s a c :=
  ⟨hbc.ready, hbc.shape.trans hab.shape, hab.later.trans hbc.later⟩

theorem Ready.advance (h : c.Ready ext) : Onward ext s c c.advance := by
  have hsteps : ∀ st ∈ c.schedule.headD [], st.isExternal = true → ext := by
    cases hsched : c.schedule with
    | nil => nofun
    | cons steps rest => exact h.admits steps (hsched ▸ mem_cons_self ..)
  obtain ⟨hwf, hshape, hlater⟩ := run_spec (s := s) h.wf hsteps
  exact ⟨⟨hwf, fun steps hmem => h.admits steps (mem_of_mem_tail hmem)⟩, hshape, hlater⟩

theorem Ready.tryLoadConsistent (h : c.Ready ext) (i : Nat) :
    Onward ext s c (c.tryLoadConsistent i).1 := by
  have h1 := h.advance (s := s)
  have h2 := h1.trans h1.ready.advance
  have h3 := h2.trans h2.ready.advance
  have h4 := h3.trans h3.ready.advance
  have h5 := h4.trans h4.ready.advance
  unfold Cursor.tryLoadConsistent
  dsimp only
  split
  · exact h1
  · split <;> exact h5

/-- **A consistent read** of a slot whose counter has not wrapped yields the data of its latest,
complete write. -/
theorem tryLoadConsistent_spec {c' : Cursor} {d : SlotData} {v : Nat} (h : c.Ready ext)
    (hload : c.tryLoadConsistent s = (c', some (d, v))) (hok : (c.shared.cell s).Ok 32)
    (hun : (c'.shared.cell s).Unwrapped 32) :
    c'.shared.writing s = false ∧ d = (c'.shared.slot s).data ∧ v = c'.shared.writes s := by
  have h1 := h.advance (s := s)
  have h2 := h1.ready.advance (s := s)
  have h3 := h2.ready.advance (s := s)
  have h4 := h3.ready.advance (s := s)
  have h5 := h4.ready.advance (s := s)
  unfold Cursor.tryLoadConsistent at hload
  dsimp only at hload
  split at hload
  · cases hload
  rename_i heven
  split at hload
  · rename_i hseq
    obtain ⟨rfl, hdata⟩ := Prod.mk.inj hload
    obtain ⟨rfl, rfl⟩ := Prod.mk.inj (some.inj hdata)
    -- the three data loads fall between the two loads of the counter
    have hread := fun (m : Cell SlotData) hcm hmd => read_consistent (w := 32) (m := m)
      (d := c.advance.advance.advance.advance.advance.shared.cell s) (by decide)
      (h1.later.cell.ok hok) hcm hmd (Nat.mod_two_ne_one.mp heven) hseq hun
    have h25 := (h3.later.cell.trans h4.later.cell).trans h5.later.cell
    have h13 := h2.later.cell.trans h3.later.cell
    obtain ⟨hidle, hvalue, -⟩ := hread _ h2.later.cell h25
    obtain ⟨-, hraw, -⟩ := hread _ h13 (h4.later.cell.trans h5.later.cell)
    obtain ⟨-, hts, -⟩ := hread _ (h13.trans h4.later.cell) h5.later.cell
    refine ⟨hidle, ?_, rfl⟩
    have hv := congrArg SlotData.value hvalue
    have hr := congrArg SlotData.raw hraw
    have ht := congrArg SlotData.timestamp hts
    simp only [Shared.cell, PointSlot.data] at hv hr ht ⊢
    rw [hv, hr, ht]
  · cases hload

/-- What draining leaves of slot `s`: it goes on as a cell, and is covered unless its mark was
taken. -/
structure Drained (ext : Prop) (s : Nat) (c c' : Cursor) (taken : List Nat) : Prop where
  ready : c'.Ready ext
  shape : c'.shared.shape = c.shared.shape
  cell : Cell.Later 32 (c.shared.cell s) (c'.shared.cell s)
  covered : s < c.shared.slotCount → ∀ fresh, Covered ext fresh s c.shared →
    s ∈ taken ∨ Covered ext fresh s c'.shared
  taken_lt : ∀ i ∈ taken, i < c.shared.slotCount

theorem drained_takeWord (h : c.Ready ext) (l : List Nat) (word : Nat) :
    ∃ taken, (takeWord (c, l) word).2 = l ++ taken ∧
      Drained ext s c (takeWord (c, l) word).1 taken := by
  have hadv := h.advance (s := s)
  have hcount := slotCount_of_shape hadv.shape
  refine ⟨c.advance.shared.slotsOfWord word, rfl, ⟨hadv.ready.wf.clearWord word, hadv.ready.admits⟩,
    hadv.shape, hadv.later.cell, fun hs fresh hc => ?_, fun i hi => ?_⟩
  · exact (hadv.later.covered hc).clearWord hadv.ready.wf (hcount ▸ hs) word
  rw [← hcount]
  exact ((mem_slotsOfWord hadv.ready.wf).mp hi).2.2

theorem drained_foldl (words : List Nat) :
    ∀ {c : Cursor}, c.Ready ext → ∀ l : List Nat,
      ∃ taken, (words.foldl takeWord (c, l)).2 = l ++ taken ∧
        Drained ext s c (words.foldl takeWord (c, l)).1 taken := by
  induction words with
  | nil =>
    intro c h l
    exact ⟨[], (append_nil l).symm, h, rfl, .refl _, fun _ _ => .inr, nofun⟩
  | cons word words ih =>
    intro c h l
    obtain ⟨t1, he1, hd1⟩ := drained_takeWord (s := s) h l word
    have hcount := slotCount_of_shape hd1.shape
    obtain ⟨t2, he2, hd2⟩ := ih (c := (takeWord (c, l) word).1) hd1.ready
      (takeWord (c, l) word).2
    refine ⟨t1 ++ t2, ?_, hd2.ready, hd2.shape.trans hd1.shape, hd1.cell.trans hd2.cell,
      fun hs fresh hc => ?_, ?_⟩
    · rw [← append_assoc, ← he1, ← he2]
      rfl
    · rcases hd1.covered hs fresh hc with hmem | hc
      · exact .inl (mem_append_left _ hmem)
      · exact (hd2.covered (hcount ▸ hs) fresh hc).imp_left (mem_append_right _)
    intro i hi
    rcases mem_append.mp hi with hi | hi
    · exact hd1.taken_lt i hi
    · exact hcount ▸ hd2.taken_lt i hi

/-- **Draining loses no mark**, whatever is written meanwhile. -/
theorem takeDirtySlots_spec (h : c.Ready ext) :
    Drained ext s c c.takeDirtySlots.1 c.takeDirtySlots.2 := by
  obtain ⟨taken, he, hd⟩ := drained_foldl (s := s)
    (List.range c.shared.writer.dirtyWords.length) h []
  rw [nil_append] at he
  rw [takeDirtySlots, he]
  exact hd

/-! ## A reader nobody disturbs -/

/-- Only the bitmap may differ. -/
structure SameSlots (sh sh' : Shared) : Prop where
  segment : sh'.writer.segment = sh.writer.segment
  pending : sh'.pending = sh.pending
  writes : sh'.writes = sh.writes

theorem SameSlots.slot_eq {sh sh' : Shared} (h : SameSlots sh sh') : sh'.slot = sh.slot := by
  funext i
  simp only [Shared.slot, h.segment]

theorem SameSlots.slotCount_eq {sh sh' : Shared} (h : SameSlots sh sh') :
    sh'.slotCount = sh.slotCount := by
  simp only [Shared.slotCount, UnifiedWriter.slotCount, h.segment]

theorem advance_quiet (h : c.schedule = []) : c.advance = c := by
  obtain ⟨shared, schedule⟩ := c
  subst h
  rfl

theorem takeWord_quiet (h : c.schedule = []) (l : List Nat) (word : Nat) : takeWord (c, l) word =
    ({ c with shared := c.shared.clearWord word }, l ++ c.shared.slotsOfWord word) := by
  simp only [takeWord, advance_quiet h]

theorem tryLoadConsistent_quiet (h : c.schedule = []) {i : Nat}
    (heven : (c.shared.slot i).seq % 2 = 0) :
    c.tryLoadConsistent i = (c, some ((c.shared.slot i).data, c.shared.writes i)) := by
  simp [tryLoadConsistent, advance_quiet h, heven, PointSlot.data]

theorem foldl_takeWord_quiet (words : List Nat) :
    ∀ {c : Cursor} {l : List Nat}, c.shared.Wf → c.schedule = [] →
      let r := words.foldl takeWord (c, l)
      r.1.schedule = [] ∧ SameSlots c.shared r.1.shared ∧
      (∀ s, r.1.shared.dirty s = (c.shared.dirty s && decide (s / 64 ∉ words))) ∧
      ∀ s, s ∈ r.2 ↔ s ∈ l ∨ (s / 64 ∈ words ∧ c.shared.dirty s = true ∧ s < c.shared.slotCount) := by
  induction words with
  | nil =>
    intro c l _ hquiet
    exact ⟨hquiet, ⟨rfl, rfl, rfl⟩, by simp, by simp⟩
  | cons word words ih =>
    intro c l hwf hquiet
    obtain ⟨hsched, hsame, hdirty, hmem⟩ := ih (l := l ++ c.shared.slotsOfWord word)
      (c := { c with shared := c.shared.clearWord word }) (hwf.clearWord word) hquiet
    simp only [foldl_cons, takeWord_quiet hquiet]
    refine ⟨hsched, ⟨hsame.segment, hsame.pending, hsame.writes⟩, fun s => ?_, fun s => ?_⟩
    · rw [hdirty, dirty_clearWord, Bool.eq_iff_iff]
      simp only [Bool.and_eq_true, decide_eq_true_eq, mem_cons, not_or, and_assoc, ne_eq]
    rw [hmem, dirty_clearWord, mem_append, mem_slotsOfWord hwf, mem_cons]
    have hcount : (c.shared.clearWord word).slotCount = c.shared.slotCount := rfl
    simp only [Bool.and_eq_true, decide_eq_true_eq, hcount]
    by_cases hword : s / 64 = word <;> simp [hword]

theorem takeDirtySlots_quiet (hwf : c.shared.Wf) (h : c.schedule = []) :
    c.takeDirtySlots.1.schedule = [] ∧ SameSlots c.shared c.takeDirtySlots.1.shared ∧
      (∀ s < c.shared.slotCount, c.takeDirtySlots.1.shared.dirty s = false) ∧
      ∀ s, s ∈ c.takeDirtySlots.2 ↔ s < c.shared.slotCount ∧ c.shared.dirty s = true := by
  obtain ⟨hsched, hsame, hdirty, hmem⟩ := foldl_takeWord_quiet
    (List.range c.shared.writer.dirtyWords.length) (l := []) hwf h
  have hword : ∀ s < c.shared.slotCount,
      s / 64 ∈ List.range c.shared.writer.dirtyWords.length := fun s hs => by
    rw [mem_range, hwf.words, dirtyWordCount]
    omega
  refine ⟨hsched, hsame, fun s hs => ?_, fun s => (hmem s).trans ?_⟩
  · rw [takeDirtySlots, hdirty]
    simp only [hword s hs, not_true_eq_false, decide_false, Bool.and_false]
  constructor
  · rintro (hnil | ⟨-, hd, hs⟩)
    · cases hnil
    · exact ⟨hs, hd⟩
  rintro ⟨hs, hd⟩
  exact .inr ⟨hword s hs, hd, hs⟩

end Cursor

end VoltageEMS.Shm
