import VoltageEMS.Lib.BitTable
import VoltageEMS.Lib.Run
import VoltageEMS.Shm.SlotWrites

/-!
# Draining the dirty slots

`set_direct` and `take_dirty_slots` of one writer (`core/writer.rs`), called one after the other.
-/

namespace VoltageEMS.Shm

open Lib List

/-! ## The order of the slots -/

theorem Shared.slotsOfWord_pairwise {sh : Shared} (hwf : sh.Wf) (word : Nat) :
    (sh.slotsOfWord word).Pairwise (· < ·) := by
  refine List.Pairwise.filter _ (pairwise_map.mpr ?_)
  exact (drainBits_pairwise (hwf.getD_lt word)).imp fun h => Nat.add_lt_add_left h _

namespace Cursor

theorem foldl_takeWord_pairwise {words : List Nat} (hwords : words.Pairwise (· < ·)) {c : Cursor}
    {l : List Nat} (hwf : c.shared.Wf) (hquiet : c.schedule = []) (hl : l.Pairwise (· < ·))
    (hbefore : ∀ s ∈ l, ∀ word ∈ words, s / 64 < word) :
    (words.foldl takeWord (c, l)).2.Pairwise (· < ·) := by
  induction words generalizing c l with
  | nil => exact hl
  | cons word words ih =>
    obtain ⟨hhead, hrest⟩ := pairwise_cons.mp hwords
    rw [foldl_cons, takeWord_quiet hquiet]
    refine ih hrest (c := { c with shared := c.shared.clearWord word }) (hwf.clearWord word) hquiet
      ?_ ?_
    · refine pairwise_append.mpr ⟨hl, Shared.slotsOfWord_pairwise hwf word, fun s hs s' hs' => ?_⟩
      have hlow := hbefore s hs word (mem_cons_self ..)
      have hword := ((Shared.mem_slotsOfWord hwf).mp hs').1
      omega
    intro s hs word' hword'
    rcases mem_append.mp hs with hs | hs
    · exact hbefore s hs word' (mem_cons_of_mem _ hword')
    rw [((Shared.mem_slotsOfWord hwf).mp hs).1]
    exact hhead word' hword'

theorem takeDirtySlots_pairwise {c : Cursor} (hwf : c.shared.Wf) (h : c.schedule = []) :
    c.takeDirtySlots.2.Pairwise (· < ·) :=
  foldl_takeWord_pairwise pairwise_lt_range hwf h .nil (by simp)

end Cursor

/-! ## Calls one after the other -/

namespace UnifiedWriter

/-- `take_dirty_slots`. -/
def takeDirtySlots (w : UnifiedWriter) : UnifiedWriter × List Nat :=
  let r := Cursor.takeDirtySlots ⟨.ofWriter w, []⟩
  (r.1.shared.writer, r.2)

end UnifiedWriter

/-- The two calls. -/
inductive DirtyCall where
  | setDirect (slot : Nat) (value raw : Float) (timestampMs : Nat)
  | takeDirtySlots

/-- What is observed. -/
inductive DirtyEvent where
  | wrote (slot : Nat)
  | took (slots : List Nat)
deriving DecidableEq

namespace UnifiedWriter

/-- One call. -/
def perform (w : UnifiedWriter) : DirtyCall → UnifiedWriter × List DirtyEvent
  | .setDirect slot value raw timestampMs =>
    if slot < w.slotCount then (w.setDirect slot value raw timestampMs, [.wrote slot]) else (w, [])
  | .takeDirtySlots => (w.takeDirtySlots.1, [.took w.takeDirtySlots.2])

/-- The writer under its calls. -/
def dirtyMachine : Machine UnifiedWriter DirtyCall DirtyEvent where
  step := perform

end UnifiedWriter

/-- The slot of a write. -/
def DirtyEvent.written : DirtyEvent → Option Nat
  | .wrote slot => some slot
  | .took _ => none

/-- The slots since the last drain. -/
def writtenSince (log : List DirtyEvent) : List Nat :=
  (log.reverse.takeWhile fun e => e.written.isSome).filterMap DirtyEvent.written

variable {log : List DirtyEvent}

theorem mem_writtenSince_wrote {slot s : Nat} :
    s ∈ writtenSince (log ++ [.wrote slot]) ↔ s ∈ writtenSince log ∨ s = slot := by
  simp [writtenSince, DirtyEvent.written, or_comm]

theorem writtenSince_took (log : List DirtyEvent) (slots : List Nat) :
    writtenSince (log ++ [.took slots]) = [] := by
  simp [writtenSince, DirtyEvent.written]

/-- A drain returns the slots written since the one before, in ascending order. -/
def Exact (before : List DirtyEvent) : DirtyEvent → Prop
  | .wrote _ => True
  | .took slots => slots.Pairwise (· < ·) ∧ ∀ s, s ∈ slots ↔ s ∈ writtenSince before

/-- The set bits are the slots written since the last drain. -/
structure DirtyInv (w : UnifiedWriter) (log : List DirtyEvent) : Prop where
  wf : (Shared.ofWriter w).Wf
  below : ∀ s ∈ writtenSince log, s < w.slotCount
  dirty : ∀ s < w.slotCount, (Shared.ofWriter w).dirty s = true ↔ s ∈ writtenSince log
  exact : EachAt Exact log

variable {w : UnifiedWriter}

theorem wf_ofWriter (hwords : w.dirtyWords.length = dirtyWordCount w.slotCount)
    (hlt : ∀ word ∈ w.dirtyWords, word < 2 ^ 64) : (Shared.ofWriter w).Wf :=
  ⟨hwords, hlt, fun _ _ h => by cases h⟩

theorem DirtyInv.create {env : ShmEnv} {cp : ChannelPointCounts} (h : Shm.create env cp = .ok w) :
    DirtyInv w [] := by
  have hzero : ∀ word ∈ w.dirtyWords, word = 0 := fun word hword =>
    eq_of_mem_replicate (dirtyWords_create h ▸ hword)
  refine ⟨wf_ofWriter ?_ fun word hword => ?_, by simp [writtenSince], fun s hs => ?_, .nil⟩
  · rw [dirtyWords_create h, length_replicate]
  · rw [hzero word hword]
    decide
  have hunset : (Shared.ofWriter w).dirty s = false := by
    change bitAt w.dirtyWords s = false
    rw [dirtyWords_create h, bitAt_replicate]
  rw [hunset]
  simp [writtenSince]

theorem DirtyInv.setDirect (h : DirtyInv w log) {slot : Nat} (hslot : slot < w.slotCount)
    (value raw : Float) (timestampMs : Nat) :
    DirtyInv (w.setDirect slot value raw timestampMs) (log ++ [.wrote slot]) := by
  have hcount : (w.setDirect slot value raw timestampMs).slotCount = w.slotCount := by
    simp [UnifiedWriter.slotCount]
  have hdirty : ∀ s, (Shared.ofWriter (w.setDirect slot value raw timestampMs)).dirty s =
      ((Shared.ofWriter w).dirty s || decide (s = slot)) := fun s =>
    Shared.dirty_finish h.wf (t := timestampMs) hslot
  refine ⟨?_, fun s hs => ?_, fun s hs => ?_, h.exact.snoc trivial⟩
  · exact h.wf.of_words hcount (length_modify ..)
      (Shared.word_lt_markDirtySlot h.wf.word_lt slot) fun _ => .inl rfl
  · rw [hcount]
    rcases mem_writtenSince_wrote.mp hs with hs | rfl
    · exact h.below s hs
    · exact hslot
  · rw [hdirty, Bool.or_eq_true, decide_eq_true_eq, h.dirty s (hcount ▸ hs), mem_writtenSince_wrote]

theorem DirtyInv.takeDirtySlots (h : DirtyInv w log) :
    DirtyInv w.takeDirtySlots.1 (log ++ [.took w.takeDirtySlots.2]) := by
  have hready : Cursor.Ready False ⟨.ofWriter w, []⟩ := ⟨h.wf, fun _ hmem => by cases hmem⟩
  have hwf := (Cursor.takeDirtySlots_spec (s := 0) hready).ready.wf
  obtain ⟨-, hsame, hclear, hmem⟩ := Cursor.takeDirtySlots_quiet (c := ⟨.ofWriter w, []⟩) h.wf rfl
  have hsorted := Cursor.takeDirtySlots_pairwise (c := ⟨.ofWriter w, []⟩) h.wf rfl
  have hcount : w.takeDirtySlots.1.slotCount = w.slotCount := hsame.slotCount_eq
  refine ⟨wf_ofWriter hwf.words hwf.word_lt, ?_, fun s hs => ?_, h.exact.snoc ⟨hsorted, fun s => ?_⟩⟩
  · rw [writtenSince_took]
    simp
  · rw [hcount] at hs
    have hunset : (Shared.ofWriter w.takeDirtySlots.1).dirty s = false := hclear s hs
    rw [hunset, writtenSince_took]
    simp
  refine (hmem s).trans ⟨fun hs => (h.dirty s hs.1).mp hs.2, fun hs => ?_⟩
  exact ⟨h.below s hs, (h.dirty s (h.below s hs)).mpr hs⟩

theorem DirtyInv.perform (h : DirtyInv w log) (call : DirtyCall) :
    DirtyInv (w.perform call).1 (log ++ (w.perform call).2) := by
  cases call with
  | setDirect slot value raw timestampMs =>
    rw [UnifiedWriter.perform]
    split
    · rename_i hslot
      exact h.setDirect hslot value raw timestampMs
    · rwa [append_nil]
  | takeDirtySlots => exact h.takeDirtySlots

/-- **Every drain is exact.**  In every sequence of writes and drains on a new writer, a drain
returns the slots written since the drain before it, in strictly ascending order, and nothing else.
-/
theorem drains_exactly_written {env : ShmEnv} {cp : ChannelPointCounts} {w : UnifiedWriter}
    (h : create env cp = .ok w) (calls : List DirtyCall) {before after : List DirtyEvent}
    {slots : List Nat}
    (htook : UnifiedWriter.dirtyMachine.trace w calls = before ++ .took slots :: after) :
    slots.Pairwise (· < ·) ∧ ∀ s, s ∈ slots ↔ s ∈ writtenSince before := by
  have hinv := UnifiedWriter.dirtyMachine.invariant DirtyInv
    (fun w log call hw _ => hw.perform call) (DirtyInv.create h)
    (UnifiedWriter.dirtyMachine.along_true w calls)
  exact hinv.exact before (.took slots) after htook

/-- Slots 1 and 0 are written and drained, then slot 1 is written again. -/
theorem drains_exactly_written_again :
    ∃ w, create telemetryEnv ⟨[(1, ![2, 0, 0, 0])], by decide⟩ = .ok w ∧
      UnifiedWriter.dirtyMachine.trace w [.setDirect 1 5.0 5.0 1, .setDirect 0 5.0 5.0 1,
        .takeDirtySlots, .setDirect 1 5.0 5.0 2, .takeDirtySlots] =
          [.wrote 1, .wrote 0, .took [0, 1], .wrote 1, .took [1]] ∧
      ∀ s, s ∈ [1] ↔ s ∈ writtenSince [.wrote 1, .wrote 0, .took [0, 1], .wrote 1] := by
  have hrun : ∃ w, create telemetryEnv ⟨[(1, ![2, 0, 0, 0])], by decide⟩ = .ok w ∧
      UnifiedWriter.dirtyMachine.trace w [.setDirect 1 5.0 5.0 1, .setDirect 0 5.0 5.0 1,
        .takeDirtySlots, .setDirect 1 5.0 5.0 2, .takeDirtySlots] =
          [.wrote 1, .wrote 0, .took [0, 1], .wrote 1] ++ .took [1] :: [] :=
    ⟨_, rfl, by decide +kernel⟩
  obtain ⟨w, hw, htrace⟩ := hrun
  exact ⟨w, hw, htrace, (drains_exactly_written hw _ htrace).2⟩

end VoltageEMS.Shm
