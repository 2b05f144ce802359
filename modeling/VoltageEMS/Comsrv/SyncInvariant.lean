import VoltageEMS.Comsrv.ShmRedisSync

/-!
# No update is forgotten

What a call of `flush_once` keeps of one slot, while the writers go on.
-/

namespace VoltageEMS.Comsrv

open Lib Lib.Seqlock Shm List Function

/-- Data and number of their write. -/
abbrev Accepted := Option (SlotData × Nat)

variable {ext : Prop} {rev : ReverseSlotIndex} {s : Nat} {acc : Accepted} {shape : Nat × Nat}

/-- Data `d`, written by the `v`-th write, are not owed to Redis. -/
def Fresh (rev : ReverseSlotIndex) (s : Nat) (acc : Accepted) (d : SlotData) (v : Nat) : Prop :=
  rev.get s = none ∨ d.isFinite = false ∨ ∃ e, acc = some e ∧ e.2 = v

/-- Slot `s` against its recorded counter and what Redis accepted. -/
structure SlotInv (rev : ReverseSlotIndex) (s : Nat) (acc : Accepted) (sh : Shared)
    (lastSeq : Nat) : Prop where
  lastSeq_le : lastSeq ≤ (sh.cell s).count
  skipped : lastSeq = 2 * sh.writes s → Fresh rev s acc (sh.slot s).data (sh.writes s)
  accepted_le : ∀ e, acc = some e → e.2 ≤ sh.writes s
  accepted_data : ∀ e, acc = some e → e.2 = sh.writes s →
    sh.writing s = false ∧ e.1 = (sh.slot s).data

/-- As long as its counter is not wrapped. -/
structure Tracked (rev : ReverseSlotIndex) (s : Nat) (acc : Accepted) (sh : Shared)
    (lastSeq : Nat) : Prop where
  ok : (sh.cell s).Ok 32
  inv : (sh.cell s).Unwrapped 32 → SlotInv rev s acc sh lastSeq

/-- A slot of the pipeline. -/
structure EntryOk (ext : Prop) (s : Nat) (acc : Accepted) (sh : Shared) (e : Synced) : Prop where
  seq_le : e.seq ≤ 2 * e.version
  version_le : e.version ≤ sh.writes s
  data_eq : e.version = sh.writes s → sh.writing s = false ∧ e.data = (sh.slot s).data
  covered : Shared.Covered ext (fun _ v => e.version = v) s sh
  newer : ∀ a, acc = some a → a.2 ≤ e.version

variable {sh : Shared}

theorem not_writing_of_count (hok : (sh.cell s).Ok 32) (h : 2 * sh.writes s ≤ (sh.cell s).count) :
    sh.writing s = false := by
  cases hw : sh.writing s with
  | false => rfl
  | true =>
    have hpos := hok.begun hw
    rw [Cell.count_eq_of_writing hw] at h
    simp only [Shared.cell] at hpos h
    omega

variable {lastSeq : Nat} {sh' : Shared}

theorem SlotInv.later (hok : (sh.cell s).Ok 32) (hl : Cell.Later 32 (sh.cell s) (sh'.cell s))
    (h : SlotInv rev s acc sh lastSeq) : SlotInv rev s acc sh' lastSeq := by
  have hle : sh.writes s ≤ sh'.writes s := hl.version_le
  have hcount : (sh.cell s).count ≤ 2 * sh.writes s := Nat.sub_le _ _
  refine ⟨h.lastSeq_le.trans hl.count_le, fun hseq => ?_, fun e he => (h.accepted_le e he).trans hle,
    fun e he hv => ?_⟩
  · have hlast := h.lastSeq_le
    have hsame : sh'.writes s = sh.writes s := by omega
    have hidle := not_writing_of_count hok (by omega : 2 * sh.writes s ≤ (sh.cell s).count)
    have hdata : (sh'.slot s).data = (sh.slot s).data := (hl.stable hsame hidle).2
    rw [hdata, hsame]
    exact h.skipped (by omega)
  have hsame : sh'.writes s = sh.writes s := by
    have := h.accepted_le e he
    omega
  obtain ⟨hidle, hdata⟩ := h.accepted_data e he (by omega)
  obtain ⟨hidle', hdata'⟩ := hl.stable hsame hidle
  exact ⟨hidle', hdata.trans hdata'.symm⟩

theorem Tracked.later (hl : Cell.Later 32 (sh.cell s) (sh'.cell s))
    (h : Tracked rev s acc sh lastSeq) : Tracked rev s acc sh' lastSeq :=
  ⟨hl.ok h.ok, fun hun => (h.inv (hl.unwrapped hun)).later h.ok hl⟩

theorem EntryOk.later {e : Synced} (hl : Shared.Later ext s sh sh') (h : EntryOk ext s acc sh e) :
    EntryOk ext s acc sh' e := by
  have hle : sh.writes s ≤ sh'.writes s := hl.cell.version_le
  refine ⟨h.seq_le, h.version_le.trans hle, fun hv => ?_, hl.covered h.covered, h.newer⟩
  have hsame : sh'.writes s = sh.writes s := by
    have := h.version_le
    omega
  obtain ⟨hidle, hdata⟩ := h.data_eq (by omega)
  obtain ⟨hidle', hdata'⟩ := hl.cell.stable hsame hidle
  exact ⟨hidle', hdata.trans hdata'.symm⟩

/-! ## The loop over the candidates -/

/-- Slot `s` while the candidates `remaining` are to be looked at: if it is not fresh, it is one of
them, kept for a retry, part of the pipeline, or marked again. -/
structure ScanInv (ext : Prop) (rev : ReverseSlotIndex) (s : Nat) (acc : Accepted)
    (shape : Nat × Nat) (remaining : List Nat) (scan : Scan) : Prop where
  ready : scan.cursor.Ready ext
  shape_eq : scan.cursor.shared.shape = shape
  lt : s < shape.1
  tracked : Tracked rev s acc scan.cursor.shared (scan.lastSeq s)
  entries : (scan.cursor.shared.cell s).Unwrapped 32 → ∀ e ∈ scan.synced, e.slot = s →
    EntryOk ext s acc scan.cursor.shared e
  covered : (scan.cursor.shared.cell s).Unwrapped 32 → s ∈ remaining ∨ s ∈ scan.retrySlots ∨
    (∃ e ∈ scan.synced, e.slot = s) ∨
    Shared.Covered ext (Fresh rev s acc) s scan.cursor.shared

variable {remaining : List Nat} {scan : Scan}

theorem ScanInv.onward {c : Cursor} (h : ScanInv ext rev s acc shape remaining scan)
    (hc : Cursor.Onward ext s scan.cursor c) :
    ScanInv ext rev s acc shape remaining { scan with cursor := c } where
  ready := hc.ready
  shape_eq := hc.shape.trans h.shape_eq
  lt := h.lt
  tracked := h.tracked.later hc.later.cell
  entries hun e he hes := (h.entries (hc.later.cell.unwrapped hun) e he hes).later hc.later
  covered hun := (h.covered (hc.later.cell.unwrapped hun)).imp_right
    (.imp_right (.imp_right hc.later.covered))

theorem scanSlot_cases (rev : ReverseSlotIndex) (scan : Scan) (i : Nat) :
    let c1 := scan.cursor.advance
    let c2 := (c1.tryLoadConsistent i).1
    let seq := (c1.shared.slot i).seq
    (scan.cursor.shared.slotCount ≤ i ∧ scanSlot rev scan i = scan) ∨
    (seq = scan.lastSeq i ∧ scanSlot rev scan i = { scan with cursor := c1 }) ∨
    scanSlot rev scan i = { scan with cursor := c2, retrySlots := scan.retrySlots ++ [i] } ∨
    ∃ d v, c1.tryLoadConsistent i = (c2, some (d, v)) ∧
      ((d.isFinite = false ∨ rev.get i = none) ∧ scanSlot rev scan i =
        { scan with cursor := c2, lastSeq := update scan.lastSeq i seq } ∨
      ∃ origin, rev.get i = some origin ∧ scanSlot rev scan i =
        { scan with cursor := c2, synced := scan.synced ++ [⟨i, seq, origin, d, v⟩] }) := by
  intro c1 c2 seq
  by_cases hlt : scan.cursor.shared.slotCount ≤ i
  · exact .inl ⟨hlt, if_pos hlt⟩
  by_cases hseq : seq = scan.lastSeq i
  · exact .inr (.inl ⟨hseq, (if_neg hlt).trans (if_pos hseq)⟩)
  have hread : scanSlot rev scan i = scanRead rev scan i seq (c1.tryLoadConsistent i) :=
    (if_neg hlt).trans (if_neg hseq)
  rw [hread]
  refine .inr (.inr ?_)
  have hc : c2 = (c1.tryLoadConsistent i).1 := rfl
  revert hc
  match c1.tryLoadConsistent i with
  | (c, none) =>
    rintro rfl
    exact .inl rfl
  | (c, some (d, v)) =>
    rintro rfl
    refine .inr ⟨d, v, rfl, ?_⟩
    by_cases hfin : d.isFinite = true
    · simp only [scanRead, if_pos hfin]
      match hrev : rev.get i with
      | none => exact .inl ⟨.inr rfl, rfl⟩
      | some origin => exact .inr ⟨origin, rfl, rfl⟩
    · exact .inl ⟨.inl (Bool.not_eq_true _ ▸ hfin), if_neg hfin⟩

theorem ScanInv.scanSlot_ne {i : Nat} (hne : i ≠ s)
    (h : ScanInv ext rev s acc shape (i :: remaining) scan) :
    ScanInv ext rev s acc shape remaining (scanSlot rev scan i) := by
  have hadv := h.ready.advance (s := s)
  have hload := hadv.trans (hadv.ready.tryLoadConsistent i)
  have hdrop : ∀ {scan : Scan}, ScanInv ext rev s acc shape (i :: remaining) scan →
      ScanInv ext rev s acc shape remaining scan := fun h =>
    ⟨h.ready, h.shape_eq, h.lt, h.tracked, h.entries, fun hun =>
      (h.covered hun).imp_left fun hmem => (mem_cons.mp hmem).resolve_left hne.symm⟩
  rcases scanSlot_cases rev scan i with ⟨-, he⟩ | ⟨-, he⟩ | he | ⟨d, v, -, ⟨-, he⟩ | ⟨origin, -, he⟩⟩ <;>
    rw [he]
  · exact hdrop h
  · exact hdrop (h.onward hadv)
  · have h2 := hdrop (h.onward hload)
    exact ⟨h2.ready, h2.shape_eq, h2.lt, h2.tracked, h2.entries, fun hun => (h2.covered hun).imp_right
      (.imp_left (mem_append_left _))⟩
  · have h2 := hdrop (h.onward hload)
    refine ⟨h2.ready, h2.shape_eq, h2.lt, ?_, h2.entries, h2.covered⟩
    simpa only [update_of_ne hne.symm] using h2.tracked
  have h2 := hdrop (h.onward hload)
  refine ⟨h2.ready, h2.shape_eq, h2.lt, h2.tracked, fun hun e hmem hes => ?_, fun hun => ?_⟩
  · rcases mem_append.mp hmem with hmem | hmem
    · exact h2.entries hun e hmem hes
    obtain rfl := mem_singleton.mp hmem
    exact absurd hes hne
  exact (h2.covered hun).imp_right (.imp_right (.imp_left fun ⟨e, hmem, hes⟩ =>
    ⟨e, mem_append_left _ hmem, hes⟩))

theorem Tracked.covered_of_seq_eq (h : Tracked rev s acc sh lastSeq)
    (hun : (sh.cell s).Unwrapped 32) (hseq : (sh.slot s).seq = lastSeq) :
    Shared.Covered ext (Fresh rev s acc) s sh := by
  have hcount : (sh.slot s).seq = (sh.cell s).count := h.ok.seq_eq_count hun
  cases hw : sh.writing s with
  | true => exact .inr (.inr (.inl (Shared.unmarked_of_writing hw)))
  | false =>
    rw [Cell.count_eq_of_not_writing hw] at hcount
    exact .inr (.inr (.inr ((h.inv hun).skipped (hseq.symm.trans hcount))))

theorem ScanInv.scanSlot_self (h : ScanInv ext rev s acc shape (s :: remaining) scan) :
    ScanInv ext rev s acc shape remaining (scanSlot rev scan s) := by
  have hadv := h.ready.advance (s := s)
  have hload := hadv.ready.tryLoadConsistent (s := s) s
  have h1 := h.onward hadv
  have h2 := h1.onward hload
  rcases scanSlot_cases rev scan s with ⟨hge, -⟩ | ⟨hseq, he⟩ | he | ⟨d, v, hread, hrest⟩
  · have hlt : s < scan.cursor.shared.slotCount := h.lt.trans_eq (congrArg Prod.fst h.shape_eq).symm
    exact absurd hlt hge.not_gt
  · rw [he]
    exact ⟨h1.ready, h1.shape_eq, h1.lt, h1.tracked, h1.entries, fun hun =>
      .inr (.inr (.inr (h1.tracked.covered_of_seq_eq hun hseq)))⟩
  · rw [he]
    exact ⟨h2.ready, h2.shape_eq, h2.lt, h2.tracked, h2.entries, fun _ =>
      .inr (.inl (mem_append_right _ (mem_singleton_self s)))⟩
  -- the counter was read before the data, so it is not ahead of them
  have hspec := Cursor.tryLoadConsistent_spec hadv.ready hread h1.tracked.ok
  have hseq_le : ∀ hun, (scan.cursor.advance.shared.slot s).seq ≤
      ((scan.cursor.advance.tryLoadConsistent s).1.shared.cell s).count := fun hun =>
    (h1.tracked.ok.seq_eq_count (hload.later.cell.unwrapped hun)).trans_le
      hload.later.cell.count_le
  rcases hrest with ⟨hdone, he⟩ | ⟨origin, -, he⟩
  · have hfresh : ∀ hun v', Fresh rev s acc
        ((scan.cursor.advance.tryLoadConsistent s).1.shared.slot s).data v' := fun hun v' => by
      rw [← (hspec hun).2.1]
      exact hdone.symm.imp_right .inl
    rw [he]
    refine ⟨h2.ready, h2.shape_eq, h2.lt, ⟨h2.tracked.ok, fun hun => ?_⟩, h2.entries, fun hun => ?_⟩
    · have hinv := h2.tracked.inv hun
      simp only [update_self]
      exact ⟨hseq_le hun, fun _ => hfresh hun _, hinv.accepted_le, hinv.accepted_data⟩
    · exact .inr (.inr (.inr (.inr (.inr (.inr (hfresh hun _))))))
  rw [he]
  refine ⟨h2.ready, h2.shape_eq, h2.lt, h2.tracked, fun hun e hmem hes => ?_, fun _ =>
    .inr (.inr (.inl ⟨_, mem_append_right _ (mem_singleton_self _), rfl⟩))⟩
  rcases mem_append.mp hmem with hmem | hmem
  · exact h2.entries hun e hmem hes
  obtain rfl := mem_singleton.mp hmem
  obtain ⟨hidle, hdata, hver⟩ := hspec hun
  have hle := hseq_le hun
  rw [Cell.count_eq_of_not_writing hidle] at hle
  exact ⟨hver ▸ hle, hver.le, fun _ => ⟨hidle, hdata⟩, .inr (.inr (.inr hver)), fun a ha =>
    hver ▸ (h2.tracked.inv hun).accepted_le a ha⟩

/-- **The loop**: after it, nothing about slot `s` is left to be looked at. -/
theorem ScanInv.foldl (h : ScanInv ext rev s acc shape remaining scan) :
    ScanInv ext rev s acc shape [] (remaining.foldl (scanSlot rev) scan) := by
  induction remaining generalizing scan with
  | nil => exact h
  | cons i remaining ih =>
    by_cases hi : i = s
    · subst hi
      exact ih h.scanSlot_self
    · exact ih (h.scanSlot_ne hi)

/-! ## A call -/

/-- Slot `s` between two calls: a slot that is not fresh is kept for a retry or marked. -/
structure SlotKept (ext : Prop) (rev : ReverseSlotIndex) (s : Nat) (acc : Accepted) (sh : Shared)
    (σ : ShmRedisSync) : Prop where
  tracked : Tracked rev s acc sh (σ.lastSeq s)
  covered : (sh.cell s).Unwrapped 32 → s ∈ σ.retrySlots ∨ Shared.Covered ext (Fresh rev s acc) s sh

/-- Slot `s` when the candidates of a call are known. -/
structure GatherInv (ext : Prop) (rev : ReverseSlotIndex) (s : Nat) (acc : Accepted)
    (shape : Nat × Nat) (g : Gathered) : Prop where
  ready : g.cursor.Ready ext
  shape_eq : g.cursor.shared.shape = shape
  lt : s < shape.1
  tracked : Tracked rev s acc g.cursor.shared (g.sync.lastSeq s)
  covered : (g.cursor.shared.cell s).Unwrapped 32 →
    s ∈ g.candidates ∨ Shared.Covered ext (Fresh rev s acc) s g.cursor.shared

/-- The candidate `s`, if it is one, is read in this call or kept for the next. -/
def NotDropped (s : Nat) (candidates : List Nat) : Prop :=
  s ∈ candidates → s ∈ candidates.take maxPipelineSlots ∨
    s ∈ keepLast maxRetrySlots (candidates.drop maxPipelineSlots)

variable {g : Gathered}

theorem GatherInv.scanCandidates (h : GatherInv ext rev s acc shape g)
    (hkeep : ext ∨ NotDropped s g.candidates) :
    ScanInv ext rev s acc shape [] (scanCandidates rev g) := by
  have hstart : ScanInv ext rev s acc shape (g.candidates.take maxPipelineSlots) ⟨g.cursor,
      g.sync.lastSeq, keepLast maxRetrySlots (g.candidates.drop maxPipelineSlots), []⟩ := by
    refine ⟨h.ready, h.shape_eq, h.lt, h.tracked, nofun, fun hun => ?_⟩
    dsimp only
    rcases h.covered hun with hmem | hcov
    · rcases hkeep with hext | hkeep
      · exact .inr (.inr (.inr (.inl hext)))
      · exact (hkeep hmem).imp_right .inl
    · exact .inr (.inr (.inr hcov))
  exact hstart.foldl

theorem record_slot :
    ∀ (synced : List Synced) (lastSeq : Nat → Nat) (accepted : Nat → Accepted),
      ((∀ e ∈ synced, e.slot ≠ s) ∧ recordSeqs lastSeq synced s = lastSeq s ∧
        recordAccepted accepted synced s = accepted s) ∨
      ∃ e ∈ synced, e.slot = s ∧ recordSeqs lastSeq synced s = e.seq ∧
        recordAccepted accepted synced s = some (e.data, e.version)
  | [], _, _ => .inl ⟨nofun, rfl, rfl⟩
  | e :: synced, lastSeq, accepted => by
    rcases record_slot synced (update lastSeq e.slot e.seq)
      (update accepted e.slot (some (e.data, e.version))) with ⟨hne, hseq, hacc⟩ |
        ⟨e', hmem, hslot, hseq, hacc⟩
    · by_cases he : e.slot = s
      · refine .inr ⟨e, mem_cons_self .., he, hseq.trans ?_, hacc.trans ?_⟩ <;>
          rw [he, update_self]
      refine .inl ⟨fun e' hmem => ?_, hseq.trans ?_, hacc.trans ?_⟩
      · rcases mem_cons.mp hmem with rfl | hmem
        · exact he
        · exact hne e' hmem
      · exact update_of_ne (Ne.symm he) _ _
      · exact update_of_ne (Ne.symm he) _ _
    · exact .inr ⟨e', mem_cons_of_mem _ hmem, hslot, hseq, hacc⟩

variable {σ : ShmRedisSync}

theorem SlotKept.of_entry {e : Synced} (ht : Tracked rev s acc sh lastSeq)
    (he : (sh.cell s).Unwrapped 32 → EntryOk ext s acc sh e) (hseq : σ.lastSeq s = e.seq) :
    SlotKept ext rev s (some (e.data, e.version)) sh σ := by
  refine ⟨⟨ht.ok, fun hun => ?_⟩, fun hun => .inr ?_⟩
  · have hentry := he hun
    have hle := hentry.seq_le
    have hver := hentry.version_le
    rw [hseq]
    refine ⟨?_, fun h => .inr (.inr ⟨_, rfl, ?_⟩), ?_, ?_⟩
    · rcases hver.lt_or_eq with hlt | heq
      · have : (sh.cell s).writing.toNat ≤ 1 := Bool.toNat_le _
        simp only [Cell.count, Shared.cell] at this ⊢
        omega
      rw [Cell.count_eq_of_not_writing (hentry.data_eq heq).1]
      exact hle.trans (Nat.mul_le_mul_left 2 hver)
    · simp only
      omega
    · rintro _ ⟨⟩
      exact hver
    rintro _ ⟨⟩ hv
    exact hentry.data_eq hv
  rcases (he hun).covered with h | h | h | h
  · exact .inl h
  · exact .inr (.inl h)
  · exact .inr (.inr (.inl h))
  · exact .inr (.inr (.inr (.inr (.inr ⟨_, rfl, h⟩))))

theorem slotOps_ne_nil (routing : RoutingCache) (e : Synced) : slotOps routing e ≠ [] := nofun

variable {routing : RoutingCache}

theorem synced_eq_nil {synced : List Synced} (h : synced.flatMap (slotOps routing) = []) :
    synced = [] := by
  cases synced with
  | nil => rfl
  | cons e synced => exact absurd (append_eq_nil_iff.mp h).1 (slotOps_ne_nil routing e)

/-- Slot `s` after a call: it is kept, and what Redis accepted for it did not get older. -/
structure SlotAfter (ext : Prop) (rev : ReverseSlotIndex) (s : Nat) (accepted : Nat → Accepted)
    (shape : Nat × Nat) (f : Flushed) : Prop where
  wf : f.shared.Wf
  shape_eq : f.shared.shape = shape
  kept : SlotKept ext rev s (recordAccepted accepted f.accepted s) f.shared f.sync
  newer : (f.shared.cell s).Unwrapped 32 → ∀ a, accepted s = some a →
    ∃ b, recordAccepted accepted f.accepted s = some b ∧ a.2 ≤ b.2

variable {accepted : Nat → Accepted} {redisOk : Bool}

theorem ScanInv.sendPipeline (h : ScanInv ext rev s (accepted s) shape [] scan) :
    SlotAfter ext rev s accepted shape (sendPipeline routing redisOk σ scan) := by
  have hsame : ∀ a, accepted s = some a → ∃ b, accepted s = some b ∧ a.2 ≤ b.2 :=
    fun a ha => ⟨a, ha, le_rfl⟩
  have hreply := h.onward (h.ready.advance (s := s))
  unfold Comsrv.sendPipeline
  dsimp only
  split
  · rename_i hops
    have hnil := synced_eq_nil hops
    refine ⟨h.ready.wf, h.shape_eq, ⟨h.tracked, fun hun => ?_⟩, fun _ => hsame⟩
    rcases h.covered hun with hmem | hmem | ⟨e, hmem, -⟩ | hcov
    · cases hmem
    · exact .inl hmem
    · rw [hnil] at hmem
      cases hmem
    · exact .inr hcov
  split
  · rcases record_slot (s := s) scan.synced scan.lastSeq accepted with ⟨hnone, hseq, hacc⟩ |
      ⟨e, hmem, hslot, hseq, hacc⟩
    · refine ⟨hreply.ready.wf, hreply.shape_eq, ?_, fun _ => hacc ▸ hsame⟩
      dsimp only
      rw [hacc]
      have htracked := hreply.tracked
      rw [← hseq] at htracked
      refine ⟨htracked, fun hun => ?_⟩
      rcases hreply.covered hun with hmem | hmem | ⟨e, hmem, hslot⟩ | hcov
      · cases hmem
      · exact .inl hmem
      · exact absurd hslot (hnone e hmem)
      · exact .inr hcov
    refine ⟨hreply.ready.wf, hreply.shape_eq, ?_, fun hun a ha => ?_⟩ <;> dsimp only
    · rw [hacc]
      exact .of_entry hreply.tracked (fun hun => hreply.entries hun e hmem hslot) hseq
    · exact ⟨_, hacc, (hreply.entries hun e hmem hslot).newer a ha⟩
  refine ⟨hreply.ready.wf, hreply.shape_eq, ⟨hreply.tracked, fun hun => ?_⟩, fun _ => hsame⟩
  simp only [ShmRedisSync.tick, mem_sortDedup, mem_append, mem_map]
  rcases hreply.covered hun with hmem | hmem | hmem | hcov
  · cases hmem
  · exact .inl (.inl hmem)
  · exact .inl (.inr hmem)
  · exact .inr hcov

variable {l : SyncLayout}

/-- **The second half of a call.** -/
theorem GatherInv.publish (h : GatherInv ext l.reverseIndex s (accepted s) shape g)
    (hkeep : ext ∨ NotDropped s g.candidates) :
    SlotAfter ext l.reverseIndex s accepted shape (publish l routing redisOk g) := by
  unfold Comsrv.publish
  split
  · rename_i hnil
    refine ⟨h.ready.wf, h.shape_eq, ⟨h.tracked, fun hun => .inr ?_⟩, fun _ a ha => ⟨a, ha, le_rfl⟩⟩
    exact (h.covered hun).resolve_left (by simp [hnil])
  · exact (h.scanCandidates hkeep).sendPipeline

/-! ## Where slots come from -/

theorem foldl_scanSlot_subset (rev : ReverseSlotIndex) :
    ∀ (is : List Nat) (scan : Scan),
      (∀ r ∈ (is.foldl (scanSlot rev) scan).retrySlots, r ∈ scan.retrySlots ∨ r ∈ is) ∧
      ∀ e ∈ (is.foldl (scanSlot rev) scan).synced,
        e ∈ scan.synced ∨ e.slot ∈ is ∧ rev.get e.slot = some e.origin
  | [], scan => ⟨fun _ => .inl, fun _ => .inl⟩
  | i :: is, scan => by
    obtain ⟨hretry, hsynced⟩ := foldl_scanSlot_subset rev is (scanSlot rev scan i)
    have hone : (∀ r ∈ (scanSlot rev scan i).retrySlots, r ∈ scan.retrySlots ∨ r = i) ∧
        ∀ e ∈ (scanSlot rev scan i).synced,
          e ∈ scan.synced ∨ e.slot = i ∧ rev.get i = some e.origin := by
      rcases scanSlot_cases rev scan i with
        ⟨-, he⟩ | ⟨-, he⟩ | he | ⟨d, v, -, ⟨-, he⟩ | ⟨o, horigin, he⟩⟩ <;>
        rw [he]
      · exact ⟨fun _ => .inl, fun _ => .inl⟩
      · exact ⟨fun _ => .inl, fun _ => .inl⟩
      · exact ⟨fun r hr => (mem_append.mp hr).imp_right mem_singleton.mp, fun _ => .inl⟩
      · exact ⟨fun _ => .inl, fun _ => .inl⟩
      refine ⟨fun _ => .inl, fun e he => (mem_append.mp he).imp_right fun he => ?_⟩
      rw [mem_singleton.mp he]
      exact ⟨rfl, horigin⟩
    constructor
    · intro r hr
      rcases hretry r hr with hr | hr
      · exact (hone.1 r hr).imp_right fun h => mem_cons.mpr (.inl h)
      · exact .inr (mem_cons_of_mem _ hr)
    intro e he
    rcases hsynced e he with he | he
    · exact (hone.2 e he).imp_right fun ⟨hi, h⟩ => ⟨mem_cons.mpr (.inl hi), hi ▸ h⟩
    · exact .inr ⟨mem_cons_of_mem _ he.1, he.2⟩

theorem scanCandidates_subset (rev : ReverseSlotIndex) (g : Gathered) :
    (∀ r ∈ (scanCandidates rev g).retrySlots, r ∈ g.candidates) ∧
      ∀ e ∈ (scanCandidates rev g).synced,
        e.slot ∈ g.candidates.take maxPipelineSlots ∧ rev.get e.slot = some e.origin := by
  obtain ⟨hretry, hsynced⟩ := foldl_scanSlot_subset rev (g.candidates.take maxPipelineSlots)
    ⟨g.cursor, g.sync.lastSeq, keepLast maxRetrySlots (g.candidates.drop maxPipelineSlots), []⟩
  dsimp only at hretry
  refine ⟨fun r hr => ?_, fun e he => (hsynced e he).resolve_left nofun⟩
  rcases hretry r hr with hr | hr
  · exact mem_of_mem_drop (mem_of_mem_keepLast hr)
  · exact mem_of_mem_take hr

theorem publish_subset (hnil : g.sync.retrySlots = []) :
    (∀ r ∈ (publish l routing redisOk g).sync.retrySlots, r ∈ g.candidates) ∧
      ∀ e ∈ (publish l routing redisOk g).accepted, redisOk = true ∧
        l.reverseIndex.get e.slot = some e.origin ∧
        slotOps routing e ⊆ (publish l routing redisOk g).pipeline := by
  obtain ⟨hretry, hsynced⟩ := scanCandidates_subset l.reverseIndex g
  unfold publish sendPipeline
  dsimp only
  split
  · simp [ShmRedisSync.tick, hnil]
  split
  · exact ⟨hretry, nofun⟩
  split
  · exact ⟨hretry, fun e he => ⟨‹_›, (hsynced e he).2, fun _ hop => mem_flatMap.mpr ⟨e, he, hop⟩⟩⟩
  refine ⟨fun r hr => ?_, nofun⟩
  simp only [ShmRedisSync.tick, mem_sortDedup, mem_append, mem_map] at hr
  rcases hr with hr | ⟨e, he, rfl⟩
  · exact hretry r hr
  · exact mem_of_mem_take (hsynced e he).1

/-- No layout was swapped and no route reloaded since the task's first call. -/
structure Steady (l : SyncLayout) (hash : Nat) (σ : ShmRedisSync) : Prop where
  ptr : σ.lastLayoutPtr = 0 ∨ σ.lastLayoutPtr = l.ptr
  hash_eq : σ.lastRoutingHash = 0 ∨ σ.lastRoutingHash = hash

variable {hash : Nat}

theorem Steady.detectChange (h : Steady l hash σ) :
    detectChange σ l.ptr hash =
      ({ σ with lastLayoutPtr := l.ptr, lastRoutingHash := hash }, false) := by
  have hptr : (decide (σ.lastLayoutPtr ≠ 0) && decide (l.ptr ≠ σ.lastLayoutPtr)) = false := by
    rcases h.ptr with h | h <;> simp [h]
  have hhash : (decide (σ.lastRoutingHash ≠ 0) && decide (hash ≠ σ.lastRoutingHash)) = false := by
    rcases h.hash_eq with h | h <;> simp [h]
  simp only [Comsrv.detectChange, hptr, hhash, Bool.or_self, Bool.false_eq_true, if_false]

/-- A call in which every slot is a candidate. -/
def ShmRedisSync.fullScan (σ : ShmRedisSync) : Bool :=
  σ.tickCount == 0 || σ.tickCount % fullScanInterval == 0

theorem Steady.gather (h : Steady l hash σ) (schedule : Schedule) : gather l hash schedule σ =
      ⟨{ σ with lastLayoutPtr := l.ptr, lastRoutingHash := hash, retrySlots := [] },
        (collect ⟨l.shared, schedule⟩ σ.fullScan).1,
        sortDedup ((collect ⟨l.shared, schedule⟩ σ.fullScan).2 ++ σ.retrySlots)⟩ := by
  simp only [Comsrv.gather, h.detectChange, Bool.false_or, ShmRedisSync.fullScan]

theorem Steady.candidates_lt (h : Steady l hash σ) (hwf : l.shared.Wf) (schedule : Schedule)
    (hretry : ∀ r ∈ σ.retrySlots, r < l.shared.slotCount) :
    ∀ i ∈ (Comsrv.gather l hash schedule σ).candidates, i < l.shared.slotCount := by
  intro i hi
  rw [h.gather, mem_sortDedup, mem_append] at hi
  rcases hi with hi | hi
  · cases hfull : σ.fullScan with
    | true =>
      rw [hfull] at hi
      exact mem_range.mp hi
    | false =>
      rw [hfull] at hi
      have hready : Cursor.Ready True ⟨l.shared, schedule⟩ := ⟨hwf, fun _ _ _ _ _ => trivial⟩
      exact (Cursor.takeDirtySlots_spec (s := i) hready).taken_lt i hi
  · exact hretry i hi

variable {schedule : Schedule}

/-- **The first half of a call**: a slot that needs attention becomes a candidate; on a full scan
every slot does. -/
theorem gatherInv_of_steady (h : Steady l hash σ) (hwf : l.shared.Wf)
    (hadmits : Shared.Admits ext schedule) (hs : s < l.shared.slotCount)
    (ht : Tracked rev s acc l.shared (σ.lastSeq s))
    (hcov : σ.fullScan = true ∨ ((l.shared.cell s).Unwrapped 32 →
      s ∈ σ.retrySlots ∨ Shared.Covered ext (Fresh rev s acc) s l.shared)) :
    GatherInv ext rev s acc l.shared.shape (gather l hash schedule σ) := by
  rw [h.gather]
  have hready : Cursor.Ready ext ⟨l.shared, schedule⟩ := ⟨hwf, hadmits⟩
  cases hfull : σ.fullScan with
  | true =>
    refine ⟨hready, rfl, hs, ht, fun _ => .inl ?_⟩
    exact mem_sortDedup.mpr (mem_append_left _ (mem_range.mpr hs))
  | false =>
    have hd := Cursor.takeDirtySlots_spec (s := s) hready
    refine ⟨hd.ready, hd.shape, hs, ht.later hd.cell, fun hun => ?_⟩
    simp only [collect, Bool.false_eq_true, if_false, mem_sortDedup, mem_append]
    rcases hcov.resolve_left (by simp [hfull]) (hd.cell.unwrapped hun) with hmem | hcov
    · exact .inl (.inr hmem)
    · exact (hd.covered hs _ hcov).imp_left .inl

/-- **A call of `flush_once`** on a steady layout, for one slot. -/
theorem flushOnce_slot (h : Steady l hash σ) (hwf : l.shared.Wf)
    (heven : l.shared.generation % 2 = 0) (hadmits : Shared.Admits ext schedule)
    (hs : s < l.shared.slotCount)
    (ht : Tracked l.reverseIndex s (accepted s) l.shared (σ.lastSeq s))
    (hcov : σ.fullScan = true ∨ ((l.shared.cell s).Unwrapped 32 →
      s ∈ σ.retrySlots ∨ Shared.Covered ext (Fresh l.reverseIndex s (accepted s)) s l.shared))
    (hkeep : ext ∨ NotDropped s (gather l hash schedule σ).candidates) :
    SlotAfter ext l.reverseIndex s accepted l.shared.shape
      (flushOnce l routing hash schedule redisOk σ) := by
  rw [flushOnce, if_neg (by omega), if_neg (by omega)]
  exact (gatherInv_of_steady h hwf hadmits hs ht hcov).publish hkeep

end VoltageEMS.Comsrv
