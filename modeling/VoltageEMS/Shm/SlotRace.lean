import VoltageEMS.Lib.Run
import VoltageEMS.Shm.SlotWrites

/-!
# Concurrent writers of one slot

`ActionWriter::set_action` takes no lock, and rule executions and HTTP handlers share one writer,
so several `PointSlot::set` calls may be under way on one slot.  The increments of the sequence
counter are atomic, but two calls that begin one after the other leave it even.
-/

namespace VoltageEMS.Shm

open Lib Lib.Seqlock List Option Function

/-! ## Steps -/

/-- What a read has loaded. -/
inductive ReaderPhase
  | idle
  | counted (seq1 : Nat)
  | valued (seq1 : Nat) (value : Float)
  | rawed (seq1 : Nat) (value raw : Float)
  | stamped (seq1 : Nat) (value raw : Float) (timestamp : Nat)

/-- One slot, the `set` call of each thread, and a reader. -/
structure SlotRace where
  slot : PointSlot
  calls : Nat → Option Write
  reader : ReaderPhase

/-- The steps of all threads. -/
inductive RaceStep
  | call (thread : Nat) (data : SlotData)
  | store (thread : Nat)
  | load

/-- What is observed: both increments of a call, the first load of a read and its result. -/
inductive RaceEvent
  | began (data : SlotData)
  | completed
  | opened
  | returned (result : Option SlotData)
deriving DecidableEq

/-- It is between its increments. -/
def Write.Mid (w : Write) : Prop := 1 ≤ w.stage ∧ w.stage ≤ 4

namespace SlotRace

/-- No call is under way. -/
def start (slot : PointSlot) : SlotRace := ⟨slot, fun _ => none, .idle⟩

/-- What a store shows. -/
def eventsOf (data : SlotData) : SlotOp → List RaceEvent
  | .beginWrite => [.began data]
  | .endWrite => [.completed]
  | .storeValue _ | .storeRaw _ | .storeTimestamp _ | .storeDirty => []

variable (s : SlotRace)

/-- One store. -/
def perform (thread : Nat) (w : Write) (op : SlotOp) : SlotRace :=
  { s with
    slot := op.apply s.slot
    calls := update s.calls thread (some { w with stage := w.stage + 1 }) }

@[simp] theorem perform_slot (t : Nat) (w : Write) (op : SlotOp) :
    (s.perform t w op).slot = op.apply s.slot := rfl

theorem perform_calls_self (t : Nat) (w : Write) (op : SlotOp) :
    (s.perform t w op).calls t = some { w with stage := w.stage + 1 } := update_self ..

theorem perform_calls_of_ne {s : SlotRace} {t u : Nat} {w : Write} {op : SlotOp} (h : u ≠ t) :
    (s.perform t w op).calls u = s.calls u := update_of_ne h ..

/-- One load. -/
def load : SlotRace × List RaceEvent :=
  match s.reader with
  | .idle =>
    if s.slot.seq % 2 = 1 then (s, [.opened, .returned none])
    else ({ s with reader := .counted s.slot.seq }, [.opened])
  | .counted seq1 => ({ s with reader := .valued seq1 s.slot.value }, [])
  | .valued seq1 value => ({ s with reader := .rawed seq1 value s.slot.raw }, [])
  | .rawed seq1 value raw => ({ s with reader := .stamped seq1 value raw s.slot.timestamp }, [])
  | .stamped seq1 value raw timestamp =>
    ({ s with reader := .idle },
      [.returned (if seq1 = s.slot.seq then some ⟨value, raw, timestamp⟩ else none)])

/-- One step. -/
def step : RaceStep → SlotRace × List RaceEvent
  | .call thread data =>
    match s.calls thread with
    | none => ({ s with calls := update s.calls thread (some ⟨data, 0⟩) }, [])
    | some _ => (s, [])
  | .store thread =>
    match s.calls thread with
    | none => (s, [])
    | some w =>
      match w.ops[w.stage]? with
      | some op => (s.perform thread w op, eventsOf w.data op)
      | none => ({ s with calls := update s.calls thread none }, [])
  | .load => s.load

/-- The threads on the slot. -/
def machine : Machine SlotRace RaceStep RaceEvent := ⟨step⟩

/-- The `debug_assert!` of `set`: the counter was even before the first increment. -/
def Asserted : RaceStep → Prop
  | .store thread => ∀ w ∈ s.calls thread, w.stage = 0 → s.slot.seq % 2 = 0
  | .call .. | .load => True

instance (s : SlotRace) (x : RaceStep) : Decidable (s.Asserted x) :=
  match x with
  | .store thread =>
    inferInstanceAs (Decidable (∀ w ∈ s.calls thread, w.stage = 0 → s.slot.seq % 2 = 0))
  | .call .. | .load => .isTrue trivial

/-- The calls completed since the first load. -/
def windowCompletions (l : List RaceEvent) : Nat :=
  (l.reverse.takeWhile (· ≠ .opened)).count .completed

/-- What a read may return: nothing, what the slot held at the beginning, or what one call stored,
unless as many calls completed since its first load as the counter has values. -/
def OneWrite (first : PointSlot) (l : List RaceEvent) (e : RaceEvent) : Prop :=
  ∀ d, e = .returned (some d) → windowCompletions l < 2 ^ 31 →
    d = first.data ∨ .began d ∈ l

/-! ## Exclusion -/

/-- At most one call is between its increments: none while the counter is even, and then the slot
holds what one call stored; one while it is odd, and its stores so far are in place. -/
inductive Exclusive (first : PointSlot) (s : SlotRace) (l : List RaceEvent) : Prop
  | idle (heven : s.slot.seq % 2 = 0) (hcalls : ∀ t w, s.calls t = some w → ¬ w.Mid)
      (hdata : s.slot.data = first.data ∨ .began s.slot.data ∈ l)
  | held (t : Nat) (w : Write) (hodd : s.slot.seq % 2 = 1) (ht : s.calls t = some w)
      (hmid : w.Mid) (hothers : ∀ u v, u ≠ t → s.calls u = some v → ¬ v.Mid)
      (hbegan : .began w.data ∈ l) (hvalue : 2 ≤ w.stage → s.slot.value = w.data.value)
      (hraw : 3 ≤ w.stage → s.slot.raw = w.data.raw)
      (hts : 4 ≤ w.stage → s.slot.timestamp = w.data.timestamp)

variable {first : PointSlot} {s s' : SlotRace} {l : List RaceEvent} {t : Nat} {w : Write}
  {op : SlotOp}

theorem Exclusive.mono {more : List RaceEvent} (h : Exclusive first s l) :
    Exclusive first s (l ++ more) := by
  cases h with
  | idle heven hcalls hdata =>
    exact .idle heven hcalls (hdata.imp_right (mem_append_left _))
  | held t w hodd ht hmid hothers hbegan hvalue hraw hts =>
    exact .held t w hodd ht hmid hothers (mem_append_left _ hbegan) hvalue hraw hts

theorem Exclusive.of_reader (h : Exclusive first s l) (phase : ReaderPhase) :
    Exclusive first { s with reader := phase } l := by
  cases h with
  | idle heven hcalls hdata => exact .idle heven hcalls hdata
  | held t w hodd ht hmid hothers hbegan hvalue hraw hts =>
    exact .held t w hodd ht hmid hothers hbegan hvalue hraw hts

theorem Exclusive.outside {o : Option Write} (h : Exclusive first s l)
    (hseq : s'.slot.seq = s.slot.seq) (hdata : s'.slot.data = s.slot.data)
    (hcalls : s'.calls = update s.calls t o) (hbefore : ∀ w, s.calls t = some w → ¬ w.Mid)
    (hafter : ∀ w, o = some w → ¬ w.Mid) : Exclusive first s' l := by
  have hkeep : ∀ u v, s'.calls u = some v → s.calls u = some v ∨ ¬ v.Mid := by
    intro u v hv
    rw [hcalls] at hv
    by_cases hu : u = t
    · subst hu
      rw [update_self] at hv
      exact .inr (hafter v hv)
    rw [update_of_ne hu] at hv
    exact .inl hv
  cases h with
  | idle heven hidle hd =>
    refine .idle (hseq ▸ heven) (fun u v hv => ?_) (hdata ▸ hd)
    exact (hkeep u v hv).elim (hidle u v) id
  | held t' w hodd ht hmid hothers hbegan hvalue hraw hts =>
    have hne : t' ≠ t := by
      rintro rfl
      exact hbefore w ht hmid
    injection hdata with hv hr hstamp
    refine .held t' w (hseq ▸ hodd) (by rw [hcalls, update_of_ne hne, ht]) hmid
      (fun u v hu hv => (hkeep u v hv).elim (hothers u v hu) id) hbegan (fun hk => hv ▸ hvalue hk)
      (fun hk => hr ▸ hraw hk) (fun hk => hstamp ▸ hts hk)

theorem Exclusive.holder (h : Exclusive first s l) (ht : s.calls t = some w) (hmid : w.Mid) :
    s.slot.seq % 2 = 1 ∧ (∀ u v, u ≠ t → s.calls u = some v → ¬ v.Mid) ∧ .began w.data ∈ l ∧
      (2 ≤ w.stage → s.slot.value = w.data.value) ∧ (3 ≤ w.stage → s.slot.raw = w.data.raw) ∧
      (4 ≤ w.stage → s.slot.timestamp = w.data.timestamp) := by
  cases h with
  | idle heven hcalls => exact absurd hmid (hcalls t w ht)
  | held t' w' hodd ht' hmid' hothers hbegan hvalue hraw hts =>
    by_cases htt : t = t'
    · subst htt
      obtain rfl : w' = w := some.inj (ht'.symm.trans ht)
      exact ⟨hodd, hothers, hbegan, hvalue, hraw, hts⟩
    · exact absurd hmid (hothers t w htt ht)

theorem ops_stage (hop : w.ops[w.stage]? = some op) :
    (w.stage = 0 ∧ op = .beginWrite) ∨ (w.stage = 1 ∧ op = .storeValue w.data.value) ∨
      (w.stage = 2 ∧ op = .storeRaw w.data.raw) ∨
      (w.stage = 3 ∧ op = .storeTimestamp w.data.timestamp) ∨ (w.stage = 4 ∧ op = .endWrite) ∨
      (w.stage = 5 ∧ op = .storeDirty) := by
  obtain ⟨data, stage⟩ := w
  have hlt : stage < 6 := (List.getElem?_eq_some_iff.mp hop).1
  simp only at hop ⊢
  interval_cases stage <;> simp_all [Write.ops, setOps]

/-- What an access does to the counter, by the part of the call it belongs to. -/
inductive Access (s s' : SlotRace) (events : List RaceEvent) : Prop
  | enter (data : SlotData) (heven : s.slot.seq % 2 = 0)
      (hseq : s'.slot.seq = (s.slot.seq + 1) % 2 ^ 32) (hevents : events = [.began data])
  | fill (hodd : s.slot.seq % 2 = 1) (hseq : s'.slot.seq = s.slot.seq) (hevents : events = [])
  | leave (hodd : s.slot.seq % 2 = 1) (hseq : s'.slot.seq = (s.slot.seq + 1) % 2 ^ 32)
      (hevents : events = [.completed])
  | outside (hseq : s'.slot.seq = s.slot.seq) (hdata : s'.slot.data = s.slot.data)
      (hevents : events = [])

theorem Exclusive.fill (h : Exclusive first s l) (ht : s.calls t = some w) (hmid : w.Mid)
    (hstage : w.stage ≠ 4) (hseq : (op.apply s.slot).seq = s.slot.seq)
    (hvalue : 2 ≤ w.stage + 1 → (op.apply s.slot).value = w.data.value)
    (hraw : 3 ≤ w.stage + 1 → (op.apply s.slot).raw = w.data.raw)
    (hts : 4 ≤ w.stage + 1 → (op.apply s.slot).timestamp = w.data.timestamp) :
    Exclusive first (s.perform t w op) l := by
  obtain ⟨hodd, hothers, hbegan, -⟩ := h.holder ht hmid
  obtain ⟨hlow, hhigh⟩ := hmid
  refine .held t { w with stage := w.stage + 1 } (hseq.symm ▸ hodd) (perform_calls_self ..)
    ⟨by simp, by simp only; omega⟩ (fun u v hu hv => ?_) hbegan hvalue hraw hts
  exact hothers u v hu (perform_calls_of_ne hu ▸ hv)

/-- **One access**: exclusion is kept, and the access is of one of the four kinds. -/
theorem Exclusive.perform (h : Exclusive first s l) (ht : s.calls t = some w)
    (hop : w.ops[w.stage]? = some op) (hassert : w.stage = 0 → s.slot.seq % 2 = 0) :
    Exclusive first (s.perform t w op) (l ++ eventsOf w.data op) ∧
      Access s (s.perform t w op) (eventsOf w.data op) := by
  rcases ops_stage hop with ⟨hk, rfl⟩ | ⟨hk, rfl⟩ | ⟨hk, rfl⟩ | ⟨hk, rfl⟩ | ⟨hk, rfl⟩ | ⟨hk, rfl⟩
  · have heven := hassert hk
    refine ⟨?_, .enter w.data heven rfl rfl⟩
    cases h with
    | held t' w' hodd => omega
    | idle _ hcalls hdata =>
      refine .held t { w with stage := w.stage + 1 } ?_ (perform_calls_self ..)
        ⟨by simp, by simp [hk]⟩ (fun u v hu hv => ?_) (by simp [eventsOf]) (by simp [hk])
        (by simp [hk]) (by simp [hk])
      · simp only [perform_slot, SlotOp.apply]
        omega
      · exact hcalls u v (perform_calls_of_ne hu ▸ hv)
  · have hmid : w.Mid := ⟨by omega, by omega⟩
    obtain ⟨hodd, -⟩ := h.holder ht hmid
    refine ⟨Exclusive.mono (h.fill ht hmid (by omega) rfl (fun _ => rfl) ?_ ?_),
      .fill hodd rfl rfl⟩ <;> intro <;> omega
  · have hmid : w.Mid := ⟨by omega, by omega⟩
    obtain ⟨hodd, -, -, hvalue, -⟩ := h.holder ht hmid
    refine ⟨Exclusive.mono (h.fill ht hmid (by omega) rfl (fun _ => hvalue (by omega))
      (fun _ => rfl) ?_), .fill hodd rfl rfl⟩
    intro
    omega
  · have hmid : w.Mid := ⟨by omega, by omega⟩
    obtain ⟨hodd, -, -, hvalue, hraw, -⟩ := h.holder ht hmid
    exact ⟨Exclusive.mono (h.fill ht hmid (by omega) rfl (fun _ => hvalue (by omega))
      (fun _ => hraw (by omega)) (fun _ => rfl)), .fill hodd rfl rfl⟩
  · have hmid : w.Mid := ⟨by omega, by omega⟩
    obtain ⟨hodd, hothers, hbegan, hvalue, hraw, hts⟩ := h.holder ht hmid
    refine ⟨.idle ?_ (fun u v hv => ?_) (.inr ?_), .leave hodd rfl rfl⟩
    · simp only [perform_slot, SlotOp.apply]
      omega
    · by_cases hu : u = t
      · subst hu
        rw [perform_calls_self] at hv
        cases hv
        simp [Write.Mid, hk]
      · exact hothers u v hu (perform_calls_of_ne hu ▸ hv)
    have hdata : (s.perform t w .endWrite).slot.data = w.data := by
      simp only [perform_slot, SlotOp.apply, PointSlot.data, hvalue (by omega : 2 ≤ w.stage),
        hraw (by omega : 3 ≤ w.stage), hts (by omega : 4 ≤ w.stage)]
    rw [hdata]
    exact mem_append_left _ hbegan
  have hbefore : ¬ w.Mid := by simp [Write.Mid, hk]
  refine ⟨Exclusive.mono (h.outside rfl rfl rfl ?_ ?_), .outside rfl rfl rfl⟩
  · intro w' hw'
    rwa [some.inj (hw'.symm.trans ht)]
  intro w' hw'
  cases hw'
  simp [Write.Mid, hk]

/-- **One step of a writer.** -/
theorem Exclusive.step {x : RaceStep} (h : Exclusive first s l) (hassert : s.Asserted x)
    (hx : x ≠ .load) :
    Exclusive first (s.step x).1 (l ++ (s.step x).2) ∧ Access s (s.step x).1 (s.step x).2 ∧
      (s.step x).1.reader = s.reader := by
  have hstay : Exclusive first s (l ++ []) ∧ Access s s [] ∧ s.reader = s.reader :=
    ⟨h.mono, .outside rfl rfl rfl, rfl⟩
  cases x with
  | load => exact absurd rfl hx
  | call thread data =>
    simp only [SlotRace.step]
    cases ht : s.calls thread with
    | some w => exact hstay
    | none =>
      refine ⟨Exclusive.mono (h.outside rfl rfl rfl (by simp [ht]) ?_), .outside rfl rfl rfl, rfl⟩
      intro w hw
      cases hw
      simp [Write.Mid]
  | store thread =>
    simp only [SlotRace.step]
    cases ht : s.calls thread with
    | none => exact hstay
    | some w =>
      dsimp only
      cases hop : w.ops[w.stage]? with
      | some op =>
        obtain ⟨hex, hacc⟩ := h.perform ht hop (hassert w ht)
        exact ⟨hex, hacc, rfl⟩
      | none =>
        have hge : 6 ≤ w.stage := List.getElem?_eq_none_iff.mp hop
        refine ⟨Exclusive.mono (h.outside rfl rfl rfl ?_ (by simp)), .outside rfl rfl rfl, rfl⟩
        intro w' hw'
        obtain rfl := some.inj (hw'.symm.trans ht)
        rintro ⟨-, hle⟩
        omega

/-! ## Reads -/

/-- A first increment. -/
def isBegan : RaceEvent → Bool
  | .began _ => true
  | .completed | .opened | .returned _ => false

/-- The slot as a cell. -/
def cell (first : PointSlot) (s : SlotRace) (l : List RaceEvent) : Cell SlotData :=
  ⟨s.slot.data, s.slot.seq, decide (s.slot.seq % 2 = 1), first.seq / 2 + l.countP isBegan⟩

section Cells

variable (first l)

theorem windowCompletions_began (d : SlotData) :
    windowCompletions (l ++ [.began d]) = windowCompletions l := by
  simp [windowCompletions]

theorem windowCompletions_completed :
    windowCompletions (l ++ [.completed]) = windowCompletions l + 1 := by
  simp [windowCompletions]

theorem windowCompletions_opened : windowCompletions (l ++ [.opened]) = 0 := by
  simp [windowCompletions]

theorem writing_of_odd (h : s.slot.seq % 2 = 1) : (s.cell first l).writing = true := by
  simp [cell, h]

theorem writing_of_even (h : s.slot.seq % 2 = 0) : (s.cell first l).writing = false := by
  simp [cell, h]

end Cells

theorem version_began (s s' : SlotRace) (first : PointSlot) (l : List RaceEvent) (data : SlotData) :
    (s'.cell first (l ++ [.began data])).version = (s.cell first l).version + 1 := by
  simp [cell, isBegan, Nat.add_assoc]

theorem version_completed (s s' : SlotRace) (first : PointSlot) (l : List RaceEvent) :
    (s'.cell first (l ++ [.completed])).version = (s.cell first l).version := by
  simp [cell, isBegan]

theorem Access.later {events : List RaceEvent} (h : Access s s' events)
    (hok : (s.cell first l).Ok 32) :
    Cell.Later 32 (s.cell first l) (s'.cell first (l ++ events)) ∧
      windowCompletions (l ++ events) + (s.cell first l).version +
          (s'.cell first (l ++ events)).writing.toNat =
        windowCompletions l + (s'.cell first (l ++ events)).version +
          (s.cell first l).writing.toNat := by
  have hseq : s.slot.seq = (s.cell first l).count % 2 ^ 32 := hok.seq_eq
  cases h with
  | enter data heven hseq' hevents =>
    subst hevents
    have hidle := writing_of_even first l heven
    have hwriting := writing_of_odd first (l ++ [.began data])
      (by omega : s'.slot.seq % 2 = 1)
    have hversion := version_began s s' first l data
    refine ⟨⟨by omega, fun hv => by omega, fun _ => ⟨?_, fun _ => by omega⟩⟩, ?_⟩
    · change s'.slot.seq = _
      rw [Cell.count_eq_of_not_writing hidle] at hseq
      rw [Cell.count_eq_of_writing hwriting, hversion, hseq', hseq]
      omega
    rw [windowCompletions_began, hidle, hwriting, hversion, Bool.toNat_true, Bool.toNat_false]
    omega
  | fill hodd hseq' hevents =>
    subst hevents
    have hwriting := writing_of_odd first l hodd
    have hcount : (s'.cell first (l ++ [])).count = (s.cell first l).count := by
      simp [cell, Cell.count, hseq']
    refine ⟨⟨by simp [cell], fun _ hidle => ?_, fun _ => ⟨?_, fun _ => ?_⟩⟩, by simp [cell, hseq']⟩
    · rw [hwriting] at hidle
      cases hidle
    · rw [hcount, ← hseq, ← hseq']
      rfl
    · simpa [cell] using hok.begun hwriting
  | leave hodd hseq' hevents =>
    subst hevents
    have hwriting := writing_of_odd first l hodd
    have hidle := writing_of_even first (l ++ [.completed])
      (by omega : s'.slot.seq % 2 = 0)
    have hversion := version_completed s s' first l
    have hbegun := hok.begun hwriting
    refine ⟨⟨by omega, fun _ h => ?_, fun _ => ⟨?_, fun _ => by omega⟩⟩, ?_⟩
    · rw [hwriting] at h
      cases h
    · change s'.slot.seq = _
      rw [Cell.count_eq_of_writing hwriting] at hseq
      rw [Cell.count_eq_of_not_writing hidle, hversion, hseq', hseq]
      omega
    rw [windowCompletions_completed, hidle, hwriting, hversion, Bool.toNat_true,
      Bool.toNat_false]
    omega
  | outside hseq' hdata hevents =>
    subst hevents
    have hcell : s'.cell first (l ++ []) = s.cell first l := by
      simp [cell, hseq', hdata]
    rw [hcell]
    exact ⟨.refl _, by rw [append_nil]⟩

/-- The counter the read saw first. -/
def seqOf : ReaderPhase → Option Nat
  | .idle => none
  | .counted seq1 | .valued seq1 _ | .rawed seq1 _ _ | .stamped seq1 _ _ _ => some seq1

/-- The loads are of `d`. -/
def Agrees (d : SlotData) : ReaderPhase → Prop
  | .idle | .counted _ => True
  | .valued _ value => value = d.value
  | .rawed _ value raw => value = d.value ∧ raw = d.raw
  | .stamped _ value raw timestamp => value = d.value ∧ raw = d.raw ∧ timestamp = d.timestamp

/-- A read opened at the cell `c`, `n` calls completed since, and the cell is now `cur`: its loads
are of `c` unless a call has begun. -/
structure Reading (cur c : Cell SlotData) (n : Nat) (phase : ReaderPhase) : Prop where
  ok : c.Ok 32
  seq : seqOf phase = some c.seq
  even : c.seq % 2 = 0
  later : c.Later 32 cur
  completions : n + c.version + cur.writing.toNat = cur.version
  agrees : cur.version = c.version → Agrees c.data phase

variable {phase : ReaderPhase}

theorem Reading.data_eq {cur c : Cell SlotData} {n : Nat} (h : Reading cur c n phase)
    (hv : cur.version = c.version) : cur.data = c.data :=
  (h.later.stable hv (h.ok.writing_eq_false (by decide) h.even)).2

theorem Reading.advance {cur cur' c : Cell SlotData} {n n' : Nat} (h : Reading cur c n phase)
    (hlater : cur.Later 32 cur')
    (hn : n' + cur.version + cur'.writing.toNat = n + cur'.version + cur.writing.toNat) :
    Reading cur' c n' phase where
  ok := h.ok
  seq := h.seq
  even := h.even
  later := h.later.trans hlater
  completions := by
    have := h.completions
    omega
  agrees hv := by
    have hle := h.later.version_le
    have hle' := hlater.version_le
    exact h.agrees (by omega)

theorem Reading.load {cur c : Cell SlotData} {n : Nat} {phase' : ReaderPhase}
    (h : Reading cur c n phase) (hseq : seqOf phase' = seqOf phase)
    (hagrees : Agrees cur.data phase → Agrees cur.data phase') : Reading cur c n phase' where
  ok := h.ok
  seq := hseq.trans h.seq
  even := h.even
  later := h.later
  completions := h.completions
  agrees hv := by
    have hdata := h.data_eq hv
    exact hdata ▸ hagrees (hdata ▸ h.agrees hv)

/-- The invariant of a run. -/
structure RaceInv (first : PointSlot) (s : SlotRace) (l : List RaceEvent) : Prop where
  exclusive : Exclusive first s l
  ok : (s.cell first l).Ok 32
  reading : s.reader ≠ .idle → ∃ c, Reading (s.cell first l) c (windowCompletions l) s.reader
  returned : EachAt (OneWrite first) l

theorem OneWrite.of_other {e : RaceEvent} (he : ∀ d, e ≠ .returned (some d)) :
    OneWrite first l e := fun d hd => absurd hd (he d)

section Step

variable (h : RaceInv first s l)
include h

theorem RaceInv.writer {x : RaceStep} (hassert : s.Asserted x)
    (hx : x ≠ .load) : RaceInv first (s.step x).1 (l ++ (s.step x).2) := by
  obtain ⟨hex, hacc, hreader⟩ := h.exclusive.step hassert hx
  obtain ⟨hlater, hn⟩ := hacc.later h.ok
  refine ⟨hex, hlater.ok h.ok, fun hne => ?_, ?_⟩
  · rw [hreader] at hne ⊢
    obtain ⟨c, hc⟩ := h.reading hne
    exact ⟨c, hc.advance hlater hn⟩
  cases hacc with
  | enter data _ _ hevents => exact hevents ▸ h.returned.snoc (.of_other (by simp))
  | fill _ _ hevents | outside _ _ hevents => simpa [hevents] using h.returned
  | leave _ _ hevents => exact hevents ▸ h.returned.snoc (.of_other (by simp))

theorem RaceInv.load_field (hne : s.reader ≠ .idle) (hseq : seqOf phase = seqOf s.reader)
    (hagrees : Agrees s.slot.data s.reader → Agrees s.slot.data phase) :
    RaceInv first { s with reader := phase } (l ++ []) := by
  obtain ⟨c, hc⟩ := h.reading hne
  rw [append_nil]
  exact ⟨h.exclusive.of_reader phase, h.ok, fun _ => ⟨c, hc.load hseq hagrees⟩, h.returned⟩

/-- **The last load**: equal counters mean that nothing was written since the first. -/
theorem RaceInv.result {seq1 timestamp : Nat} {value raw : Float}
    (hr : s.reader = .stamped seq1 value raw timestamp) (hseq : seq1 = s.slot.seq) :
    OneWrite first l (.returned (some ⟨value, raw, timestamp⟩)) := by
  rintro d hd hwindow
  cases hd
  obtain ⟨c, hc⟩ := h.reading (by simp [hr])
  rw [hr] at hc
  have hseq1 : c.seq = s.slot.seq := (some.inj hc.seq).symm.trans hseq
  have heven : s.slot.seq % 2 = 0 := hseq1 ▸ hc.even
  have hidle := writing_of_even first l heven
  have hversion : (s.cell first l).version = c.version := by
    have hcompletions := hc.completions
    rw [hidle, Bool.toNat_false] at hcompletions
    exact hc.later.version_eq (by decide) hc.ok hc.even hseq1 (by omega)
  obtain ⟨rfl, rfl, rfl⟩ := hc.agrees hversion
  have hdata : s.slot.data = c.data := hc.data_eq hversion
  cases h.exclusive with
  | idle _ _ hstored => rwa [hdata] at hstored
  | held _ _ hodd => omega

theorem RaceInv.load : RaceInv first s.load.1 (l ++ s.load.2) := by
  unfold SlotRace.load
  cases hr : s.reader with
  | idle =>
    dsimp only
    split
    case isTrue hodd =>
      refine ⟨h.exclusive.mono, ?_, fun hne => absurd hr hne, ?_⟩
      · simpa [cell, isBegan] using h.ok
      rw [append_cons]
      exact (h.returned.snoc (.of_other (by simp))).snoc (.of_other (by simp))
    case isFalse heven =>
      have hcell : cell first { s with reader := .counted s.slot.seq } (l ++ [.opened]) =
          s.cell first l := by
        simp [cell, isBegan]
      refine ⟨(h.exclusive.of_reader _).mono, hcell ▸ h.ok, fun _ => ⟨s.cell first l, ?_⟩,
        h.returned.snoc (.of_other (by simp))⟩
      rw [hcell, windowCompletions_opened]
      refine ⟨h.ok, rfl, by simp only [cell]; omega, .refl _, ?_, fun _ => trivial⟩
      simp [cell, heven]
  | counted seq1 => exact h.load_field (by simp [hr]) (by rw [hr]; rfl) fun _ => rfl
  | valued seq1 value =>
    refine h.load_field (by simp [hr]) (by rw [hr]; rfl) fun hv => ?_
    rw [hr] at hv
    exact ⟨hv, rfl⟩
  | rawed seq1 value raw =>
    refine h.load_field (by simp [hr]) (by rw [hr]; rfl) fun hv => ?_
    rw [hr] at hv
    exact ⟨hv.1, hv.2, rfl⟩
  | stamped seq1 value raw timestamp =>
    have hcell : ∀ result, cell first { s with reader := .idle } (l ++ [.returned result]) =
        s.cell first l := by
      intro result
      simp [cell, isBegan]
    refine ⟨(h.exclusive.of_reader _).mono, hcell _ ▸ h.ok, fun hne => absurd rfl hne, ?_⟩
    dsimp only
    split
    case isTrue hseq => exact h.returned.snoc (h.result hr hseq)
    case isFalse => exact h.returned.snoc (.of_other (by simp))

theorem RaceInv.step (x : RaceStep) (hassert : s.Asserted x) :
    RaceInv first (machine.step s x).1 (l ++ (machine.step s x).2) := by
  cases x with
  | load => exact h.load
  | call | store => exact h.writer hassert (by simp)

end Step

/-- **A read returns the data of one call.**  From a slot without a write in progress, in every
interleaving whose calls all begin on an even counter, a read that returns data returns the initial
ones or those of one call, unless `2 ^ 31` calls completed between its two looks at the counter. -/
theorem read_one_write {first : PointSlot} (hu32 : first.seq < 2 ^ 32)
    (hfirst : first.seq % 2 = 0) {steps : List RaceStep}
    (hassert : machine.Along Asserted (start first) steps) :
    EachAt (OneWrite first) (machine.trace (start first) steps) := by
  have hinit : RaceInv first (start first) [] := by
    refine ⟨.idle hfirst (by simp [start]) (.inl rfl), ⟨?_, ?_⟩, fun h => absurd rfl h, .nil⟩
    · simp only [cell, start, Cell.count, hfirst, countP_nil, Nat.zero_ne_one, decide_false,
        Bool.toNat_false]
      omega
    · simp [cell, start, hfirst]
  exact (machine.invariant (RaceInv first) (fun s l x h ha => h.step x ha) hinit hassert).returned

private def sampleSlot : PointSlot := ⟨0, 100, 0, 2, 0⟩

private def wholeSet (thread : Nat) (data : SlotData) : List RaceStep :=
  .call thread data :: replicate 5 (.store thread)

theorem read_one_write_after_set :
    machine.Along Asserted (start sampleSlot)
        (wholeSet 0 ⟨5, 5, 200⟩ ++ replicate 5 .load) ∧
      .returned (some ⟨5, 5, 200⟩) ∈ machine.trace (start sampleSlot)
        (wholeSet 0 ⟨5, 5, 200⟩ ++ replicate 5 .load) ∧
      EachAt (OneWrite sampleSlot) (machine.trace (start sampleSlot)
        (wholeSet 0 ⟨5, 5, 200⟩ ++ replicate 5 .load)) :=
  ⟨by decide, by decide, read_one_write (by decide) (by decide) (by decide)⟩

/-- Two calls begin, which makes the counter even again; the first stores its value; a read returns
it with the old raw value and timestamp. -/
theorem overlapping_sets_tear :
    machine.trace (start sampleSlot)
        ([.call 0 ⟨5, 5, 200⟩, .call 1 ⟨7, 7, 300⟩, .store 0, .store 1, .store 0] ++
          replicate 5 .load) =
      [.began ⟨5, 5, 200⟩, .began ⟨7, 7, 300⟩, .opened, .returned (some ⟨5, 0, 100⟩)] ∧
    ¬ OneWrite sampleSlot [.began ⟨5, 5, 200⟩, .began ⟨7, 7, 300⟩, .opened]
      (.returned (some ⟨5, 0, 100⟩)) := by
  refine ⟨by decide, fun h => ?_⟩
  have htorn := h _ rfl (by decide)
  revert htorn
  decide

end SlotRace

end VoltageEMS.Shm
