import VoltageEMS.Lib.Basic
import VoltageEMS.Lib.Run

/-!
# Functions with a state

The functions of voltage-calc that remember earlier calls (`builtin_functions.rs`, `state.rs`).  A call
reads the state under its key and writes it back as JSON, where a number that is not finite becomes
`null` and does not read back.

* `movingAvg_mean` — **a moving average is the mean of the last samples** in its window.
* `calls_ok` — calls do not fail as long as what they store is finite.
-/

namespace VoltageEMS.Calc

open Lib List Option

/-- What the functions need of `f64`. -/
class Number (F : Type) where
  ofInt : Int → F
  add : F → F → F
  sub : F → F → F
  mul : F → F → F
  div : F → F → F
  lt : F → F → Bool
  nan : F
  isFinite : F → Bool

instance : Number Float where
  ofInt := Float.ofInt
  add := (· + ·)
  sub := (· - ·)
  mul := (· * ·)
  div := (· / ·)
  lt x y := x < y
  nan := 0 / 0
  isFinite := Float.isFinite

/-- Exact numbers; 0 stands for `NaN`. -/
instance : Number ℚ where
  ofInt n := n
  add := (· + ·)
  sub := (· - ·)
  mul := (· * ·)
  div := (· / ·)
  lt x y := x < y
  nan := 0
  isFinite _ := true

open Number

/-- `CalcError`. -/
inductive CalcError
  | expression (message : String)
  | state (message : String)
  | function (message : String)
  | variableNotFound (message : String)
deriving DecidableEq

/-- `MovingAvgState`. -/
structure MovingAvgState (F : Type) where
  values : List F
  position : Nat
  count : Nat

/-- The states as they are stored. -/
inductive Saved (F : Type)
  | integrate (lastTs : Int) (accumulated : F)
  | movingAvg (s : MovingAvgState F)
  | rateOfChange (lastTs : Int) (lastValue : F)
  | periodDelta (snapshot : F) (periodStartTs : Int)

/-- The state store, by key. -/
abbrev Store (F : Type) := String → Option (Saved F)

/-- What a call does with the state read: its result, and the state to write. -/
abbrev Update (F : Type) := Option (Saved F) → Except CalcError (F × Option (Saved F))

section Functions

variable {F : Type} [Number F]

namespace MovingAvgState

/-- `new`. -/
def new (windowSize : Nat) : MovingAvgState F := ⟨replicate (max windowSize 1) (ofInt 0), 0, 0⟩

/-- `average`. -/
def average (s : MovingAvgState F) : F :=
  if s.count = 0 ∨ s.values.isEmpty then ofInt 0
  else
    let take := min s.count s.values.length
    Number.div ((s.values.take take).foldl Number.add (ofInt 0)) (ofInt take)

/-- `add`, with the new average; after the remainder the position is a slot. -/
def add (s : MovingAvgState F) (value : F) : MovingAvgState F × F :=
  let s := if s.values.isEmpty then ⟨[ofInt 0], 0, 0⟩ else s
  let position := s.position % s.values.length
  let s : MovingAvgState F := ⟨s.values.set position value, (position + 1) % s.values.length,
    if s.count < s.values.length then s.count + 1 else s.count⟩
  (s, s.average)

end MovingAvgState

/-- The numbers of a state. -/
def Saved.numbers : Saved F → List F
  | .integrate _ accumulated => [accumulated]
  | .movingAvg s => s.values
  | .rateOfChange _ lastValue => [lastValue]
  | .periodDelta snapshot _ => [snapshot]

/-- The error of a state that does not read back. -/
def undeserializable : CalcError :=
  .state "Failed to deserialize state: invalid type: null, expected f64"

/-- `serde_json::from_slice` of what `to_vec` has written. -/
def Saved.readBack (s : Saved F) : Except CalcError (Saved F) :=
  if s.numbers.all isFinite then .ok s else .error undeserializable

/-- `integrate`. -/
def integrate (now : Int) (value unitFactor : F) : Update F
  | none => .ok (ofInt 0, some (.integrate now (ofInt 0)))
  | some (.integrate lastTs accumulated) =>
    if now - lastTs ≤ 0 then .ok (accumulated, none)
    else
      let delta := mul (mul value (ofInt (now - lastTs))) unitFactor
      .ok (add accumulated delta, some (.integrate now (add accumulated delta)))
  | some _ => .error undeserializable

/-- `moving_avg`. -/
def movingAvg (value : F) (window : Nat) : Update F
  | none =>
    let (s, avg) := (MovingAvgState.new window).add value
    .ok (avg, some (.movingAvg s))
  | some (.movingAvg s) =>
    let (s, avg) := (if s.values.length ≠ window then .new window else s).add value
    .ok (avg, some (.movingAvg s))
  | some _ => .error undeserializable

/-- `rate_of_change`. -/
def rateOfChange (now : Int) (value : F) : Update F
  | none => .ok (nan, some (.rateOfChange now value))
  | some (.rateOfChange lastTs lastValue) =>
    let rate := if now - lastTs > 0 then div (sub value lastValue) (ofInt (now - lastTs)) else nan
    .ok (rate, some (.rateOfChange now value))
  | some _ => .error undeserializable

/-- `period_delta`, given the start of the present period. -/
def periodDelta (periodStart : Int) (value : F) : Update F
  | none => .ok (nan, some (.periodDelta value periodStart))
  | some (.periodDelta snapshot periodStartTs) =>
    let snapshot := if periodStart > periodStartTs then value else snapshot
    -- the counter was reset
    let snapshot := if lt value snapshot then value else snapshot
    .ok (sub value snapshot, some (.periodDelta snapshot
      (if periodStart > periodStartTs then periodStart else periodStartTs)))
  | some _ => .error undeserializable

/-- A call. -/
inductive Call (F : Type)
  | integrate (var : String) (value unitFactor : F)
  | movingAvg (var : String) (value : F) (window : Nat)
  | rateOfChange (var : String) (value : F)
  | periodDelta (var : String) (value : F) (period : String)

namespace Call

/-- The function in its key. -/
def func : Call F → String
  | integrate .. => "integrate"
  | movingAvg .. => "moving_avg"
  | rateOfChange .. => "rate"
  | periodDelta .. => "period_delta"

/-- The last part of the key. -/
def var : Call F → String
  | integrate var .. | movingAvg var .. | rateOfChange var _ => var
  | periodDelta var _ period => var ++ "_" ++ period

/-- Refused before the state is read. -/
def refused : Call F → Bool
  | movingAvg _ _ window => window = 0
  | _ => false

/-- `periodStart` is `get_period_start`. -/
def update (periodStart : Int → String → Int) (now : Int) : Call F → Update F
  | integrate _ value unitFactor => Calc.integrate now value unitFactor
  | movingAvg _ value window => Calc.movingAvg value window
  | rateOfChange _ value => Calc.rateOfChange now value
  | periodDelta _ value period => Calc.periodDelta (periodStart now period) value

end Call

/-- `state_key`. -/
def stateKey (context func var : String) : String :=
  "calc:state:" ++ context ++ ":" ++ func ++ ":" ++ var

/-- The key of its state. -/
def Call.key (context : String) (c : Call F) : String := stateKey context c.func c.var

/-- The state written, if any. -/
def Store.put (st : Store F) (key : String) : Option (Saved F) → Store F
  | none => st
  | some s => Function.update st key (some s)

variable (periodStart : Int → String → Int) (context : String)

/-- A call at a time: its result and the store after it. -/
def call (now : Int) (c : Call F) (st : Store F) : Except CalcError F × Store F :=
  if c.refused then (.error (.function "moving_avg: window must be >= 1 (got 0)"), st)
  else
    let key := c.key context
    match (st key).mapM Saved.readBack >>= c.update periodStart now with
    | .error e => (.error e, st)
    | .ok (r, new) => (.ok r, st.put key new)

/-- Calls one after the other. -/
def machine : Machine (Store F) (Int × Call F) (Except CalcError F) where
  step st x := ((call periodStart context x.1 x.2 st).2, [(call periodStart context x.1 x.2 st).1])

variable {periodStart context}

theorem call_eq {now : Int} {c : Call F} {st : Store F} {r : F} {new : Option (Saved F)}
    (hrefused : c.refused = false)
    (hfinite : ∀ s ∈ st (c.key context), ∀ x ∈ s.numbers, isFinite x)
    (hupdate : c.update periodStart now (st (c.key context)) = .ok (r, new)) :
    call periodStart context now c st = (.ok r, st.put (c.key context) new) := by
  have hread : (st (c.key context)).mapM Saved.readBack = .ok (st (c.key context)) := by
    cases hkey : st (c.key context) with
    | none => rfl
    | some s =>
      have hback : s.readBack = .ok s := if_pos (all_eq_true.mpr (hfinite s hkey))
      change s.readBack.map some = _
      rw [hback]
      rfl
  have hbind : (st (c.key context)).mapM Saved.readBack >>= c.update periodStart now = .ok (r, new) := by
    rw [hread]
    exact hupdate
  rw [call, if_neg (by simp [hrefused])]
  dsimp only
  rw [hbind]

end Functions

/-! ## Moving averages -/

/-- The slots from the position on are the older ones. -/
def MovingAvgState.Holds (s : MovingAvgState ℚ) (window : Nat) (history : List ℚ) : Prop :=
  ∃ newer older, s.values = newer ++ older ∧ s.values.length = window ∧ s.position = newer.length ∧
    older ≠ [] ∧
    (s.count = newer.length ∧ history = newer ∨
      s.count = window ∧ ∃ before, history = before ++ (older ++ newer))

/-- The mean. -/
def mean (l : List ℚ) : ℚ := l.sum / l.length

section MovingAvg

variable {s : MovingAvgState ℚ} {window : Nat} {history : List ℚ}

theorem MovingAvgState.holds_new (h : 1 ≤ window) :
    (new (F := ℚ) window).Holds window [] := by
  have hmax : max window 1 = window := max_eq_left h
  refine ⟨[], replicate window 0, by rw [new, hmax]; rfl, ?_, rfl, ?_, .inl ⟨rfl, rfl⟩⟩
  · rw [new, length_replicate, hmax]
  rw [Ne, replicate_eq_nil_iff]
  omega

theorem MovingAvgState.Holds.average (h : s.Holds window history) (hne : history ≠ []) :
    s.average = mean (history.rtake window) := by
  obtain ⟨newer, older, hvalues, hlength, -, holder, hcount⟩ := h
  have hsize : newer.length + older.length = window := by rw [← hlength, hvalues, length_append]
  have hmean : s.count ≠ 0 → s.average = mean (s.values.take s.count) := by
    intro hcount
    rw [MovingAvgState.average, if_neg (by simp [hcount, hvalues, holder]), mean, length_take,
      sum_eq_foldl, take_eq_take_min]
    rfl
  rcases hcount with ⟨hcount, rfl⟩ | ⟨hcount, before, rfl⟩
  · rw [hmean (by simpa [hcount] using hne), hvalues, hcount, take_left, rtake,
      Nat.sub_eq_zero_of_le (by omega), drop_zero]
  have hpos := length_pos_of_ne_nil holder
  have hlast : (before ++ (older ++ newer)).rtake window = older ++ newer :=
    drop_left' (by simp only [length_append]; omega)
  rw [hmean (by omega), hlast, hcount, ← hlength, take_length, hvalues]
  simp only [mean, sum_append, length_append, add_comm]

/-- A new sample takes the place of the oldest one. -/
theorem MovingAvgState.Holds.add (h : s.Holds window history) (value : ℚ) :
    (s.add value).1.Holds window (history ++ [value]) := by
  obtain ⟨newer, older, hvalues, hlength, hposition, hne, hcount⟩ := h
  obtain ⟨oldest, older, rfl⟩ := exists_cons_of_ne_nil hne
  have hsize : newer.length + 1 + older.length = window := by
    rw [← hlength, hvalues, length_append, length_cons]
    omega
  have hadd : (s.add value).1 = ⟨newer ++ value :: older, (newer.length + 1) % window,
      if s.count < window then s.count + 1 else s.count⟩ := by
    rw [MovingAvgState.add, if_neg (by simp [hvalues])]
    simp only [hlength, hposition, Nat.mod_eq_of_lt (show newer.length < window by omega)]
    rw [hvalues, set_append_right _ _ le_rfl, Nat.sub_self, set_cons_zero]
  have hcount' : (if s.count < window then s.count + 1 else s.count) = newer.length + 1 ∧
      history ++ [value] = newer ++ [value] ∨
      (if s.count < window then s.count + 1 else s.count) = window ∧
        ∃ before, history ++ [value] = before ++ (older ++ (newer ++ [value])) := by
    rcases hcount with ⟨hcount, rfl⟩ | ⟨hcount, before, rfl⟩
    · exact .inl ⟨by rw [hcount, if_pos (by omega)], rfl⟩
    · exact .inr ⟨by rw [hcount, if_neg (lt_irrefl _)], before ++ [oldest], by simp⟩
  rw [hadd]
  cases older with
  | nil =>
    -- the last slot was written, and the next one is the first
    have hfull : newer.length + 1 = window := hsize
    refine ⟨[], newer ++ [value], rfl, by simp [hfull], by simp [hfull], by simp, .inr ?_⟩
    rcases hcount' with ⟨hc, heq⟩ | ⟨hc, before, heq⟩
    · exact ⟨hc.trans hfull, [], by rw [heq, nil_append, append_nil]⟩
    · exact ⟨hc, before, by rw [heq, append_nil, nil_append]⟩
  | cons o older =>
    have hlt : newer.length + 1 < window := by
      rw [length_cons] at hsize
      omega
    refine ⟨newer ++ [value], o :: older, by simp, ?_, ?_, by simp, ?_⟩
    · simp only [length_append, length_cons] at hsize ⊢
      omega
    · rw [length_append, Nat.mod_eq_of_lt hlt, length_singleton]
    · rwa [length_append, length_singleton]

/-- What is stored for a moving average after some samples. -/
def Averages (context var : String) (window : Nat) (st : Store ℚ) (history : List ℚ) : Prop :=
  st (stateKey context "moving_avg" var) = none ∧ history = [] ∨
    ∃ s, st (stateKey context "moving_avg" var) = some (.movingAvg s) ∧ s.Holds window history

variable {periodStart : Int → String → Int} {context var : String} {st : Store ℚ}

theorem Averages.call (hw : 1 ≤ window) (h : Averages context var window st history) (now : Int)
    (value : ℚ) :
    (call periodStart context now (.movingAvg var value window) st).1 =
        .ok (mean ((history ++ [value]).rtake window)) ∧
      Averages context var window
        (call periodStart context now (.movingAvg var value window) st).2 (history ++ [value]) := by
  -- a buffer of the right size is there, or a new one is taken
  obtain ⟨s, hs, hupdate⟩ : ∃ s : MovingAvgState ℚ, s.Holds window history ∧
      movingAvg value window (st (stateKey context "moving_avg" var)) =
        .ok ((s.add value).2, some (.movingAvg (s.add value).1)) := by
    rcases h with ⟨hnone, rfl⟩ | ⟨s, hsome, hs⟩
    · exact ⟨_, MovingAvgState.holds_new hw, by rw [hnone]; rfl⟩
    have hlength : s.values.length = window := by
      obtain ⟨-, -, -, hlength, -⟩ := hs
      exact hlength
    refine ⟨s, hs, ?_⟩
    rw [hsome, movingAvg, if_neg (not_not.mpr hlength)]
  have hrefused : (Call.movingAvg var value window).refused = false := decide_eq_false (by omega)
  have hcall : Calc.call periodStart context now (.movingAvg var value window) st = _ :=
    call_eq hrefused (fun _ _ _ _ => rfl) hupdate
  rw [hcall]
  have hadd := hs.add value
  exact ⟨congrArg _ (hadd.average (by simp)), .inr ⟨_, Function.update_self .., hadd⟩⟩

end MovingAvg

/-- **The moving average** is the mean of the last samples, of as many as the window has or there
were. -/
theorem movingAvg_mean (periodStart : Int → String → Int) (context var : String) (window : Nat)
    (hw : 1 ≤ window) (samples : List (Int × ℚ)) (now : Int) (value : ℚ) :
    (call periodStart context now (.movingAvg var value window)
      ((machine periodStart context).run (fun _ => none)
        (samples.map fun x => (x.1, .movingAvg var x.2 window)))).1 =
      .ok (mean ((samples.map Prod.snd ++ [value]).rtake window)) := by
  have hrun : Averages context var window ((machine periodStart context).run (fun _ => none)
      (samples.map fun x => (x.1, .movingAvg var x.2 window))) (samples.map Prod.snd) := by
    induction samples using reverseRecOn with
    | nil => exact .inl ⟨rfl, rfl⟩
    | append_singleton samples x ih =>
      rw [map_append, map_append, Machine.run_append]
      exact (ih.call hw x.1 x.2).2
  exact (hrun.call hw now value).1

theorem movingAvg_mean_three :
    (call (fun _ _ => 0) "rule" 3 (.movingAvg "P" 6 2)
      ((machine (fun _ _ => 0) "rule").run (fun _ => none)
        ([(1, 10), (2, 4)].map fun x => (x.1, .movingAvg "P" x.2 2)))).1 = .ok (mean [4, 6]) :=
  movingAvg_mean (fun _ _ => 0) "rule" "P" 2 (by decide) [(1, 10), (2, 4)] 3 6

/-! ## Failing calls -/

section Failing

variable {F : Type}

/-- The function a state is of. -/
def Saved.func : Saved F → String
  | .integrate .. => "integrate"
  | .movingAvg _ => "moving_avg"
  | .rateOfChange .. => "rate"
  | .periodDelta .. => "period_delta"

theorem func_of_key {context : String} {c c' : Call F}
    (h : c.key context = c'.key context) :
    c.func = c'.func ∧ c.var = c'.var := by
  have hfunc : ∀ c : Call F, ':' ∉ c.func.toList := fun c => by cases c <;> simp [Call.func]
  have h := congrArg String.toList h
  simp only [Call.key, stateKey, String.toList_append, append_assoc, append_cancel_left_eq] at h
  obtain ⟨hf, hv⟩ := append_cons_inj (hfunc c) (hfunc c') h
  exact ⟨String.toList_inj.mp hf, String.toList_inj.mp hv⟩

end Failing

/-- What is stored reads back, and belongs to the function of its key. -/
def Intact (context : String) (st : Store Float) : Prop :=
  ∀ (c : Call Float) (s : Saved Float), st (c.key context) = some s →
    s.func = c.func ∧ ∀ x ∈ s.numbers, x.isFinite

/-- The number a call would store is finite; a first `integrate`, one without time between and a
`period_delta` above the snapshot store none. -/
def Call.Finite (periodStart : Int → String → Int) (now : Int) :
    Call Float → Option (Saved Float) → Prop
  | .integrate _ value unitFactor, some (.integrate lastTs accumulated) =>
    lastTs < now → (accumulated + value * Float.ofInt (now - lastTs) * unitFactor).isFinite
  | .integrate .., _ => True
  | .movingAvg _ value _, _ | .rateOfChange _ value, _ => value.isFinite
  | .periodDelta _ value period, some (.periodDelta snapshot periodStartTs) =>
    periodStartTs < periodStart now period ∨ value < snapshot → value.isFinite
  | .periodDelta _ value _, _ => value.isFinite

instance (periodStart : Int → String → Int) (now : Int) (c : Call Float)
    (saved : Option (Saved Float)) : Decidable (c.Finite periodStart now saved) := by
  unfold Call.Finite
  split <;> infer_instance

/-- A window has a size, and the number that is stored over the present state is finite. -/
def Storable (periodStart : Int → String → Int) (context : String) (st : Store Float)
    (x : Int × Call Float) : Prop :=
  x.2.refused = false ∧ x.2.Finite periodStart x.1 (st (x.2.key context))

instance (periodStart : Int → String → Int) (context : String) (st : Store Float)
    (x : Int × Call Float) : Decidable (Storable periodStart context st x) :=
  inferInstanceAs (Decidable (_ ∧ _))

theorem MovingAvgState.mem_add {s : MovingAvgState Float} {value x : Float}
    (hx : x ∈ (s.add value).1.values) : x ∈ s.values ∨ x = value ∨ x = 0 := by
  rw [MovingAvgState.add] at hx
  rcases mem_or_eq_of_mem_set hx with hx | rfl
  · split at hx
    · exact .inr (.inr (mem_singleton.mp hx))
    · exact .inl hx
  · exact .inr (.inl rfl)

theorem finite_zero : (0 : Float).isFinite := by
  decide +kernel

theorem MovingAvgState.finite_add {s : MovingAvgState Float} {value : Float}
    (hvalue : value.isFinite) (hs : ∀ x ∈ s.values, x.isFinite) :
    ∀ x ∈ (s.add value).1.values, x.isFinite := by
  intro x hx
  obtain hx | rfl | rfl := s.mem_add hx
  exacts [hs x hx, hvalue, finite_zero]

theorem MovingAvgState.finite_new (window : Nat) :
    ∀ x ∈ (MovingAvgState.new (F := Float) window).values, x.isFinite :=
  fun _ hx => (mem_replicate.mp hx).2 ▸ finite_zero

section Calls

variable {periodStart : Int → String → Int} {context : String} {now : Int} {st : Store Float}

theorem Call.update_ok (c : Call Float) (periodStart : Int → String → Int) (now : Int)
    {saved : Option (Saved Float)} (hfinite : c.Finite periodStart now saved)
    (hsaved : ∀ s ∈ saved, s.func = c.func ∧ ∀ x ∈ s.numbers, x.isFinite) :
    ∃ r new, c.update periodStart now saved = .ok (r, new) ∧
      ∀ s ∈ new, s.func = c.func ∧ ∀ x ∈ s.numbers, x.isFinite := by
  have hone : ∀ {x : Float}, x.isFinite → ∀ y ∈ [x], y.isFinite :=
    fun h => forall_mem_singleton.mpr h
  cases saved with
  | none =>
    cases c with
    | integrate => exact ⟨_, _, rfl, fun _ hs => mem_some_iff.mp hs ▸ ⟨rfl, hone finite_zero⟩⟩
    | movingAvg var value window =>
      exact ⟨_, _, rfl, fun _ hs => mem_some_iff.mp hs ▸ ⟨rfl,
        MovingAvgState.finite_add hfinite (MovingAvgState.finite_new window)⟩⟩
    | rateOfChange | periodDelta =>
      exact ⟨_, _, rfl, fun _ hs => mem_some_iff.mp hs ▸ ⟨rfl, hone hfinite⟩⟩
  | some s =>
    obtain ⟨hfunc, hs⟩ := hsaved s rfl
    cases c <;> cases s <;> simp [Saved.func, Call.func] at hfunc
    case integrate.integrate =>
      dsimp only [Call.update, Calc.integrate]
      split
      · exact ⟨_, _, rfl, fun _ hs => by cases hs⟩
      · rename_i hdt
        exact ⟨_, _, rfl, fun _ hs =>
          mem_some_iff.mp hs ▸ ⟨rfl, hone (hfinite (by omega))⟩⟩
    case movingAvg.movingAvg window s =>
      refine ⟨_, _, rfl, fun _ hs' => mem_some_iff.mp hs' ▸ ⟨rfl, MovingAvgState.finite_add hfinite ?_⟩⟩
      split
      · exact MovingAvgState.finite_new _
      · exact hs
    case rateOfChange.rateOfChange =>
      exact ⟨_, _, rfl, fun _ hs => mem_some_iff.mp hs ▸ ⟨rfl, hone hfinite⟩⟩
    case periodDelta.periodDelta =>
      refine ⟨_, _, rfl, fun _ hs' => mem_some_iff.mp hs' ▸ ⟨rfl, hone ?_⟩⟩
      have hsnapshot := hs _ (.head _)
      split_ifs
      · exact hfinite (.inl ‹_›)
      · exact hfinite (.inl ‹_›)
      · exact hfinite (.inr (of_decide_eq_true ‹_›))
      · exact hsnapshot

theorem Intact.call {c : Call Float} (h : Intact context st)
    (hx : Storable periodStart context st (now, c)) :
    (∃ r, (call periodStart context now c st).1 = .ok r) ∧
      Intact context (call periodStart context now c st).2 := by
  obtain ⟨r, new, hupdate, hnew⟩ := c.update_ok periodStart now hx.2 (h c)
  rw [call_eq hx.1 (fun s hs => (h c s hs).2) hupdate]
  refine ⟨⟨r, rfl⟩, fun c' s hs => ?_⟩
  cases new with
  | none => exact h c' s hs
  | some s' =>
    change Function.update st _ (some s') _ = some s at hs
    by_cases hkey : c'.key context = c.key context
    · rw [hkey, Function.update_self] at hs
      cases hs
      exact ⟨(hnew s rfl).1.trans (func_of_key hkey).1.symm, (hnew s rfl).2⟩
    rw [Function.update_of_ne hkey] at hs
    exact h c' s hs

end Calls

/-- **Calls do not fail** as long as the numbers they store are finite. -/
theorem calls_ok (periodStart : Int → String → Int) (context : String) (xs : List (Int × Call Float))
    (h : (machine periodStart context).Along (Storable periodStart context) (fun _ => none) xs) :
    ∀ r ∈ (machine periodStart context).trace (fun _ => none) xs, ∃ v, r = .ok v := by
  have hinv := (machine periodStart context).invariant
    (fun st l => Intact context st ∧ ∀ r ∈ l, ∃ v, r = .ok v) (l := []) (fun st l x hs hx => ?_)
    ⟨fun _ _ hs => (by cases hs), fun _ hr => (by cases hr)⟩ h
  · exact hinv.2
  obtain ⟨hok, hkeep⟩ := hs.1.call hx
  refine ⟨hkeep, fun r hr => ?_⟩
  rcases mem_append.mp hr with hr | hr
  · exact hs.2 r hr
  · exact mem_singleton.mp hr ▸ hok

/-- Samples that are not finite, where none is stored. -/
def unstoredNans : List (Int × Call Float) :=
  [(1, .integrate "E" nan 1), (1, .integrate "E" nan 1), (5, .integrate "E" 2 1),
   (6, .periodDelta "C" 100 "day"), (7, .periodDelta "C" nan "day"), (8, .periodDelta "C" 130 "day"),
   (9, .rateOfChange "P" 2), (9, .movingAvg "P" 4 2)]

theorem calls_ok_unstored :
    ((machine (fun _ _ => 0) "rule").trace (fun _ => none) unstoredNans).length = 8 ∧
      ∀ r ∈ (machine (fun _ _ => 0) "rule").trace (fun _ => none) unstoredNans, ∃ v, r = .ok v :=
  ⟨rfl, calls_ok (fun _ _ => 0) "rule" unstoredNans (by decide +kernel)⟩

/-- A rate of change that was given `NaN` fails from then on. -/
theorem rate_fails_after_nan :
    ¬ ∀ (periodStart : Int → String → Int) (context : String) (xs : List (Int × Call Float)),
      (∀ x ∈ xs, x.2.refused = false) →
      ∀ r ∈ (machine periodStart context).trace (fun _ => none) xs, ∃ v, r = .ok v := by
  intro h
  obtain ⟨v, hv⟩ := h (fun _ _ => 0) "rule" [(1, .rateOfChange "P" nan), (2, .rateOfChange "P" 1)]
    (by simp [Call.refused]) (.error undeserializable) (by decide +kernel)
  cases hv

end VoltageEMS.Calc
