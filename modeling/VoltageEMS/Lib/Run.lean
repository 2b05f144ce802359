import Mathlib.Data.List.Basic

/-!
# Runs of a machine that emits events

A `Machine` takes one input at a time; every step yields the next state and the events it
emitted.  What the environment may choose (clock, replies, schedules) is part of the input, so a
statement about every list of inputs is a statement about every interleaving.

* `Machine.Along P` — every step of the run meets the condition `P` at the state it starts from.
* `Machine.invariant` — **the induction rule**: what one step preserves holds of the whole run.
* `EachAt Q` — every event of a log meets `Q` at the events before it.
-/

namespace VoltageEMS.Lib

open List

universe u v w

/-- A deterministic machine with inputs `ι` and emitted events `ω`. -/
structure Machine (σ : Type u) (ι : Type v) (ω : Type w) where
  step : σ → ι → σ × List ω

namespace Machine

variable {σ : Type u} {ι : Type v} {ω : Type w} (M : Machine σ ι ω)

/-- The state after the inputs, oldest first. -/
def run : σ → List ι → σ
  | s, [] => s
  | s, x :: xs => run (M.step s x).1 xs

/-- The events of the run. -/
def trace : σ → List ι → List ω
  | _, [] => []
  | s, x :: xs => (M.step s x).2 ++ trace (M.step s x).1 xs

/-- Every step of the run meets `P` at its own pre-state. -/
def Along (P : σ → ι → Prop) : σ → List ι → Prop
  | _, [] => True
  | s, x :: xs => P s x ∧ Along P (M.step s x).1 xs

instance Along.decidable (P : σ → ι → Prop) [∀ s x, Decidable (P s x)] :
    ∀ s xs, Decidable (M.Along P s xs)
  | _, [] => inferInstanceAs (Decidable True)
  | s, x :: xs =>
    have := Along.decidable P (M.step s x).1 xs
    inferInstanceAs (Decidable (P s x ∧ M.Along P (M.step s x).1 xs))

variable (s : σ) {Q : σ → ι → Prop} (x : ι) (xs : List ι)

@[simp] theorem run_nil : M.run s [] = s := rfl

@[simp] theorem run_cons : M.run s (x :: xs) = M.run (M.step s x).1 xs := rfl

@[simp] theorem trace_nil : M.trace s [] = [] := rfl

@[simp] theorem trace_cons :
    M.trace s (x :: xs) = (M.step s x).2 ++ M.trace (M.step s x).1 xs := rfl

theorem run_append (ys : List ι) : M.run s (xs ++ ys) = M.run (M.run s xs) ys := by
  induction xs generalizing s with
  | nil => rfl
  | cons x xs ih => exact ih (M.step s x).1

variable {P : σ → ι → Prop}

theorem along_mono (h : ∀ s x, P s x → Q s x) :
    ∀ {s : σ} {xs : List ι}, M.Along P s xs → M.Along Q s xs
  | _, [], _ => trivial
  | s, x :: _, ha => ⟨h s x ha.1, along_mono h ha.2⟩

theorem along_of_mem :
    ∀ (s : σ) (xs : List ι), (∀ x ∈ xs, ∀ s, P s x) → M.Along P s xs
  | _, [], _ => trivial
  | s, x :: xs, h => ⟨h x (mem_cons_self ..) s,
    along_of_mem (M.step s x).1 xs fun y hy => h y (mem_cons_of_mem x hy)⟩

theorem along_true : M.Along (fun _ _ => True) s xs :=
  M.along_of_mem s xs fun _ _ _ => trivial

theorem along_and_mem {Q : ι → Prop} :
    ∀ {s : σ} {xs : List ι}, M.Along P s xs → (∀ x ∈ xs, Q x) →
      M.Along (fun s x => P s x ∧ Q x) s xs
  | _, [], _, _ => trivial
  | _, x :: _, ha, hq =>
    ⟨⟨ha.1, hq x (mem_cons_self ..)⟩,
      along_and_mem ha.2 fun y hy => hq y (mem_cons_of_mem x hy)⟩

theorem along_of_invariant (Inv : σ → Prop) {Q : σ → ι → Prop}
    (hstep : ∀ s x, Inv s → P s x → Inv (M.step s x).1) (hQ : ∀ s x, Inv s → P s x → Q s x) :
    ∀ {s : σ} {xs : List ι}, Inv s → M.Along P s xs → M.Along Q s xs
  | _, [], _, _ => trivial
  | s, x :: _, hi, ha =>
    ⟨hQ s x hi ha.1, along_of_invariant Inv hstep hQ (hstep s x hi ha.1) ha.2⟩

/-- **The invariant rule.**  `Inv` relates a state to the events emitted so far. -/
theorem invariant (Inv : σ → List ω → Prop)
    (hstep : ∀ s l x, Inv s l → P s x → Inv (M.step s x).1 (l ++ (M.step s x).2)) :
    ∀ {xs : List ι} {s : σ} {l : List ω}, Inv s l → M.Along P s xs →
      Inv (M.run s xs) (l ++ M.trace s xs)
  | [], s, l, hi, _ => by simpa using hi
  | x :: xs, s, l, hi, ha => by
    have h := invariant Inv hstep (hstep s l x hi ha.1) ha.2
    simpa [append_assoc] using h

end Machine

/-! ## Logs -/

/-- Every event of the log meets `Q` at the log before it. -/
def EachAt {ω : Type w} (Q : List ω → ω → Prop) (l : List ω) : Prop :=
  ∀ before e after, l = before ++ e :: after → Q before e

variable {ω : Type w} {Q : List ω → ω → Prop}

theorem EachAt.nil : EachAt Q [] := by
  intro before e after h
  simp at h

theorem EachAt.snoc {l : List ω} {e : ω} (h : EachAt Q l) (he : Q l e) : EachAt Q (l ++ [e]) := by
  intro before x after heq
  rcases eq_nil_or_concat after with rfl | ⟨after, y, rfl⟩
  · obtain ⟨rfl, hx⟩ := append_inj' heq rfl
    rwa [← head_eq_of_cons_eq hx]
  have hsplit : l ++ [e] = (before ++ x :: after) ++ [y] := by simpa using heq
  exact h before x after (append_inj' hsplit rfl).1

end VoltageEMS.Lib
