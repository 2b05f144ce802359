import Mathlib

/-!
# Duplicate filters over wrapping sequence numbers

A receiver remembers the producer and the number of the last message it let through, and lets
a message of the same producer pass only if its number is newer, numbers being compared around
the `2 ^ 64` circle.

* `admitted_isChain` — from each passed message to the next of the same producer the numbers
  increase.
* `admitted_pairwise` — if no producer comes back after another one and the numbers of each
  producer stay within half the circle, no message passes twice.
-/

namespace VoltageEMS.Lib

open List

/-! ## The circle -/

/-- `u64::wrapping_sub`. -/
def wrappingSub (b a : Nat) : Nat := (b + 2 ^ 64 - a % 2 ^ 64) % 2 ^ 64

/-- `b` is newer than `a`. -/
def wrapLt (a b : Nat) : Prop := 0 < wrappingSub b a ∧ wrappingSub b a < 2 ^ 63

instance (a b : Nat) : Decidable (wrapLt a b) := inferInstanceAs (Decidable (_ ∧ _))

/-- `n` is at most half the circle after `base`. -/
def InWindow (base n : Nat) : Prop := n < 2 ^ 64 ∧ wrappingSub n base < 2 ^ 63

instance (base n : Nat) : Decidable (InWindow base n) := inferInstanceAs (Decidable (_ ∧ _))

theorem wrapLt_iff_of_inWindow {base a b : Nat} (ha : InWindow base a) (hb : InWindow base b) :
    wrapLt a b ↔ wrappingSub a base < wrappingSub b base := by
  unfold wrapLt InWindow wrappingSub at *
  omega

/-! ## The filter -/

/-- The later message of a producer has the newer number. -/
def Newer {π : Type} (x y : π × Nat) : Prop := x.1 = y.1 → wrapLt x.2 y.2

theorem nodup_of_pairwise_newer {π : Type} {l : List (π × Nat)} (h : l.Pairwise Newer) : l.Nodup := by
  refine h.imp ?_
  rintro x y hnewer rfl
  have := (hnewer rfl).1
  unfold wrappingSub at this
  omega

section
variable {π : Type} [DecidableEq π]

/-- Whether a message passes, given the last one that did. -/
def admits (last : Option (π × Nat)) (msg : π × Nat) : Bool :=
  match last with
  | none => true
  | some (producer, seq) => !(decide (producer = msg.1) && !decide (wrapLt seq msg.2))

/-- The messages that pass. -/
def admitted (last : Option (π × Nat)) : List (π × Nat) → List (π × Nat)
  | [] => []
  | msg :: rest =>
    if admits last msg then msg :: admitted (some msg) rest else admitted last rest

/-- The last message that passed. -/
def lastAdmitted (last : Option (π × Nat)) : List (π × Nat) → Option (π × Nat)
  | [] => last
  | msg :: rest => lastAdmitted (if admits last msg then some msg else last) rest

variable (last : Option (π × Nat))

theorem admitted_append (msgs more : List (π × Nat)) :
    admitted last (msgs ++ more) =
      admitted last msgs ++ admitted (lastAdmitted last msgs) more := by
  induction msgs generalizing last with
  | nil => rfl
  | cons msg rest ih =>
    simp only [cons_append, admitted, lastAdmitted]
    split
    · rw [ih, cons_append]
    · rw [ih]

theorem lastAdmitted_append (msgs more : List (π × Nat)) :
    lastAdmitted last (msgs ++ more) = lastAdmitted (lastAdmitted last msgs) more := by
  induction msgs generalizing last with
  | nil => rfl
  | cons msg rest ih => exact ih _

theorem mem_of_lastAdmitted {msgs : List (π × Nat)} {last : Option (π × Nat)} {m : π × Nat}
    (h : lastAdmitted last msgs = some m) : m ∈ last.toList ++ msgs := by
  induction msgs generalizing last with
  | nil =>
    cases last with
    | none => cases h
    | some last =>
      cases h
      simp
  | cons msg rest ih =>
    have hmem := ih h
    split at hmem
    · exact mem_append_right _ hmem
    rcases mem_append.mp hmem with hmem | hmem
    · exact mem_append_left _ hmem
    · exact mem_append_right _ (mem_cons_of_mem _ hmem)

theorem newer_of_admits {last msg : π × Nat} (h : admits (some last) msg = true) :
    Newer last msg := by
  intro hproducer
  simpa [admits, hproducer] using h

variable (msgs : List (π × Nat))

theorem admitted_isChain :
    (last.toList ++ admitted last msgs).IsChain Newer := by
  induction msgs generalizing last with
  | nil => cases last <;> simp [admitted]
  | cons msg rest ih =>
    unfold admitted
    split
    · rename_i hadmits
      have hrest := ih (some msg)
      cases last with
      | none => exact hrest
      | some last => exact List.IsChain.cons_cons (newer_of_admits hadmits) hrest
    · exact ih last

theorem admitted_sublist :
    (admitted last msgs).Sublist msgs := by
  induction msgs generalizing last with
  | nil => exact List.Sublist.slnil
  | cons msg rest ih =>
    unfold admitted
    split
    · exact (ih _).cons_cons msg
    · exact (ih _).cons msg

/-- No producer comes back after another one. -/
def NoReturn : List π → Prop
  | [] => True
  | p :: ps => p ∉ ps.dropWhile (· = p) ∧ NoReturn ps

instance NoReturn.decidable : ∀ ps : List π, Decidable (NoReturn ps)
  | [] => inferInstanceAs (Decidable True)
  | p :: ps =>
    have := NoReturn.decidable ps
    inferInstanceAs (Decidable (p ∉ ps.dropWhile (· = p) ∧ NoReturn ps))

theorem NoReturn.notMem {p q : π} {ps : List π} (h : NoReturn (p :: q :: ps)) (hne : q ≠ p) :
    p ∉ q :: ps := by
  have hfirst := h.1
  rwa [dropWhile_cons_of_neg (by simpa using hne)] at hfirst

/-- **All numbers of a producer increase** if producers do not come back and their numbers stay
within half the circle. -/
theorem admitted_pairwise {base : π → Nat}
    (hwindow : ∀ m ∈ last.toList ++ msgs, InWindow (base m.1) m.2)
    (hreturn : NoReturn ((last.toList ++ msgs).map Prod.fst)) :
    (last.toList ++ admitted last msgs).Pairwise Newer := by
  induction msgs generalizing last with
  | nil => cases last <;> simp [admitted]
  | cons msg rest ih =>
    unfold admitted
    split
    · rename_i hadmits
      cases last with
      | none => exact ih (some msg) hwindow hreturn
      | some last =>
        have hrest := ih (some msg) (fun m hm => hwindow m (mem_cons_of_mem _ hm)) hreturn.2
        refine pairwise_cons.mpr ⟨?_, hrest⟩
        have hnew : Newer last msg := newer_of_admits hadmits
        intro y hy hproducer
        have hin : ∀ m ∈ last :: msg :: rest, InWindow (base m.1) m.2 := hwindow
        rcases mem_cons.mp hy with rfl | hy
        · exact hnew hproducer
        have hyrest : y ∈ rest := (admitted_sublist _ _).mem hy
        by_cases hsame : msg.1 = last.1
        · -- within one producer the offsets increase
          have hlast := hin last (by simp)
          have hmsg := hin msg (by simp)
          have hy' := hin y (by simp [hyrest])
          rw [hsame] at hmsg
          rw [← hproducer] at hy'
          have h₁ := (wrapLt_iff_of_inWindow hlast hmsg).mp (hnew hsame.symm)
          have h₂ := (wrapLt_iff_of_inWindow hmsg hy').mp
            ((pairwise_cons.mp hrest).1 y hy (hsame.trans hproducer))
          exact (wrapLt_iff_of_inWindow hlast hy').mpr (h₁.trans h₂)
        have hnot := NoReturn.notMem hreturn hsame
        exact absurd (mem_cons_of_mem _ (mem_map.mpr ⟨y, hyrest, hproducer.symm⟩)) hnot
    · rename_i hadmits
      cases last with
      | none => simp [admits] at hadmits
      | some last =>
        have hsame : last.1 = msg.1 := by
          by_contra hne
          simp [admits, hne] at hadmits
        refine ih (some last) ?_ ?_
        · intro m hm
          apply hwindow m
          rcases mem_cons.mp hm with rfl | hm
          · exact mem_cons_self ..
          · exact mem_cons_of_mem _ (mem_cons_of_mem _ hm)
        have htail : NoReturn (msg.1 :: rest.map Prod.fst) := hreturn.2
        rw [← hsame] at htail
        exact htail

end

end VoltageEMS.Lib
