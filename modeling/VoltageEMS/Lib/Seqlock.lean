import Mathlib.Algebra.Order.Ring.Nat
import Mathlib.Data.Int.ModEq

/-!
# Sequence locks

A cell is guarded by a counter of `w` bits that its writer increments before and after every
write, so that it is odd while a write is in progress.  A reader takes the counter, then the data
field by field, then the counter again, and uses the data if the two counters agree and are even.
The number of writes begun so far (`version`) is not stored anywhere; the counter is its image
modulo `2 ^ w`.

* `Later.version_eq` — **the window rule**: two even counters that agree, with fewer writes between
  them than the counter can tell apart, are of one version.
* `read_consistent` — **the read protocol**: until the counter wraps, a reader whose counters agree
  saw one version, the one the cell still holds.
-/

namespace VoltageEMS.Lib.Seqlock

/-- A guarded cell; `writing` holds between the two increments of a write. -/
structure Cell (δ : Type) where
  data : δ
  seq : Nat
  writing : Bool
  version : Nat

namespace Cell

variable {δ : Type} {w : Nat}

/-- The increments so far. -/
def count (c : Cell δ) : Nat := 2 * c.version - c.writing.toNat

/-- The counter counts the increments. -/
structure Ok (w : Nat) (c : Cell δ) : Prop where
  seq_eq : c.seq = c.count % 2 ^ w
  begun : c.writing = true → 0 < c.version

/-- The counter has not come round. -/
def Unwrapped (w : Nat) (c : Cell δ) : Prop := 2 * c.version < 2 ^ w

variable {c : Cell δ}

theorem Ok.seq_eq_count (h : c.Ok w) (hw : c.Unwrapped w) : c.seq = c.count := by
  rw [h.seq_eq, Nat.mod_eq_of_lt]
  exact (Nat.sub_le _ _).trans_lt hw

theorem count_eq_of_writing (h : c.writing = true) : c.count = 2 * c.version - 1 := by
  simp [count, h]

theorem count_eq_of_not_writing (h : c.writing = false) : c.count = 2 * c.version := by
  simp [count, h]

theorem Ok.writing_eq_false (h : c.Ok w) (hw : 0 < w) (heven : c.seq % 2 = 0) :
    c.writing = false := by
  cases hc : c.writing with
  | false => rfl
  | true =>
    have hpos := h.begun hc
    have hdvd : 2 ∣ 2 ^ w := dvd_pow_self 2 hw.ne'
    rw [h.seq_eq, Nat.mod_mod_of_dvd _ hdvd, count_eq_of_writing hc] at heven
    omega

theorem Ok.seq_even (h : c.Ok w) (hw : 0 < w) (hc : c.writing = false) : c.seq % 2 = 0 := by
  rw [h.seq_eq, Nat.mod_mod_of_dvd _ (dvd_pow_self 2 hw.ne'), count_eq_of_not_writing hc]
  omega

/-- `c'` is the cell at some later time: versions grow, finished data stay until the next write. -/
structure Later (w : Nat) (c c' : Cell δ) : Prop where
  version_le : c.version ≤ c'.version
  stable : c'.version = c.version → c.writing = false → c'.writing = false ∧ c'.data = c.data
  ok : c.Ok w → c'.Ok w

theorem Later.refl (c : Cell δ) : Later w c c := ⟨le_rfl, fun _ h => ⟨h, rfl⟩, id⟩

theorem Later.trans {a b : Cell δ} (hab : Later w a b) (hbc : Later w b c) : Later w a c where
  version_le := hab.version_le.trans hbc.version_le
  stable hv ha := by
    have hle := hab.version_le
    have hle' := hbc.version_le
    obtain ⟨hb, hdata⟩ := hab.stable (by omega) ha
    obtain ⟨hc, hdata'⟩ := hbc.stable (by omega) hb
    exact ⟨hc, hdata'.trans hdata⟩
  ok h := hbc.ok (hab.ok h)

theorem Later.unwrapped {c' : Cell δ} (h : Later w c c') (hw : c'.Unwrapped w) : c.Unwrapped w :=
  (Nat.mul_le_mul_left 2 h.version_le).trans_lt hw

theorem Later.count_le {c' : Cell δ} (h : Later w c c') : c.count ≤ c'.count := by
  rcases h.version_le.lt_or_eq with hlt | heq
  · have hle : c'.writing.toNat ≤ 1 := Bool.toNat_le _
    simp only [count]
    omega
  cases hc : c.writing with
  | true =>
    rw [count_eq_of_writing hc]
    have hle : c'.writing.toNat ≤ 1 := Bool.toNat_le _
    simp only [count]
    omega
  | false =>
    rw [count_eq_of_not_writing hc, count_eq_of_not_writing (h.stable heq.symm hc).1, heq]

/-- **The window rule.** -/
theorem Later.version_eq {d : Cell δ} (hw : 0 < w) (hok : c.Ok w) (h : Later w c d)
    (heven : c.seq % 2 = 0) (hseq : c.seq = d.seq) (hwindow : 2 * (d.version - c.version) < 2 ^ w) :
    d.version = c.version := by
  have hidle := hok.writing_eq_false hw heven
  have hdidle := (h.ok hok).writing_eq_false hw (hseq ▸ heven)
  have hle := h.version_le
  have hmod : 2 * c.version ≡ 2 * d.version [MOD 2 ^ w] := by
    have hc := hok.seq_eq
    have hd := (h.ok hok).seq_eq
    rw [count_eq_of_not_writing hidle] at hc
    rw [count_eq_of_not_writing hdidle] at hd
    exact hc.symm.trans (hseq.trans hd)
  have hdvd : 2 ^ w ∣ 2 * (d.version - c.version) := by
    rw [Nat.mul_sub]
    exact (Nat.modEq_iff_dvd' (Nat.mul_le_mul_left 2 hle)).mp hmod
  have hzero := Nat.eq_zero_of_dvd_of_lt hdvd hwindow
  omega

end Cell

open Cell

/-- **The read protocol.**  The data seen at `m`, between the looks `c` and `d` at the counter, are
those the cell holds at `d`. -/
theorem read_consistent {δ : Type} {w : Nat} {c m d : Cell δ} (hw : 0 < w) (hok : c.Ok w)
    (hcm : Later w c m) (hmd : Later w m d) (heven : c.seq % 2 = 0) (hseq : c.seq = d.seq)
    (hd : d.Unwrapped w) : d.writing = false ∧ m.data = d.data ∧ d.version = c.version := by
  have hcd := hcm.trans hmd
  have hidle := hok.writing_eq_false hw heven
  have hdidle := (hcd.ok hok).writing_eq_false hw (hseq ▸ heven)
  have hver := hcd.version_eq hw hok heven hseq
    ((Nat.mul_le_mul_left 2 (Nat.sub_le _ _)).trans_lt hd)
  have hle := hcm.version_le
  have hle' := hmd.version_le
  obtain ⟨hmidle, -⟩ := hcm.stable (by omega) hidle
  exact ⟨hdidle, ((hmd.stable (by omega) hmidle).2).symm, hver⟩

end VoltageEMS.Lib.Seqlock
