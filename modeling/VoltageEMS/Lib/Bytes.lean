import Mathlib

/-!
# Little-endian fields in a byte buffer

* `field_flatMap` — in a table of records of one size, the record at an index.
-/

namespace VoltageEMS.Lib

open List

/-- The `w` low bytes of `n`, little-endian. -/
def leBytes : (w n : Nat) → List UInt8
  | 0, _ => []
  | w + 1, n => UInt8.ofNat (n % 256) :: leBytes w (n / 256)

/-- The number the bytes stand for. -/
def ofLeBytes : List UInt8 → Nat
  | [] => 0
  | b :: bs => b.toNat + 256 * ofLeBytes bs

@[simp] theorem length_leBytes (w n : Nat) : (leBytes w n).length = w := by
  induction w generalizing n with
  | zero => rfl
  | succ w ih => simp [leBytes, ih]

theorem ofLeBytes_leBytes (w n : Nat) : ofLeBytes (leBytes w n) = n % 256 ^ w := by
  induction w generalizing n with
  | zero => simp [leBytes, ofLeBytes, Nat.mod_one]
  | succ w ih =>
    have hbyte : (UInt8.ofNat (n % 256)).toNat = n % 256 := by
      rw [UInt8.toNat_ofNat']
      omega
    rw [leBytes, ofLeBytes, ih, hbyte, Nat.pow_succ, Nat.mul_comm (256 ^ w), Nat.mod_mul]

theorem ofLeBytes_lt : ∀ bytes : List UInt8, ofLeBytes bytes < 256 ^ bytes.length
  | [] => Nat.one_pos
  | b :: bytes => by
    have hb := b.toNat_lt
    have hrest := ofLeBytes_lt bytes
    rw [ofLeBytes, length_cons, Nat.pow_succ]
    omega

variable {α : Type}

/-- `buf[start..start + len]`. -/
def field (buf : List α) (start len : Nat) : Option (List α) :=
  if start + len ≤ buf.length then some ((buf.drop start).take len) else none

theorem take_drop_of_field {buf bytes : List α} {start len : Nat}
    (h : field buf start len = some bytes) : (buf.drop start).take len = bytes := by
  unfold field at h
  split at h
  · exact Option.some.inj h
  · cases h

theorem field_append_left {buf rest : List α} {start len : Nat} (h : start + len ≤ buf.length) :
    field (buf ++ rest) start len = field buf start len := by
  have h' : start + len ≤ (buf ++ rest).length := by
    rw [length_append]
    omega
  rw [field, field, if_pos h, if_pos h', drop_append_of_le_length (by omega),
    take_append_of_le_length (by rw [length_drop]; omega)]

theorem field_append_right (buf rest : List α) (start len : Nat) :
    field (buf ++ rest) (buf.length + start) len = field rest start len := by
  have : buf.length + start + len ≤ (buf ++ rest).length ↔ start + len ≤ rest.length := by
    rw [length_append]
    omega
  simp only [field, this]
  rw [drop_append, drop_eq_nil_of_le (by omega), nil_append, Nat.add_sub_cancel_left]

theorem field_self (buf : List α) : field buf 0 buf.length = some buf := by
  simp [field]

theorem field_head {buf rest : List α} {len : Nat} (hl : buf.length = len) :
    field (buf ++ rest) 0 len = some buf := by
  subst hl
  rw [field_append_left (by omega), field_self]

theorem field_tail {buf rest : List α} {k start len : Nat} (hk : buf.length = k) (h : k ≤ start) :
    field (buf ++ rest) start len = field rest (start - k) len := by
  subst hk
  rw [← field_append_right buf rest, Nat.add_sub_cancel' h]

theorem length_flatMap_eq_mul {β : Type} {l : List β} {f : β → List α} {k : Nat}
    (hk : ∀ x ∈ l, (f x).length = k) : (l.flatMap f).length = l.length * k := by
  rw [length_flatMap, map_congr_left hk, map_const', sum_replicate_nat]

theorem field_flatMap {β : Type} {f : β → List α} {k : Nat} :
    ∀ {l : List β} {i : Nat} {x : β}, (∀ x ∈ l, (f x).length = k) → l[i]? = some x →
      field (l.flatMap f) (k * i) k = some (f x)
  | [], _, _, _, h => by simp at h
  | y :: ys, 0, x, hk, h => by
    simp only [List.getElem?_cons_zero, Option.some.injEq] at h
    subst h
    rw [flatMap_cons, Nat.mul_zero, field_head (hk y (.head _))]
  | y :: ys, i + 1, x, hk, h => by
    rw [List.getElem?_cons_succ] at h
    rw [flatMap_cons, field_tail (hk y (.head _)) (Nat.le_mul_of_pos_right k (Nat.succ_pos i)),
      Nat.mul_succ, Nat.add_sub_cancel]
    exact field_flatMap (fun z hz => hk z (.tail _ hz)) h

end VoltageEMS.Lib
