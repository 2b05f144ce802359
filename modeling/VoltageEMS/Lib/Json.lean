import VoltageEMS.Lib.Text

/-!
# JSON values

JSON as serde keeps it, and how typed fields are read from it.

* `Json`, `JsonObject` — a value; an object is looked up by key (`get_insert`).
* `required`, `optional`, `withDefault` — the three ways a field may be declared.
-/

namespace VoltageEMS.Lib

open Option

/-- An integer of serde: an `i64` or a `u64`. -/
structure JsonInt where
  val : Int
  range : -2 ^ 63 ≤ val ∧ val < 2 ^ 64
deriving DecidableEq

/-- A JSON value. -/
inductive Json
  | null
  | bool (b : Bool)
  | int (i : JsonInt)
  | float (f : Float)
  | str (s : String)
  | arr (vs : List Json)
  | obj (fields : List (String × Json))

/-- An object, in the order of its keys. -/
abbrev JsonObject := List (String × Json)

namespace JsonObject

/-- `Map::get`. -/
def get : JsonObject → String → Option Json
  | [], _ => none
  | (k, v) :: o, key => if k = key then some v else get o key

/-- `Map::insert`. -/
def insert : JsonObject → String → Json → JsonObject
  | [], key, v => [(key, v)]
  | (k, old) :: o, key, v => if k = key then (key, v) :: o else (k, old) :: insert o key v

theorem get_insert (o : JsonObject) (key k : String) (v : Json) :
    get (insert o key v) k = if k = key then some v else get o k := by
  induction o with
  | nil => simp [insert, get, eq_comm]
  | cons e o ih =>
    obtain ⟨k', old⟩ := e
    unfold insert
    by_cases hk : k' = key
    · subst hk
      rw [if_pos rfl]
      by_cases hkey : k = k'
      · simp [get, hkey]
      · simp [get, hkey, Ne.symm hkey]
    rw [if_neg hk]
    by_cases hkey : k' = k
    · subst hkey
      simp [get, hk]
    · simp only [get, if_neg hkey, ih]

end JsonObject

namespace Json

/-- `as_u64`. -/
def asU64 : Json → Option Nat
  | int i => if 0 ≤ i.val then some i.val.toNat else none
  | _ => none

/-- `as_i64`. -/
def asI64 : Json → Option Int
  | int i => if i.val < 2 ^ 63 then some i.val else none
  | _ => none

/-- `as_str`. -/
def asStr : Json → Option String
  | str s => some s
  | _ => none

/-- An unsigned integer below `bound`. -/
def unsigned (bound : Nat) (v : Json) : Option Nat := v.asU64.filter (· < bound)

theorem unsigned_eq_some_iff {v : Json} {bound n : Nat} :
    v.unsigned bound = some n ↔ ∃ i : JsonInt, v = int i ∧ i.val = n ∧ n < bound := by
  cases v with
  | int i =>
    simp only [unsigned, asU64, filter_eq_some_iff, decide_eq_true_eq, int.injEq]
    constructor
    · rintro ⟨hn, hlt⟩
      split at hn <;> cases hn
      exact ⟨i, rfl, by omega, hlt⟩
    rintro ⟨_, rfl, hi, hlt⟩
    exact ⟨by rw [if_pos (by omega), hi, Int.toNat_natCast], hlt⟩
  | _ => simp [unsigned, asU64]

theorem asU64_int {i : JsonInt} {n : Nat} (h : i.val = n) : (int i).asU64 = some n := by
  rw [asU64, if_pos (by omega), h, Int.toNat_natCast]

/-- `f64`: any number. -/
def f64 : Json → Option Float
  | int i => some (Float.ofInt i.val)
  | float f => some f
  | _ => none

end Json

section Fields

variable {α : Type} (read : Json → Option α)

/-- A field that must be there. -/
def required : Option Json → Option α
  | none => none
  | some v => read v

/-- A field of type `Option` with a default. -/
def optional : Option Json → Option (Option α)
  | none | some .null => some none
  | some v => (read v).map some

/-- A field with a `serde` default. -/
def withDefault (d : α) : Option Json → Option α
  | none => some d
  | some v => read v

theorem optional_cases {read : Json → Option α} {x : Option Json} {y : Option α}
    (h : optional read x = some y) :
    (x = none ∧ y = none) ∨ (x = some .null ∧ y = none) ∨
      ∃ v a, x = some v ∧ v ≠ .null ∧ read v = some a ∧ y = some a := by
  unfold optional at h
  split at h
  · exact .inl ⟨rfl, (some.inj h).symm⟩
  · exact .inr (.inl ⟨rfl, (some.inj h).symm⟩)
  rename_i v hv
  obtain ⟨a, ha, rfl⟩ := map_eq_some_iff.mp h
  exact .inr (.inr ⟨v, a, rfl, hv, ha, rfl⟩)

/-- The fields of a struct, declared in the order of `names`. -/
def structFields (names : List String) : Json → Option JsonObject
  | .obj fields => some fields
  | .arr vs => if vs.length ≤ names.length then some (names.zip vs) else none
  | _ => none

end Fields

/-- `str::parse::<i64>`, as a JSON integer. -/
def parseI64 (s : String) : Option JsonInt :=
  (parseSigned 63 s).bind fun i => if h : -2 ^ 63 ≤ i ∧ i < 2 ^ 64 then some ⟨i, h⟩ else none

theorem parseSigned_of_parseI64 {s : String} {i : JsonInt} (h : parseI64 s = some i) :
    parseSigned 63 s = some i.val := by
  obtain ⟨n, hn, h⟩ := bind_eq_some_iff.mp h
  split at h <;> cases h
  exact hn

end VoltageEMS.Lib
