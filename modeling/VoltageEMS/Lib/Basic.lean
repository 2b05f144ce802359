import Mathlib

/-!
# Doubles, keys and maps

* `totalCmp` — IEEE 754 `totalOrder` on doubles; two doubles compare equal exactly when they are the
  same (`totalCmp_eq_iff`), unlike `==`, which identifies the zeros.
* `pairKey` — a text key `tag:i:j`, which determines its parts (`pairKey_inj`).
* `insertAll` — a map as a function, after a list of insertions: what it holds was inserted
  (`mem_of_insertAll`), the last insertion wins (`insertAll_eq_getLast`), other keys are untouched
  (`insertAll_of_notMem`).
* `bind_eq_ok_iff`, `mapM_eq_some_iff` — a computation succeeds when each of its steps does.
-/

namespace VoltageEMS.Lib

open List Option Function

/-! ## Total order -/

/-- The bits as a signed integer, the magnitude of negative numbers flipped. -/
def totalOrderKey (x : Float) : Int :=
  let b := x.toBits.toBitVec
  (b ^^^ (b.sshiftRight 63 >>> 1)).toInt

/-- `f64::total_cmp`. -/
def totalCmp (x y : Float) : Ordering := compare (totalOrderKey x) (totalOrderKey y)

theorem signMask (b : BitVec 64) :
    b.sshiftRight 63 >>> 1 = if b.msb then 0x7FFFFFFFFFFFFFFF#64 else 0#64 := by
  have hlt := b.isLt
  apply BitVec.eq_of_toNat_eq
  cases h : b.msb
  · have := BitVec.msb_eq_false_iff_two_mul_lt.mp h
    rw [BitVec.sshiftRight_eq_of_msb_false h]
    simp [Nat.shiftRight_eq_div_pow]
    omega
  have := BitVec.msb_eq_true_iff_two_mul_ge.mp h
  rw [BitVec.sshiftRight_eq_of_msb_true h]
  simp [Nat.shiftRight_eq_div_pow]
  omega

theorem totalOrderKey_injective : Function.Injective totalOrderKey := by
  intro x y h
  simp only [totalOrderKey, BitVec.toInt_inj, signMask] at h
  -- the mask leaves the sign alone, so both numbers were flipped with the same mask
  have hmsb : x.toBits.toBitVec.msb = y.toBits.toBitVec.msb := by
    have := congrArg BitVec.msb h
    simp only [BitVec.msb_xor] at this
    revert this
    cases x.toBits.toBitVec.msb <;> cases y.toBits.toBitVec.msb <;> decide
  rw [hmsb, BitVec.xor_left_inj] at h
  exact Float.toBits_inj.mp (UInt64.toBitVec_inj.mp h)

theorem totalCmp_eq_iff {x y : Float} : totalCmp x y = .eq ↔ x = y := by
  unfold totalCmp
  rw [compare_eq_iff_eq]
  exact totalOrderKey_injective.eq_iff

theorem isNaN_of_isFinite {x : Float} (h : x.isFinite = true) : x.isNaN = false := by
  unfold Float.isFinite Float.Model.isFinite at h
  unfold Float.isNaN Float.Model.isNaN
  cases hx : x.toModel.unpack with
  | notANumber => rw [hx] at h; cases h
  | infinity | zero | finite => rfl

/-! ## Keys -/

/-- A text key `tag:i:j`. -/
def pairKey (tag : Char) (i j : Nat) : String :=
  String.singleton tag ++ ":" ++ toString i ++ ":" ++ toString j

theorem notMem_toDigits {c : Char} (hc : c.isDigit = false) (n : Nat) : c ∉ Nat.toDigits 10 n := by
  intro h
  have hdigit := Nat.isDigit_of_mem_toDigits (by decide) (by decide) h
  exact Bool.false_ne_true (hc.symm.trans hdigit)

theorem colon_notMem_toDigits (n : Nat) : ':' ∉ Nat.toDigits 10 n := notMem_toDigits (by decide) n

theorem pairKey_toList (tag : Char) (i j : Nat) :
    (pairKey tag i j).toList = tag :: ':' :: (Nat.toDigits 10 i ++ ':' :: Nat.toDigits 10 j) := by
  simp [pairKey, String.toList_append]

theorem toDigits_inj {m n : Nat} (h : Nat.toDigits 10 m = Nat.toDigits 10 n) : m = n :=
  Nat.repr_injective (by rw [Nat.repr_eq_ofList_toDigits, Nat.repr_eq_ofList_toDigits, h])

theorem pairKey_inj {tag tag' : Char} {i i' j j' : Nat} (h : pairKey tag i j = pairKey tag' i' j') :
    tag = tag' ∧ i = i' ∧ j = j' := by
  have h' := congrArg String.toList h
  rw [pairKey_toList, pairKey_toList, cons.injEq, cons.injEq,
    append_cons_inj_of_notMem (colon_notMem_toDigits i) (colon_notMem_toDigits j)] at h'
  exact ⟨h'.1, toDigits_inj h'.2.2.1, toDigits_inj h'.2.2.2.2⟩

/-- A text key `i:tag:j`. -/
def tripleKey (i : Nat) (tag : String) (j : Nat) : String :=
  toString i ++ ":" ++ tag ++ ":" ++ toString j

variable {α : Type}

theorem append_cons_inj {a : α} {x x' z z' : List α} (hx : a ∉ x) (hx' : a ∉ x')
    (h : x ++ a :: z = x' ++ a :: z') : x = x' ∧ z = z' := by
  induction x generalizing x' with
  | nil =>
    cases x' with
    | nil => exact ⟨rfl, (cons.inj h).2⟩
    | cons c x' => exact absurd (.head _) ((cons.inj h).1 ▸ hx')
  | cons c x ih =>
    cases x' with
    | nil => exact absurd (.head _) ((cons.inj h).1 ▸ hx)
    | cons c' x' =>
      obtain ⟨rfl, htail⟩ := cons.inj h
      obtain ⟨rfl, hz⟩ :=
        ih (not_mem_of_not_mem_cons hx) (not_mem_of_not_mem_cons hx') htail
      exact ⟨rfl, hz⟩

theorem tripleKey_inj {i i' j j' : Nat} {tag tag' : String} (htag : ':' ∉ tag.toList)
    (htag' : ':' ∉ tag'.toList) (h : tripleKey i tag j = tripleKey i' tag' j') :
    i = i' ∧ tag = tag' ∧ j = j' := by
  have h' := congrArg String.toList h
  simp only [tripleKey, String.toList_append, Nat.toString_eq_repr, Nat.toList_repr,
    append_assoc] at h'
  obtain ⟨hi, h'⟩ := append_cons_inj (colon_notMem_toDigits i) (colon_notMem_toDigits i') h'
  obtain ⟨ht, hj⟩ := append_cons_inj htag htag' h'
  exact ⟨toDigits_inj hi, String.toList_inj.mp ht, toDigits_inj hj⟩

/-! ## Maps -/

section Maps

variable {κ : Type} {β : Type} [DecidableEq κ]

/-- Insert the pairs one after the other. -/
def insertAll (m : κ → Option β) (kvs : List (κ × β)) : κ → Option β :=
  kvs.foldl (fun m kv => update m kv.1 (some kv.2)) m

theorem insertAll_cons (m : κ → Option β) (kv : κ × β) (kvs : List (κ × β)) :
    insertAll m (kv :: kvs) = insertAll (update m kv.1 (some kv.2)) kvs := rfl

variable {m : κ → Option β} {kvs : List (κ × β)} {k : κ}

theorem mem_of_insertAll {v : β} (h : insertAll m kvs k = some v) :
    (k, v) ∈ kvs ∨ m k = some v := by
  induction kvs generalizing m with
  | nil => exact .inr h
  | cons kv kvs ih =>
    rw [insertAll_cons] at h
    rcases ih h with h | h
    · exact .inl (.tail _ h)
    by_cases hk : k = kv.1
    · subst hk
      rw [update_self] at h
      cases h
      exact .inl (.head _)
    rw [update_of_ne hk] at h
    exact .inr h

theorem insertAll_of_notMem (h : k ∉ kvs.map Prod.fst) : insertAll m kvs k = m k := by
  induction kvs generalizing m with
  | nil => rfl
  | cons kv kvs ih =>
    rw [map_cons, mem_cons, not_or] at h
    rw [insertAll_cons, ih h.2, update_of_ne h.1]

theorem insertAll_eq_getLast (m : κ → Option β) (kvs : List (κ × β)) (k : κ) :
    insertAll m kvs k = ((kvs.filter fun kv => kv.1 = k).getLast?.map Prod.snd).or (m k) := by
  induction kvs generalizing m with
  | nil => rfl
  | cons kv kvs ih =>
    rw [insertAll_cons, ih]
    by_cases hk : kv.1 = k
    · subst hk
      cases hlast : (kvs.filter fun e => e.1 = kv.1).getLast? <;>
        simp [getLast?_cons, hlast]
    · rw [update_of_ne (Ne.symm hk), filter_cons_of_neg (by simpa using hk)]

theorem isSome_insertAll : (insertAll (fun _ => none) kvs k).isSome ↔ k ∈ kvs.map Prod.fst := by
  constructor
  · intro h
    obtain ⟨v, hv⟩ := isSome_iff_exists.mp h
    exact List.mem_map.mpr ⟨_, (mem_of_insertAll hv).resolve_right (by simp), rfl⟩
  intro h
  obtain ⟨kv, hmem, rfl⟩ := List.mem_map.mp h
  have hne : (kvs.filter fun e => e.1 = kv.1) ≠ [] := ne_nil_of_mem (mem_filter.mpr ⟨hmem, by simp⟩)
  rw [insertAll_eq_getLast, or_none, isSome_map]
  exact getLast?_isSome.mpr hne

theorem insertAll_of_unique {v : β} (hmem : (k, v) ∈ kvs) (hunique : ∀ w, (k, w) ∈ kvs → w = v) :
    insertAll m kvs k = some v := by
  have hne : (kvs.filter fun kv => kv.1 = k) ≠ [] :=
    ne_nil_of_mem (mem_filter.mpr ⟨hmem, by simp⟩)
  obtain ⟨⟨k', w⟩, hlast⟩ : ∃ kv, (kvs.filter fun kv => kv.1 = k).getLast? = some kv :=
    ⟨_, getLast?_eq_some_getLast hne⟩
  obtain ⟨hw, hk⟩ := mem_filter.mp (mem_of_getLast? hlast)
  obtain rfl : k' = k := by simpa using hk
  rw [insertAll_eq_getLast, hlast, hunique w hw]
  rfl

theorem insertAll_map {κ' γ : Type} [DecidableEq κ'] {key : κ → κ'} (hkey : Function.Injective key)
    (val : β → γ) (kvs : List (κ × β)) (k : κ) :
    insertAll (fun _ => none) (kvs.map fun kv => (key kv.1, val kv.2)) (key k) =
      (insertAll (fun _ => none) kvs k).map val := by
  rw [insertAll_eq_getLast, insertAll_eq_getLast, List.filter_map, getLast?_map]
  simp only [comp_def, hkey.eq_iff, or_none, Option.map_map]

theorem insertAll_map_val {γ : Type} (val : β → γ) (m : κ → Option β) (kvs : List (κ × β)) (k : κ) :
    insertAll (fun k => (m k).map val) (kvs.map fun kv => (kv.1, val kv.2)) k =
      (insertAll m kvs k).map val := by
  rw [insertAll_eq_getLast, insertAll_eq_getLast, List.filter_map, getLast?_map, map_or]
  simp only [comp_def, Option.map_map]

theorem insertAll_append (m : κ → Option β) (kvs kvs' : List (κ × β)) :
    insertAll m (kvs ++ kvs') = insertAll (insertAll m kvs) kvs' := foldl_append

theorem insertAll_or {all : κ → Option β} {lower : Option β} (h : all k = (m k).or lower)
    (kvs : List (κ × β)) : insertAll all kvs k = (insertAll m kvs k).or lower := by
  rw [insertAll_eq_getLast, insertAll_eq_getLast, h, Option.or_assoc]

/-- The entries of a map, in some order. -/
structure Entries (m : κ → Option β) where
  list : List (κ × β)
  nodup : (list.map Prod.fst).Nodup
  mem_iff : ∀ k v, (k, v) ∈ list ↔ m k = some v

namespace Entries

/-- No entries. -/
def empty : Entries (fun _ : κ => (none : Option β)) := ⟨[], nodup_nil, by simp⟩

/-- One entry set; it is the last then. -/
def insert {m : κ → Option β} (e : Entries m) (k : κ) (v : β) :
    Entries (update m k (some v)) where
  list := e.list.filter (fun kv => kv.1 ≠ k) ++ [(k, v)]
  nodup := by
    have hnot : k ∉ (e.list.filter fun kv => kv.1 ≠ k).map Prod.fst := by
      simp
    rw [map_append, map_singleton]
    exact ((e.nodup.sublist (filter_sublist.map _)).append (nodup_singleton _)
      (List.disjoint_singleton.mpr hnot))
  mem_iff := by
    intro k' v'
    by_cases hk : k' = k
    · subst hk
      simp [eq_comm]
    · simp [hk, e.mem_iff]

end Entries

end Maps

theorem find?_key_eq_some_iff {κ : Type} [DecidableEq κ] {key : α → κ} {table : List α}
    (hkeys : (table.map key).Nodup) {k : κ} {a : α} :
    table.find? (fun e => key e == k) = some a ↔ a ∈ table ∧ key a = k := by
  induction table with
  | nil => simp
  | cons e table ih =>
    obtain ⟨hnew, hkeys⟩ := nodup_cons.mp hkeys
    by_cases he : key e = k
    · rw [find?_cons_of_pos (by simpa using he), some.injEq]
      refine ⟨fun h => h ▸ ⟨.head _, he⟩, fun ⟨hmem, ha⟩ => ?_⟩
      rcases mem_cons.mp hmem with rfl | hmem
      · rfl
      · exact absurd (List.mem_map.mpr ⟨a, hmem, ha.trans he.symm⟩) hnew
    rw [find?_cons_of_neg (by simpa using he), ih hkeys, mem_cons]
    refine and_congr_left fun ha => ⟨.inr, fun h => h.resolve_left ?_⟩
    rintro rfl
    exact he ha

theorem mapIdx_keep (l : List α) : (l.mapIdx fun _ a => a) = l := by
  apply ext_getElem?
  intro i
  simp

/-! ## Computations that may fail -/

theorem bind_eq_ok_iff {ε β : Type} {x : Except ε α} {f : α → Except ε β} {b : β} :
    (x >>= f) = .ok b ↔ ∃ a, x = .ok a ∧ f a = .ok b := by
  cases x <;> simp [bind, Except.bind]

theorem foldlM_keeps {ε σ : Type} {f : σ → α → Except ε σ} {l : List α} {P : σ → Prop}
    (hstep : ∀ s s', ∀ a ∈ l, f s a = .ok s' → P s → P s') {s s' : σ} (h : l.foldlM f s = .ok s')
    (hs : P s) : P s' := by
  induction l generalizing s with
  | nil => exact Except.ok.inj h ▸ hs
  | cons a l ih =>
    rw [foldlM_cons] at h
    obtain ⟨s₁, hone, hrest⟩ := bind_eq_ok_iff.mp h
    exact ih (fun s s' b hb => hstep s s' b (.tail _ hb)) hrest (hstep s s₁ a (.head _) hone hs)

theorem mapM_eq_some_iff {β : Type} {f : α → Option β} {l : List α} {out : List β} :
    l.mapM f = some out ↔ (∀ a ∈ l, (f a).isSome) ∧ l.filterMap f = out := by
  induction l generalizing out with
  | nil => simp
  | cons a l ih =>
    rw [mapM_cons]
    cases ha : f a with
    | none => simp [ha]
    | some b =>
      simp only [bind_eq_bind, bind_some, bind_eq_some_iff, ih,
        forall_mem_cons, ha, isSome_some, true_and, filterMap_cons]
      constructor
      · rintro ⟨out', ⟨hall, rfl⟩, h⟩
        exact ⟨hall, some.inj h⟩
      rintro ⟨hall, rfl⟩
      exact ⟨_, ⟨hall, rfl⟩, rfl⟩

end VoltageEMS.Lib
