import Mathlib.Data.List.Infix
import Mathlib.Data.Set.Basic

/-!
# Rows that go with their owner

Owners are told apart by keys that may clash in more than one column, and every row is owned. Putting
an owner in removes the owners it clashes with together with their rows, then adds rows of its own.

* `mem_owners_putAll`, `mem_rows_putAll` — what is there after several entries: what the last entry
  for it added, or what was there before and none of them removed.
* `putAll_putAll` — doing the same again changes nothing.
-/

namespace VoltageEMS.Lib

open List

/-- Which keys clash, who owns a row, and what each entry adds. -/
structure Ownership (κ ρ ε : Type) where
  clash : κ → κ → Prop
  owns : κ → ρ → Prop
  key : ε → κ
  rows : ε → Set ρ
  owns_key : ∀ e, ∀ r ∈ rows e, owns (key e) r
  clash_of_owns : ∀ {k k' r}, owns k r → owns k' r → clash k k'

/-- Owners and rows, each row with an owner. -/
@[ext] structure Owned {κ ρ ε : Type} (o : Ownership κ ρ ε) where
  owners : Set κ
  rows : Set ρ
  owned : ∀ r ∈ rows, ∃ k ∈ owners, o.owns k r

namespace Ownership

variable {κ ρ ε : Type} {o : Ownership κ ρ ε}

/-- Put one entry in. -/
def put (s : Owned o) (e : ε) : Owned o where
  owners := {k | (k ∈ s.owners ∧ ¬ o.clash (o.key e) k) ∨ k = o.key e}
  rows := {r | r ∈ o.rows e ∨
    (r ∈ s.rows ∧ ∃ k ∈ s.owners, o.owns k r ∧ ¬ o.clash (o.key e) k)}
  owned := by
    rintro r (hr | ⟨-, k, hk, howns, hclash⟩)
    · exact ⟨o.key e, .inr rfl, o.owns_key e r hr⟩
    · exact ⟨k, .inl ⟨hk, hclash⟩, howns⟩

/-- Put entries in one after the other. -/
def putAll (s : Owned o) (es : List ε) : Owned o := es.foldl put s

variable (o) in
/-- No entry clashes with `k`. -/
def Spares (es : List ε) (k : κ) : Prop := ∀ e ∈ es, ¬ o.clash (o.key e) k

variable {s : Owned o} {e : ε} {es : List ε} {k : κ} {r : ρ}

theorem spares_cons : o.Spares (e :: es) k ↔ ¬ o.clash (o.key e) k ∧ o.Spares es k :=
  forall_mem_cons

theorem mem_owners_putAll : k ∈ (putAll s es).owners ↔
    (∃ e after, e :: after <:+ es ∧ o.key e = k ∧ o.Spares after k) ∨
      (k ∈ s.owners ∧ o.Spares es k) := by
  induction es generalizing s with
  | nil => simp [putAll, Spares]
  | cons e es ih =>
    change k ∈ (putAll (put s e) es).owners ↔ _
    rw [ih]
    constructor
    · rintro (⟨x, after, hsuffix, hlast⟩ | ⟨⟨hk, hclash⟩ | rfl, hes⟩)
      · exact .inl ⟨x, after, hsuffix.trans (suffix_cons e es), hlast⟩
      · exact .inr ⟨hk, spares_cons.mpr ⟨hclash, hes⟩⟩
      · exact .inl ⟨e, es, suffix_rfl, rfl, hes⟩
    rintro (⟨x, after, hsuffix, hkey, hafter⟩ | ⟨hk, hes⟩)
    · rcases List.suffix_cons_iff.mp hsuffix with heq | hsuffix
      · obtain ⟨rfl, rfl⟩ := cons.inj heq
        exact .inr ⟨.inr hkey.symm, hafter⟩
      · exact .inl ⟨x, after, hsuffix, hkey, hafter⟩
    obtain ⟨hclash, hes⟩ := spares_cons.mp hes
    exact .inr ⟨.inl ⟨hk, hclash⟩, hes⟩

theorem eq_key_of_owns (hk : k ∈ (put s e).owners) (howns : o.owns k r)
    (hkey : o.owns (o.key e) r) : k = o.key e :=
  hk.resolve_left fun h => h.2 (o.clash_of_owns hkey howns)

theorem mem_rows_putAll : r ∈ (putAll s es).rows ↔
    (∃ e after, e :: after <:+ es ∧ r ∈ o.rows e ∧ o.Spares after (o.key e)) ∨
      (r ∈ s.rows ∧ ∃ k ∈ s.owners, o.owns k r ∧ o.Spares es k) := by
  induction es generalizing s with
  | nil =>
    simp only [putAll, foldl_nil, suffix_nil, reduceCtorEq, false_and, exists_false,
      false_or, Spares, not_mem_nil, false_imp_iff, implies_true, and_true]
    exact ⟨fun hr => ⟨hr, s.owned r hr⟩, And.left⟩
  | cons e es ih =>
    change r ∈ (putAll (put s e) es).rows ↔ _
    rw [ih]
    constructor
    · rintro (⟨x, after, hsuffix, hlast⟩ | ⟨hr | ⟨hr, k', -, howns', hclash⟩, k, hk, howns, hes⟩)
      · exact .inl ⟨x, after, hsuffix.trans (suffix_cons e es), hlast⟩
      · rw [eq_key_of_owns hk howns (o.owns_key e r hr)] at hes
        exact .inl ⟨e, es, suffix_rfl, hr, hes⟩
      rcases hk with ⟨hk, hspared⟩ | rfl
      · exact .inr ⟨hr, k, hk, howns, spares_cons.mpr ⟨hspared, hes⟩⟩
      · exact absurd (o.clash_of_owns howns howns') hclash
    rintro (⟨x, after, hsuffix, hr, hafter⟩ | ⟨hr, k, hk, howns, hes⟩)
    · rcases List.suffix_cons_iff.mp hsuffix with heq | hsuffix
      · obtain ⟨rfl, rfl⟩ := cons.inj heq
        exact .inr ⟨.inl hr, o.key x, .inr rfl, o.owns_key x r hr, hafter⟩
      · exact .inl ⟨x, after, hsuffix, hr, hafter⟩
    obtain ⟨hclash, hes⟩ := spares_cons.mp hes
    exact .inr ⟨.inr ⟨hr, k, hk, howns, hclash⟩, k, .inl ⟨hk, hclash⟩, howns, hes⟩

/-- **Putting the same entries in again** changes nothing. -/
theorem putAll_putAll (s : Owned o) (es : List ε) : putAll (putAll s es) es = putAll s es := by
  have howners : ∀ k, k ∈ (putAll (putAll s es) es).owners ↔ k ∈ (putAll s es).owners := by
    intro k
    rw [mem_owners_putAll]
    constructor
    · rintro (h | ⟨h, -⟩)
      · exact mem_owners_putAll.mpr (.inl h)
      · exact h
    intro h
    exact (mem_owners_putAll.mp h).imp_right fun hold => ⟨h, hold.2⟩
  have hrows : ∀ r, r ∈ (putAll (putAll s es) es).rows ↔ r ∈ (putAll s es).rows := by
    intro r
    rw [mem_rows_putAll]
    constructor
    · rintro (h | ⟨h, -⟩)
      · exact mem_rows_putAll.mpr (.inl h)
      · exact h
    intro h
    refine (mem_rows_putAll.mp h).imp_right fun ⟨_, k, hk, howns, hes⟩ => ⟨h, k, ?_, howns, hes⟩
    exact mem_owners_putAll.mpr (.inr ⟨hk, hes⟩)
  exact Owned.ext (Set.ext howners) (Set.ext hrows)

end Ownership

end VoltageEMS.Lib
