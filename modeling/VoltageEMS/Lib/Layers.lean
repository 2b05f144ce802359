import Mathlib

/-!
# A stored value behind two layers

A write-behind buffer keeps a value in up to three places: pending in the buffer, held in a batch on
its way to the store, and stored.  `Layers` is one such cell.

* `Moved` — what a flush can do to a cell.
* `Moved.overlay_eq`, `Moved.ordered`, `Moved.storedLe` — a flush keeps the overlay and the order,
  and never replaces a stored value by an older one.
-/

namespace VoltageEMS.Lib

open Option

/-- The three places of a value. -/
structure Layers (β : Type) where
  pending : Option β
  held : Option β
  stored : Option β

namespace Layers

variable {β : Type}

/-- The newest of the three. -/
def overlay (c : Layers β) : Option β := c.pending.or (c.held.or c.stored)

/-- One of the places holds `v`. -/
def Has (c : Layers β) (v : β) : Prop := c.pending = some v ∨ c.held = some v ∨ c.stored = some v

variable {v : β}

theorem of_or_eq_some {a b : Option β} (h : a.or b = some v) : a = some v ∨ b = some v := by
  rcases Option.or_eq_some_iff.mp h with h | ⟨-, h⟩
  · exact .inl h
  · exact .inr h

/-- What one step of a flush does to a cell. -/
inductive Moved : Layers β → Layers β → Prop
  | same (c : Layers β) : Moved c c
  | taken (p s : Option β) : Moved ⟨p, none, s⟩ ⟨none, p, s⟩
  | stored (p h s : Option β) : Moved ⟨p, h, s⟩ ⟨p, none, h.or s⟩
  | putBack (p h s : Option β) : Moved ⟨p, h, s⟩ ⟨p.or h, none, s⟩
  | storedAndPutBack (p h s : Option β) : Moved ⟨p, h, s⟩ ⟨p.or h, none, h.or s⟩

theorem Moved.overlay_eq {c c' : Layers β} (h : Moved c c') : c'.overlay = c.overlay := by
  cases h with
  | same => rfl
  | taken | stored => simp [overlay]
  | putBack => simp [overlay, Option.or_assoc]
  | storedAndPutBack p h s => cases p <;> cases h <;> simp [overlay]

theorem Moved.has {c c' : Layers β} (h : Moved c c') (hv : c'.Has v) : c.Has v := by
  cases h with
  | same => exact hv
  | taken =>
    rcases hv with h | h | h
    · cases h
    · exact .inl h
    · exact .inr (.inr h)
  | stored =>
    rcases hv with h | h | h
    · exact .inl h
    · cases h
    · exact .inr (of_or_eq_some h)
  | putBack =>
    rcases hv with h | h | h
    · exact (of_or_eq_some h).imp_right .inl
    · cases h
    · exact .inr (.inr h)
  | storedAndPutBack =>
    rcases hv with h | h | h
    · exact (of_or_eq_some h).imp_right .inl
    · cases h
    · exact .inr (of_or_eq_some h)

section Order

variable [Preorder β]

/-- `a` is not newer than `b`. -/
def Below (a b : Option β) : Prop := ∀ x y, a = some x → b = some y → x ≤ y

theorem Below.none_left (b : Option β) : Below none b := fun _ _ h => nomatch h

variable (a : Option β) {c c' : Layers β}

theorem Below.none_right : Below a none := fun _ _ _ h => nomatch h

theorem Below.self : Below a a := by
  rintro x y rfl h
  exact (some.inj h).le

theorem Below.or_left {a a' b : Option β} (h : Below a b) (h' : Below a' b) :
    Below (a.or a') b := fun x y hx hy =>
  (of_or_eq_some hx).elim (fun hx => h x y hx hy) fun hx => h' x y hx hy

theorem Below.or_right {a b b' : Option β} (h : Below a b) (h' : Below a b') :
    Below a (b.or b') := fun x y hx hy =>
  (of_or_eq_some hy).elim (fun hy => h x y hx hy) fun hy => h' x y hx hy

/-- No layer holds a newer value than the layers above it. -/
structure Ordered (c : Layers β) : Prop where
  held : Below c.held c.pending
  stored_pending : Below c.stored c.pending
  stored_held : Below c.stored c.held

theorem Moved.ordered (h : Moved c c') (ho : c.Ordered) : c'.Ordered := by
  cases h with
  | same => exact ho
  | taken => exact ⟨.none_right _, .none_right _, ho.stored_pending⟩
  | stored => exact ⟨.none_left _, ho.held.or_left ho.stored_pending, .none_right _⟩
  | putBack => exact ⟨.none_left _, ho.stored_pending.or_right ho.stored_held, .none_right _⟩
  | storedAndPutBack p h s =>
    have hheld : Below h (p.or h) := ho.held.or_right (.self h)
    have hstored : Below s (p.or h) := ho.stored_pending.or_right ho.stored_held
    exact ⟨.none_left _, hheld.or_left hstored, .none_right _⟩

/-- A stored value stays, or a newer one takes its place. -/
def StoredLe (a b : Option β) : Prop := ∀ x, a = some x → ∃ y, b = some y ∧ x ≤ y

theorem StoredLe.refl : StoredLe a a := fun x hx => ⟨x, hx, le_rfl⟩

theorem Below.storedLe_or {a b : Option β} (h : Below a b) : StoredLe a (b.or a) := by
  intro x hx
  cases b with
  | none => exact ⟨x, hx, le_rfl⟩
  | some y => exact ⟨y, rfl, h x y hx rfl⟩

theorem Moved.storedLe (h : Moved c c') (ho : c.Ordered) : StoredLe c.stored c'.stored := by
  cases h with
  | same | taken | putBack => exact .refl _
  | stored | storedAndPutBack => exact ho.stored_held.storedLe_or

theorem Ordered.write (ho : c.Ordered) (hv : ∀ x, c.Has x → x ≤ v) :
    Ordered ⟨some v, c.held, c.stored⟩ where
  held := fun x _ hx hy => some.inj hy ▸ hv x (.inr (.inl hx))
  stored_pending := fun x _ hx hy => some.inj hy ▸ hv x (.inr (.inr hx))
  stored_held := ho.stored_held

end Order

end Layers

end VoltageEMS.Lib
