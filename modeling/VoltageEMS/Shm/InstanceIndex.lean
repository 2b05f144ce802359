import VoltageEMS.Lib.Hashes
import VoltageEMS.Model.Point
import VoltageEMS.Shm.SlotBitmap

/-!
# Instance layouts and their shared slots

`DynamicInstanceLayout` in `instance_index.rs` (crate `voltage-rtdb-shm`).  A point of an instance has
a slot of its own, or it shares the slot of the channel point that is routed to it.  The shared slots
stand in a vector and in a lookup table.
-/

namespace VoltageEMS.Shm

open Lib List

/-! ## Layouts -/

/-- A reference to the slot of a channel point. -/
structure SharedSlotRef where
  slotId : Nat
  pointType : PointType
  pointId : Nat
  sourceChannelId : Nat
  sourcePointType : PointType
  sourcePointId : Nat
deriving DecidableEq, Repr

/-- The point of the instance. -/
def SharedSlotRef.key (r : SharedSlotRef) : PointType × Nat := (r.pointType, r.pointId)

/-- `own_counts: [u32; 2]`, the measurement and the action points. -/
structure OwnCounts where
  measurement : Nat
  action : Nat
deriving DecidableEq, Repr

/-- `DynamicInstanceLayout`. -/
structure DynamicInstanceLayout where
  instanceId : Nat
  ownBase : Nat
  ownCounts : OwnCounts
  ownTotal : Nat
  ownAllocation : Option SlotAllocation
  sharedSlots : List SharedSlotRef
  sharedLookup : Hash (PointType × Nat) Nat

variable (layout : DynamicInstanceLayout)

namespace DynamicInstanceLayout

/-- `new`. -/
def new (instanceId : Nat) (allocation : Option SlotAllocation) (ownCounts : OwnCounts) :
    DynamicInstanceLayout where
  instanceId := instanceId
  ownBase := (allocation.map SlotAllocation.baseSlot).getD 0
  ownCounts := ownCounts
  ownTotal := (ownCounts.measurement + ownCounts.action) % 2 ^ 32
  ownAllocation := allocation
  sharedSlots := []
  sharedLookup := ∅

/-- The slot of point `pointId` among `count` own points behind `offset` others. -/
def ownSlotFrom (offset count pointId : Nat) : Option Nat :=
  if pointId = 0 ∨ count < pointId then none
  else some ((layout.ownBase + offset + (pointId - 1)) % 2 ^ 64)

/-- `own_slot`. -/
def ownSlot (pointType : PointType) (pointId : Nat) : Option Nat :=
  match pointType with
  | .telemetry => layout.ownSlotFrom 0 layout.ownCounts.measurement pointId
  | .adjustment =>
    layout.ownSlotFrom layout.ownCounts.measurement layout.ownCounts.action pointId
  | .signal | .control => none

/-- `slot`: shared slots first, then own ones. -/
def slot (pointType : PointType) (pointId : Nat) : Option Nat :=
  match layout.sharedLookup.lookup (pointType, pointId) with
  | some slotId => some slotId
  | none => layout.ownSlot pointType pointId

/-- `add_shared_slot`. -/
def addSharedSlot (slotRef : SharedSlotRef) :
    DynamicInstanceLayout :=
  -- a point that is shared already keeps its reference
  if slotRef.key ∈ layout.sharedLookup then layout
  else
    { layout with
      sharedLookup := layout.sharedLookup.insert slotRef.key slotRef.slotId
      sharedSlots := layout.sharedSlots ++ [slotRef] }

/-- `remove_shared_slot`. -/
def removeSharedSlot (pointType : PointType) (pointId : Nat) :
    DynamicInstanceLayout × Option SharedSlotRef :=
  ({ layout with
      sharedLookup := layout.sharedLookup.erase (pointType, pointId)
      sharedSlots := layout.sharedSlots.eraseP fun r => r.key == (pointType, pointId) },
    layout.sharedSlots.find? fun r => r.key == (pointType, pointId))

theorem slot_eq (pointType : PointType) (pointId : Nat) :
    layout.slot pointType pointId =
      (layout.sharedLookup.lookup (pointType, pointId)).or (layout.ownSlot pointType pointId) := by
  unfold slot
  cases layout.sharedLookup.lookup (pointType, pointId) <;> rfl

theorem lookup_addSharedSlot (slotRef : SharedSlotRef)
    (key : PointType × Nat) : (layout.addSharedSlot slotRef).sharedLookup.lookup key =
      (layout.sharedLookup.lookup key).or (if key = slotRef.key then some slotRef.slotId else none) := by
  rw [← Hash.lookup_orInsert, addSharedSlot, Hash.orInsert]
  split_ifs <;> rfl

theorem lookup_removeSharedSlot (pointType : PointType) (pointId : Nat) (key : PointType × Nat) :
    (layout.removeSharedSlot pointType pointId).1.sharedLookup.lookup key =
      if key = (pointType, pointId) then none else layout.sharedLookup.lookup key := by
  unfold removeSharedSlot
  by_cases hkey : key = (pointType, pointId)
  · rw [if_pos hkey, hkey, AList.lookup_erase]
  · rw [if_neg hkey, AList.lookup_erase_ne hkey]

theorem ownSlot_addSharedSlot (slotRef : SharedSlotRef) (pointType : PointType) (pointId : Nat) :
    (layout.addSharedSlot slotRef).ownSlot pointType pointId = layout.ownSlot pointType pointId := by
  unfold addSharedSlot
  split_ifs <;> rfl

end DynamicInstanceLayout

/-! ## Sequences of calls -/

/-- A call on the layout. -/
inductive SharedCall where
  | add (slotRef : SharedSlotRef)
  | remove (pointType : PointType) (pointId : Nat)
deriving DecidableEq, Repr

namespace SharedCall

variable (key : PointType × Nat) (calls : List SharedCall)

/-- The call removes the point. -/
def removes : SharedCall → Bool
  | .add _ => false
  | .remove pointType pointId => decide (key = (pointType, pointId))

/-- The slot the call names for the point. -/
def added : SharedCall → Option Nat
  | .add slotRef => if key = slotRef.key then some slotRef.slotId else none
  | .remove _ _ => none

/-- The calls behind the last removal of the point. -/
def sinceRemoved (calls : List SharedCall) : List SharedCall :=
  (calls.reverse.takeWhile fun call => !call.removes key).reverse

theorem sinceRemoved_concat (call : SharedCall) : sinceRemoved key (calls ++ [call]) =
      if call.removes key then [] else sinceRemoved key calls ++ [call] := by
  rw [sinceRemoved, reverse_append, reverse_singleton, singleton_append,
    takeWhile_cons]
  cases call.removes key with
  | true => rfl
  | false => exact reverse_cons

end SharedCall

namespace DynamicInstanceLayout

/-- The layout after the call. -/
def perform : SharedCall → DynamicInstanceLayout
  | .add slotRef => layout.addSharedSlot slotRef
  | .remove pointType pointId => (layout.removeSharedSlot pointType pointId).1

/-- Sequences of calls. -/
def machine : Machine DynamicInstanceLayout SharedCall Empty where
  step layout call := (layout.perform call, [])

variable (calls : List SharedCall)

theorem run_concat (call : SharedCall) :
    machine.run layout (calls ++ [call]) = (machine.run layout calls).perform call :=
  machine.run_append layout calls [call]

/-- The slots named for a point since it was last removed, oldest first. -/
def refs (calls : List SharedCall) (key : PointType × Nat) : List Nat :=
  (if calls.any (SharedCall.removes key) then [] else (layout.sharedLookup.lookup key).toList) ++
    (SharedCall.sinceRemoved key calls).filterMap (SharedCall.added key)

theorem refs_concat (call : SharedCall) (key : PointType × Nat) :
    layout.refs (calls ++ [call]) key =
      if call.removes key then [] else layout.refs calls key ++ (call.added key).toList := by
  rw [refs, SharedCall.sinceRemoved_concat, any_append]
  cases hr : call.removes key with
  | true => simp [hr]
  | false =>
    simp only [any_cons, hr, any_nil, Bool.or_false, Bool.false_eq_true, if_false, filterMap_append,
      ← append_assoc, refs]
    cases ha : call.added key <;> simp [ha]

theorem refs_add (slotRef : SharedSlotRef) (key : PointType × Nat) :
    layout.refs (calls ++ [.add slotRef]) key =
      layout.refs calls key ++ (SharedCall.added key (.add slotRef)).toList :=
  layout.refs_concat calls (.add slotRef) key

theorem lookup_run (key : PointType × Nat) :
    (machine.run layout calls).sharedLookup.lookup key = (layout.refs calls key).head? := by
  induction calls using reverseRecOn with
  | nil => cases hl : layout.sharedLookup.lookup key <;> simp [refs, SharedCall.sinceRemoved, hl]
  | append_singleton calls call ih =>
    rw [run_concat]
    cases call with
    | add slotRef =>
      rw [perform, lookup_addSharedSlot, ih, refs_add, head?_append]
      by_cases hkey : key = slotRef.key <;> simp [SharedCall.added, hkey]
    | remove pointType pointId =>
      rw [perform, lookup_removeSharedSlot, ih, refs_concat]
      by_cases hkey : key = (pointType, pointId) <;>
        simp [SharedCall.removes, SharedCall.added, hkey]

theorem ownSlot_run (pointType : PointType) (pointId : Nat) :
    (machine.run layout calls).ownSlot pointType pointId = layout.ownSlot pointType pointId := by
  induction calls using reverseRecOn with
  | nil => rfl
  | append_singleton calls call ih =>
    rw [run_concat]
    cases call with
    | add slotRef => exact (ownSlot_addSharedSlot _ _ _ _).trans ih
    | remove pointType pointId => exact ih

theorem slot_run (pointType : PointType) (pointId : Nat) :
    (machine.run layout calls).slot pointType pointId =
      (layout.refs calls (pointType, pointId)).head?.or (layout.ownSlot pointType pointId) := by
  rw [slot_eq, lookup_run, ownSlot_run]

/-- The latest reference to a point that was not removed since counts, else its own slot. -/
def ShowsLatest (calls : List SharedCall) (key : PointType × Nat) : Prop :=
  (machine.run layout calls).slot key.1 key.2 =
    (layout.refs calls key).getLast?.or (layout.ownSlot key.1 key.2)

theorem showsLatest_iff (key : PointType × Nat) : layout.ShowsLatest calls key ↔
    (layout.refs calls key).head? = (layout.refs calls key).getLast? := by
  rw [ShowsLatest, slot_run]
  cases layout.refs calls key with
  | nil => simp
  | cons slot slots => simp [getLast?_cons]

/-- **What the calls leave.**  At every moment every point has the slot of its latest reference, or
its own slot without one, exactly if every reference added for a point that has one names the slot
of that one. -/
theorem slot_latest_iff (layout : DynamicInstanceLayout) (calls : List SharedCall) :
    (∀ done, done <+: calls → ∀ key, layout.ShowsLatest done key) ↔
      ∀ before slotRef after, calls = before ++ .add slotRef :: after →
        ∀ slotId ∈ (layout.refs before slotRef.key).getLast?, slotId = slotRef.slotId := by
  simp only [showsLatest_iff]
  constructor
  · rintro h before slotRef after rfl slotId hlast
    have hbefore := h before (prefix_append ..) slotRef.key
    have hadded := h (before ++ [.add slotRef])
      ((prefix_append_right_inj before).mpr ⟨after, rfl⟩) slotRef.key
    rw [refs_add, head?_append, hbefore, Option.mem_def.mp hlast] at hadded
    simpa [SharedCall.added] using hadded
  · rintro h done ⟨later, rfl⟩
    induction done using reverseRecOn generalizing later with
    | nil =>
      intro key
      cases hl : layout.sharedLookup.lookup key <;> simp [refs, SharedCall.sinceRemoved, hl]
    | append_singleton done call ih =>
      intro key
      have hdone := ih (call :: later) (by simpa using h) key
      cases call with
      | remove pointType pointId =>
        rw [refs_concat]
        by_cases hkey : key = (pointType, pointId)
        · simp [SharedCall.removes, hkey]
        · simpa [SharedCall.removes, SharedCall.added, hkey] using hdone
      | add slotRef =>
        rw [refs_add, head?_append, hdone]
        by_cases hkey : key = slotRef.key
        · subst hkey
          have hsame := h done slotRef later (by simp)
          cases hlast : (layout.refs done slotRef.key).getLast? with
          | none => simp [SharedCall.added, getLast?_append, hlast]
          | some slotId => simp [SharedCall.added, hsame slotId hlast]
        · simp [SharedCall.added, hkey]

/-- A point is routed from slot 42 and then from slot 45: the reference to slot 42 stays. -/
theorem slot_keeps_first_reference :
    let calls := [.add ⟨42, .telemetry, 7, 1001, .telemetry, 5⟩,
      .add ⟨45, .telemetry, 7, 1001, .telemetry, 8⟩]
    (machine.run (new 23 none ⟨0, 0⟩) calls).slot .telemetry 7 = some 42 ∧
      (refs (new 23 none ⟨0, 0⟩) calls (.telemetry, 7)).getLast? = some 45 := by
  decide +kernel

end DynamicInstanceLayout

end VoltageEMS.Shm
