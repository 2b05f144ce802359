import VoltageEMS.Lib.Basic
import VoltageEMS.Lib.Run
import VoltageEMS.Lib.Text

/-!
# Instances by name

The part of modsrv's `InstanceManager` that keeps instances and finds them by name
(`instance_manager.rs`), and the device addresses of cloud writes
(`api/instance_management_handlers.rs`).
-/

namespace VoltageEMS.Modsrv.InstanceNames

open Lib List

/-! ## The table -/

/-- A row of `instances`. -/
structure InstanceRow where
  instanceId : Nat
  instanceName : String
  productName : String
  parentId : Option Nat
deriving DecidableEq

/-- `instances`. -/
structure Table where
  rows : List InstanceRow
  ids : (rows.map InstanceRow.instanceId).Nodup
  names : (rows.map InstanceRow.instanceName).Nodup

namespace Table

variable (t : Table)

/-- `WHERE instance_id`. -/
def findId (id : Nat) : Option InstanceRow := t.rows.find? fun r => r.instanceId == id

/-- `WHERE instance_name`. -/
def findName (name : String) : Option InstanceRow := t.rows.find? fun r => r.instanceName == name

/-- The id of a name. -/
def idOf (name : String) : Option Nat := (t.findName name).map InstanceRow.instanceId

/-- The id SQLite gives. -/
def nextRowid : Nat := (t.rows.map InstanceRow.instanceId).foldl max 0 + 1

/-- `INSERT`, unless an id or name is taken. -/
def insert (r : InstanceRow) : Option Table :=
  if h : r.instanceId ∉ t.rows.map InstanceRow.instanceId ∧
      r.instanceName ∉ t.rows.map InstanceRow.instanceName then
    some {
      rows := t.rows ++ [r]
      ids := by
        rw [map_append, map_singleton]
        exact t.ids.append (nodup_singleton _) (List.disjoint_singleton.mpr h.1)
      names := by
        rw [map_append, map_singleton]
        exact t.names.append (nodup_singleton _) (List.disjoint_singleton.mpr h.2) }
  else none

/-- The row under its new name. -/
def renamed (id : Nat) (name : String) (r : InstanceRow) : InstanceRow :=
  if r.instanceId = id then { r with instanceName := name } else r

/-- `ON DELETE SET NULL`. -/
def orphaned (id : Nat) (r : InstanceRow) : InstanceRow :=
  if r.parentId = some id then { r with parentId := none } else r

/-- Another row has the name. -/
def taken (id : Nat) (name : String) : Bool :=
  t.rows.any fun r => r.instanceName == name && r.instanceId != id

@[simp] theorem renamed_instanceId (id : Nat) (name : String) (r : InstanceRow) :
    (renamed id name r).instanceId = r.instanceId := by
  unfold renamed
  split <;> rfl

@[simp] theorem orphaned_instanceId (id : Nat) (r : InstanceRow) :
    (orphaned id r).instanceId = r.instanceId := by
  unfold orphaned
  split <;> rfl

@[simp] theorem orphaned_instanceName (id : Nat) (r : InstanceRow) :
    (orphaned id r).instanceName = r.instanceName := by
  unfold orphaned
  split <;> rfl

variable {id : Nat} {r : InstanceRow}

theorem renamed_of_ne (name : String) (h : r.instanceId ≠ id) : renamed id name r = r :=
  if_neg h

variable {name : String}

theorem nodup_renamed (h : t.taken id name = false) :
    ((t.rows.map (renamed id name)).map InstanceRow.instanceName).Nodup := by
  rw [map_map]
  refine (List.Nodup.of_map InstanceRow.instanceId t.ids).map_on fun r hr r' hr' heq => ?_
  have hfree : ∀ x ∈ t.rows, x.instanceId ≠ id → x.instanceName ≠ name := by
    intro x hx hid hname
    have := List.any_eq_false.mp h x hx
    simp [hname, hid] at this
  have hids : r.instanceId = r'.instanceId → r = r' := inj_on_of_nodup_map t.ids hr hr'
  by_cases hid : r.instanceId = id
  · by_cases hid' : r'.instanceId = id
    · exact hids (hid.trans hid'.symm)
    have hname : name = r'.instanceName := by simpa [renamed, hid, hid'] using heq
    exact absurd hname.symm (hfree r' hr' hid')
  by_cases hid' : r'.instanceId = id
  · have hname : r.instanceName = name := by simpa [renamed, hid, hid'] using heq
    exact absurd hname (hfree r hr hid)
  refine inj_on_of_nodup_map t.names hr hr' ?_
  simpa [renamed, hid, hid'] using heq

/-- `UPDATE instances SET instance_name = … WHERE instance_id = …`. -/
def rename (id : Nat) (name : String) (h : t.taken id name = false) : Table where
  rows := t.rows.map (renamed id name)
  ids := by
    rw [map_map, show InstanceRow.instanceId ∘ renamed id name = InstanceRow.instanceId from
      funext (renamed_instanceId id name)]
    exact t.ids
  names := t.nodup_renamed h

/-- `DELETE FROM instances WHERE instance_id = …`. -/
def delete (id : Nat) : Table where
  rows := (t.rows.filter fun r => r.instanceId ≠ id).map (orphaned id)
  ids := by
    rw [map_map, show InstanceRow.instanceId ∘ orphaned id = InstanceRow.instanceId from
      funext (orphaned_instanceId id)]
    exact t.ids.sublist (filter_sublist.map _)
  names := by
    rw [map_map, show InstanceRow.instanceName ∘ orphaned id = InstanceRow.instanceName from
      funext (orphaned_instanceName id)]
    exact t.names.sublist (filter_sublist.map _)

variable {t}

theorem findId_eq_some_iff : t.findId id = some r ↔ r ∈ t.rows ∧ r.instanceId = id :=
  find?_key_eq_some_iff t.ids

theorem idOf_eq_some_iff :
    t.idOf name = some id ↔ ∃ r ∈ t.rows, r.instanceName = name ∧ r.instanceId = id := by
  simp only [idOf, findName, Option.map_eq_some_iff, find?_key_eq_some_iff t.names, and_assoc]

theorem idOf_insert {t' : Table} (h : t.insert r = some t') (hid : t.idOf name = some id) :
    t'.idOf name = some id := by
  unfold insert at h
  split at h
  · cases h
    obtain ⟨r', hr', hname, hid'⟩ := idOf_eq_some_iff.mp hid
    exact idOf_eq_some_iff.mpr ⟨r', mem_append_left _ hr', hname, hid'⟩
  · cases h

theorem idOf_rename {newName : String} (h : t.taken id newName = false) {i : Nat}
    (hi : t.idOf name = some i) (hkeep : i = id → name = newName) :
    (t.rename id newName h).idOf name = some i := by
  obtain ⟨r, hr, hname, rfl⟩ := idOf_eq_some_iff.mp hi
  refine idOf_eq_some_iff.mpr ⟨_, mem_map.mpr ⟨r, hr, rfl⟩, ?_, renamed_instanceId ..⟩
  by_cases hid : r.instanceId = id
  · rw [renamed, if_pos hid, hkeep hid]
  · rw [renamed_of_ne _ hid, hname]

theorem idOf_delete {i : Nat} (hi : t.idOf name = some i) (hne : i ≠ id) :
    (t.delete id).idOf name = some i := by
  obtain ⟨r, hr, hname, rfl⟩ := idOf_eq_some_iff.mp hi
  refine idOf_eq_some_iff.mpr
    ⟨orphaned id r, mem_map.mpr ⟨r, mem_filter.mpr ⟨hr, by simpa using hne⟩, rfl⟩, ?_, ?_⟩
  · rw [orphaned_instanceName, hname]
  · rw [orphaned_instanceId]

end Table

/-! ## Calls -/

/-- A product, as far as it is checked. -/
structure Product where
  productName : String
  productType : String
  properties : List String

/-- `CreateInstanceRequest`, with the names of the properties in the order they are visited. -/
structure CreateInstanceRequest where
  instanceId : Option UInt32
  instanceName : String
  productName : String
  parentId : Option UInt32
  properties : List String

/-- The errors of the calls, with their texts. -/
inductive ModSrvError
  | invalidData (text : String)
  | instanceExists (text : String)
  | instanceNotFound (text : String)
deriving DecidableEq

/-- The errors of a lookup: no such name, or an id that the driver does not fit into a `u16`. -/
inductive LookupError
  | notFound (text : String)
  | outOfRange
deriving DecidableEq

/-- The manager: the table, and the ids of the names that were looked up. -/
structure State where
  table : Table
  nameCache : String → Option UInt16

/-- `FORBIDDEN_CHARS`. -/
def forbiddenChars : List Char := ['/', '\\', ':', '*', '?', '"', '<', '>', '|']

/-- `char::is_control`. -/
def isControl (c : Char) : Bool := c.toNat < 0x20 || (0x7F ≤ c.toNat && c.toNat < 0xA0)

/-- `validate_instance_name`: the text of the error, if there is one. -/
def validateInstanceName (name : String) : Option String :=
  if name.isEmpty then some "Instance name cannot be empty"
  else if 64 < name.utf8ByteSize then
    some ("Instance name too long (" ++ toString name.utf8ByteSize ++
      " characters). Maximum length is 64 characters.")
  else
    name.toList.findSome? fun c =>
      if isControl c then some "Instance name cannot contain control characters"
      else if c ∈ forbiddenChars then
        some ("Instance name cannot contain '" ++ String.singleton c ++
          "'. Forbidden characters: / \\ : * ? \" < > |")
      else none

/-- The error of a name. -/
def invalidName (text : String) : ModSrvError :=
  .invalidData ("Invalid instance name: Invalid instance name: " ++ text)

/-- The row inserted. -/
def CreateInstanceRequest.row (req : CreateInstanceRequest) (t : Table) : InstanceRow where
  instanceId := (req.instanceId.map UInt32.toNat).getD t.nextRowid
  instanceName := req.instanceName
  productName := req.productName
  parentId := req.parentId.map UInt32.toNat

section Calls

variable (products : List Product)

/-- A product of a station. -/
def isStation (name : String) : Bool :=
  products.any fun p => p.productType == "Station" && p.productName == name

/-- `create_instance`; the cache is left alone. -/
def createInstance (req : CreateInstanceRequest) (s : State) :
    State × Except ModSrvError InstanceRow :=
  match validateInstanceName req.instanceName with
  | some text => (s, .error (invalidName text))
  | none =>
  match products.find? fun p => p.productName == req.productName with
  | none =>
    (s, .error (.invalidData ("Unknown product: Product not found: " ++ req.productName)))
  | some product =>
  if req.parentId.any fun p => (s.table.findId p.toNat).isNone then
    (s, .error (.instanceNotFound ("Parent instance " ++ toString (req.parentId.getD 0).toNat)))
  else if product.productType == "Station" &&
      s.table.rows.any fun r => isStation products r.productName then
    (s, .error (.instanceExists "only one Station instance is allowed"))
  else
  match s.table.insert (req.row s.table) with
  | none => (s, .error (.instanceExists req.instanceName))
  | some table =>
  match req.properties.find? fun name => !product.properties.contains name with
  | some name =>
    (s, .error (.invalidData ("Failed to write properties: Property '" ++ name ++
      "' not declared by product '" ++ req.productName ++ "' template")))
  | none => ({ s with table := table }, .ok (req.row s.table))

/-- `rename_instance`; the cache is left alone.  An id that does not exist is no error. -/
def renameInstance (id : UInt32) (newName : String) (s : State) : State × Except ModSrvError Unit :=
  match validateInstanceName newName with
  | some text => (s, .error (invalidName text))
  | none =>
    if h : s.table.taken id.toNat newName = false then
      ({ s with table := s.table.rename id.toNat newName h }, .ok ())
    else (s, .error (.instanceExists newName))

/-- `delete_single_instance`. -/
def deleteSingleInstance (id : UInt32) (s : State) : State × Except ModSrvError Unit :=
  match s.table.findId id.toNat with
  | none => (s, .error (.instanceNotFound (toString id.toNat)))
  | some r =>
    ({ table := s.table.delete id.toNat
       nameCache := Function.update s.nameCache r.instanceName none }, .ok ())

/-- `get_instance_id`. -/
def getInstanceId (name : String) (s : State) : State × Except LookupError UInt16 :=
  match s.nameCache name with
  | some id => (s, .ok id)
  | none =>
    match s.table.idOf name with
    | none => (s, .error (.notFound ("Instance not found: " ++ name)))
    | some id =>
      if id < 2 ^ 16 then
        ({ s with nameCache := Function.update s.nameCache name (some (UInt16.ofNat id)) },
          .ok (UInt16.ofNat id))
      else (s, .error .outOfRange)

/-- `device.replace('_', " ")`. -/
def spaced (device : String) : String :=
  String.ofList (device.toList.map fun c => if c = '_' then ' ' else c)

/-- `resolve_cloud_device`. -/
def resolveCloudDevice (device : String) (s : State) : State × Except LookupError Nat :=
  match parseUnsigned 10 (2 ^ 32) device with
  | some id => (s, .ok id)
  | none =>
    match getInstanceId device s with
    | (s, .ok id) => (s, .ok id.toNat)
    | (s, .error exactError) =>
      if '_' ∈ device.toList then
        match getInstanceId (spaced device) s with
        | (s, .ok id) => (s, .ok id.toNat)
        | (s, .error _) => (s, .error exactError)
      else (s, .error exactError)

end Calls

/-- The calls; `lookup` is `get_instance_id`, `resolve` the address of a cloud write. -/
inductive Call
  | create (req : CreateInstanceRequest)
  | rename (id : UInt32) (newName : String)
  | delete (id : UInt32)
  | lookup (name : String)
  | resolve (device : String)

/-- The replies. -/
inductive Reply
  | created (result : Except ModSrvError InstanceRow)
  | changed (result : Except ModSrvError Unit)
  | found (result : Except LookupError UInt16)
  | resolved (result : Except LookupError Nat)

variable (products : List Product)

/-- One call. -/
def step (s : State) : Call → State × Reply
  | .create req =>
    ((createInstance products req s).1, .created (createInstance products req s).2)
  | .rename id newName => ((renameInstance id newName s).1, .changed (renameInstance id newName s).2)
  | .delete id => ((deleteSingleInstance id s).1, .changed (deleteSingleInstance id s).2)
  | .lookup name => ((getInstanceId name s).1, .found (getInstanceId name s).2)
  | .resolve device =>
    ((resolveCloudDevice device s).1, .resolved (resolveCloudDevice device s).2)

/-- The manager under its calls. -/
def machine : Machine State Call Reply where
  step s call := ((step products s call).1, [(step products s call).2])

/-! ## What the calls do -/

section Steps

variable {s : State}

theorem createInstance_cases (req : CreateInstanceRequest) (s : State) :
    (createInstance products req s).1 = s ∨
      ∃ table, s.table.insert (req.row s.table) = some table ∧
        (createInstance products req s).1 = { s with table := table } := by
  unfold createInstance
  split
  · exact .inl rfl
  split
  · exact .inl rfl
  split_ifs
  · exact .inl rfl
  · exact .inl rfl
  split
  · exact .inl rfl
  rename_i table htable
  split
  · exact .inl rfl
  · exact .inr ⟨table, htable, rfl⟩

theorem renameInstance_cases (id : UInt32) (newName : String) (s : State) :
    (renameInstance id newName s).1 = s ∨
      ∃ h : s.table.taken id.toNat newName = false, validateInstanceName newName = none ∧
        (renameInstance id newName s).1 =
          { s with table := s.table.rename id.toNat newName h } := by
  unfold renameInstance
  split
  · exact .inl rfl
  rename_i hname
  split_ifs with h
  · exact .inr ⟨h, hname, rfl⟩
  · exact .inl rfl

theorem deleteSingleInstance_cases (id : UInt32) (s : State) :
    (deleteSingleInstance id s).1 = s ∨
      ∃ r ∈ s.table.rows, r.instanceId = id.toNat ∧
        (deleteSingleInstance id s).1 =
          ⟨s.table.delete id.toNat, Function.update s.nameCache r.instanceName none⟩ := by
  unfold deleteSingleInstance
  split
  · exact .inl rfl
  rename_i r hr
  obtain ⟨hmem, hid⟩ := Table.findId_eq_some_iff.mp hr
  exact .inr ⟨r, hmem, hid, rfl⟩

end Steps

/-! ## The cache and the table -/

/-- What the cache holds is what the table holds. -/
def Fresh (s : State) : Prop :=
  ∀ name id, s.nameCache name = some id → s.table.idOf name = some id.toNat

/-- Its id fits a `u16`. -/
def Fits (t : Table) (name : String) : Prop := ∀ id, t.idOf name = some id → id < 2 ^ 16

variable {s : State}

theorem Fresh.createInstance (h : Fresh s) (products : List Product) (req : CreateInstanceRequest) :
    Fresh (createInstance products req s).1 := by
  rcases createInstance_cases products req s with heq | ⟨table, htable, heq⟩
  · rwa [heq]
  rw [heq]
  intro name id hcached
  exact Table.idOf_insert htable (h name id hcached)

theorem Fresh.renameInstance (h : Fresh s) {id : UInt32} {newName : String}
    (hold : validateInstanceName newName = none → s.table.taken id.toNat newName = false →
      ∀ r, s.table.findId id.toNat = some r →
        r.instanceName = newName ∨ s.nameCache r.instanceName = none) :
    Fresh (renameInstance id newName s).1 := by
  rcases renameInstance_cases id newName s with heq | ⟨hfree, hvalid, heq⟩
  · rwa [heq]
  rw [heq]
  intro name i hcached
  have hi := h name i hcached
  refine Table.idOf_rename hfree hi fun hid => ?_
  obtain ⟨r, hr, rfl, hrid⟩ := Table.idOf_eq_some_iff.mp hi
  have hfind := Table.findId_eq_some_iff.mpr ⟨hr, hrid.trans hid⟩
  refine (hold hvalid hfree r hfind).resolve_right fun hnone => ?_
  cases hnone.symm.trans hcached

theorem Fresh.deleteSingleInstance (h : Fresh s) (id : UInt32) :
    Fresh (deleteSingleInstance id s).1 := by
  rcases deleteSingleInstance_cases id s with heq | ⟨r, hr, hid, heq⟩
  · rwa [heq]
  rw [heq]
  intro name i hcached
  by_cases hname : name = r.instanceName
  · subst hname
    simp at hcached
  have hcached : s.nameCache name = some i := by simpa [hname] using hcached
  have hi := h name i hcached
  refine Table.idOf_delete hi fun hsame => hname ?_
  obtain ⟨r', hr', hname', hid'⟩ := Table.idOf_eq_some_iff.mp hi
  rw [← hname', inj_on_of_nodup_map s.table.ids hr' hr (by rw [hid', hsame, hid])]

theorem getInstanceId_spec (h : Fresh s) {name : String} (hfits : Fits s.table name) :
    (getInstanceId name s).2.toOption.map UInt16.toNat = s.table.idOf name ∧
      (getInstanceId name s).1.table = s.table ∧ Fresh (getInstanceId name s).1 := by
  unfold getInstanceId
  split
  · rename_i id hcached
    exact ⟨(h name id hcached).symm, rfl, h⟩
  split
  · rename_i hnone
    exact ⟨hnone.symm, rfl, h⟩
  rename_i id hid
  have hlt := hfits id hid
  have hval : (UInt16.ofNat id).toNat = id := by
    rw [UInt16.toNat_ofNat']
    exact Nat.mod_eq_of_lt hlt
  rw [if_pos hlt, hid]
  refine ⟨congrArg some hval, rfl, fun name' i hcached => ?_⟩
  by_cases hname : name' = name
  · subst hname
    obtain rfl : UInt16.ofNat id = i := by simpa using hcached
    rw [hval, hid]
  · exact h name' i (by simpa [hname] using hcached)

/-- A device that is no number is the bearer of its name, or else of the name with blanks. -/
def Addresses (t : Table) (device : String) (id : Nat) : Prop :=
  t.idOf device = some id ∨
    t.idOf device = none ∧ '_' ∈ device.toList ∧ t.idOf (spaced device) = some id

theorem resolveCloudDevice_spec (h : Fresh s) {device : String} (hfits : Fits s.table device)
    (hspaced : Fits s.table (spaced device)) :
    Fresh (resolveCloudDevice device s).1 ∧
      ∀ id, parseUnsigned 10 (2 ^ 32) device = none → (resolveCloudDevice device s).2 = .ok id →
        Addresses s.table device id := by
  obtain ⟨hexact, htable, hfresh⟩ := getInstanceId_spec h hfits
  unfold resolveCloudDevice
  split
  · rename_i n hn
    exact ⟨h, fun id hnone => by cases hn.symm.trans hnone⟩
  split
  · rename_i s' id hget
    rw [hget] at hexact hfresh
    refine ⟨hfresh, fun id' _ heq => .inl ?_⟩
    cases heq
    exact hexact.symm
  rename_i s' exactError hget
  rw [hget] at hexact htable hfresh
  split_ifs with hunder
  · obtain ⟨hsecond, -, hfresh'⟩ := getInstanceId_spec (s := s') hfresh
      (show Fits s'.table (spaced device) from htable.symm ▸ hspaced)
    split
    · rename_i id hget'
      rw [hget'] at hsecond hfresh'
      refine ⟨hfresh', fun id' _ heq => .inr ⟨hexact.symm, hunder, ?_⟩⟩
      cases heq
      exact (htable ▸ hsecond).symm
    rename_i hget'
    rw [hget'] at hfresh'
    exact ⟨hfresh', fun _ _ heq => by cases heq⟩
  · exact ⟨hfresh, fun _ _ heq => by cases heq⟩

/-! ## Whole runs -/

/-- A rename that takes effect finds the old name not cached, and ids that are looked up fit a
`u16`. -/
def Allowed (s : State) : Call → Prop
  | .create _ | .delete _ => True
  | .rename id newName =>
    validateInstanceName newName = none → s.table.taken id.toNat newName = false →
      ∀ r, s.table.findId id.toNat = some r →
        r.instanceName = newName ∨ s.nameCache r.instanceName = none
  | .lookup name => Fits s.table name
  | .resolve device => Fits s.table device ∧ Fits s.table (spaced device)

/-- A lookup finds the instance that bears the name, and none if none does; a cloud write goes to
the instance its device addresses. -/
def Answered (s : State) : Call → Prop
  | .lookup name => (getInstanceId name s).2.toOption.map UInt16.toNat = s.table.idOf name
  | .resolve device => ∀ id, parseUnsigned 10 (2 ^ 32) device = none →
      (resolveCloudDevice device s).2 = .ok id → Addresses s.table device id
  | _ => True

theorem fresh_step (call : Call) (h : Fresh s) (hok : Allowed s call) :
    Fresh (step products s call).1 := by
  cases call with
  | create req => exact h.createInstance products req
  | rename id newName => exact h.renameInstance hok
  | delete id => exact h.deleteSingleInstance id
  | lookup name => exact (getInstanceId_spec h hok).2.2
  | resolve device => exact (resolveCloudDevice_spec h hok.1 hok.2).1

theorem answered_of_fresh (call : Call) (h : Fresh s) (hok : Allowed s call) : Answered s call := by
  cases call with
  | lookup name => exact (getInstanceId_spec h hok).1
  | resolve device => exact (resolveCloudDevice_spec h hok.1 hok.2).2
  | _ => trivial

/-- **The lookups of a whole run.**  From any table and an empty cache, as long as no rename takes
effect while the old name is cached and the ids looked up fit a `u16`, every lookup finds exactly
the instance that bears the name at that moment. -/
theorem answered_along (products : List Product) (table : Table) (calls : List Call)
    (h : (machine products).Along Allowed ⟨table, fun _ => none⟩ calls) :
    (machine products).Along Answered ⟨table, fun _ => none⟩ calls :=
  (machine products).along_of_invariant Fresh
    (fun _ call hfresh hok => fresh_step products call hfresh hok)
    (fun _ call hfresh hok => answered_of_fresh call hfresh hok) (fun _ _ hnone => nomatch hnone) h

private def noInstances : Table := ⟨[], nodup_nil, nodup_nil⟩

private def inverter : List Product := [⟨"pv_inverter", "Device", []⟩]

private def createPv : Call := .create ⟨some 1, "pv 1", "pv_inverter", none, []⟩

/-- A rename before the first lookup. -/
theorem answered_after_early_rename :
    (machine inverter).Along Answered ⟨noInstances, fun _ => none⟩
      [createPv, .rename 1 "pv 2", .lookup "pv 1", .resolve "pv_2"] := by
  refine answered_along inverter noInstances _ ⟨trivial, fun _ _ r _ => .inr rfl, ?_, ?_, trivial⟩
  · intro id hid
    cases hid
  refine ⟨fun id hid => ?_, fun id hid => ?_⟩
  · cases hid
  cases hid
  decide

/-- **A rename leaves the old name in the cache**: no instance bears it any more, but it is still
found, and cloud writes still reach the instance under it. -/
theorem renamed_still_found :
    let s := (machine inverter).run ⟨noInstances, fun _ => none⟩
      [createPv, .lookup "pv 1", .rename 1 "pv 2"]
    s.table.idOf "pv 1" = none ∧ s.table.idOf "pv 2" = some 1 ∧
      (getInstanceId "pv 1" s).2 = .ok 1 ∧ (resolveCloudDevice "pv 1" s).2 = .ok 1 ∧
      ¬ Answered s (.lookup "pv 1") ∧ ¬ Answered s (.resolve "pv 1") := by
  refine ⟨rfl, rfl, rfl, rfl, fun h => ?_, fun h => ?_⟩
  · have hfound : (some 1 : Option Nat) = none := h
    cases hfound
  rcases h 1 rfl rfl with h | ⟨-, h, -⟩
  · cases h
  · exact absurd h (by decide)

end VoltageEMS.Modsrv.InstanceNames
