import VoltageEMS.Lib.Basic

/-!
# The user accounts of the gateway

The `users` table (`apigateway/src/db.rs`) and its queries.  A row carries the authentication version
that every security-relevant change of the account increments.

* `Users.Later` — **what any of them does to the rows**: a row that is there afterwards is a new one,
  the same one, or one with a higher version.
-/

namespace VoltageEMS.Apigateway

open Lib List

/-- The rows of `roles` as `init_roles` writes them. -/
inductive Role
  | admin
  | engineer
  | viewer
  deriving DecidableEq, Repr

/-- The role of an id. -/
def Role.ofId : Int → Option Role
  | 1 => some .admin
  | 2 => some .engineer
  | 3 => some .viewer
  | _ => none

/-- A row of `users`; `passwordChanges`, no column, counts the passwords it has had. -/
structure User where
  id : Nat
  username : String
  passwordHash : String
  role : Role
  isActive : Bool
  authVersion : Nat
  passwordChanges : Nat
  deriving DecidableEq, Repr

/-- What `get_user_with_role` selects. -/
structure UserWithRole where
  id : Nat
  username : String
  isActive : Bool
  role : Role
  deriving DecidableEq, Repr

/-- The row with its role. -/
def User.withRole (u : User) : UserWithRole := ⟨u.id, u.username, u.isActive, u.role⟩

/-- The table, with what its constraints guarantee. -/
structure Users where
  rows : List User
  nextId : Nat
  ids : (rows.map User.id).Nodup
  names : (rows.map User.username).Nodup
  fresh : ∀ u ∈ rows, u.id < nextId

namespace Users

variable (users : Users)

/-! ## Queries -/

variable (id : Nat) (name : String)

/-- `get_user_by_id`. -/
def getUserById : Option User := users.rows.find? (·.id == id)

/-- `get_user_by_username`. -/
def getUserByUsername : Option User := users.rows.find? (·.username == name)

/-- `get_user_with_role`. -/
def getUserWithRole : Option UserWithRole := (users.getUserById id).map User.withRole

/-- `get_user_with_role_by_username`. -/
def getUserWithRoleByUsername : Option UserWithRole :=
  (users.getUserByUsername name).map User.withRole

/-- `get_user_auth_state`. -/
def getUserAuthState : Option (Bool × Nat) :=
  (users.getUserById id).map fun u => (u.isActive, u.authVersion)

variable {users}

theorem getUserById_eq_some {id : Nat} {u : User} :
    users.getUserById id = some u ↔ u ∈ users.rows ∧ u.id = id :=
  find?_key_eq_some_iff users.ids

theorem getUserByUsername_eq_some {name : String} {u : User} :
    users.getUserByUsername name = some u ↔ u ∈ users.rows ∧ u.username = name :=
  find?_key_eq_some_iff users.names

variable (users)

/-! ## Writes -/

/-- `INSERT`: refused when the name is taken or the role does not exist. -/
def createUser (hash : String) (roleId : Int) : Option (Users × Nat) :=
  if hname : name ∈ users.rows.map User.username then none
  else (Role.ofId roleId).map fun role =>
    ({ rows := ⟨users.nextId, name, hash, role, true, 0, 0⟩ :: users.rows
       nextId := users.nextId + 1
       ids := by
         refine nodup_cons.mpr ⟨fun hmem => ?_, users.ids⟩
         obtain ⟨u, hu, hid⟩ := mem_map.mp hmem
         exact absurd hid (Nat.ne_of_lt (users.fresh u hu))
       names := nodup_cons.mpr ⟨hname, users.names⟩
       fresh := by
         intro u hu
         rcases mem_cons.mp hu with rfl | hu
         · exact Nat.lt_succ_self _
         · exact Nat.lt_succ_of_lt (users.fresh u hu) }, users.nextId)

theorem createUser_eq_some {users : Users} {name hash : String} {roleId : Int} {users' : Users}
    {id : Nat} (h : users.createUser name hash roleId = some (users', id)) :
    ∃ role, Role.ofId roleId = some role ∧ id = users.nextId ∧ users'.nextId = users.nextId + 1 ∧
      users'.rows = ⟨users.nextId, name, hash, role, true, 0, 0⟩ :: users.rows := by
  unfold createUser at h
  split at h
  · cases h
  obtain ⟨role, hrole, heq⟩ := Option.map_eq_some_iff.mp h
  cases heq
  exact ⟨role, hrole, rfl, rfl, rfl⟩

/-- `UPDATE users SET … WHERE id = ? AND …`. -/
def update (id : Nat) (cond : User → Bool) (set : User → User)
    (hset : ∀ u, (set u).id = u.id ∧ (set u).username = u.username) : Users :=
  let write := fun u : User => if u.id = id ∧ cond u then set u else u
  have hid : User.id ∘ write = User.id := by
    funext u
    simp only [Function.comp_apply, write]
    split
    · exact (hset u).1
    · rfl
  have hname : User.username ∘ write = User.username := by
    funext u
    simp only [Function.comp_apply, write]
    split
    · exact (hset u).2
    · rfl
  { rows := users.rows.map write
    nextId := users.nextId
    ids := by rw [map_map, hid]; exact users.ids
    names := by rw [map_map, hname]; exact users.names
    fresh := by
      intro u hu
      obtain ⟨v, hv, rfl⟩ := mem_map.mp hu
      exact lt_of_eq_of_lt (congrFun hid v) (users.fresh v hv) }

/-- The update has a row to change. -/
def affects (cond : User → Bool) : Bool := (users.getUserById id).any cond

/-- `update_user_role`. -/
def updateUserRole (role : Role) : Users :=
  users.update id (fun u => u.role != role)
    (fun u => { u with role := role, authVersion := u.authVersion + 1 }) fun _ => ⟨rfl, rfl⟩

/-- `update_user_active`. -/
def updateUserActive (active : Bool) : Users :=
  users.update id (fun u => u.isActive != active)
    (fun u => { u with isActive := active, authVersion := u.authVersion + 1 }) fun _ => ⟨rfl, rfl⟩

/-- `update_user_password`. -/
def updateUserPassword (hash : String) : Users :=
  users.update id (fun _ => true)
    (fun u => { u with passwordHash := hash, authVersion := u.authVersion + 1,
                       passwordChanges := u.passwordChanges + 1 }) fun _ => ⟨rfl, rfl⟩

/-- `delete_user`. -/
def deleteUser : Users where
  rows := users.rows.filter (·.id != id)
  nextId := users.nextId
  ids := users.ids.sublist (filter_sublist.map User.id)
  names := users.names.sublist (filter_sublist.map User.username)
  fresh := fun u hu => users.fresh u (mem_of_mem_filter hu)

end Users

/-! ## What the writes can do -/

/-- The row as it may be at a later moment. -/
structure User.Later (u v : User) : Prop where
  id : v.id = u.id
  username : v.username = u.username
  same_or_newer : v = u ∨ u.authVersion < v.authVersion

theorem User.Later.rfl {u : User} : u.Later u := ⟨Eq.refl _, Eq.refl _, .inl (Eq.refl _)⟩

/-- The table as it may be at a later moment. -/
structure Users.Later (a b : Users) : Prop where
  nextId_le : a.nextId ≤ b.nextId
  rows : ∀ v ∈ b.rows, a.nextId ≤ v.id ∨ ∃ u ∈ a.rows, u.Later v

namespace Users

variable {users : Users}

theorem Later.rfl : users.Later users := ⟨le_rfl, fun v hv => .inr ⟨v, hv, .rfl⟩⟩

theorem Later.createUser {name hash : String} {roleId : Int} {users' : Users} {id : Nat}
    (h : users.createUser name hash roleId = some (users', id)) : users.Later users' := by
  obtain ⟨role, -, -, hnext, hrows⟩ := createUser_eq_some h
  refine ⟨hnext ▸ Nat.le_succ _, fun v hv => ?_⟩
  rw [hrows] at hv
  rcases mem_cons.mp hv with rfl | hv
  · exact .inl le_rfl
  · exact .inr ⟨v, hv, .rfl⟩

variable {cond : User → Bool} {set : User → User}

variable {id : Nat} {hash : String}

theorem mem_update {v : User}
    (hv : v ∈ users.rows.map fun u => if u.id = id ∧ cond u then set u else u) :
    ∃ u ∈ users.rows, (v = u ∧ ¬ (u.id = id ∧ cond u)) ∨ (v = set u ∧ u.id = id ∧ cond u) := by
  obtain ⟨u, hu, rfl⟩ := mem_map.mp hv
  refine ⟨u, hu, ?_⟩
  by_cases hc : u.id = id ∧ cond u
  · exact .inr ⟨if_pos hc, hc⟩
  · exact .inl ⟨if_neg hc, hc⟩

theorem Later.update (hset : ∀ u, (set u).id = u.id ∧ (set u).username = u.username)
    (hversion : ∀ u, (set u).authVersion = u.authVersion + 1) :
    users.Later (users.update id cond set hset) := by
  refine ⟨le_rfl, fun v hv => .inr ?_⟩
  obtain ⟨u, hu, ⟨rfl, -⟩ | ⟨rfl, -⟩⟩ := mem_update hv
  · exact ⟨v, hu, .rfl⟩
  · exact ⟨u, hu, (hset u).1, (hset u).2, .inr (by rw [hversion]; exact Nat.lt_succ_self _)⟩

theorem Later.updateUserRole {role : Role} : users.Later (users.updateUserRole id role) := by
  exact Later.update _ fun _ => Eq.refl _

theorem Later.updateUserActive {active : Bool} :
    users.Later (users.updateUserActive id active) := by
  exact Later.update _ fun _ => Eq.refl _

theorem Later.updateUserPassword : users.Later (users.updateUserPassword id hash) := by
  exact Later.update _ fun _ => Eq.refl _

theorem Later.deleteUser : users.Later (users.deleteUser id) :=
  ⟨le_rfl, fun v hv => .inr ⟨v, mem_of_mem_filter hv, .rfl⟩⟩

end Users

end VoltageEMS.Apigateway
