import VoltageEMS.Lib.Run
import VoltageEMS.Lib.Hashes
import VoltageEMS.Apigateway.Accounts

/-!
# Tokens, and the requests of the authentication routes step by step

Requests run concurrently (`apigateway/src/routes_auth.rs`, `auth.rs`).  Between two statements on the
database, or two operations on the registry of refresh tokens, any other request may run; so a request
is a state machine with one step per statement or operation.  A token is the record of its claims;
what a request presents counts only when it has been signed before.

* `Gateway.perform` — **everything a step can do** to the gateway.
-/

namespace VoltageEMS.Apigateway

open Lib List AList

/-- The password hash; a salt stands for the randomness of `bcrypt::hash`. -/
structure Bcrypt where
  hash : (salt password : String) → String
  verify : (password hash : String) → Bool
  verify_hash : ∀ salt password, verify password (hash salt password) = true

/-- The settings. -/
structure Config where
  bcrypt : Bcrypt
  accessTokenExpireMinutes : Nat
  refreshTokenExpireDays : Nat

/-- `TokenType`. -/
inductive TokenType
  | access
  | refresh
  deriving DecidableEq, Repr

/-- The claims of a token; `passwordChanges`, in no token, is the password it goes back to. -/
structure Claims where
  userId : Nat
  role : Option Role
  tokenId : Option Nat
  authVersion : Nat
  exp : Nat
  tokenType : TokenType
  passwordChanges : Nat
  deriving DecidableEq, Repr

/-- `RefreshTokenInfo`. -/
structure RefreshTokenInfo where
  userId : Nat
  expiresAt : Nat
  deriving DecidableEq, Repr

/-- The accounts, the registry, the tokens and the clock. -/
structure Gateway where
  users : Users
  refreshTokens : Hash Nat RefreshTokenInfo
  /-- Every token that carries a valid signature. -/
  signed : List Claims
  /-- The next `Uuid::new_v4()`. -/
  nextToken : Nat
  now : Nat

/-! ## Tokens -/

/-- The leeway of an expiry. -/
def leeway : Nat := 60

/-- The token is too old. -/
def Claims.Expired (c : Claims) (now : Nat) : Prop := c.exp + leeway < now

instance (c : Claims) (now : Nat) : Decidable (c.Expired now) :=
  inferInstanceAs (Decidable (c.exp + leeway < now))

namespace Gateway

variable (g : Gateway)

/-- `verify_access_token`, `verify_refresh_token`. -/
def verifyToken (type : TokenType) (c : Claims) : Bool :=
  c ∈ g.signed ∧ ¬ c.Expired g.now ∧ c.tokenType = type

/-- `validate_current_claims`. -/
def validateCurrentClaims (c : Claims) : Bool :=
  (g.users.getUserAuthState c.userId).any fun s => s.1 && s.2 == c.authVersion

/-- `validate_access_token`. -/
def validateAccessToken (c : Claims) : Bool := g.verifyToken .access c && g.validateCurrentClaims c

/-- `validate_refresh_token`. -/
def validateRefreshToken (c : Claims) : Bool := g.verifyToken .refresh c && g.validateCurrentClaims c

variable (cfg : Config)

/-- `create_access_token`. -/
def createAccessToken (user : UserWithRole) (version changes : Nat) : Claims :=
  { userId := user.id, role := some user.role, tokenId := none, authVersion := version,
    exp := g.now + cfg.accessTokenExpireMinutes * 60, tokenType := .access,
    passwordChanges := changes }

/-- `create_refresh_token`. -/
def createRefreshToken (user : UserWithRole) (version changes : Nat) : Claims :=
  { userId := user.id, role := none, tokenId := some g.nextToken, authVersion := version,
    exp := g.now + cfg.refreshTokenExpireDays * 86400, tokenType := .refresh,
    passwordChanges := changes }

end Gateway

/-! ## Requests -/

/-- `UserCreate`. -/
structure UserCreate where
  username : String
  password : String
  roleId : Option Int

/-- `UserLogin`. -/
structure UserLogin where
  username : String
  password : String

/-- `UserUpdate`. -/
structure UserUpdate where
  roleId : Option Int
  isActive : Option Bool
  password : Option String
  oldPassword : Option String
  newPassword : Option String

/-- `PasswordChange`. -/
structure PasswordChange where
  oldPassword : String
  newPassword : String

/-- The arguments of `apply_user_update`. -/
structure Update where
  userId : Nat
  body : UserUpdate
  salt : String
  allowPasswordReset : Bool

/-- The requests. -/
inductive Request
  | register (body : UserCreate) (salt : String)
  | login (body : UserLogin)
  | refreshToken (token : Claims)
  | logout (token : Claims)
  | updateMe (token : Claims) (body : UserUpdate) (salt : String)
  | changePassword (token : Claims) (body : PasswordChange) (salt : String)
  | adminUpdateUser (token : Claims) (userId : Nat) (body : UserUpdate) (salt : String)
  | adminDeleteUser (token : Claims) (userId : Nat)
  | cleanupTokens (token : Claims)

/-- The token a request presents. -/
def Request.token : Request → Option Claims
  | .register .. | .login .. => none
  | .refreshToken c | .logout c | .updateMe c .. | .changePassword c .. | .adminUpdateUser c ..
  | .adminDeleteUser c _ | .cleanupTokens c => some c

/-- Where a request is: about to run the statement or operation it is named after. -/
inductive Task
  | registerCheck (body : UserCreate) (salt : String)
  | registerInsert (body : UserCreate) (salt : String)
  /-- `login`: `get_user_with_role_by_username`. -/
  | loginUser (body : UserLogin)
  /-- `login`: `get_user_by_username`. -/
  | loginRow (body : UserLogin) (user : UserWithRole)
  | loginIssue (user : UserWithRole) (row : User)
  | refreshValidate (token : Claims)
  /-- `refresh_token`: `refresh_tokens.get`. -/
  | refreshStored (claims : Claims) (tokenId : Nat)
  /-- `refresh_token`: `refresh_tokens.remove`. -/
  | refreshRemove (claims : Claims) (tokenId : Nat)
  | refreshUser (claims : Claims) (tokenId : Nat)
  | refreshIssue (claims : Claims) (tokenId : Nat) (user : UserWithRole)
  | logoutRemove (token : Claims)
  | meAuth (token : Claims) (body : UserUpdate) (salt : String)
  | passwordAuth (token : Claims) (body : PasswordChange) (salt : String)
  | updateAuth (token : Claims) (update : Update)
  | applyRole (update : Update)
  | applyActive (update : Update) (changed : Bool)
  | passwordRow (userId : Nat) (old new salt : String)
  | passwordWrite (userId : Nat) (new salt : String)
  | deleteAuth (token : Claims) (userId : Nat)
  | deleteRead (userId : Nat)
  | deleteWrite (userId : Nat)
  | revoke (userId : Nat)
  | cleanupAuth (token : Claims)
  | cleanup

/-- Its first statement. -/
def Request.start : Request → Task
  | .register body salt => .registerCheck body salt
  | .login body => .loginUser body
  | .refreshToken c => .refreshValidate c
  | .logout c => .logoutRemove c
  | .updateMe c body salt => .meAuth c body salt
  | .changePassword c body salt => .passwordAuth c body salt
  | .adminUpdateUser c id body salt => .updateAuth c ⟨id, body, salt, true⟩
  | .adminDeleteUser c id => .deleteAuth c id
  | .cleanupTokens c => .cleanupAuth c

/-- What a statement does. -/
inductive Action
  | read
  | create (name hash : String) (roleId : Int)
  | setRole (userId : Nat) (role : Role)
  | setActive (userId : Nat) (active : Bool)
  | setPassword (userId : Nat) (hash : String)
  | delete (userId : Nat)
  | issue (user : UserWithRole) (version changes : Nat) (old : Option Claims)
  | remove (tokenId : Nat)
  | revokeUser (userId : Nat)
  | cleanup
  | logout (token : Claims)

/-- What a request reports. -/
inductive Outcome
  | registered (userId : Nat)
  | issued (access refresh : Claims) (old : Option Claims)
  | loggedOut (token : Claims)
  deriving DecidableEq, Repr

/-- `HashMap::retain`. -/
def retain (m : Hash Nat RefreshTokenInfo) (keep : RefreshTokenInfo → Bool) :
    Hash Nat RefreshTokenInfo :=
  ⟨m.entries.filter fun e => keep e.2, m.nodupKeys.sublist filter_sublist⟩

/-- `create_user`. -/
def Gateway.create (g : Gateway) (name hash : String) (roleId : Int) : Gateway × List Outcome :=
  match g.users.createUser name hash roleId with
  | some (users, id) => ({ g with users }, [.registered id])
  | none => (g, [])

/-- `logout`: revoke the refresh token if it is valid. -/
def Gateway.forget (g : Gateway) (token : Claims) : Gateway :=
  if g.verifyToken .refresh token then
    match token.tokenId with
    | some tokenId => { g with refreshTokens := g.refreshTokens.erase tokenId }
    | none => g
  else g

variable (cfg : Config)

/-- Everything a statement does. -/
def Gateway.perform (g : Gateway) : Action → Gateway × List Outcome
  | .read => (g, [])
  | .create name hash roleId => g.create name hash roleId
  | .setRole id role => ({ g with users := g.users.updateUserRole id role }, [])
  | .setActive id active => ({ g with users := g.users.updateUserActive id active }, [])
  | .setPassword id hash => ({ g with users := g.users.updateUserPassword id hash }, [])
  | .delete id => ({ g with users := g.users.deleteUser id }, [])
  | .issue user version changes old =>
    let access := g.createAccessToken cfg user version changes
    let refresh := g.createRefreshToken cfg user version changes
    ({ g with signed := access :: refresh :: g.signed
              refreshTokens := g.refreshTokens.insert g.nextToken ⟨user.id, refresh.exp⟩
              nextToken := g.nextToken + 1 }, [.issued access refresh old])
  | .remove tokenId => ({ g with refreshTokens := g.refreshTokens.erase tokenId }, [])
  | .revokeUser id => ({ g with refreshTokens := retain g.refreshTokens (·.userId != id) }, [])
  | .cleanup =>
    ({ g with refreshTokens := retain g.refreshTokens fun info => g.now ≤ info.expiresAt }, [])
  | .logout token => (g.forget token, [.loggedOut token])

/-! ## The steps -/

/-- `apply_user_update` after the activation. -/
def Update.afterActive (u : Update) (changed : Bool) : Option Task :=
  match u.body.password.filter (· ≠ "") with
  | some password => if u.allowPasswordReset then some (.passwordWrite u.userId password u.salt) else none
  | none =>
    match u.body.oldPassword, u.body.newPassword with
    | some old, some new => some (.passwordRow u.userId old new u.salt)
    | none, none => if changed then some (.revoke u.userId) else none
    | _, _ => none

/-- The token is an accepted one of an Admin (`require_admin`). -/
def Gateway.requireAdmin (g : Gateway) (c : Claims) : Bool :=
  g.validateAccessToken c && c.role == some .admin

/-- What the request does next and where it goes. -/
def Task.next (g : Gateway) : Task → Action × Option Task
  | .registerCheck body salt =>
    if body.username.utf8ByteSize < 3 ∨ 50 < body.username.utf8ByteSize then (.read, none)
    else if (g.users.getUserByUsername body.username).isSome then (.read, none)
    else (.read, some (.registerInsert body salt))
  | .registerInsert body salt =>
    (.create body.username (cfg.bcrypt.hash salt body.password) (body.roleId.getD 3), none)
  | .loginUser body =>
    match g.users.getUserWithRoleByUsername body.username with
    | some user => (.read, if user.isActive then some (.loginRow body user) else none)
    | none => (.read, none)
  | .loginRow body user =>
    match g.users.getUserByUsername body.username with
    | some row =>
      (.read, if cfg.bcrypt.verify body.password row.passwordHash then some (.loginIssue user row)
        else none)
    | none => (.read, none)
  | .loginIssue user row => (.issue user row.authVersion row.passwordChanges none, none)
  | .refreshValidate c =>
    (.read, if g.validateRefreshToken c then c.tokenId.map (.refreshStored c ·) else none)
  | .refreshStored c tokenId =>
    match g.refreshTokens.lookup tokenId with
    | some info =>
      if info.expiresAt < g.now then (.remove tokenId, none)
      else (.read, some (.refreshRemove c tokenId))
    | none => (.read, none)
  | .refreshRemove c tokenId => (.remove tokenId, some (.refreshUser c tokenId))
  | .refreshUser c tokenId =>
    (.read, (g.users.getUserWithRole c.userId).map (.refreshIssue c tokenId ·))
  | .refreshIssue c _ user => (.issue user c.authVersion c.passwordChanges (some c), none)
  | .logoutRemove c => (.logout c, none)
  | .meAuth c body salt =>
    (.read,
      if g.validateAccessToken c then
        if c.role ≠ some .admin ∧ (body.roleId.isSome ∨ body.isActive.isSome) then none
        else some (.applyRole ⟨c.userId, body, salt, false⟩)
      else none)
  | .passwordAuth c body salt =>
    (.read, if g.validateAccessToken c then
      some (.passwordRow c.userId body.oldPassword body.newPassword salt) else none)
  | .updateAuth c u => (.read, if g.requireAdmin c then some (.applyRole u) else none)
  | .applyRole u =>
    match u.body.roleId with
    | none => (.read, some (.applyActive u false))
    | some roleId =>
      match Role.ofId roleId with
      | some role =>
        (.setRole u.userId role,
          some (.applyActive u (g.users.affects u.userId fun row => row.role != role)))
      -- the foreign key refuses the statement, when there is a row to write
      | none =>
        (.read, if g.users.affects u.userId fun _ => true then none else some (.applyActive u false))
  | .applyActive u changed =>
    match u.body.isActive with
    | none => (.read, u.afterActive changed)
    | some active =>
      (.setActive u.userId active,
        u.afterActive (changed || g.users.affects u.userId fun row => row.isActive != active))
  | .passwordRow id old new salt =>
    match g.users.getUserById id with
    | some row =>
      (.read, if cfg.bcrypt.verify old row.passwordHash then some (.passwordWrite id new salt) else none)
    | none => (.read, none)
  | .passwordWrite id new salt => (.setPassword id (cfg.bcrypt.hash salt new), some (.revoke id))
  | .deleteAuth c id => (.read, if g.requireAdmin c then some (.deleteRead id) else none)
  | .deleteRead id =>
    (.read, (g.users.getUserWithRole id).bind fun user =>
      if user.username = "admin" then none else some (.deleteWrite id))
  | .deleteWrite id => (.delete id, if g.users.affects id fun _ => true then some (.revoke id) else none)
  | .revoke id => (.revokeUser id, none)
  | .cleanupAuth c => (.read, if g.requireAdmin c then some .cleanup else none)
  | .cleanup => (.cleanup, none)

/-- The steps of the requests, one constructor per way a request can go on. -/
inductive Task.Step (cfg : Config) (g : Gateway) : Task → Action → Option Task → Prop
  | stop (t : Task) : Step cfg g t .read none
  | registerCheck (body : UserCreate) (salt : String) :
    Step cfg g (.registerCheck body salt) .read (some (.registerInsert body salt))
  | registerInsert (body : UserCreate) (salt : String) :
    Step cfg g (.registerInsert body salt)
      (.create body.username (cfg.bcrypt.hash salt body.password) (body.roleId.getD 3)) none
  | loginUser (body : UserLogin) (u : User) (hu : g.users.getUserByUsername body.username = some u) :
    Step cfg g (.loginUser body) .read (some (.loginRow body u.withRole))
  | loginRow (body : UserLogin) (user : UserWithRole) (row : User)
    (hrow : g.users.getUserByUsername body.username = some row)
    (hverify : cfg.bcrypt.verify body.password row.passwordHash) :
    Step cfg g (.loginRow body user) .read (some (.loginIssue user row))
  | loginIssue (user : UserWithRole) (row : User) :
    Step cfg g (.loginIssue user row) (.issue user row.authVersion row.passwordChanges none) none
  | refreshValidate (c : Claims) (tokenId : Nat) (hvalid : g.validateRefreshToken c)
    (hid : c.tokenId = some tokenId) :
    Step cfg g (.refreshValidate c) .read (some (.refreshStored c tokenId))
  | refreshExpired (c : Claims) (tokenId : Nat) :
    Step cfg g (.refreshStored c tokenId) (.remove tokenId) none
  | refreshStored (c : Claims) (tokenId : Nat) (hin : tokenId ∈ g.refreshTokens) :
    Step cfg g (.refreshStored c tokenId) .read (some (.refreshRemove c tokenId))
  | refreshRemove (c : Claims) (tokenId : Nat) :
    Step cfg g (.refreshRemove c tokenId) (.remove tokenId) (some (.refreshUser c tokenId))
  | refreshUser (c : Claims) (tokenId : Nat) (u : User) (hu : g.users.getUserById c.userId = some u) :
    Step cfg g (.refreshUser c tokenId) .read (some (.refreshIssue c tokenId u.withRole))
  | refreshIssue (c : Claims) (tokenId : Nat) (user : UserWithRole) :
    Step cfg g (.refreshIssue c tokenId user) (.issue user c.authVersion c.passwordChanges (some c)) none
  | logoutRemove (c : Claims) : Step cfg g (.logoutRemove c) (.logout c) none
  | meAuth (c : Claims) (body : UserUpdate) (salt : String) (hvalid : g.validateAccessToken c)
    (hallowed : c.role = some .admin ∨ body.roleId = none) :
    Step cfg g (.meAuth c body salt) .read (some (.applyRole ⟨c.userId, body, salt, false⟩))
  | passwordAuth (c : Claims) (body : PasswordChange) (salt : String) :
    Step cfg g (.passwordAuth c body salt) .read
      (some (.passwordRow c.userId body.oldPassword body.newPassword salt))
  | updateAuth (c : Claims) (u : Update) (hadmin : g.requireAdmin c) :
    Step cfg g (.updateAuth c u) .read (some (.applyRole u))
  | applyRole (u : Update) (role : Role) (changed : Bool) (hrole : u.body.roleId.isSome) :
    Step cfg g (.applyRole u) (.setRole u.userId role) (some (.applyActive u changed))
  | keepRole (u : Update) : Step cfg g (.applyRole u) .read (some (.applyActive u false))
  | applyActive (u : Update) (changed active : Bool) (changed' : Bool) :
    Step cfg g (.applyActive u changed) (.setActive u.userId active) (u.afterActive changed')
  | keepActive (u : Update) (changed : Bool) :
    Step cfg g (.applyActive u changed) .read (u.afterActive changed)
  | passwordRow (id : Nat) (old new salt : String) :
    Step cfg g (.passwordRow id old new salt) .read (some (.passwordWrite id new salt))
  | passwordWrite (id : Nat) (new salt : String) :
    Step cfg g (.passwordWrite id new salt) (.setPassword id (cfg.bcrypt.hash salt new))
      (some (.revoke id))
  | deleteAuth (c : Claims) (id : Nat) (hadmin : g.requireAdmin c) :
    Step cfg g (.deleteAuth c id) .read (some (.deleteRead id))
  | deleteRead (id : Nat) : Step cfg g (.deleteRead id) .read (some (.deleteWrite id))
  | deleteWrite (id : Nat) : Step cfg g (.deleteWrite id) (.delete id) (some (.revoke id))
  | deleteNothing (id : Nat) : Step cfg g (.deleteWrite id) (.delete id) none
  | revoke (id : Nat) : Step cfg g (.revoke id) (.revokeUser id) none
  | cleanupAuth (c : Claims) : Step cfg g (.cleanupAuth c) .read (some .cleanup)
  | cleanup : Step cfg g .cleanup .cleanup none

/-- A request that goes on only under a condition. -/
theorem Task.Step.guard {cfg : Config} {g : Gateway} {t t' : Task} {p : Prop} [Decidable p]
    (h : p → t.Step cfg g .read (some t')) : t.Step cfg g .read (if p then some t' else none) := by
  split_ifs with hp
  · exact h hp
  · exact .stop t

/-- **What a request can do next.** -/
theorem Task.step_next (g : Gateway) (t : Task) :
    t.Step cfg g (t.next cfg g).1 (t.next cfg g).2 := by
  cases t with
  | registerCheck body salt =>
    rw [Task.next]
    split_ifs
    · exact .stop _
    · exact .stop _
    · exact .registerCheck body salt
  | registerInsert body salt => exact .registerInsert body salt
  | loginUser body =>
    rw [Task.next, Users.getUserWithRoleByUsername]
    cases hu : g.users.getUserByUsername body.username with
    | none => exact .stop _
    | some u => exact .guard fun _ => .loginUser body u hu
  | loginRow body user =>
    rw [Task.next]
    cases hrow : g.users.getUserByUsername body.username with
    | none => exact .stop _
    | some row => exact .guard (.loginRow body user row hrow)
  | loginIssue user row => exact .loginIssue user row
  | refreshValidate c =>
    rw [Task.next]
    dsimp only
    split_ifs with hvalid
    · cases hid : c.tokenId with
      | none => exact .stop _
      | some tokenId => exact .refreshValidate c tokenId hvalid hid
    · exact .stop _
  | refreshStored c tokenId =>
    rw [Task.next]
    cases hinfo : g.refreshTokens.lookup tokenId with
    | none => exact .stop _
    | some info =>
      dsimp only
      split_ifs
      · exact .refreshExpired c tokenId
      · exact .refreshStored c tokenId (lookup_isSome.mp (by rw [hinfo]; rfl))
  | refreshRemove c tokenId => exact .refreshRemove c tokenId
  | refreshUser c tokenId =>
    rw [Task.next, Users.getUserWithRole]
    cases hu : g.users.getUserById c.userId with
    | none => exact .stop _
    | some u => exact .refreshUser c tokenId u hu
  | refreshIssue c tokenId user => exact .refreshIssue c tokenId user
  | logoutRemove c => exact .logoutRemove c
  | meAuth c body salt =>
    rw [Task.next]
    dsimp only
    split_ifs with hvalid hrefused
    · exact .stop _
    · refine .meAuth c body salt hvalid ?_
      by_contra hnot
      obtain ⟨hrole, hbody⟩ := not_or.mp hnot
      exact hrefused ⟨hrole, .inl (Option.isSome_iff_ne_none.mpr hbody)⟩
    · exact .stop _
  | passwordAuth c body salt => exact .guard fun _ => .passwordAuth c body salt
  | updateAuth c u => exact .guard (.updateAuth c u)
  | applyRole u =>
    rw [Task.next]
    cases hrole : u.body.roleId with
    | none => exact .keepRole u
    | some roleId =>
      dsimp only
      cases Role.ofId roleId with
      | some role => exact .applyRole u role _ (by rw [hrole]; rfl)
      | none =>
        dsimp only
        split_ifs
        · exact .stop _
        · exact .keepRole u
  | applyActive u changed =>
    rw [Task.next]
    cases u.body.isActive with
    | none => exact .keepActive u changed
    | some active => exact .applyActive u changed active _
  | passwordRow id old new salt =>
    rw [Task.next]
    cases g.users.getUserById id with
    | none => exact .stop _
    | some row => exact .guard fun _ => .passwordRow id old new salt
  | passwordWrite id new salt => exact .passwordWrite id new salt
  | deleteAuth c id => exact .guard (.deleteAuth c id)
  | deleteRead id =>
    rw [Task.next]
    cases g.users.getUserWithRole id with
    | none => exact .stop _
    | some user =>
      dsimp only [Option.bind_some]
      split_ifs
      · exact .stop _
      · exact .deleteRead id
  | deleteWrite id =>
    rw [Task.next]
    dsimp only
    split_ifs
    · exact .deleteWrite id
    · exact .deleteNothing id
  | revoke id => exact .revoke id
  | cleanupAuth c => exact .guard fun _ => .cleanupAuth c
  | cleanup => exact .cleanup

variable {id : Nat}

theorem Task.Step.setRole {cfg : Config} {g : Gateway} {t : Task} {role : Role} {next : Option Task}
    (h : t.Step cfg g (.setRole id role) next) :
    ∃ u : Update, t = .applyRole u ∧ u.userId = id ∧ u.body.roleId.isSome := by
  cases h with
  | applyRole u _ _ hrole => exact ⟨u, rfl, rfl, hrole⟩

theorem Update.afterActive_cases {u : Update} {changed : Bool} {t : Task}
    (h : u.afterActive changed = some t) :
    (∃ old new salt, t = .passwordRow u.userId old new salt) ∨
      (∃ new salt, t = .passwordWrite u.userId new salt) ∨ t = .revoke u.userId := by
  unfold Update.afterActive at h
  split at h
  · split_ifs at h
    cases h
    exact .inr (.inl ⟨_, _, rfl⟩)
  split at h
  · cases h
    exact .inl ⟨_, _, _, rfl⟩
  · split_ifs at h
    cases h
    exact .inr (.inr rfl)
  · cases h

/-! ## Runs -/

/-- Whose request it is: that of one caller, or of anyone else. -/
inductive Who
  | caller
  | other
  deriving DecidableEq, Repr

/-- The gateway, the requests in flight, what the caller holds. -/
structure State where
  gateway : Gateway
  running : Hash Nat (Who × Task)
  arrived : Nat
  held : List Claims
  owned : List Nat

/-- Arrivals, steps of a request, and the clock. -/
inductive Input
  | arrive (who : Who) (r : Request)
  | advance (num : Nat) (fails : Bool)
  | pass (seconds : Nat)

/-- An outcome, the number of its request, and how many requests had arrived. -/
structure Event where
  num : Nat
  arrived : Nat
  outcome : Outcome
  deriving DecidableEq, Repr

/-- What the caller learns. -/
def State.note (s : State) (who : Who) (outcomes : List Outcome) : State :=
  match who with
  | .other => s
  | .caller => outcomes.foldl (fun s o =>
      match o with
      | .registered id => { s with owned := id :: s.owned }
      | .issued access refresh _ => { s with held := access :: refresh :: s.held }
      | .loggedOut _ => s) s

/-- A request arrives. -/
def State.arrive (s : State) (who : Who) (r : Request) : State :=
  if r.token.all (· ∈ s.gateway.signed) then
    { s with running := s.running.insert s.arrived (who, r.start), arrived := s.arrived + 1 }
  else { s with arrived := s.arrived + 1 }

/-- A request goes on, or ends. -/
def State.goOn (s : State) (num : Nat) (who : Who) : Option Task → State
  | some t => { s with running := s.running.insert num (who, t) }
  | none => { s with running := s.running.erase num }

/-- Requests interleaved. -/
def machine : Machine State Input Event where
  step s
    | .arrive who r => (s.arrive who r, [])
    | .pass seconds => ({ s with gateway := { s.gateway with now := s.gateway.now + seconds } }, [])
    | .advance num fails =>
      match s.running.lookup num with
      | none => (s, [])
      | some (who, t) =>
        if fails then (s.goOn num who none, [])
        else
          let (action, next) := t.next cfg s.gateway
          let (gateway, outcomes) := s.gateway.perform cfg action
          ((({ s with gateway }).goOn num who next).note who outcomes,
            outcomes.map fun o => ⟨num, s.arrived, o⟩)

/-! ## What a step changes -/

theorem mem_retain {m : Hash Nat RefreshTokenInfo} {keep : RefreshTokenInfo → Bool} {k : Nat}
    (hk : k ∈ retain m keep) : k ∈ m := by
  obtain ⟨v, hv⟩ := List.mem_keys.mp (AList.mem_keys.mp hk)
  exact AList.mem_keys.mpr (mem_keys_of_mem (mem_of_mem_filter hv))

/-- The ways an action can change the gateway, with the outcomes it reports. -/
inductive Gateway.Performs (cfg : Config) (g : Gateway) : Action → Gateway → List Outcome → Prop
  | keep (a : Action) : Performs cfg g a g []
  | create (name hash : String) (roleId : Int) (users : Users) (id : Nat)
    (hcreate : g.users.createUser name hash roleId = some (users, id)) :
    Performs cfg g (.create name hash roleId) { g with users } [.registered id]
  | users (a : Action) (users : Users) (hlater : g.users.Later users)
    (hrole : ∀ v ∈ users.rows, (∃ u ∈ g.users.rows, u.id = v.id ∧ u.role = v.role) ∨
      ∃ role, a = .setRole v.id role) :
    Performs cfg g a { g with users } []
  | issue (user : UserWithRole) (version changes : Nat) (old : Option Claims) :
    Performs cfg g (.issue user version changes old)
      (g.perform cfg (.issue user version changes old)).1
      [.issued (g.createAccessToken cfg user version changes)
        (g.createRefreshToken cfg user version changes) old]
  | registry (a : Action) (tokens : Hash Nat RefreshTokenInfo)
    (hsub : ∀ k ∈ tokens, k ∈ g.refreshTokens) :
    Performs cfg g a { g with refreshTokens := tokens } []
  | logout (c : Claims) (tokens : Hash Nat RefreshTokenInfo)
    (hsub : ∀ k ∈ tokens, k ∈ g.refreshTokens) :
    Performs cfg g (.logout c) { g with refreshTokens := tokens } [.loggedOut c]

theorem performs_perform (g : Gateway) (a : Action) :
    g.Performs cfg a (g.perform cfg a).1 (g.perform cfg a).2 := by
  cases a with
  | read => exact .keep _
  | create name hash roleId =>
    rw [Gateway.perform, Gateway.create]
    cases hcreate : g.users.createUser name hash roleId with
    | none => exact .keep _
    | some r => exact .create name hash roleId r.1 r.2 hcreate
  | setRole id role =>
    refine .users _ _ Users.Later.updateUserRole fun v hv => ?_
    obtain ⟨u, hu, ⟨rfl, -⟩ | ⟨rfl, rfl, -⟩⟩ := Users.mem_update hv
    · exact .inl ⟨v, hu, rfl, rfl⟩
    · exact .inr ⟨role, rfl⟩
  | setActive id active =>
    refine .users _ _ Users.Later.updateUserActive fun v hv => .inl ?_
    obtain ⟨u, hu, ⟨rfl, -⟩ | ⟨rfl, -⟩⟩ := Users.mem_update hv <;> exact ⟨_, hu, rfl, rfl⟩
  | setPassword id hash =>
    refine .users _ _ Users.Later.updateUserPassword fun v hv => .inl ?_
    obtain ⟨u, hu, ⟨rfl, -⟩ | ⟨rfl, -⟩⟩ := Users.mem_update hv <;> exact ⟨_, hu, rfl, rfl⟩
  | delete id =>
    exact .users _ _ Users.Later.deleteUser fun v hv => .inl ⟨v, mem_of_mem_filter hv, rfl, rfl⟩
  | issue user version changes old => exact .issue user version changes old
  | remove => exact .registry _ _ fun _ hk => (mem_erase.mp hk).2
  | revokeUser | cleanup => exact .registry _ _ fun _ hk => mem_retain hk
  | logout c =>
    rw [Gateway.perform, Gateway.forget]
    split
    · cases c.tokenId with
      | none => exact .logout c g.refreshTokens fun _ hk => hk
      | some tokenId => exact .logout c _ fun _ hk => (mem_erase.mp hk).2
    · exact .logout c g.refreshTokens fun _ hk => hk

section Performs

variable {cfg : Config} {g g' : Gateway} {a : Action} {outcomes : List Outcome}

variable (h : g.Performs cfg a g' outcomes)
include h

theorem Gateway.Performs.later : g.users.Later g'.users := by
  cases h with
  | create name hash roleId users id hcreate => exact Users.Later.createUser hcreate
  | users _ users hlater hrole => exact hlater
  | keep | issue | registry | logout => exact .rfl

theorem Gateway.Performs.signed {c : Claims} (hc : c ∈ g'.signed) :
    c ∈ g.signed ∨ ∃ user version changes old, a = .issue user version changes old ∧
      (c = g.createAccessToken cfg user version changes ∨
        c = g.createRefreshToken cfg user version changes) := by
  cases h with
  | issue user version changes old =>
    rcases mem_cons.mp hc with rfl | hc
    · exact .inr ⟨user, version, changes, old, rfl, .inl rfl⟩
    rcases mem_cons.mp hc with rfl | hc
    · exact .inr ⟨user, version, changes, old, rfl, .inr rfl⟩
    · exact .inl hc
  | keep | create | users | registry | logout => exact .inl hc

theorem Gateway.Performs.role {v : User} (hv : v ∈ g'.users.rows) :
    (∃ u ∈ g.users.rows, u.id = v.id ∧ u.role = v.role) ∨ (∃ role, a = .setRole v.id role) ∨
      ∃ name hash roleId, a = .create name hash roleId ∧ v.id = g.users.nextId ∧
        Role.ofId roleId = some v.role := by
  cases h with
  | create name hash roleId users id hcreate =>
    obtain ⟨role, hrole, -, -, hrows⟩ := Users.createUser_eq_some hcreate
    rcases mem_cons.mp (hrows ▸ hv) with rfl | hv
    · exact .inr (.inr ⟨name, hash, roleId, rfl, rfl, hrole⟩)
    · exact .inl ⟨v, hv, rfl, rfl⟩
  | users _ users hlater hrole => exact (hrole v hv).imp_right .inl
  | keep | issue | registry | logout => exact .inl ⟨v, hv, rfl, rfl⟩

theorem Gateway.Performs.outcome : outcomes = [] ∨ ∃ o, outcomes = [o] := by
  cases h with
  | keep | users | registry => exact .inl rfl
  | create | issue | logout => exact .inr ⟨_, rfl⟩

theorem Gateway.Performs.registered
    (ho : .registered id ∈ outcomes) : id = g.users.nextId ∧ id < g'.users.nextId := by
  cases h with
  | create name hash roleId users newId hcreate =>
    obtain ⟨role, -, hid, hnext, -⟩ := Users.createUser_eq_some hcreate
    cases mem_singleton.mp ho
    exact ⟨hid, hid ▸ hnext ▸ Nat.lt_succ_self _⟩
  | issue | logout => cases mem_singleton.mp ho
  | keep | users | registry => cases ho

theorem Gateway.Performs.loggedOut {c : Claims} (ho : .loggedOut c ∈ outcomes) : a = .logout c := by
  cases h with
  | logout c tokens hsub =>
    cases mem_singleton.mp ho
    rfl
  | create | issue => cases mem_singleton.mp ho
  | keep | users | registry => cases ho

theorem Gateway.Performs.issued {access refresh : Claims} {old : Option Claims}
    (ho : .issued access refresh old ∈ outcomes) :
    ∃ user version changes, a = .issue user version changes old ∧
      access = g.createAccessToken cfg user version changes ∧
      refresh = g.createRefreshToken cfg user version changes := by
  cases h with
  | issue user version changes old =>
    cases mem_singleton.mp ho
    exact ⟨user, version, changes, rfl, rfl, rfl⟩
  | create | logout => cases mem_singleton.mp ho
  | keep | users | registry => cases ho

end Performs

namespace State

variable (s : State)

theorem lookup_goOn (num : Nat) (who : Who) (next : Option Task) (m : Nat) :
    (s.goOn num who next).running.lookup m =
      if m = num then next.map (who, ·) else s.running.lookup m := by
  cases next with
  | some t => exact Hash.lookup_insert_eq _ _ _ _
  | none =>
    by_cases hm : m = num
    · rw [if_pos hm, hm]
      exact lookup_erase _ _
    rw [if_neg hm]
    exact lookup_erase_ne hm

@[simp] theorem gateway_goOn (num : Nat) (who : Who) (next : Option Task) :
    (s.goOn num who next).gateway = s.gateway := by
  cases next <;> rfl

theorem held_goOn (num : Nat) (who : Who) (next : Option Task) :
    (s.goOn num who next).held = s.held := by
  cases next <;> rfl

theorem owned_goOn (num : Nat) (who : Who) (next : Option Task) :
    (s.goOn num who next).owned = s.owned := by
  cases next <;> rfl

@[simp] theorem arrived_goOn (num : Nat) (who : Who) (next : Option Task) :
    (s.goOn num who next).arrived = s.arrived := by
  cases next <;> rfl

theorem note_frame (who : Who) (outcomes : List Outcome) :
    (s.note who outcomes).gateway = s.gateway ∧ (s.note who outcomes).running = s.running ∧
      (s.note who outcomes).arrived = s.arrived := by
  cases who with
  | other => exact ⟨rfl, rfl, rfl⟩
  | caller =>
    unfold note
    induction outcomes generalizing s with
    | nil => exact ⟨rfl, rfl, rfl⟩
    | cons o outcomes ih =>
      cases o <;> exact ih _

variable {outcomes : List Outcome}

theorem mem_held_note {who : Who} {c : Claims} (hc : c ∈ (s.note who outcomes).held) :
    c ∈ s.held ∨ who = .caller ∧
      ∃ access refresh old, .issued access refresh old ∈ outcomes ∧ (c = access ∨ c = refresh) := by
  cases who with
  | other => exact .inl hc
  | caller =>
    unfold note at hc
    induction outcomes generalizing s with
    | nil => exact .inl hc
    | cons o outcomes ih =>
      obtain hc | ⟨-, access, refresh, old, ho, hc⟩ := ih _ hc
      · cases o with
        | issued access refresh old =>
          rcases mem_cons.mp hc with rfl | hc
          · exact .inr ⟨rfl, c, refresh, old, .head _, .inl rfl⟩
          rcases mem_cons.mp hc with rfl | hc
          · exact .inr ⟨rfl, access, c, old, .head _, .inr rfl⟩
          · exact .inl hc
        | registered | loggedOut => exact .inl hc
      · exact .inr ⟨rfl, access, refresh, old, .tail _ ho, hc⟩

theorem mem_owned_note {who : Who} :
    id ∈ (s.note who outcomes).owned ↔
      id ∈ s.owned ∨ who = .caller ∧ .registered id ∈ outcomes := by
  cases who with
  | other => simp [note]
  | caller =>
    unfold note
    induction outcomes generalizing s with
    | nil => simp
    | cons o outcomes ih =>
      rw [foldl_cons, ih]
      cases o <;> simp [or_assoc, or_left_comm]

end State

/-- After the action of a request. -/
def State.performed (s : State) (num : Nat) (who : Who) (a : Action) (next : Option Task) : State :=
  (({ s with gateway := (s.gateway.perform cfg a).1 }).goOn num who next).note who
    (s.gateway.perform cfg a).2

section Performed

variable (cfg : Config) (s : State) (num : Nat) (who : Who) (a : Action) (next : Option Task)

@[simp] theorem State.gateway_performed :
    (s.performed cfg num who a next).gateway = (s.gateway.perform cfg a).1 := by
  rw [performed, (note_frame ..).1, gateway_goOn]

@[simp] theorem State.arrived_performed :
    (s.performed cfg num who a next).arrived = s.arrived := by
  rw [performed, (note_frame ..).2.2, arrived_goOn]

theorem State.lookup_performed (m : Nat) :
    (s.performed cfg num who a next).running.lookup m =
      if m = num then next.map (who, ·) else s.running.lookup m := by
  rw [performed, (note_frame ..).2.1, lookup_goOn]

end Performed

section InFlight

variable {cfg : Config} {s : State} {num m : Nat} {who : Who} {a : Action} {next : Option Task}
  {e : Who × Task}

theorem State.mem_held_performed {c : Claims} (hc : c ∈ (s.performed cfg num who a next).held) :
    c ∈ s.held ∨ who = .caller ∧ ∃ access refresh old,
      .issued access refresh old ∈ (s.gateway.perform cfg a).2 ∧ (c = access ∨ c = refresh) := by
  refine (mem_held_note _ hc).imp_left fun hc => ?_
  rwa [held_goOn] at hc

theorem State.mem_owned_performed : id ∈ (s.performed cfg num who a next).owned ↔
      id ∈ s.owned ∨ who = .caller ∧ .registered id ∈ (s.gateway.perform cfg a).2 := by
  rw [State.performed, mem_owned_note, owned_goOn]

theorem State.running_performed (h : (s.performed cfg num who a next).running.lookup m = some e) :
    (m = num ∧ e.1 = who ∧ next = some e.2) ∨ (m ≠ num ∧ s.running.lookup m = some e) := by
  rw [State.lookup_performed] at h
  split at h
  · obtain ⟨t, ht, rfl⟩ := Option.map_eq_some_iff.mp h
    exact .inl ⟨‹_›, rfl, ht⟩
  · exact .inr ⟨‹_›, h⟩

theorem State.running_failed (s : State) (h : (s.running.erase num).lookup m = some e) :
    s.running.lookup m = some e := by
  by_cases hm : m = num
  · rw [hm, lookup_erase] at h
    cases h
  · rwa [lookup_erase_ne hm] at h

end InFlight

/-- The ways a run can go on. -/
inductive Moves (cfg : Config) (s : State) : Input → State → List Event → Prop
  | arrive (who : Who) (r : Request) : Moves cfg s (.arrive who r) (s.arrive who r) []
  | pass (seconds : Nat) : Moves cfg s (.pass seconds)
      { s with gateway := { s.gateway with now := s.gateway.now + seconds } } []
  | idle (num : Nat) (fails : Bool) : Moves cfg s (.advance num fails) s []
  | fail (num : Nat) (who : Who) (t : Task) (hrun : s.running.lookup num = some (who, t)) :
    Moves cfg s (.advance num true) (s.goOn num who none) []
  | perform (num : Nat) (who : Who) (t : Task) (a : Action) (next : Option Task)
    (hrun : s.running.lookup num = some (who, t)) (hstep : t.Step cfg s.gateway a next) :
    Moves cfg s (.advance num false) (s.performed cfg num who a next)
      ((s.gateway.perform cfg a).2.map fun o => ⟨num, s.arrived, o⟩)

/-- The clock goes on, requests go away, one may have arrived with signed tokens. -/
def State.Quiet (s : State) (x : Input) (s' : State) : Prop :=
  ∃ now running arrived, s' = ⟨{ s.gateway with now }, running, arrived, s.held, s.owned⟩ ∧
    s.gateway.now ≤ now ∧ s.arrived ≤ arrived ∧ ∀ m e, running.lookup m = some e →
      s.running.lookup m = some e ∨ m < arrived ∧ ∃ who r, x = .arrive who r ∧
        e = (who, r.start) ∧ ∀ c ∈ r.token, c ∈ s.gateway.signed

theorem State.quiet_arrive (s : State) (who : Who) (r : Request) :
    s.Quiet (.arrive who r) (s.arrive who r) := by
  unfold State.arrive
  split
  next hsigned =>
    refine ⟨_, _, _, rfl, le_rfl, Nat.le_succ _, fun m e he => ?_⟩
    rw [Hash.lookup_insert_eq] at he
    split at he
    next hm =>
      cases he
      exact .inr ⟨hm ▸ Nat.lt_succ_self _, who, r, rfl, rfl, by simpa [Option.all_eq_true] using hsigned⟩
    next => exact .inl he
  next => exact ⟨_, _, _, rfl, le_rfl, Nat.le_succ _, fun _ _ => .inl⟩

/-- All a step can do besides performing the action of a request. -/
theorem Moves.quiet_or_perform {cfg : Config} {s s' : State} {x : Input} {events : List Event}
    (h : Moves cfg s x s' events) : (events = [] ∧ s.Quiet x s') ∨ ∃ num who t a next,
      x = .advance num false ∧ s.running.lookup num = some (who, t) ∧ t.Step cfg s.gateway a next ∧
        s' = s.performed cfg num who a next ∧
        events = (s.gateway.perform cfg a).2.map fun o => ⟨num, s.arrived, o⟩ := by
  cases h with
  | arrive who r => exact .inl ⟨rfl, s.quiet_arrive who r⟩
  | pass seconds => exact .inl ⟨rfl, _, _, _, rfl, Nat.le_add_right .., le_rfl, fun _ _ => .inl⟩
  | idle => exact .inl ⟨rfl, _, _, _, rfl, le_rfl, le_rfl, fun _ _ => .inl⟩
  | fail => exact .inl ⟨rfl, _, _, _, rfl, le_rfl, le_rfl, fun _ _ he => .inl (s.running_failed he)⟩
  | perform num who t a next hrun hstep => exact .inr ⟨num, who, t, a, next, rfl, hrun, hstep, rfl, rfl⟩

theorem moves_step (s : State) (x : Input) :
    Moves cfg s x ((machine cfg).step s x).1 ((machine cfg).step s x).2 := by
  cases x with
  | arrive who r => exact .arrive who r
  | pass seconds => exact .pass seconds
  | advance num fails =>
    simp only [machine]
    cases hrun : s.running.lookup num with
    | none => exact .idle num fails
    | some r =>
      obtain ⟨who, t⟩ := r
      cases fails with
      | true => exact .fail num who t hrun
      | false => exact .perform num who t _ _ hrun (t.step_next cfg s.gateway)

/-- Nothing has arrived. -/
def State.start (g : Gateway) : State := ⟨g, ∅, 0, [], []⟩

/-- Nothing is signed. -/
def Gateway.start (users : Users) (now : Nat) : Gateway := ⟨users, ∅, [], 0, now⟩

/-! ## Samples -/

namespace SampleAuth

/-- A hash that is the password. -/
def bcrypt : Bcrypt := ⟨fun _ password => password, fun password hash => password == hash, by simp⟩

/-- The settings. -/
def config : Config := ⟨bcrypt, 30, 7⟩

/-- Two accounts. -/
def users : Users where
  rows := [⟨1, "admin", "root-password", .admin, true, 0, 0⟩,
    ⟨2, "bob", "bob-password", .admin, true, 0, 0⟩]
  nextId := 3
  ids := by decide
  names := by decide
  fresh := by decide

/-- The login of the first. -/
def adminLogin : UserLogin := ⟨"admin", "root-password"⟩

/-- An access token. -/
def accessToken (userId : Nat) (role : Role) (version : Nat) : Claims :=
  ⟨userId, some role, none, version, 1800, .access, 0⟩

/-- A login. -/
def logIn (who : Who) (num : Nat) (body : UserLogin) : List Input :=
  [.arrive who (.login body), .advance num false, .advance num false, .advance num false]

/-- An account becomes a Viewer's. -/
def demote (num userId : Nat) : List Input :=
  .arrive .other (.adminUpdateUser (accessToken 1 .admin 0) userId ⟨some 3, none, none, none, none⟩ "")
    :: replicate 4 (.advance num false)

end SampleAuth

end VoltageEMS.Apigateway
