import VoltageEMS.Apigateway.Sessions

/-!
# What an accepted access token says is still true

A token is accepted as long as the authentication version it carries is that of its account, and every
change of role, activation or password increments the version.

* `accepted_current` — **in every run of such logins** an accepted access token belongs to an active
  account, carries its role and goes back to its password.
-/

namespace VoltageEMS.Apigateway

open Lib List Option

/-- The account is not behind the version; at the version it has the role, if one is given, and the
password. -/
structure AtVersion (users : Users) (userId : Nat) (role : Option Role) (version changes : Nat) : Prop where
  known : userId < users.nextId
  version_le : ∀ u ∈ users.rows, u.id = userId → version ≤ u.authVersion
  current : ∀ u ∈ users.rows, u.id = userId → u.authVersion = version →
    (∀ r ∈ role, r = u.role) ∧ changes = u.passwordChanges

section AtVersion

variable {users users' : Users} {userId version changes : Nat} {role : Option Role}

theorem AtVersion.later (h : AtVersion users userId role version changes) (hl : users.Later users') :
    AtVersion users' userId role version changes := by
  have hrow : ∀ v ∈ users'.rows, v.id = userId → ∃ u ∈ users.rows, u.id = userId ∧ u.Later v := by
    intro v hv hid
    obtain hnew | ⟨u, hu, huv⟩ := hl.rows v hv
    · exact absurd (hid ▸ h.known) (Nat.not_lt.mpr hnew)
    · exact ⟨u, hu, huv.id.symm.trans hid, huv⟩
  refine ⟨h.known.trans_le hl.nextId_le, fun v hv hid => ?_, fun v hv hid hversion => ?_⟩
  · obtain ⟨u, hu, huid, huv⟩ := hrow v hv hid
    rcases huv.same_or_newer with rfl | hnewer
    · exact h.version_le v hu huid
    · exact (h.version_le u hu huid).trans hnewer.le
  obtain ⟨u, hu, huid, huv⟩ := hrow v hv hid
  rcases huv.same_or_newer with rfl | hnewer
  · exact h.current v hu huid hversion
  · exact absurd (h.version_le u hu huid) (Nat.not_le.mpr (hversion ▸ hnewer))

theorem atVersion_row {u : User} (hu : u ∈ users.rows) :
    AtVersion users u.id (some u.role) u.authVersion u.passwordChanges := by
  have hsame : ∀ v ∈ users.rows, v.id = u.id → v = u := fun v hv hid =>
    inj_on_of_nodup_map users.ids hv hu hid
  refine ⟨users.fresh u hu, fun v hv hid => ?_, fun v hv hid _ => ?_⟩ <;> rw [hsame v hv hid]
  exact ⟨fun r hr => (mem_some_iff.mp hr).symm, rfl⟩

theorem atVersion_of_no_row (hknown : userId < users.nextId) (hno : ∀ u ∈ users.rows, u.id ≠ userId) :
    AtVersion users userId role version changes :=
  ⟨hknown, fun u hu hid => absurd hid (hno u hu), fun u hu hid => absurd hid (hno u hu)⟩

theorem AtVersion.withRole {role' : Option Role} (h : AtVersion users userId role version changes) {u : User}
    (hu : u ∈ users.rows) (hid : u.id = userId) (hrole : ∀ r ∈ role', r = u.role) :
    AtVersion users userId role' version changes := by
  refine ⟨h.known, h.version_le, fun v hv hvid hversion => ?_⟩
  obtain rfl := inj_on_of_nodup_map users.ids hu hv (hid.trans hvid.symm)
  exact ⟨hrole, (h.current u hv hvid hversion).2⟩

theorem AtVersion.noRole (h : AtVersion users userId role version changes) :
    AtVersion users userId none version changes :=
  ⟨h.known, h.version_le, fun u hu hid hversion =>
    ⟨fun r hr => absurd hr (not_mem_none r), (h.current u hu hid hversion).2⟩⟩

end AtVersion

/-! ## Along a run -/

/-- The claims fit the account. -/
def Claims.Fits (c : Claims) (users : Users) : Prop :=
  AtVersion users c.userId c.role c.authVersion c.passwordChanges

/-- What a request has read fits the account. -/
def Task.Fits (users : Users) : Task → Prop
  | .loginRow body user =>
    user.id < users.nextId ∧ ∀ u ∈ users.rows, u.id = user.id → u.username = body.username
  | .loginIssue user row =>
    AtVersion users user.id (some user.role) row.authVersion row.passwordChanges
  | .refreshValidate c | .refreshStored c _ | .refreshRemove c _ | .refreshUser c _ => c.Fits users
  | .refreshIssue c _ user =>
    AtVersion users user.id (some user.role) c.authVersion c.passwordChanges
  | _ => True

theorem Task.Fits.later {users users' : Users} {t : Task} (h : t.Fits users)
    (hl : users.Later users') : t.Fits users' := by
  cases t with
  | loginRow body user =>
    refine ⟨h.1.trans_le hl.nextId_le, fun v hv hid => ?_⟩
    obtain hnew | ⟨u, hu, huv⟩ := hl.rows v hv
    · exact absurd (hid ▸ h.1) (Nat.not_lt.mpr hnew)
    · exact huv.username.trans (h.2 u hu (huv.id.symm.trans hid))
  | loginIssue | refreshValidate | refreshStored | refreshRemove | refreshUser | refreshIssue =>
    exact AtVersion.later h hl
  | _ => trivial

/-- A login finds the role it has read before. -/
def roleKept (s : State) : Input → Bool
  | .advance num _ =>
    match s.running.lookup num with
    | some (_, .loginRow body user) =>
      (s.gateway.users.getUserByUsername body.username).all fun row =>
        row.id != user.id || row.role == user.role
    | _ => true
  | _ => true

variable {user : UserWithRole}

theorem role_of_roleKept {s : State} {num : Nat} {fails : Bool} {who : Who} {body : UserLogin}
    {row : User} (h : roleKept s (.advance num fails) = true)
    (hrun : s.running.lookup num = some (who, .loginRow body user))
    (hrow : s.gateway.users.getUserByUsername body.username = some row) (hid : row.id = user.id) :
    row.role = user.role := by
  simp only [roleKept, hrun, hrow, all_some, Bool.or_eq_true, bne_iff_ne, ne_eq,
    beq_iff_eq] at h
  exact h.resolve_left (fun hne => hne hid)

/-- Everything that was signed or read fits the accounts. -/
structure Consistent (s : State) : Prop where
  signed : ∀ c ∈ s.gateway.signed, c.Fits s.gateway.users
  role : ∀ c ∈ s.gateway.signed, c.tokenType = .access → c.role ≠ none
  tasks : ∀ num e, s.running.lookup num = some e → e.2.Fits s.gateway.users

section Step

variable {cfg : Config} {g : Gateway} {t : Task} {a : Action} {next : Option Task}

theorem Task.fits_next (h : t.Fits g.users) (hstep : t.Step cfg g a next)
    (hrole : ∀ body user row, t = .loginRow body user →
      g.users.getUserByUsername body.username = some row → row.id = user.id → row.role = user.role) :
    ∀ t' ∈ next, t'.Fits g.users := by
  intro t' ht'
  cases hstep with
  | loginUser body u hu =>
    cases ht'
    obtain ⟨hmem, hname⟩ := Users.getUserByUsername_eq_some.mp hu
    refine ⟨g.users.fresh u hmem, fun v hv hid => ?_⟩
    rw [inj_on_of_nodup_map g.users.ids hv hmem hid, hname]
  | loginRow body user row hrow hverify =>
    cases ht'
    obtain ⟨hmem, hname⟩ := Users.getUserByUsername_eq_some.mp hrow
    by_cases hid : row.id = user.id
    · have hfits := atVersion_row hmem
      rw [hid, hrole body user row rfl hrow hid] at hfits
      exact hfits
    -- the account was replaced by another of the same name
    refine atVersion_of_no_row h.1 fun v hv hvid => hid ?_
    rw [← hvid, inj_on_of_nodup_map g.users.names hmem hv (hname.trans (h.2 v hv hvid).symm)]
  | refreshValidate | refreshStored | refreshRemove => cases ht'; exact h
  | refreshUser c tokenId u hu =>
    cases ht'
    obtain ⟨hmem, hid⟩ := Users.getUserById_eq_some.mp hu
    have hfits : AtVersion g.users u.id c.role c.authVersion c.passwordChanges := hid ▸ h
    exact hfits.withRole hmem rfl fun r hr => (mem_some_iff.mp hr).symm
  | applyActive | keepActive =>
    obtain ⟨_, _, _, rfl⟩ | ⟨_, _, rfl⟩ | rfl := Update.afterActive_cases ht' <;> trivial
  | _ => cases ht' <;> trivial

theorem Task.fits_issue (h : t.Fits g.users) {version changes : Nat} {old : Option Claims}
    (hstep : t.Step cfg g (.issue user version changes old) next) :
    AtVersion g.users user.id (some user.role) version changes := by
  cases hstep <;> exact h

theorem Request.start_fits {users : Users} {r : Request} (h : ∀ c ∈ r.token, c.Fits users) :
    r.start.Fits users := by
  cases r with
  | refreshToken c => exact h c rfl
  | _ => trivial

end Step

theorem Moves.consistent {cfg : Config} {s s' : State} {x : Input} {events : List Event}
    (hmoves : Moves cfg s x s' events) (h : Consistent s) (hrole : roleKept s x = true) :
    Consistent s' := by
  obtain ⟨-, now, running, arrived, rfl, -, -, hquiet⟩ |
    ⟨num, who, t, a, next, rfl, hrun, hstep, rfl, -⟩ := hmoves.quiet_or_perform
  · refine ⟨h.signed, h.role, fun m e he => ?_⟩
    obtain he | ⟨-, who, r, -, rfl, hsigned⟩ := hquiet m e he
    · exact h.tasks m e he
    · exact Request.start_fits fun c hc => h.signed c (hsigned c hc)
  have hfits : t.Fits s.gateway.users := h.tasks num (who, t) hrun
  have hlater := (performs_perform cfg s.gateway a).later
  refine ⟨fun c hc => ?_, fun c hc htype => ?_, fun m e he => ?_⟩
  · rw [State.gateway_performed] at hc ⊢
    obtain hc | ⟨user, version, changes, old, rfl, rfl | rfl⟩ :=
      (performs_perform ..).signed hc
    · exact AtVersion.later (h.signed c hc) hlater
    · exact (Task.fits_issue hfits hstep).later hlater
    · exact (Task.fits_issue hfits hstep).noRole.later hlater
  · rw [State.gateway_performed] at hc
    obtain hc | ⟨user, version, changes, old, rfl, rfl | rfl⟩ :=
      (performs_perform ..).signed hc
    · exact h.role c hc htype
    · exact some_ne_none _
    · cases htype
  rw [State.gateway_performed]
  obtain ⟨-, -, hnext⟩ | ⟨-, he⟩ := State.running_performed he
  · exact (Task.fits_next hfits hstep
      (fun body user row ht => role_of_roleKept hrole (ht ▸ hrun)) _ hnext).later hlater
  · exact (h.tasks m e he).later hlater

theorem consistent_start (users : Users) (now : Nat) : Consistent (.start (.start users now)) :=
  ⟨fun _ hc => absurd hc not_mem_nil, fun _ hc => absurd hc not_mem_nil,
    fun _ _ he => by cases he⟩

theorem consistent_run {cfg : Config} {users : Users} {now : Nat} {xs : List Input}
    (h : (machine cfg).Along (fun s x => roleKept s x = true) (.start (.start users now)) xs) :
    Consistent ((machine cfg).run (.start (.start users now)) xs) :=
  (machine cfg).invariant (fun s (_ : List Event) => Consistent s) (l := [])
    (fun _ _ _ hs hx => (moves_step ..).consistent hs hx) (consistent_start users now) h

theorem validateAccessToken_iff {g : Gateway} {c : Claims} : g.validateAccessToken c = true ↔
    (c ∈ g.signed ∧ ¬ c.Expired g.now ∧ c.tokenType = .access) ∧
      ∃ u ∈ g.users.rows, u.id = c.userId ∧ u.isActive = true ∧ u.authVersion = c.authVersion := by
  unfold Gateway.validateAccessToken Gateway.verifyToken Gateway.validateCurrentClaims
    Users.getUserAuthState
  simp only [Bool.and_eq_true, decide_eq_true_eq, Option.any_eq_true, map_eq_some_iff,
    Users.getUserById_eq_some, beq_iff_eq]
  constructor
  · rintro ⟨hverify, _, ⟨u, ⟨hu, hid⟩, rfl⟩, hactive, hversion⟩
    exact ⟨hverify, u, hu, hid, hactive, hversion⟩
  rintro ⟨hverify, u, hu, hid, hactive, hversion⟩
  exact ⟨hverify, _, ⟨u, ⟨hu, hid⟩, rfl⟩, hactive, hversion⟩

/-- **Accepted tokens are current.**  If logins find the role they have read before, an access token
that is accepted belongs to an active account, with its role and its present password. -/
theorem accepted_current (cfg : Config) (users : Users) (now : Nat) (xs : List Input)
    (h : (machine cfg).Along (fun s x => roleKept s x = true) (.start (.start users now)) xs)
    (c : Claims)
    (hc : ((machine cfg).run (.start (.start users now)) xs).gateway.validateAccessToken c = true) :
    ∃ u ∈ ((machine cfg).run (.start (.start users now)) xs).gateway.users.rows,
      u.id = c.userId ∧ u.isActive = true ∧ c.role = some u.role ∧
        c.passwordChanges = u.passwordChanges := by
  have hinv := consistent_run h
  obtain ⟨⟨hsigned, -, htype⟩, u, hu, hid, hactive, hversion⟩ := validateAccessToken_iff.mp hc
  obtain ⟨hrole, hchanges⟩ := (hinv.signed c hsigned).current u hu hid hversion
  obtain ⟨role, hsome⟩ := ne_none_iff_exists'.mp (hinv.role c hsigned htype)
  exact ⟨u, hu, hid, hactive, hsome.trans (congrArg some (hrole role hsome)), hchanges⟩

namespace SampleAuth

/-- The second account. -/
def bobLogin : UserLogin := ⟨"bob", "bob-password"⟩

/-- A login after the role has changed. -/
def loginAfterDemotion : List Input :=
  logIn .other 0 adminLogin ++ demote 1 2 ++ logIn .other 2 bobLogin

/-- The role changes during the login. -/
def demotionDuringLogin : List Input :=
  logIn .other 0 adminLogin ++ [.arrive .other (.login bobLogin), .advance 1 false] ++ demote 2 2 ++
    [.advance 1 false, .advance 1 false]

end SampleAuth

/-- A login after a change of the role gives an accepted token with the new role. -/
theorem accepted_current_after_demotion :
    ∃ u ∈ ((machine SampleAuth.config).run (.start (.start SampleAuth.users 0))
        SampleAuth.loginAfterDemotion).gateway.users.rows,
      u.id = 2 ∧ u.isActive = true ∧ some Role.viewer = some u.role ∧ 0 = u.passwordChanges :=
  accepted_current SampleAuth.config SampleAuth.users 0 SampleAuth.loginAfterDemotion
    (by decide +kernel) (SampleAuth.accessToken 2 .viewer 1) (by decide +kernel)

/-- The login reads the role of the account before the change and its version after it. -/
theorem demoted_still_admin :
    ¬ ∀ (cfg : Config) (users : Users) (now : Nat) (xs : List Input) (c : Claims),
      ((machine cfg).run (.start (.start users now)) xs).gateway.validateAccessToken c = true →
      ∃ u ∈ ((machine cfg).run (.start (.start users now)) xs).gateway.users.rows,
        u.id = c.userId ∧ u.isActive = true ∧ c.role = some u.role ∧
          c.passwordChanges = u.passwordChanges := by
  intro h
  have haccepted : ((machine SampleAuth.config).run (.start (.start SampleAuth.users 0))
      SampleAuth.demotionDuringLogin).gateway.validateAccessToken (SampleAuth.accessToken 2 .admin 1) =
        true := by decide +kernel
  have hviewer : ∀ u ∈ ((machine SampleAuth.config).run (.start (.start SampleAuth.users 0))
      SampleAuth.demotionDuringLogin).gateway.users.rows, u.id = 2 → u.role = .viewer := by
    decide +kernel
  obtain ⟨u, hu, hid, -, hrole, -⟩ := h _ _ _ _ _ haccepted
  rw [hviewer u hu hid] at hrole
  cases hrole

end VoltageEMS.Apigateway
