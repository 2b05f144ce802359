import VoltageEMS.Apigateway.TokenVersions

/-!
# What a caller without any password can reach

One caller starts with no token and knows the password of no account but those they register.  Anyone
else may send requests as well.

* `no_privileged_token` — **in every run with plain registrations** the caller holds no access token
  that is accepted as one of an Admin or an Engineer.
-/

namespace VoltageEMS.Apigateway

open Lib List

/-- The caller uses what they were given, and nobody sets the roles of their accounts. -/
def callerLimits (cfg : Config) (s : State) : Input → Bool
  | .arrive .caller r => r.token.all (· ∈ s.held)
  | .advance num _ =>
    match s.running.lookup num with
    | some (.caller, .loginRow body _) =>
      (s.gateway.users.getUserByUsername body.username).all fun row =>
        !cfg.bcrypt.verify body.password row.passwordHash || decide (row.id ∈ s.owned)
    | some (.other, .applyRole u) => u.body.roleId.isNone || decide (u.userId ∉ s.owned)
    | _ => true
  | _ => true

/-- The caller asks for no high role. -/
def plainRegistration : Input → Bool
  | .arrive .caller (.register body _) => Role.ofId (body.roleId.getD 3) ≠ some .admin ∧
      Role.ofId (body.roleId.getD 3) ≠ some .engineer
  | _ => true

/-- A role without privileges. -/
def Plain (role : Option Role) : Prop := role ≠ some .admin ∧ role ≠ some .engineer

/-- The account is the caller's and the role plain, or the account is gone. -/
def Harmless (users : Users) (owned : List Nat) (userId : Nat) (role : Option Role) : Prop :=
  (userId ∈ owned ∧ Plain role) ∨ (userId < users.nextId ∧ ∀ u ∈ users.rows, u.id ≠ userId)

/-- What the caller's requests carry is plain. -/
def Task.OfCaller (users : Users) (owned : List Nat) : Task → Prop
  | .registerCheck body _ | .registerInsert body _ => Plain (Role.ofId (body.roleId.getD 3))
  | .loginRow body user => user.id < users.nextId ∧ (user.id ∈ owned → Plain (some user.role)) ∧
      ∀ u ∈ users.rows, u.id = user.id → u.username = body.username
  | .loginIssue user _ | .refreshIssue _ _ user =>
    Harmless users owned user.id (some user.role)
  | .refreshValidate c | .refreshStored c _ | .refreshRemove c _ | .refreshUser c _ | .meAuth c ..
  | .updateAuth c _ => Harmless users owned c.userId c.role
  | .applyRole u => u.body.roleId = none
  | _ => True

/-- The accounts of the caller are plain ones, and so is everything the caller holds. -/
structure Unprivileged (s : State) : Prop where
  known : ∀ id ∈ s.owned, id < s.gateway.users.nextId
  role : ∀ u ∈ s.gateway.users.rows, u.id ∈ s.owned → Plain (some u.role)
  held : ∀ c ∈ s.held, Harmless s.gateway.users s.owned c.userId c.role
  tasks : ∀ num t, s.running.lookup num = some (.caller, t) → t.OfCaller s.gateway.users s.owned

/-! ## Steps -/

section Step

variable {users users' : Users} {owned owned' : List Nat} {userId : Nat} {role : Option Role}
  {t : Task}

theorem Harmless.later (h : Harmless users owned userId role) (hl : users.Later users')
    (howned : owned ⊆ owned') : Harmless users' owned' userId role := by
  rcases h with ⟨hown, hplain⟩ | ⟨hknown, hgone⟩
  · exact .inl ⟨howned hown, hplain⟩
  refine .inr ⟨hknown.trans_le hl.nextId_le, fun v hv hid => ?_⟩
  obtain hnew | ⟨u, hu, huv⟩ := hl.rows v hv
  · exact absurd (hid ▸ hknown) (Nat.not_lt.mpr hnew)
  · exact hgone u hu (huv.id.symm.trans hid)

theorem Task.OfCaller.later (h : t.OfCaller users owned) (hl : users.Later users')
    (howned : owned ⊆ owned') (hnew : ∀ id ∈ owned', id ∈ owned ∨ users.nextId ≤ id) :
    t.OfCaller users' owned' := by
  cases t with
  | loginRow body user =>
    obtain ⟨hknown, hplain, hname⟩ := h
    refine ⟨hknown.trans_le hl.nextId_le, fun hown => ?_, fun v hv hid => ?_⟩
    · exact hplain ((hnew user.id hown).resolve_right (Nat.not_le.mpr hknown))
    obtain hv | ⟨u, hu, huv⟩ := hl.rows v hv
    · exact absurd (hid ▸ hknown) (Nat.not_lt.mpr hv)
    · exact huv.username.trans (hname u hu (huv.id.symm.trans hid))
  | loginIssue | refreshIssue | refreshValidate | refreshStored | refreshRemove | refreshUser | meAuth
  | updateAuth => exact Harmless.later h hl howned
  | registerCheck | registerInsert | applyRole => exact h
  | _ => trivial

variable {g : Gateway}

theorem Harmless.plain {c : Claims} (h : Harmless g.users owned c.userId c.role)
    (hc : g.validateAccessToken c = true) : Plain c.role := by
  obtain ⟨-, u, hu, hid, -⟩ := validateAccessToken_iff.mp hc
  rcases h with ⟨-, hplain⟩ | ⟨-, hgone⟩
  · exact hplain
  · exact absurd hid (hgone u hu)

variable {next : Option Task}

theorem Task.ofCaller_next {cfg : Config} {a : Action} (h : t.OfCaller g.users owned)
    (hstep : t.Step cfg g a next) (hrole : ∀ u ∈ g.users.rows, u.id ∈ owned → Plain (some u.role))
    (hpassword : ∀ body user row, t = .loginRow body user →
      g.users.getUserByUsername body.username = some row →
      cfg.bcrypt.verify body.password row.passwordHash = true → row.id ∈ owned) :
    ∀ t' ∈ next, t'.OfCaller g.users owned := by
  intro t' ht'
  cases hstep with
  | registerCheck | refreshValidate | refreshStored | refreshRemove => cases ht'; exact h
  | loginUser body u hu =>
    cases ht'
    obtain ⟨hmem, hname⟩ := Users.getUserByUsername_eq_some.mp hu
    refine ⟨g.users.fresh u hmem, hrole u hmem, fun v hv hid => ?_⟩
    rw [inj_on_of_nodup_map g.users.ids hv hmem hid, hname]
  | loginRow body user row hrow hverify =>
    cases ht'
    obtain ⟨hknown, hplain, hnames⟩ := h
    obtain ⟨hmem, hname⟩ := Users.getUserByUsername_eq_some.mp hrow
    have hown := hpassword body user row rfl hrow hverify
    by_cases hid : row.id = user.id
    · exact .inl ⟨hid ▸ hown, hplain (hid ▸ hown)⟩
    -- the account was replaced by one of the caller's of the same name
    refine .inr ⟨hknown, fun v hv hvid => hid ?_⟩
    rw [← hvid, inj_on_of_nodup_map g.users.names hmem hv (hname.trans (hnames v hv hvid).symm)]
  | refreshUser c tokenId u hu =>
    cases ht'
    obtain ⟨hmem, hid⟩ := Users.getUserById_eq_some.mp hu
    rcases h with ⟨hown, -⟩ | ⟨-, hgone⟩
    · rw [← hid] at hown
      exact .inl ⟨hown, hrole u hmem hown⟩
    · exact absurd hid (hgone u hmem)
  | meAuth c body salt hvalid hallowed =>
    cases ht'
    exact hallowed.resolve_left (Harmless.plain h hvalid).1
  | updateAuth c u hadmin =>
    obtain ⟨hvalid, hrole⟩ := Bool.and_eq_true_iff.mp hadmin
    exact absurd (eq_of_beq hrole) (Harmless.plain h hvalid).1
  | applyActive | keepActive =>
    obtain ⟨_, _, _, rfl⟩ | ⟨_, _, rfl⟩ | rfl := Update.afterActive_cases ht' <;> trivial
  | _ => cases ht' <;> trivial

theorem Task.harmless_issue {cfg : Config} (h : t.OfCaller g.users owned) {user : UserWithRole}
    {version changes : Nat} {old : Option Claims}
    (hstep : t.Step cfg g (.issue user version changes old) next) :
    Harmless g.users owned user.id (some user.role) := by
  cases hstep <;> exact h

theorem Plain.none : Plain none := ⟨nofun, nofun⟩

theorem Harmless.noRole (h : Harmless users owned userId role) :
    Harmless users owned userId none :=
  h.imp_left fun h => ⟨h.1, Plain.none⟩

end Step

theorem Request.start_ofCaller {users : Users} {owned : List Nat} {r : Request}
    (htoken : ∀ c ∈ r.token, Harmless users owned c.userId c.role)
    (hplain : plainRegistration (.arrive .caller r) = true) : r.start.OfCaller users owned := by
  cases r with
  | register body salt => simpa [plainRegistration, Plain, start, Task.OfCaller] using hplain
  | refreshToken c | updateMe c | adminUpdateUser c => exact htoken c rfl
  | _ => trivial

section Limits

variable {cfg : Config} {s : State} {num : Nat} {fails : Bool}

theorem owned_of_callerLimits {body : UserLogin} {user : UserWithRole} {row : User}
    (h : callerLimits cfg s (.advance num fails) = true)
    (hrun : s.running.lookup num = some (.caller, .loginRow body user))
    (hrow : s.gateway.users.getUserByUsername body.username = some row)
    (hverify : cfg.bcrypt.verify body.password row.passwordHash = true) : row.id ∈ s.owned := by
  simpa [callerLimits, hrun, hrow, hverify] using h

theorem notMem_owned_of_callerLimits {u : Update}
    (h : callerLimits cfg s (.advance num fails) = true)
    (hrun : s.running.lookup num = some (.other, .applyRole u)) (hrole : u.body.roleId.isSome) :
    u.userId ∉ s.owned := by
  have hnone : u.body.roleId ≠ none := Option.isSome_iff_ne_none.mp hrole
  simpa [callerLimits, hrun, hnone] using h

end Limits

theorem plain_performed {cfg : Config} {s : State} {num : Nat} {who : Who} {t : Task} {a : Action}
    {next : Option Task} (h : Unprivileged s) (hlimits : callerLimits cfg s (.advance num false) = true)
    (hrun : s.running.lookup num = some (who, t)) (hstep : t.Step cfg s.gateway a next) :
    ∀ v ∈ (s.gateway.perform cfg a).1.users.rows,
      v.id ∈ (s.performed cfg num who a next).owned → Plain (some v.role) := by
  intro v hv hown
  have hcases := State.mem_owned_performed.mp hown
  obtain ⟨u, hu, hid, hrole⟩ | ⟨role, rfl⟩ | ⟨name, hash, roleId, rfl, hid, hrole⟩ :=
    (performs_perform ..).role hv
  · rw [← hrole]
    refine h.role u hu (hid ▸ hcases.resolve_right ?_)
    rintro ⟨-, hnew⟩
    -- what is registered is a new id
    have hlt := s.gateway.users.fresh u hu
    rw [hid, ((performs_perform ..).registered hnew).1] at hlt
    exact lt_irrefl _ hlt
  · refine absurd (hcases.resolve_right fun hnew => nomatch hnew.2) ?_
    obtain ⟨u, rfl, hid, hrole⟩ := hstep.setRole
    cases who with
    | caller =>
      have hnone : u.body.roleId = none := h.tasks num _ hrun
      rw [hnone] at hrole
      cases hrole
    | other => exact hid ▸ notMem_owned_of_callerLimits hlimits hrun hrole
  obtain ⟨rfl, -⟩ := hcases.resolve_left fun hold => absurd (h.known _ hold) (hid ▸ lt_irrefl _)
  cases hstep with
  | registerInsert body salt =>
    have hplain : Plain (Role.ofId (body.roleId.getD 3)) := h.tasks num _ hrun
    rwa [hrole] at hplain

theorem Moves.unprivileged {cfg : Config} {s s' : State} {x : Input} {events : List Event}
    (hmoves : Moves cfg s x s' events) (h : Unprivileged s)
    (hlimits : callerLimits cfg s x = true) (hplain : plainRegistration x = true) :
    Unprivileged s' := by
  obtain ⟨-, now, running, arrived, rfl, -, -, hquiet⟩ |
    ⟨num, who, t, a, next, rfl, hrun, hstep, rfl, -⟩ := hmoves.quiet_or_perform
  · refine ⟨h.known, h.role, h.held, fun m t he => ?_⟩
    obtain he | ⟨-, who, r, rfl, heq, -⟩ := hquiet m _ he
    · exact h.tasks m t he
    cases heq
    refine Request.start_ofCaller (fun c hc => h.held c ?_) hplain
    simpa [callerLimits, Option.mem_def.mp hc] using hlimits
  have hlater := (performs_perform cfg s.gateway a).later
  have hsub : s.owned ⊆ (s.performed cfg num who a next).owned :=
    fun id hid => State.mem_owned_performed.mpr (.inl hid)
  have hnew : ∀ id ∈ (s.performed cfg num who a next).owned,
      id ∈ s.owned ∨ s.gateway.users.nextId ≤ id ∧ id < (s.gateway.perform cfg a).1.users.nextId := by
    intro id hid
    refine (State.mem_owned_performed.mp hid).imp_right fun ⟨_, ho⟩ => ?_
    obtain ⟨heq, hlt⟩ := (performs_perform ..).registered ho
    exact ⟨heq.ge, hlt⟩
  refine ⟨fun id hid => ?_, ?_, fun c hc => ?_, fun m t' he => ?_⟩ <;> rw [State.gateway_performed]
  · exact (hnew id hid).elim (fun hold => (h.known id hold).trans_le hlater.nextId_le) And.right
  · exact plain_performed h hlimits hrun hstep
  · obtain hc | ⟨rfl, access, refresh, old, ho, hgiven⟩ := State.mem_held_performed hc
    · exact (h.held c hc).later hlater hsub
    obtain ⟨user, version, changes, rfl, rfl, rfl⟩ := (performs_perform ..).issued ho
    have hissue := Task.harmless_issue (h.tasks num t hrun) hstep
    rcases hgiven with rfl | rfl
    · exact hissue.later hlater hsub
    · exact hissue.noRole.later hlater hsub
  obtain ⟨-, rfl, hnext⟩ | ⟨-, he⟩ := State.running_performed he
  · exact (Task.ofCaller_next (h.tasks num t hrun) hstep h.role
      (fun body user row ht => owned_of_callerLimits hlimits (ht ▸ hrun)) t' hnext).later hlater hsub
        fun id hid => (hnew id hid).imp_right And.left
  · exact (h.tasks m t' he).later hlater hsub fun id hid => (hnew id hid).imp_right And.left

/-! ## Runs -/

theorem unprivileged_start (g : Gateway) : Unprivileged (.start g) :=
  ⟨fun _ hid => absurd hid not_mem_nil, fun _ _ hid => absurd hid not_mem_nil,
    fun _ hc => absurd hc not_mem_nil, fun _ _ he => by cases he⟩

/-- **No privileged token without an Admin.**  A caller who starts with no token and no password,
and registers no Admin or Engineer, never holds an access token that is accepted with such a role,
as long as nobody else sets the role of the caller's accounts. -/
theorem no_privileged_token (cfg : Config) (g : Gateway) (xs : List Input)
    (hlimits : (machine cfg).Along (fun s x => callerLimits cfg s x = true) (.start g) xs)
    (hplain : ∀ x ∈ xs, plainRegistration x = true) :
    ∀ c ∈ ((machine cfg).run (.start g) xs).held,
      ((machine cfg).run (.start g) xs).gateway.validateAccessToken c = true →
        c.role ≠ some .admin ∧ c.role ≠ some .engineer := by
  have hinv : Unprivileged ((machine cfg).run (.start g) xs) :=
    (machine cfg).invariant (fun s (_ : List Event) => Unprivileged s) (l := [])
      (fun _ _ _ hs hx => (moves_step ..).unprivileged hs hx.1 hx.2) (unprivileged_start g)
      ((machine cfg).along_and_mem hlimits hplain)
  exact fun c hc hvalid => (hinv.held c hc).plain hvalid

namespace SampleAuth

/-- The caller registers and logs in. -/
def registerAndLogIn (roleId : Option Int) : List Input :=
  [.arrive .caller (.register ⟨"mallory", "my-password", roleId⟩ ""), .advance 0 false,
    .advance 0 false] ++ logIn .caller 1 ⟨"mallory", "my-password"⟩

end SampleAuth

/-- A plain registration gives an accepted token, and it is a Viewer's. -/
theorem viewer_token_of_registration :
    SampleAuth.accessToken 3 .viewer 0 ∈ ((machine SampleAuth.config).run
        (.start (.start SampleAuth.users 0)) (SampleAuth.registerAndLogIn none)).held ∧
      (SampleAuth.accessToken 3 .viewer 0).role ≠ some .admin ∧
      (SampleAuth.accessToken 3 .viewer 0).role ≠ some .engineer :=
  have hheld : SampleAuth.accessToken 3 .viewer 0 ∈ ((machine SampleAuth.config).run
      (.start (.start SampleAuth.users 0)) (SampleAuth.registerAndLogIn none)).held := by
    decide +kernel
  ⟨hheld, no_privileged_token SampleAuth.config (.start SampleAuth.users 0)
    (SampleAuth.registerAndLogIn none) (by decide +kernel) (by decide +kernel) _ hheld
    (by decide +kernel)⟩

/-- The registration takes the role from its body, whoever sends it. -/
theorem registered_as_admin :
    ¬ ∀ (cfg : Config) (g : Gateway) (xs : List Input),
      (machine cfg).Along (fun s x => callerLimits cfg s x = true) (.start g) xs →
      ∀ c ∈ ((machine cfg).run (.start g) xs).held,
        ((machine cfg).run (.start g) xs).gateway.validateAccessToken c = true →
          c.role ≠ some .admin ∧ c.role ≠ some .engineer := by
  intro h
  have hadmin := (h SampleAuth.config (.start SampleAuth.users 0) (SampleAuth.registerAndLogIn (some 1))
    (by decide +kernel) (SampleAuth.accessToken 3 .admin 0) (by decide +kernel) (by decide +kernel)).1
  exact hadmin rfl

end VoltageEMS.Apigateway
