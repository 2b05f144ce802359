import VoltageEMS.Apigateway.Sessions

/-!
# A refresh token is exchanged once

A refresh looks its token up in the registry, takes it out and issues a new pair; a logout takes the
token out as well.  Ids of tokens are never given twice, so what is out of the registry stays out.

* `exchanged_once` — **every run**: no token is exchanged twice, nor after a logout.
-/

namespace VoltageEMS.Apigateway

open Lib List AList

/-- The token an event exchanged. -/
def Event.exchanged (e : Event) : Option Claims :=
  match e.outcome with
  | .issued _ _ old => old
  | _ => none

/-- The tokens exchanged. -/
def exchanges (l : List Event) : List Claims := l.filterMap Event.exchanged

theorem exchanges_append (l l' : List Event) : exchanges (l ++ l') = exchanges l ++ exchanges l' :=
  filterMap_append

/-! ## The registry -/

section Registry

variable {cfg : Config} {g g' : Gateway} {a : Action} {outcomes : List Outcome} {k : Nat}

theorem Gateway.Performs.mem_registry (h : g.Performs cfg a g' outcomes) (hk : k ∈ g'.refreshTokens) :
    k ∈ g.refreshTokens ∨ k = g.nextToken := by
  cases h with
  | issue => exact (mem_insert _).mp hk |>.symm
  | registry _ tokens hsub | logout _ tokens hsub => exact .inl (hsub k hk)
  | keep | create | users => exact .inl hk

theorem Gateway.Performs.clock (h : g.Performs cfg a g' outcomes) :
    g'.now = g.now ∧ g.nextToken ≤ g'.nextToken := by
  cases h with
  | issue => exact ⟨rfl, Nat.le_succ _⟩
  | _ => exact ⟨rfl, le_rfl⟩

theorem Gateway.Performs.signed_subset (h : g.Performs cfg a g' outcomes) : g.signed ⊆ g'.signed := by
  cases h with
  | issue => exact fun _ hc => .tail _ (.tail _ hc)
  | _ => exact fun _ hc => hc

theorem notMem_registry_perform (hlt : k < g.nextToken) (hout : k ∉ g.refreshTokens) :
    k ∉ (g.perform cfg a).1.refreshTokens := fun hk =>
  ((performs_perform cfg g a).mem_registry hk).elim hout fun heq => absurd hlt (heq ▸ lt_irrefl _)

end Registry

/-! ## Numbers -/

/-- A request carries a signed token. -/
def Task.Carries (g : Gateway) : Task → Prop
  | .refreshValidate c | .logoutRemove c => c ∈ g.signed
  | .refreshStored c k | .refreshRemove c k | .refreshUser c k | .refreshIssue c k _ =>
    c ∈ g.signed ∧ c.tokenId = some k
  | _ => True

/-- Ids and request numbers are handed out in order. -/
structure Numbered (s : State) : Prop where
  signed : ∀ c ∈ s.gateway.signed, ∀ k ∈ c.tokenId, k < s.gateway.nextToken
  requests : ∀ num e, s.running.lookup num = some e → num < s.arrived ∧ e.2.Carries s.gateway

theorem Task.carries_next {cfg : Config} {g : Gateway} {t : Task} {a : Action} {next : Option Task}
    (h : t.Carries g) (hstep : t.Step cfg g a next) : ∀ t' ∈ next, t'.Carries g := by
  intro t' ht'
  cases hstep with
  | refreshValidate c tokenId hvalid hid => cases ht'; exact ⟨h, hid⟩
  | refreshStored | refreshRemove | refreshUser => cases ht'; exact h
  | applyActive | keepActive =>
    obtain ⟨_, _, _, rfl⟩ | ⟨_, _, rfl⟩ | rfl := Update.afterActive_cases ht' <;> trivial
  | _ => cases ht' <;> trivial

theorem Task.Carries.mono {g g' : Gateway} {t : Task} (h : t.Carries g) (hsub : g.signed ⊆ g'.signed) :
    t.Carries g' := by
  cases t with
  | refreshValidate | logoutRemove => exact hsub h
  | refreshStored | refreshRemove | refreshUser | refreshIssue => exact ⟨hsub h.1, h.2⟩
  | _ => trivial

theorem Request.start_carries {g : Gateway} {r : Request} (h : ∀ c ∈ r.token, c ∈ g.signed) :
    r.start.Carries g := by
  cases r with
  | refreshToken c | logout c => exact h c rfl
  | _ => trivial

variable {cfg : Config} {s s' : State} {x : Input} {events : List Event}

theorem Moves.numbered (hmoves : Moves cfg s x s' events) (h : Numbered s) : Numbered s' := by
  obtain ⟨-, now, running, arrived, rfl, -, hle, hquiet⟩ |
    ⟨num, who, t, a, next, rfl, hrun, hstep, rfl, -⟩ := hmoves.quiet_or_perform
  · refine ⟨h.signed, fun m e he => ?_⟩
    obtain he | ⟨hlt, who, r, -, rfl, hsigned⟩ := hquiet m e he
    · exact ⟨(h.requests m e he).1.trans_le hle, (h.requests m e he).2.mono fun _ => id⟩
    · exact ⟨hlt, Request.start_carries hsigned⟩
  refine ⟨fun c hc k hk => ?_, fun m e he => ?_⟩
  · rw [State.gateway_performed] at hc ⊢
    obtain hc | ⟨user, version, changes, old, rfl, rfl | rfl⟩ :=
      (performs_perform ..).signed hc
    · exact (h.signed c hc k hk).trans_le (performs_perform ..).clock.2
    · cases hk
    · exact Option.mem_some_iff.mp hk ▸ Nat.lt_succ_self _
  rw [State.gateway_performed, State.arrived_performed]
  obtain ⟨hnum, hcarries⟩ := h.requests num _ hrun
  obtain ⟨rfl, -, hnext⟩ | ⟨-, he⟩ := State.running_performed he
  · exact ⟨hnum, (Task.carries_next hcarries hstep _ hnext).mono (performs_perform ..).signed_subset⟩
  · exact (h.requests m e he).imp_right fun h => h.mono (performs_perform ..).signed_subset

/-! ## After a logout -/

/-- The token can be exchanged no more. -/
def Dead (g : Gateway) (c : Claims) : Prop :=
  c.tokenType ≠ .refresh ∨ c.Expired g.now ∨ ∀ k ∈ c.tokenId, k < g.nextToken ∧ k ∉ g.refreshTokens

/-- The request does not exchange the token. -/
def Task.Refused (g : Gateway) (c : Claims) : Task → Prop
  | .refreshStored c' k => c' = c → k < g.nextToken ∧ k ∉ g.refreshTokens
  | .refreshRemove c' _ | .refreshUser c' _ | .refreshIssue c' _ _ => c' ≠ c
  | _ => True

/-- Requests that started after a logout do not exchange the token it carried. -/
structure Revoked (s : State) (l : List Event) : Prop where
  dead : ∀ e ∈ l, ∀ c, e.outcome = .loggedOut c → Dead s.gateway c ∧ e.arrived ≤ s.arrived
  refused : ∀ e ∈ l, ∀ c, e.outcome = .loggedOut c →
    ∀ num r, s.running.lookup num = some r → e.arrived ≤ num → r.2.Refused s.gateway c
  each : EachAt (fun before e => ∀ c, e.exchanged = some c →
    ∀ e' ∈ before, e'.outcome = .loggedOut c → e.num < e'.arrived) l

section Logout

variable {cfg : Config} {g : Gateway} {t : Task} {a : Action} {next : Option Task} {c : Claims}

theorem Dead.perform (h : Dead g c) : Dead (g.perform cfg a).1 c := by
  obtain ⟨hnow, hmono⟩ := (performs_perform cfg g a).clock
  rcases h with htype | hexpired | hout
  · exact .inl htype
  · exact .inr (.inl (hnow ▸ hexpired))
  refine .inr (.inr fun k hk => ?_)
  obtain ⟨hlt, hk⟩ := hout k hk
  exact ⟨hlt.trans_le hmono, notMem_registry_perform hlt hk⟩

theorem dead_forget (hc : c ∈ g.signed) (hlt : ∀ k ∈ c.tokenId, k < g.nextToken) :
    Dead (g.forget c) c := by
  unfold Gateway.forget
  split
  · cases hid : c.tokenId with
    | none => exact .inr (.inr fun k hk => by rw [hid] at hk; cases hk)
    | some tokenId =>
      refine .inr (.inr fun k hk => ⟨hlt k hk, ?_⟩)
      obtain rfl := Option.mem_some_iff.mp (hid ▸ hk)
      exact fun hin => (mem_erase.mp hin).1 rfl
  rename_i hverify
  simp only [Gateway.verifyToken, decide_eq_true_eq, hc, true_and, not_and_or, not_not] at hverify
  rcases hverify with hexpired | htype
  · exact .inr (.inl hexpired)
  · exact .inl htype

theorem Task.Refused.perform (h : t.Refused g c) : t.Refused (g.perform cfg a).1 c := by
  cases t with
  | refreshStored c' k =>
    intro heq
    obtain ⟨hlt, hout⟩ := h heq
    exact ⟨hlt.trans_le (performs_perform ..).clock.2, notMem_registry_perform hlt hout⟩
  | refreshRemove | refreshUser | refreshIssue => exact h
  | _ => trivial

theorem Task.refused_next (h : t.Refused g c) (hdead : Dead g c) (hstep : t.Step cfg g a next) :
    ∀ t' ∈ next, t'.Refused g c := by
  intro t' ht'
  cases hstep with
  | refreshValidate c' tokenId hvalid hid =>
    cases ht'
    rintro rfl
    simp only [Gateway.validateRefreshToken, Gateway.verifyToken, Bool.and_eq_true,
      decide_eq_true_eq] at hvalid
    obtain ⟨⟨-, hexpired, htype⟩, -⟩ := hvalid
    exact (hdead.resolve_left fun h => h htype).resolve_left hexpired tokenId hid
  | refreshStored c' tokenId hin =>
    cases ht'
    rintro rfl
    exact (h rfl).2 hin
  | refreshRemove | refreshUser => cases ht'; exact h
  | applyActive | keepActive =>
    obtain ⟨_, _, _, rfl⟩ | ⟨_, _, rfl⟩ | rfl := Update.afterActive_cases ht' <;> trivial
  | _ => cases ht' <;> trivial

theorem Task.Step.exchange {user : UserWithRole} {version changes : Nat}
    (h : t.Step cfg g (.issue user version changes (some c)) next) :
    ∃ tokenId, t = .refreshIssue c tokenId user ∧ next = none := by
  cases h with
  | refreshIssue _ tokenId => exact ⟨tokenId, rfl, rfl⟩

theorem Task.Step.logout (h : t.Step cfg g (.logout c) next) : t = .logoutRemove c ∧ next = none := by
  cases h with
  | logoutRemove => exact ⟨rfl, rfl⟩

end Logout

variable {l : List Event} {num : Nat} {who : Who}

theorem revoked_performed {cfg : Config} {t : Task} {a : Action} {next : Option Task}
    (hnum : Numbered s) (h : Revoked s l) (hrun : s.running.lookup num = some (who, t))
    (hstep : t.Step cfg s.gateway a next) :
    Revoked (s.performed cfg num who a next)
      (l ++ (s.gateway.perform cfg a).2.map fun o => ⟨num, s.arrived, o⟩) := by
  -- what the step adds to the log: a logout, with its token dead from now on
  have hnew : ∀ e ∈ (s.gateway.perform cfg a).2.map fun o => (⟨num, s.arrived, o⟩ : Event),
      ∀ c, e.outcome = .loggedOut c →
        e.arrived = s.arrived ∧ Dead (s.gateway.perform cfg a).1 c := by
    intro e he c hc
    obtain ⟨o, ho, rfl⟩ := mem_map.mp he
    obtain rfl : o = .loggedOut c := hc
    obtain rfl := (performs_perform ..).loggedOut ho
    obtain ⟨rfl, -⟩ := hstep.logout
    have hsigned : c ∈ s.gateway.signed := (hnum.requests num _ hrun).2
    exact ⟨rfl, dead_forget hsigned (hnum.signed c hsigned)⟩
  refine ⟨fun e he c hc => ?_, fun e he c hc m r he' hlater => ?_, ?_⟩
  · rw [State.gateway_performed, State.arrived_performed]
    rcases mem_append.mp he with he | he
    · exact (h.dead e he c hc).imp_left Dead.perform
    · exact (hnew e he c hc).symm.imp_right fun harrived => harrived.le
  · rw [State.gateway_performed]
    rcases mem_append.mp he with hold | he
    · obtain ⟨rfl, -, hnext⟩ | ⟨-, he'⟩ := State.running_performed he'
      · exact (Task.refused_next (h.refused e hold c hc m (who, t) hrun hlater) (h.dead e hold c hc).1
          hstep _ hnext).perform
      · exact (h.refused e hold c hc m r he' hlater).perform
    -- every request in flight arrived before this logout returned
    have hlt : m < s.arrived := by
      obtain ⟨rfl, -, -⟩ | ⟨-, he'⟩ := State.running_performed he'
      · exact (hnum.requests m _ hrun).1
      · exact (hnum.requests m r he').1
    exact absurd ((hnew e he c hc).1 ▸ hlater) (Nat.not_le.mpr hlt)
  obtain hnone | ⟨o, ho⟩ := (performs_perform cfg s.gateway a).outcome
  · rw [hnone, map_nil, append_nil]
    exact h.each
  rw [ho, map_singleton]
  refine h.each.snoc fun c hc e' he' hout => ?_
  obtain ⟨access, refresh, rfl⟩ : ∃ access refresh, o = .issued access refresh (some c) := by
    cases o <;> first | cases hc; exact ⟨_, _, rfl⟩ | cases hc
  obtain ⟨user, version, changes, rfl, -, -⟩ :=
    (performs_perform ..).issued (ho ▸ mem_singleton_self _)
  obtain ⟨tokenId, rfl, -⟩ := hstep.exchange
  by_contra hlater
  exact h.refused e' he' c hout num _ hrun (Nat.not_lt.mp hlater) rfl

theorem Moves.revoked (hmoves : Moves cfg s x s' events) (hnum : Numbered s) (h : Revoked s l) :
    Revoked s' (l ++ events) := by
  obtain ⟨rfl, now, running, arrived, rfl, hnow, hle, hquiet⟩ |
    ⟨num, who, t, a, next, rfl, hrun, hstep, rfl, rfl⟩ := hmoves.quiet_or_perform
  · rw [append_nil]
    refine ⟨fun e he c hc => ?_, fun e he c hc m r he' hlater => ?_, h.each⟩
    · obtain ⟨hdead, harrived⟩ := h.dead e he c hc
      exact ⟨hdead.imp_right fun h => h.imp_left fun hexpired => lt_of_lt_of_le hexpired hnow,
        harrived.trans hle⟩
    obtain he' | ⟨-, who, r, -, rfl, -⟩ := hquiet m r he'
    · have hrefused := h.refused e he c hc m r he' hlater
      revert hrefused
      cases r.2 <;> exact id
    · cases r <;> trivial
  · exact revoked_performed hnum h hrun hstep

/-! ## One exchange -/

/-- The token a refresh has found. -/
def Task.found : Task → Option Nat
  | .refreshRemove _ k | .refreshUser _ k | .refreshIssue _ k _ => some k
  | _ => none

/-- The token a refresh has taken out. -/
def Task.removed : Task → Option Nat
  | .refreshUser _ k | .refreshIssue _ k _ => some k
  | _ => none

/-- A refresh looks its token up while no other one is about to take it out. -/
def alone (s : State) : Input → Bool
  | .advance num _ =>
    match s.running.lookup num with
    | some (_, .refreshStored _ k) => s.running.entries.all fun r =>
        match r.2.2 with
        | .refreshRemove _ k' => k' != k
        | _ => true
    | _ => true
  | _ => true

theorem ne_of_alone {m k k' : Nat} {fails : Bool} {who' : Who} {c c' : Claims}
    (h : alone s (.advance num fails) = true)
    (hrun : s.running.lookup num = some (who, .refreshStored c k))
    (hm : s.running.lookup m = some (who', .refreshRemove c' k')) : k' ≠ k := by
  simp only [alone, hrun, all_eq_true] at h
  simpa using h ⟨m, (who', .refreshRemove c' k')⟩ (mem_lookup_iff.mp hm)

/-- At most one request goes on to exchange a token; an exchanged token is out of the registry. -/
structure Rotated (s : State) (l : List Event) : Prop where
  single : ∀ m m' r r' k, s.running.lookup m = some r → s.running.lookup m' = some r' →
    r.2.found = some k → r'.2.found = some k → m = m'
  removed : ∀ m r k, s.running.lookup m = some r → r.2.removed = some k → k ∉ s.gateway.refreshTokens
  pending : ∀ m r k, s.running.lookup m = some r → r.2.found = some k →
    some k ∉ (exchanges l).map Claims.tokenId
  done : ∀ c ∈ exchanges l, c ∈ s.gateway.signed ∧ ∀ k ∈ c.tokenId, k ∉ s.gateway.refreshTokens
  nodup : ((exchanges l).map Claims.tokenId).Nodup

section Rotation

variable {cfg : Config} {g : Gateway} {t t' : Task} {a : Action} {next : Option Task} {k : Nat}

theorem Request.start_found (r : Request) : r.start.found = none ∧ r.start.removed = none := by
  cases r <;> exact ⟨rfl, rfl⟩

theorem Task.found_of_removed (h : t.removed = some k) : t.found = some k := by
  cases t <;> first | exact h | cases h

theorem Task.found_next (hstep : t.Step cfg g a (some t')) (h : t'.found = some k) :
    t.found = some k ∨ (∃ c, t = .refreshStored c k) ∧ k ∈ g.refreshTokens := by
  generalize hnext : some t' = next at hstep
  cases hstep with
  | refreshStored c tokenId hin =>
    cases hnext
    cases h
    exact .inr ⟨⟨c, rfl⟩, hin⟩
  | refreshRemove | refreshUser => cases hnext; exact .inl h
  | applyActive | keepActive =>
    obtain ⟨_, _, _, rfl⟩ | ⟨_, _, rfl⟩ | rfl := Update.afterActive_cases hnext.symm <;> cases h
  | _ => cases hnext <;> cases h

theorem Task.removed_next (hstep : t.Step cfg g a (some t')) (h : t'.removed = some k) :
    t.removed = some k ∨ a = .remove k := by
  generalize hnext : some t' = next at hstep
  cases hstep with
  | refreshRemove c tokenId =>
    cases hnext
    cases h
    exact .inr rfl
  | refreshUser => cases hnext; exact .inl h
  | applyActive | keepActive =>
    obtain ⟨_, _, _, rfl⟩ | ⟨_, _, rfl⟩ | rfl := Update.afterActive_cases hnext.symm <;> cases h
  | _ => cases hnext <;> cases h

theorem exchanges_perform (cfg : Config) (g : Gateway) (a : Action) (num arrived : Nat) :
    exchanges ((g.perform cfg a).2.map fun o => ⟨num, arrived, o⟩) = [] ∨
      ∃ user version changes c, a = .issue user version changes (some c) ∧
        exchanges ((g.perform cfg a).2.map fun o => ⟨num, arrived, o⟩) = [c] := by
  have h := performs_perform cfg g a
  generalize (g.perform cfg a).1 = g', (g.perform cfg a).2 = outcomes at h ⊢
  cases h with
  | issue user version changes old =>
    cases old with
    | none => exact .inl rfl
    | some c => exact .inr ⟨user, version, changes, c, rfl, rfl⟩
  | _ => exact .inl rfl

end Rotation

theorem exchanges_step {cfg : Config} {t : Task} {a : Action} {next : Option Task}
    (hnum : Numbered s) (hrun : s.running.lookup num = some (who, t))
    (hstep : t.Step cfg s.gateway a next) :
    exchanges ((s.gateway.perform cfg a).2.map fun o => ⟨num, s.arrived, o⟩) = [] ∨
      ∃ c tokenId user, t = .refreshIssue c tokenId user ∧ next = none ∧ c ∈ s.gateway.signed ∧
        c.tokenId = some tokenId ∧
        exchanges ((s.gateway.perform cfg a).2.map fun o => ⟨num, s.arrived, o⟩) = [c] := by
  obtain hnone | ⟨user, version, changes, c, rfl, hone⟩ :=
    exchanges_perform cfg s.gateway a num s.arrived
  · exact .inl hnone
  obtain ⟨tokenId, rfl, hend⟩ := hstep.exchange
  obtain ⟨hsigned, hid⟩ : c ∈ s.gateway.signed ∧ c.tokenId = some tokenId :=
    (hnum.requests num _ hrun).2
  exact .inr ⟨c, tokenId, user, rfl, hend, hsigned, hid, hone⟩

theorem Rotated.single_performed {cfg : Config} {t t' : Task} {a : Action} (h : Rotated s l)
    (halone : alone s (.advance num false) = true) (hrun : s.running.lookup num = some (who, t))
    (hstep : t.Step cfg s.gateway a (some t')) {m k : Nat} {r : Who × Task} (hne : m ≠ num)
    (hm : s.running.lookup m = some r) (hfound : t'.found = some k) : r.2.found ≠ some k := by
  intro hr
  obtain ht | ⟨⟨c, rfl⟩, hin⟩ := Task.found_next hstep hfound
  · exact hne (h.single m num r (who, t) k hm hrun hr ht)
  -- the other one would have taken the token out, or be about to
  obtain ⟨who', t''⟩ := r
  cases t'' with
  | refreshRemove c' k' =>
    cases hr
    exact ne_of_alone halone hrun hm rfl
  | refreshUser | refreshIssue => exact h.removed m _ k hm hr hin
  | _ => cases hr

theorem rotated_performed {cfg : Config} {t : Task} {a : Action} {next : Option Task}
    (hnum : Numbered s) (h : Rotated s l) (halone : alone s (.advance num false) = true)
    (hrun : s.running.lookup num = some (who, t)) (hstep : t.Step cfg s.gateway a next) :
    Rotated (s.performed cfg num who a next)
      (l ++ (s.gateway.perform cfg a).2.map fun o => ⟨num, s.arrived, o⟩) := by
  -- a token that some request carries stays out of the registry
  have hout : ∀ m r k, s.running.lookup m = some r → r.2.removed = some k →
      k ∉ (s.gateway.perform cfg a).1.refreshTokens := by
    intro m r k hm hk
    refine notMem_registry_perform ?_ (h.removed m r k hm hk)
    obtain ⟨who', t''⟩ := r
    have hcarries := (hnum.requests m _ hm).2
    cases t'' with
    | refreshUser | refreshIssue => cases hk; exact hnum.signed _ hcarries.1 _ hcarries.2
    | _ => cases hk
  have hdone : ∀ c ∈ exchanges l, c ∈ (s.gateway.perform cfg a).1.signed ∧
      ∀ k ∈ c.tokenId, k ∉ (s.gateway.perform cfg a).1.refreshTokens := by
    intro c hc
    obtain ⟨hsigned, hk⟩ := h.done c hc
    exact ⟨(performs_perform ..).signed_subset hsigned, fun k hid =>
      notMem_registry_perform (hnum.signed c hsigned k hid) (hk k hid)⟩
  refine ⟨fun m m' r r' k hm hm' hk hk' => ?_, fun m r k hm hk => ?_, fun m r k hm hk => ?_, ?_, ?_⟩
  · obtain ⟨heq, -, hnext⟩ | ⟨hne, hold⟩ := State.running_performed hm <;>
      obtain ⟨heq', -, hnext'⟩ | ⟨hne', hold'⟩ := State.running_performed hm'
    · exact heq.trans heq'.symm
    · exact absurd hk' (h.single_performed halone hrun (hnext ▸ hstep) hne' hold' hk)
    · exact absurd hk (h.single_performed halone hrun (hnext' ▸ hstep) hne hold hk')
    · exact h.single m m' r r' k hold hold' hk hk'
  · rw [State.gateway_performed]
    obtain ⟨rfl, -, rfl⟩ | ⟨-, hm⟩ := State.running_performed hm
    · obtain ht | rfl := Task.removed_next hstep hk
      · exact hout m _ k hrun ht
      · exact fun hin => (mem_erase.mp hin).1 rfl
    · exact hout m r k hm hk
  · rw [exchanges_append]
    obtain hnone | ⟨c, tokenId, user, rfl, rfl, -, hid, hone⟩ := exchanges_step hnum hrun hstep
    · rw [hnone, append_nil]
      obtain ⟨rfl, -, rfl⟩ | ⟨-, hm⟩ := State.running_performed hm
      · obtain ht | ⟨-, hin⟩ := Task.found_next hstep hk
        · exact h.pending m _ k hrun ht
        intro hmem
        obtain ⟨c, hc, hid⟩ := mem_map.mp hmem
        exact (h.done c hc).2 k hid hin
      · exact h.pending m r k hm hk
    obtain ⟨-, -, hnext⟩ | ⟨hne, hm⟩ := State.running_performed hm
    · cases hnext
    rw [hone, map_append, mem_append, not_or]
    refine ⟨h.pending m r k hm hk, fun hmem => hne ?_⟩
    rw [map_singleton, mem_singleton, hid] at hmem
    exact h.single m num r _ k hm hrun hk hmem.symm
  · rw [State.gateway_performed, exchanges_append]
    intro c hc
    rcases mem_append.mp hc with hc | hc
    · exact hdone c hc
    obtain hnone | ⟨c', tokenId, user, rfl, -, hsigned, hid, hone⟩ := exchanges_step hnum hrun hstep
    · rw [hnone] at hc
      cases hc
    rw [hone] at hc
    obtain rfl := mem_singleton.mp hc
    refine ⟨(performs_perform ..).signed_subset hsigned, fun k hk => hout num _ k hrun ?_⟩
    exact hid.symm.trans hk
  rw [exchanges_append]
  obtain hnone | ⟨c, tokenId, user, rfl, -, -, hid, hone⟩ := exchanges_step hnum hrun hstep
  · rw [hnone, append_nil]
    exact h.nodup
  rw [hone, map_append, map_singleton, hid, ← concat_eq_append]
  exact h.nodup.concat (h.pending num _ tokenId hrun rfl)

theorem Moves.rotated (hmoves : Moves cfg s x s' events) (hnum : Numbered s) (h : Rotated s l)
    (halone : alone s x = true) : Rotated s' (l ++ events) := by
  obtain ⟨rfl, now, running, arrived, rfl, -, -, hquiet⟩ |
    ⟨num, who, t, a, next, rfl, hrun, hstep, rfl, rfl⟩ := hmoves.quiet_or_perform
  · -- a request that has just arrived has found nothing yet
    have hold : ∀ m e k, running.lookup m = some e → e.2.found = some k →
        s.running.lookup m = some e := by
      intro m e k he hk
      obtain he | ⟨-, who, r, -, rfl, -⟩ := hquiet m e he
      · exact he
      rw [(Request.start_found r).1] at hk
      cases hk
    rw [append_nil]
    refine ⟨fun m m' e e' k he he' hk hk' => ?_, fun m e k he hk => ?_, fun m e k he hk => ?_, h.done,
      h.nodup⟩
    · exact h.single m m' e e' k (hold m e k he hk) (hold m' e' k he' hk') hk hk'
    · exact h.removed m e k (hold m e k he (Task.found_of_removed hk)) hk
    · exact h.pending m e k (hold m e k he hk) hk
  · exact rotated_performed hnum h halone hrun hstep

/-! ## Runs -/

theorem numbered_start (users : Users) (now : Nat) : Numbered (.start (.start users now)) :=
  ⟨fun _ hc => absurd hc not_mem_nil, fun _ _ he => by cases he⟩

/-- **No refresh token is exchanged after a logout** by a request that arrived after it returned. -/
theorem not_exchanged_after_logout (cfg : Config) (users : Users) (now : Nat) (xs : List Input) :
    EachAt (fun before e => ∀ c, e.exchanged = some c →
      ∀ e' ∈ before, e'.outcome = .loggedOut c → e.num < e'.arrived)
        ((machine cfg).trace (.start (.start users now)) xs) := by
  have hinv := (machine cfg).invariant (fun s l => Numbered s ∧ Revoked s l) (l := [])
    (fun s l x hs _ => ⟨(moves_step ..).numbered hs.1, (moves_step ..).revoked hs.1 hs.2⟩)
    (s := .start (.start users now))
    ⟨numbered_start users now, fun _ he => (by cases he), fun _ he => (by cases he), .nil⟩
    ((machine cfg).along_true _ xs)
  exact hinv.2.each

/-- **One exchange for each refresh token**, in every run whose refreshes look their tokens up
alone. -/
theorem exchanged_once (cfg : Config) (users : Users) (now : Nat) (xs : List Input)
    (h : (machine cfg).Along (fun s x => alone s x = true) (.start (.start users now)) xs) :
    ((exchanges ((machine cfg).trace (.start (.start users now)) xs)).map Claims.tokenId).Nodup ∧
      EachAt (fun before e => ∀ c, e.exchanged = some c →
        ∀ e' ∈ before, e'.outcome = .loggedOut c → e.num < e'.arrived)
          ((machine cfg).trace (.start (.start users now)) xs) := by
  refine ⟨?_, not_exchanged_after_logout cfg users now xs⟩
  have hinv := (machine cfg).invariant (fun s l => Numbered s ∧ Rotated s l) (l := [])
    (fun s l x hs hx => ⟨(moves_step ..).numbered hs.1, (moves_step ..).rotated hs.1 hs.2 hx⟩)
    ⟨numbered_start users now, fun _ _ _ _ _ he => (by cases he), fun _ _ _ he => (by cases he),
      fun _ _ _ he => (by cases he), fun _ hc => (by cases hc), nodup_nil⟩ h
  exact hinv.2.nodup

namespace SampleAuth

/-- The refresh token of the login. -/
def refreshToken : Claims := ⟨1, none, some 0, 0, 604800, .refresh, 0⟩

/-- A refresh. -/
def refresh (num : Nat) : List Input :=
  .arrive .other (.refreshToken refreshToken) :: replicate 5 (.advance num false)

/-- Two refreshes in turn. -/
def refreshesInTurn : List Input := logIn .other 0 adminLogin ++ refresh 1 ++ refresh 2

/-- Two refreshes at once. -/
def refreshesAtOnce : List Input :=
  logIn .other 0 adminLogin ++
    [.arrive .other (.refreshToken refreshToken), .arrive .other (.refreshToken refreshToken),
      .advance 1 false, .advance 1 false, .advance 2 false, .advance 2 false] ++
    replicate 3 (.advance 1 false) ++ replicate 3 (.advance 2 false)

end SampleAuth

/-- Of two refreshes in turn one exchanges the token. -/
theorem exchanged_once_in_turn :
    exchanges ((machine SampleAuth.config).trace (.start (.start SampleAuth.users 0))
        SampleAuth.refreshesInTurn) = [SampleAuth.refreshToken] ∧
      ((exchanges ((machine SampleAuth.config).trace (.start (.start SampleAuth.users 0))
        SampleAuth.refreshesInTurn)).map Claims.tokenId).Nodup :=
  ⟨by decide +kernel, (exchanged_once SampleAuth.config SampleAuth.users 0 SampleAuth.refreshesInTurn
    (by decide +kernel)).1⟩

/-- Both refreshes find the token, and both are given a new pair for it. -/
theorem exchanged_twice :
    ¬ ∀ (cfg : Config) (users : Users) (now : Nat) (xs : List Input),
      ((exchanges ((machine cfg).trace (.start (.start users now)) xs)).map Claims.tokenId).Nodup ∧
        EachAt (fun before e => ∀ c, e.exchanged = some c →
          ∀ e' ∈ before, e'.outcome = .loggedOut c → e.num < e'.arrived)
            ((machine cfg).trace (.start (.start users now)) xs) := by
  intro h
  have htwice : exchanges ((machine SampleAuth.config).trace (.start (.start SampleAuth.users 0))
      SampleAuth.refreshesAtOnce) = [SampleAuth.refreshToken, SampleAuth.refreshToken] := by
    decide +kernel
  have hnodup := (h SampleAuth.config SampleAuth.users 0 SampleAuth.refreshesAtOnce).1
  rw [htwice] at hnodup
  exact absurd hnodup (by decide)

end VoltageEMS.Apigateway
