import VoltageEMS.Alarmsrv.Monitor

/-!
# Alerts of disabled rules

An alert should go when its rule is disabled or deleted.  Deleting a rule takes its alerts along in
one transaction.  Disabling is not one transaction: the rule is disabled, read back, and then its
alerts are resolved; a check that had read the rule before may insert an alert after that.

* `enabled_of_quiet` — **no alert of a disabled rule** is left when no rule call is in flight.
-/

namespace VoltageEMS.Alarmsrv

open Lib List

/-- The task will look at the alerts of a rule. -/
def Task.Settles (ruleId : Nat) : Task → Prop
  | .ruleUpdated id _ => id = ruleId
  | .resolveDisabled rule _ => rule.id = ruleId
  | _ => False

/-- Every alert belongs to an enabled rule, or a task in flight looks after it. -/
def Covered (s : State) : Prop :=
  ∀ a ∈ s.db.alerts, ∀ r ∈ s.db.rules, r.id = a.ruleId →
    r.enabled = true ∨ ∃ t ∈ s.tasks, t.Settles a.ruleId

/-- An alert that is inserted is of an enabled rule. -/
def insertsEnabled (db : Db) : Task → Bool
  | .act rule value none =>
    !rule.evaluate value || (db.getRuleById rule.id).all AlertRule.enabled
  | _ => true

/-- No rule call. -/
def Task.quiet : Task → Bool
  | .check _ | .act _ _ _ | .resolve _ | .resolveWrite _ | .resolveAnnounce _ => true
  | _ => false

/-! ## One step -/

section Step

variable {env : Env} {db : Db} {tasks : List Task} {t : Task} {i : Nat} {next : Option Task}

theorem settles_advance (hi : tasks[i]? = some t) {ruleId : Nat}
    (h : ∃ t' ∈ tasks, t'.Settles ruleId)
    (hself : t.Settles ruleId → ∃ t', next = some t' ∧ t'.Settles ruleId) :
    ∃ t' ∈ advance tasks i next, t'.Settles ruleId := by
  obtain ⟨t', ht', hs⟩ := h
  by_cases heq : t' = t
  · subst heq
    obtain ⟨t'', rfl, hs'⟩ := hself hs
    exact ⟨t'', next_mem_advance hi, hs'⟩
  · exact ⟨t', mem_advance_of_ne hi ht' heq, hs⟩

section Covering

variable (hi : tasks[i]? = some t) (h : Covered ⟨db, tasks⟩)
include hi h

theorem settles_mapRule {id : Nat} {f : AlertRule → AlertRule} {hf : ∀ r, (f r).id = r.id}
    (ht : ∀ ruleId, ¬ t.Settles ruleId)
    (hnext : (db.mapRule id f hf).2 = true → ∃ done, next = some (.ruleUpdated id done)) :
    Covered ⟨(db.mapRule id f hf).1, advance tasks i next⟩ := by
  intro a ha r hr hid
  obtain ⟨r₀, hr₀, rfl⟩ := mem_map.mp hr
  by_cases hr₀id : r₀.id = id
  · have hfound : (db.mapRule id f hf).2 = true := Db.getRuleById_isSome_iff.mpr ⟨r₀, hr₀, hr₀id⟩
    obtain ⟨done, rfl⟩ := hnext hfound
    rw [if_pos hr₀id, hf] at hid
    exact .inr ⟨_, next_mem_advance hi, (hr₀id.symm.trans hid)⟩
  rw [if_neg hr₀id] at hid ⊢
  exact (h a ha r₀ hr₀ hid).imp_right fun hs => settles_advance hi hs fun hst => absurd hst (ht _)

theorem covered_of_subset {db' : Db}
    (halerts : ∀ a' ∈ db'.alerts, ∃ a ∈ db.alerts, a.ruleId = a'.ruleId)
    (hrules : ∀ r ∈ db'.rules, r ∈ db.rules) (hself : ∀ ruleId, t.Settles ruleId →
      (∃ a ∈ db'.alerts, a.ruleId = ruleId) → ∃ t', next = some t' ∧ t'.Settles ruleId) :
    Covered ⟨db', advance tasks i next⟩ := by
  intro a' ha' r hr hid
  obtain ⟨a, ha, hrule⟩ := halerts a' ha'
  rw [← hrule] at hid ⊢
  refine (h a ha r (hrules r hr) hid).imp_right fun hs => ?_
  exact settles_advance hi hs fun hst => hself _ hst ⟨a', ha', hrule.symm⟩

theorem covered_moveAlerts {p : Alert → Bool} {events : List AlertEvent}
    (hself : ∀ ruleId, t.Settles ruleId → (∃ a ∈ db.alerts, p a = false ∧ a.ruleId = ruleId) →
      ∃ t', next = some t' ∧ t'.Settles ruleId) :
    Covered ⟨db.moveAlerts p events, advance tasks i next⟩ := by
  have hsub : ∀ a ∈ (db.moveAlerts p events).alerts, a ∈ db.alerts ∧ p a = false := fun a ha => by
    simpa [Db.moveAlerts] using ha
  refine covered_of_subset hi h (fun a ha => ⟨a, (hsub a ha).1, rfl⟩) (fun _ hr => hr)
    fun ruleId hst ⟨a, ha, hrule⟩ => ?_
  exact hself ruleId hst ⟨a, (hsub a ha).1, (hsub a ha).2, hrule⟩

theorem covered_insertAlert {rule : AlertRule} {value : Float} {db' : Db} {alertId : Nat}
    (hins : db.insertAlert rule value env.names env.now = some (db', alertId))
    (henabled : ∀ r, db.getRuleById rule.id = some r → r.enabled = true)
    (ht : ∀ ruleId, ¬ t.Settles ruleId) (next : Option Task) :
    Covered ⟨db', advance tasks i next⟩ := by
  unfold Db.insertAlert at hins
  split at hins
  · cases hins
    intro a ha r hr hid
    rcases mem_append.mp ha with ha | ha
    · exact (h a ha r hr hid).imp_right fun hs => settles_advance hi hs fun hst => absurd hst (ht _)
    rw [mem_singleton.mp ha] at hid
    exact .inl (henabled r (Db.getRuleById_eq_some_iff.mpr ⟨hr, hid⟩))
  · cases hins

theorem covered_insertRule
    (req : CreateRuleRequest) (ht : ∀ ruleId, ¬ t.Settles ruleId) (next : Option Task) :
    Covered ⟨(db.insertRule req).1, advance tasks i next⟩ := by
  intro a ha r hr hid
  rcases mem_append.mp hr with hr | hr
  · exact (h a ha r hr hid).imp_right fun hs => settles_advance hi hs fun hst => absurd hst (ht _)
  -- the id of a new rule belongs to no alert
  obtain ⟨r₀, hr₀, hr₀id⟩ := db.foreign a ha
  have hle := db.ruleIds_le r₀ hr₀
  rw [mem_singleton.mp hr] at hid
  have hnew : db.lastRule + 1 = a.ruleId := hid
  omega

theorem covered_enable (id : Nat) (ht : ∀ ruleId, ¬ t.Settles ruleId) (next : Option Task) :
    Covered ⟨(db.setRuleEnabled id true).1, advance tasks i next⟩ := by
  intro a ha r hr hid
  obtain ⟨r₀, hr₀, rfl⟩ := mem_map.mp hr
  by_cases hr₀id : r₀.id = id
  · rw [if_pos hr₀id]
    exact .inl rfl
  rw [if_neg hr₀id] at hid ⊢
  exact (h a ha r₀ hr₀ hid).imp_right fun hs => settles_advance hi hs fun hst => absurd hst (ht _)

end Covering

theorem covered_ruleUpdated {id : Nat} {done : String} (hi : tasks[i]? = some (.ruleUpdated id done))
    (h : Covered ⟨db, tasks⟩) :
    Covered ⟨db, advance tasks i ((Task.ruleUpdated id done).step env db).2.1⟩ := by
  intro a ha r hr hid
  refine (h a ha r hr hid).elim .inl fun hs => ?_
  cases hfind : db.getRuleById id with
  | none =>
    refine .inr (settles_advance hi hs fun hst => ?_)
    have hst : id = a.ruleId := hst
    have hsome := Db.getRuleById_isSome_iff.mpr ⟨r, hr, hid.trans hst.symm⟩
    rw [hfind] at hsome
    cases hsome
  | some rule =>
    by_cases hrule : rule = r
    · subst hrule
      cases henabled : rule.enabled with
      | true => exact .inl rfl
      | false =>
        refine .inr (settles_advance hi hs fun _ => ⟨.resolveDisabled rule done, ?_, hid⟩)
        simp [Task.step, hfind, henabled, goOn]
    refine .inr (settles_advance hi hs fun hst => absurd ?_ hrule)
    have hst : id = a.ruleId := hst
    have hsame := Db.getRuleById_eq_some_iff.mpr ⟨hr, hid.trans hst.symm⟩
    exact Option.some.inj (hfind.symm.trans hsame)

theorem covered_task (hi : tasks[i]? = some t) (h : Covered ⟨db, tasks⟩) (hins : insertsEnabled db t = true) :
    Covered ⟨(t.step env db).1, advance tasks i (t.step env db).2.1⟩ := by
  have hchange := change_step env db t
  generalize hdb : (t.step env db).1 = db' at hchange
  cases hchange with
  | keep hreads =>
    cases t with
    | ruleUpdated id done => exact covered_ruleUpdated hi h
    | resolveDisabled rule done => exact absurd trivial hreads
    | _ =>
      exact covered_of_subset hi h (fun a ha => ⟨a, ha, rfl⟩) (fun _ hr => hr) fun _ hst => nomatch hst
  | insertAlert heval hinsert =>
    simp only [insertsEnabled, heval, Bool.not_true, Bool.false_or, Option.all_eq_true] at hins
    exact covered_insertAlert hi h hinsert hins (fun _ hst => hst) _
  | updateAlertValue rule value alert =>
    have hsub : ∀ a' ∈ (db.updateAlertValue alert.id value).alerts,
        ∃ a ∈ db.alerts, a.ruleId = a'.ruleId := by
      intro a' ha'
      obtain ⟨a, ha, rfl⟩ := mem_map.mp ha'
      exact ⟨a, ha, by split <;> rfl⟩
    exact covered_of_subset hi h hsub (fun _ hr => hr) fun _ hst => nomatch hst
  | resolveChecked | resolveManually => exact covered_moveAlerts hi h fun _ hst => nomatch hst
  | resolveDisabled rule done =>
    refine covered_moveAlerts hi h fun ruleId hst ⟨a, _, hother, hrule⟩ => absurd hrule ?_
    have hst : rule.id = ruleId := hst
    rw [← hst]
    simpa using hother
  | insertRule req => exact covered_insertRule hi h req (fun _ hst => hst) _
  | updateRule id req =>
    simp only [Task.step]
    unfold Db.updateRule
    split
    · exact covered_of_subset hi h (fun a ha => ⟨a, ha, rfl⟩) (fun _ hr => hr) fun _ hst => nomatch hst
    refine settles_mapRule hi h (fun _ hst => hst) fun hfound => ⟨"Rule updated", ?_⟩
    rw [if_pos hfound]
    rfl
  | enable id => exact covered_enable hi h id (fun _ hst => hst) _
  | disable id =>
    refine settles_mapRule hi h (fun _ hst => hst) fun hfound => ⟨"Rule disabled", ?_⟩
    have hfound : (db.setRuleEnabled id false).2 = true := hfound
    simp only [Task.step]
    rw [if_pos hfound]
    rfl
  | deleteRule rule =>
    exact covered_of_subset hi h (fun a ha => ⟨a, mem_of_mem_filter ha, rfl⟩)
      (fun r hr => mem_of_mem_filter hr) fun _ hst => nomatch hst

end Step

/-! ## Whole runs -/

/-- The step inserts no alert of a disabled rule. -/
def InsertsEnabledAt (s : State) : Input → Prop
  | .run i _ => s.tasks[i]?.all (insertsEnabled s.db) = true
  | _ => True

instance (s : State) : ∀ x, Decidable (InsertsEnabledAt s x)
  | .run i _ => inferInstanceAs (Decidable (s.tasks[i]?.all (insertsEnabled s.db) = true))
  | .tick | .call _ => inferInstanceAs (Decidable True)

theorem covered_step {s : State} (x : Input) (h : Covered s) (hx : InsertsEnabledAt s x) :
    Covered (step s x).1 := by
  have hmore : ∀ more : List Task, Covered { s with tasks := s.tasks ++ more } := by
    intro more a ha r hr hid
    refine (h a ha r hr hid).imp_right fun ⟨t, ht, hs⟩ => ⟨t, mem_append_left _ ht, hs⟩
  cases x with
  | tick | call => exact hmore _
  | run i env =>
    unfold step
    dsimp only
    split
    · exact h
    rename_i t hi
    exact covered_task hi h (by simpa [InsertsEnabledAt, hi] using hx)

theorem covered_run {s : State} {inputs : List Input} (h : Covered s)
    (hinputs : machine.Along InsertsEnabledAt s inputs) : Covered (machine.run s inputs) := by
  have hinv := machine.invariant (fun s (_ : List Event) => Covered s)
    (fun s _ x h hx => covered_step x h hx) (l := []) h hinputs
  exact hinv

/-- Every alert belongs to a rule that exists and is enabled. -/
def AlertsEnabled (db : Db) : Prop :=
  ∀ a ∈ db.alerts, (db.getRuleById a.ruleId).any AlertRule.enabled = true

instance (db : Db) : Decidable (AlertsEnabled db) :=
  inferInstanceAs (Decidable (∀ a ∈ db.alerts, _))

/-- **No alert of a disabled rule is left** when no rule call is in flight, if no step inserts an
alert of a rule that is disabled by then. -/
theorem enabled_of_quiet (db : Db) (hdb : AlertsEnabled db) (inputs : List Input)
    (hinputs : machine.Along InsertsEnabledAt ⟨db, []⟩ inputs)
    (hquiet : ∀ t ∈ (machine.run ⟨db, []⟩ inputs).tasks, t.quiet = true) :
    AlertsEnabled (machine.run ⟨db, []⟩ inputs).db := by
  have hstart : Covered ⟨db, []⟩ := by
    intro a ha r hr hid
    have henabled := hdb a ha
    rw [Db.getRuleById_eq_some_iff.mpr ⟨hr, hid⟩] at henabled
    exact .inl henabled
  intro a ha
  obtain ⟨r, hr, hid⟩ := (machine.run ⟨db, []⟩ inputs).db.foreign a ha
  rw [Db.getRuleById_eq_some_iff.mpr ⟨hr, hid⟩]
  refine (covered_run hstart hinputs a ha r hr hid).resolve_right fun ⟨t, ht, hs⟩ => ?_
  have hq := hquiet t ht
  cases t with
  | ruleUpdated | resolveDisabled => cases hq
  | _ => exact hs

/-- One rule. -/
private def temperatureDb : Db :=
  (Db.empty.insertRule ⟨"inst", 1, "M", 1, "Temperature", 2, ">", 30, true, none⟩).1

/-- A reading. -/
private def reading (value : Float) : Env := ⟨some value, 0, ⟨none, none, none⟩⟩

/-- A check inserts after the rule was disabled. -/
private def lateInsert : List Input :=
  [.tick, .run 0 (reading 35), .call (.disable 1), .run 1 (reading 0), .run 1 (reading 0),
    .run 1 (reading 0), .run 0 (reading 0)]

/-- A check inserts before. -/
private def earlyInsert : List Input :=
  [.tick, .run 0 (reading 35), .run 0 (reading 0), .call (.disable 1), .run 0 (reading 0),
    .run 0 (reading 0), .run 0 (reading 0)]

theorem enabled_after_early_insert :
    AlertsEnabled (machine.run ⟨temperatureDb, []⟩ earlyInsert).db :=
  enabled_of_quiet temperatureDb (by decide) earlyInsert (by decide) (by decide)

/-- **A late insert leaves an alert of a disabled rule.**  Nothing is in flight any more. -/
theorem alert_of_disabled_rule :
    AlertsEnabled temperatureDb ∧ (machine.run ⟨temperatureDb, []⟩ lateInsert).tasks = [] ∧
      ¬ AlertsEnabled (machine.run ⟨temperatureDb, []⟩ lateInsert).db :=
  ⟨by decide, rfl, by decide⟩

end VoltageEMS.Alarmsrv
