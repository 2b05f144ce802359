import VoltageEMS.Rules.Executor

/-!
# One read pass

What `read_rule_variables` does to the map of values.  Point variables are read first, from shared
memory or in one request per hash; formula variables are computed from the map then.
-/

namespace VoltageEMS.Rules.Executor

open Lib List

variable {σ : Type}

/-! ## The pass as folds -/

/-- `point_type == "action"`, a measurement by default. -/
def isAction (v : RuleVariable) : Bool := v.pointType.getD "measurement" = "action"

/-- The point a variable is on. -/
def declaredPoint (v : RuleVariable) : Option PointRef :=
  match v.inst, v.point with
  | some inst, some point => some ⟨inst, pointKind (isAction v), point⟩
  | _, _ => none

variable (sv : Services σ)

/-- One read of shared memory. -/
def readPoint (r : Reading σ) (v : RuleVariable) (inst point : Nat) : Reading σ :=
  let hit := sv.getInstance r.world inst (isAction v) point
  let r := { r with world := hit.2 }
  match hit.1 with
  | some val =>
    if val.isFinite then r.store v.name ⟨inst, pointKind (isAction v), point⟩ val
    else r.unusable v.name (isAction v)
  | none =>
    { r with
      requests := pushKeyed (hashKey (isAction v) inst, isAction v)
        ⟨v.name, toString point, inst, point⟩ r.requests }

/-- One variable. -/
def readVar (r : Reading σ) (v : RuleVariable) : Reading σ :=
  if !v.formula.isEmpty then r
  else
    match v.inst, v.point with
    | some inst, some point => readPoint sv r v inst point
    | _, _ => r

/-- All point variables. -/
def readPoints (vars : List RuleVariable) (r : Reading σ) : Reading σ :=
  let r := vars.foldl (readVar sv) r
  (sv.requestOrder r.requests).foldl (readRequest sv) r

theorem readShared_ok (sv : Services σ) : ∀ {vars : List RuleVariable} {r r' : Reading σ},
    readShared sv vars r = (.ok (), r') → r' = vars.foldl (readVar sv) r
  | [], _, _, h => (Prod.mk.inj h).2.symm
  | v :: vars, r, r', h => by
    rw [readShared] at h
    rw [foldl_cons, readVar]
    cases hf : v.formula.isEmpty with
    | false =>
      simp only [hf, Bool.not_false, if_true] at h ⊢
      exact readShared_ok sv h
    | true =>
      simp only [hf, Bool.not_true, Bool.false_eq_true, if_false] at h ⊢
      cases hi : v.inst with
      | none =>
        rw [hi] at h
        cases h
      | some inst =>
        cases hp : v.point with
        | none =>
          rw [hi, hp] at h
          cases h
        | some point =>
          rw [hi, hp] at h
          simp only [readPoint, isAction]
          cases hit : (sv.getInstance r.world inst
              (decide (v.pointType.getD "measurement" = "action")) point).1 with
          | none =>
            simp only [hit] at h ⊢
            exact readShared_ok sv h
          | some val =>
            simp only [hit] at h ⊢
            split at h
            · rename_i hfin
              rw [if_pos hfin]
              exact readShared_ok sv h
            rename_i hfin
            rw [if_neg hfin]
            exact readShared_ok sv h

variable {outcome : RuleReadOutcome}

/-- **A pass that goes through**: points, then formulas. -/
theorem readRuleVariables_ok {sv : Services σ} {vars : List RuleVariable} {values values' : Values}
    {world world' : σ} (h : readRuleVariables sv vars values world = (.ok outcome, values', world')) :
    let r := vars.foldl (readFormula sv) (readPoints sv vars { world, values })
    outcome = r.outcome ∧ values' = r.values ∧ world' = r.world := by
  unfold readRuleVariables at h
  split at h
  · cases h
  rename_i r hshared
  rw [readShared_ok sv hshared] at h
  cases h
  exact ⟨rfl, rfl, rfl⟩

/-! ## The induction rule -/

/-- What the point variables of a list keep of a property of readings: it does not depend on the
world and is kept by a miss, a value from shared memory, a request for a point that is not there and
a value from a requested hash. -/
structure KeptByReads (sv : Services σ) (vars : List RuleVariable) (Inv : Reading σ → Prop) :
    Prop where
  world : ∀ {r : Reading σ} (w : σ), Inv r → Inv { r with world := w }
  miss : ∀ {r : Reading σ} (name : String), Inv r → Inv (r.miss name)
  shared : ∀ {r : Reading σ} {v : RuleVariable} {inst point : Nat} {val : Float} (w : σ), v ∈ vars →
    v.formula = [] → v.inst = some inst → v.point = some point →
    (sv.getInstance w inst (isAction v) point).1 = some val → val.isFinite = true → Inv r →
    Inv (r.store v.name ⟨inst, pointKind (isAction v), point⟩ val)
  request : ∀ {r : Reading σ} {v : RuleVariable} {inst point : Nat} (w : σ), v ∈ vars →
    v.formula = [] → v.inst = some inst → v.point = some point →
    (sv.getInstance w inst (isAction v) point).1 = none → Inv r →
    Inv { r with
      requests := pushKeyed (hashKey (isAction v) inst, isAction v)
        ⟨v.name, toString point, inst, point⟩ r.requests }
  answer : ∀ {r : Reading σ} {q : Request} {p : Pending} {i : Nat} {val : Float}
    {results : List (Option String)} (w : σ), q ∈ r.requests → (p, i) ∈ q.2.zipIdx →
    (sv.hashMget w q.1.1 (q.2.map Pending.field)).1 = .ok results →
    (results[i]?.join).bind sv.parse = some val → val.isFinite = true → Inv r →
    Inv (r.store p.name ⟨p.inst, pointKind q.1.2, p.point⟩ val)

namespace KeptByReads

variable {sv : Services σ} {vars : List RuleVariable} {Inv : Reading σ → Prop}

variable {r : Reading σ} (h : KeptByReads sv vars Inv)
include h

theorem unusable (name : String) (action : Bool) (hr : Inv r) : Inv (r.unusable name action) := by
  unfold Reading.unusable
  split
  · exact hr
  · exact h.miss name hr

theorem readVar {v : RuleVariable} (hv : v ∈ vars) (hr : Inv r) : Inv (readVar sv r v) := by
  unfold Executor.readVar
  split
  · exact hr
  rename_i hformula
  have hformula : v.formula = [] := by simpa using hformula
  split
  · rename_i inst point hinst hpoint
    have hworld := h.world (sv.getInstance r.world inst (isAction v) point).2 hr
    unfold readPoint
    dsimp only
    split
    · rename_i val hhit
      split
      · rename_i hfin
        exact h.shared r.world hv hformula hinst hpoint hhit hfin hworld
      · exact h.unusable _ _ hworld
    rename_i hhit
    exact h.request r.world hv hformula hinst hpoint hhit hworld
  · exact hr

theorem readRequest {q : Request} (hq : q ∈ r.requests) (hr : Inv r) :
    Inv (readRequest sv r q) ∧ (readRequest sv r q).requests = r.requests := by
  have hunusable : ∀ {r' : Reading σ} (name : String) (action : Bool),
      (r'.unusable name action).requests = r'.requests := by
    intro r' name action
    unfold Reading.unusable
    split <;> rfl
  unfold Executor.readRequest
  dsimp only
  split
  · rename_i results w hanswer
    have hanswer : (sv.hashMget r.world q.1.1 (q.2.map Pending.field)).1 = .ok results := by
      rw [hanswer]
    refine foldlRecOn (motive := fun r' => Inv r' ∧ r'.requests = r.requests) _ _
      ⟨h.world w hr, rfl⟩ ?_
    rintro r' ⟨hr', hreq⟩ ⟨p, i⟩ hmem
    unfold readField
    split
    · rename_i val hval
      split
      · rename_i hfin
        exact ⟨h.answer r.world (hreq ▸ hq) hmem hanswer hval hfin hr', hreq⟩
      · exact ⟨h.unusable _ _ hr', (hunusable _ _).trans hreq⟩
    · exact ⟨h.unusable _ _ hr', (hunusable _ _).trans hreq⟩
  rename_i e w hanswer
  refine foldlRecOn (motive := fun r' => Inv r' ∧ r'.requests = r.requests) _ _
    ⟨h.world w hr, rfl⟩ ?_
  rintro r' ⟨hr', hreq⟩ p -
  exact ⟨h.unusable _ _ hr', (hunusable _ _).trans hreq⟩

theorem readPoints (hr : Inv r) : Inv (readPoints sv vars r) := by
  have hshared : Inv (vars.foldl (Executor.readVar sv) r) :=
    foldlRecOn (motive := Inv) _ _ hr fun _ hr' v hv => h.readVar hv hr'
  refine (foldlRecOn (motive := fun r' => Inv r' ∧
    r'.requests = (vars.foldl (Executor.readVar sv) r).requests) _ _ ⟨hshared, rfl⟩ ?_).1
  rintro r' ⟨hr', hreq⟩ q hq
  have hmem : q ∈ r'.requests := hreq ▸ (sv.requestOrder_perm _).mem_iff.mp hq
  obtain ⟨hkept, hsame⟩ := h.readRequest hmem hr'
  exact ⟨hkept, hsame.trans hreq⟩

end KeptByReads

/-! ## Over a map and over the empty map -/

/-- `r` does over `base` what `r₀` does over the empty map. -/
structure Over (base : Values) (r₀ r : Reading σ) : Prop where
  world : r.world = r₀.world
  requests : r.requests = r₀.requests
  missing : r.outcome.missing = r₀.outcome.missing
  pointValues : r.outcome.pointValues = r₀.outcome.pointValues
  values : ∀ name, r.values name = (r₀.values name).or (base name)

namespace Over

variable {base : Values} {r₀ r : Reading σ} (h : Over base r₀ r)
include h

theorem store (name : String) (p : PointRef) (val : Float) :
    Over base (r₀.store name p val) (r.store name p val) where
  world := h.world
  requests := h.requests
  missing := h.missing
  pointValues := by simp only [Reading.store, h.pointValues]
  values n := by
    simp only [Reading.store]
    by_cases hn : n = name
    · simp [hn]
    · simpa [Function.update_of_ne hn] using h.values n

theorem unusable (name : String) (action : Bool) :
    Over base (r₀.unusable name action) (r.unusable name action) := by
  unfold Reading.unusable
  split
  · exact h
  · exact ⟨h.world, h.requests, by simp only [Reading.miss, h.missing], h.pointValues, h.values⟩

theorem withWorld (w : σ) :
    Over base { r₀ with world := w } { r with world := w } :=
  ⟨rfl, h.requests, h.missing, h.pointValues, h.values⟩

theorem readVar (v : RuleVariable) :
    Over base (readVar sv r₀ v) (readVar sv r v) := by
  unfold Executor.readVar
  split
  · exact h
  split
  · rename_i inst point _ _
    unfold readPoint
    rw [h.world]
    have hworld := h.withWorld (sv.getInstance r₀.world inst (isAction v) point).2
    dsimp only
    split
    · split
      · exact hworld.store _ _ _
      · exact hworld.unusable _ _
    · exact ⟨rfl, by rw [h.requests], h.missing, h.pointValues, h.values⟩
  · exact h

theorem readRequest (q : Request) :
    Over base (readRequest sv r₀ q) (readRequest sv r q) := by
  unfold Executor.readRequest
  rw [h.world]
  dsimp only
  split
  · rename_i results w _
    refine foldl_rel (h.withWorld w) fun e _ c c' hc => ?_
    unfold readField
    split
    · split
      · exact hc.store _ _ _
      · exact hc.unusable _ _
    · exact hc.unusable _ _
  rename_i e w _
  exact foldl_rel (h.withWorld w) fun p _ c c' hc => hc.unusable _ _

end Over

/-- What the point variables of a list find: the pass over an empty map. -/
def ownReads (vars : List RuleVariable) (world : σ) : Values :=
  (readPoints sv vars { world, values := fun _ => none }).values

theorem readPoints_over (vars : List RuleVariable) (world : σ) (base : Values) :
    Over base (readPoints sv vars { world, values := fun _ => none })
      (readPoints sv vars { world, values := base }) := by
  have hstart : Over base ({ world, values := fun _ => none } : Reading σ)
      { world, values := base } := ⟨rfl, rfl, rfl, rfl, fun _ => rfl⟩
  have hshared : Over base (vars.foldl (readVar sv) { world, values := fun _ => none })
      (vars.foldl (readVar sv) { world, values := base }) :=
    foldl_rel hstart fun v _ c c' hc => hc.readVar sv v
  simp only [readPoints, hshared.requests]
  exact foldl_rel hshared fun q _ c c' hc => hc.readRequest sv q

/-! ## Where the values come from -/

/-- The values found were read for the points of variables of their names, and what is to be asked
for is wanted by variables. -/
structure Attributed (vars : List RuleVariable) (r : Reading σ) : Prop where
  values : ∀ name val, r.values name = some val → ∃ v ∈ vars, v.formula = [] ∧ v.name = name ∧
    ∃ p, declaredPoint v = some p ∧ (p, val) ∈ r.outcome.pointValues
  requests : ∀ q ∈ r.requests, ∀ p ∈ q.2, ∃ v ∈ vars, v.formula = [] ∧ v.name = p.name ∧
    declaredPoint v = some ⟨p.inst, pointKind q.1.2, p.point⟩

theorem Attributed.store {vars : List RuleVariable} {r : Reading σ} (h : Attributed vars r)
    {v : RuleVariable} {p : PointRef} (hv : v ∈ vars) (hformula : v.formula = [])
    (hp : declaredPoint v = some p) (val : Float) : Attributed vars (r.store v.name p val) where
  values name val' hval := by
    simp only [Reading.store] at hval ⊢
    by_cases hname : name = v.name
    · subst hname
      rw [Function.update_self] at hval
      cases hval
      exact ⟨v, hv, hformula, rfl, p, hp, by simp⟩
    rw [Function.update_of_ne hname] at hval
    obtain ⟨u, hu, hf, hn, q, hq, hmem⟩ := h.values name val' hval
    exact ⟨u, hu, hf, hn, q, hq, mem_append_left _ hmem⟩
  requests := h.requests

theorem attributed_kept (vars : List RuleVariable) :
    KeptByReads sv vars (Attributed vars) where
  world _ h := ⟨h.values, h.requests⟩
  miss _ h := ⟨h.values, h.requests⟩
  shared _ hv hformula hinst hpoint _ _ h :=
    h.store hv hformula (by rw [declaredPoint, hinst, hpoint]) _
  request {r v inst point} _ hv hformula hinst hpoint _ h := by
    refine ⟨h.values, fun q hq p hp => ?_⟩
    rcases mem_group_pushKeyed hq hp with ⟨g, hg, hkey, hmem⟩ | ⟨hkey, rfl⟩
    · exact hkey ▸ h.requests g hg p hmem
    · exact ⟨v, hv, hformula, rfl, by rw [declaredPoint, hinst, hpoint, hkey]⟩
  answer {r q p i val results} _ hq hmem _ _ _ h := by
    obtain ⟨v, hv, hformula, hname, hp⟩ := h.requests q hq p (fst_mem_of_mem_zipIdx hmem)
    exact hname ▸ h.store hv hformula hp val

/-- **A value found by a pass was read for the point of a variable of that name.** -/
theorem attributed_readPoints (vars : List RuleVariable) (world : σ) :
    Attributed vars (readPoints sv vars { world, values := fun _ => none }) :=
  (attributed_kept sv vars).readPoints
    ⟨fun _ _ h => (Option.some_ne_none _ h.symm).elim, fun _ hq => absurd hq not_mem_nil⟩

theorem foldl_readFormula_of_name (name : String) (vars : List RuleVariable)
    (r : Reading σ) (hname : ∀ v ∈ vars, v.formula ≠ [] → v.name ≠ name) :
    (vars.foldl (readFormula sv) r).values name = r.values name ∧
      (vars.foldl (readFormula sv) r).outcome.pointValues = r.outcome.pointValues := by
  refine foldlRecOn (motive := fun r' : Reading σ => r'.values name = r.values name ∧
    r'.outcome.pointValues = r.outcome.pointValues) _ _ ⟨rfl, rfl⟩ ?_
  rintro r' ⟨hval, hpoints⟩ v hv
  unfold readFormula
  split
  · exact ⟨hval, hpoints⟩
  rename_i hformula
  split
  · refine ⟨?_, hpoints⟩
    have hne := hname v hv (by simpa using hformula)
    simpa [Function.update_of_ne hne.symm] using hval
  · exact ⟨hval, hpoints⟩

/-! ## Passes that report no change -/

/-- While no change was reported the map is as it was. -/
def UnchangedSince (base : Values) (r : Reading σ) : Prop :=
  r.outcome.valuesChanged = false → r.values = base

theorem UnchangedSince.store {base : Values} {r : Reading σ} (h : UnchangedSince base r)
    (name : String) (p : PointRef) (val : Float) : UnchangedSince base (r.store name p val) := by
  intro hsame
  simp only [Reading.store, Bool.or_eq_false_iff] at hsame ⊢
  have hbase := h hsame.1
  cases hprev : r.values name with
  | none =>
    rw [hprev] at hsame
    cases hsame.2
  | some prev =>
    rw [hprev] at hsame
    have heq : prev = val := by simpa [totalCmp_eq_iff] using hsame.2
    rw [← hbase, ← heq, ← hprev, Function.update_eq_self]

theorem unchangedSince_kept (vars : List RuleVariable) (base : Values) :
    KeptByReads sv vars (UnchangedSince base) where
  world _ h := h
  miss _ h := h
  shared _ _ _ _ _ _ _ h := h.store _ _ _
  request _ _ _ _ _ _ h := h
  answer _ _ _ _ _ _ h := h.store _ _ _

/-- No formula gives a value that equals the one its name has without being the same: the two zeros.
-/
def KeepsZeroSigns (vars : List RuleVariable) (values : Values) : Prop :=
  ∀ v ∈ vars, v.formula ≠ [] → ∀ prev result, values v.name = some prev →
    evaluateTokenFormula sv v.formula values = some result → prev.beq result = true → prev = result

theorem UnchangedSince.readFormula {sv : Services σ} {vars : List RuleVariable} {base : Values}
    (hzeros : KeepsZeroSigns sv vars base) {r : Reading σ} (h : UnchangedSince base r)
    {v : RuleVariable} (hv : v ∈ vars) : UnchangedSince base (readFormula sv r v) := by
  unfold Executor.readFormula
  split
  · exact h
  rename_i hformula
  split
  · rename_i result heval
    intro hsame
    simp only [Bool.or_eq_false_iff] at hsame ⊢
    have hbase := h hsame.1
    cases hprev : r.values v.name with
    | none =>
      rw [hprev] at hsame
      cases hsame.2
    | some prev =>
      rw [hprev] at hsame
      have heq : prev = result := hzeros v hv (by simpa using hformula) prev result
        (hbase ▸ hprev) (hbase ▸ heval) (by simpa using hsame.2)
      rw [← hbase, ← heq, ← hprev, Function.update_eq_self]
  · exact h

/-- **A pass that reports no change leaves the map as it was.** -/
theorem readRuleVariables_unchanged {sv : Services σ} {vars : List RuleVariable}
    {values values' : Values} {world world' : σ} (hzeros : KeepsZeroSigns sv vars values)
    (h : readRuleVariables sv vars values world = (.ok outcome, values', world'))
    (hsame : outcome.valuesChanged = false) : values' = values := by
  obtain ⟨rfl, rfl, -⟩ := readRuleVariables_ok h
  have hpoints : UnchangedSince values (readPoints sv vars { world, values }) :=
    (unchangedSince_kept sv vars values).readPoints fun _ => rfl
  exact foldlRecOn (motive := UnchangedSince values) _ _ hpoints
    (fun _ hr v hv => hr.readFormula hzeros hv) hsame

end VoltageEMS.Rules.Executor
