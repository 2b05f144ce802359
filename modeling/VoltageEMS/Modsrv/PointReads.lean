import VoltageEMS.Modsrv.SegmentView
import VoltageEMS.Rules.ReadPass

/-!
# What rules read and what the scheduler samples

The executor and the scheduler of modsrv share one reader of the segment, one routing cache and one
Redis.  `read_rule_variables` falls back to Redis when `get_instance` has nothing for a point;
`fetch_point_snapshot` looks at Redis only when there is no reader at all.
-/

namespace VoltageEMS.Modsrv

open Lib Shm Rules Rules.Executor List Option

variable {σ : Type}

/-! ## The stores -/

/-- What both read from. -/
structure PointStores where
  /-- `shared_reader`, when shared memory is used: the segment with its layout table -/
  reader : Option UnifiedWriter
  routes : InstanceRoutes
  /-- the hashes by key and field; nothing for a key of which `hash_mget` fails -/
  redis : (key : String) → Option ((field : String) → Option String)
  /-- `str::parse::<f64>` -/
  parse : ParseF64

namespace PointStores

/-- The value in shared memory. -/
def shared (w : PointStores) (p : PointRef) : Option Float :=
  w.reader.bind fun segment =>
    getInstance w.routes segment.getChannel p.inst
      (match p.pointType with | .measurement => 0 | .action => 1) p.point

/-- The finite value in Redis. -/
def stored (w : PointStores) (p : PointRef) : Option Float :=
  ((w.redis p.hashKey).bind fun fields => (fields (toString p.point)).bind w.parse).filter
    Float.isFinite

/-- What the scheduler samples. -/
def snapshotSource (w : PointStores) : SnapshotSource :=
  match w.reader with
  | some segment => .shm (getInstance w.routes segment.getChannel)
  | none => .redis fun key => (w.redis key).map fun fields field => (fields field).bind w.parse

/-- The services answer from the stores, which stay as they are. -/
structure ReadFrom (w : PointStores) (sv : Services σ) : Prop where
  parse : sv.parse = w.parse
  getInstance : ∀ s inst isAction point,
    (sv.getInstance s inst isAction point).1 = w.shared ⟨inst, pointKind isAction, point⟩
  hashMget : ∀ s key (fields : List String) results, (sv.hashMget s key fields).1 = .ok results ↔
    ∃ hash, w.redis key = some hash ∧ results = fields.map hash

theorem read_snapshotSource (w : PointStores) (p : PointRef) :
    w.snapshotSource.read p =
      if w.reader.isSome then (w.shared p).filter Float.isFinite else w.stored p := by
  cases hreader : w.reader with
  | none =>
    simp only [snapshotSource, hreader, SnapshotSource.read, stored, isSome_none,
      Bool.false_eq_true, if_false]
    cases w.redis p.hashKey <;> rfl
  | some segment =>
    obtain ⟨inst, kind, point⟩ := p
    cases kind <;> simp [snapshotSource, hreader, SnapshotSource.read, shared]

/-! ## What a read pass records -/

/-- The value is that of shared memory or, where that has nothing, that of Redis. -/
def Available (w : PointStores) (p : PointRef) (val : Float) : Prop :=
  val.isFinite = true ∧ (w.shared p = some val ∨ w.shared p = none ∧ w.stored p = some val)

/-- The points recorded are available, and the requests are for points that shared memory does not
have. -/
structure Sourced (w : PointStores) (r : Reading σ) : Prop where
  pointValues : ∀ e ∈ r.outcome.pointValues, w.Available e.1 e.2
  requests : ∀ q ∈ r.requests, ∀ p ∈ q.2, q.1.1 = hashKey q.1.2 p.inst ∧
    p.field = toString p.point ∧ w.shared ⟨p.inst, pointKind q.1.2, p.point⟩ = none

variable {w : PointStores} {p : PointRef} {val : Float} {r : Reading σ}

theorem Sourced.store (h : Sourced w r) (name : String) (hval : w.Available p val) :
    Sourced w (r.store name p val) := by
  refine ⟨fun e he => ?_, h.requests⟩
  simp only [Reading.store, mem_append, mem_singleton] at he
  rcases he with he | rfl
  · exact h.pointValues e he
  · exact hval

theorem hashKey_pointRef (isAction : Bool) (inst point : Nat) :
    PointRef.hashKey ⟨inst, pointKind isAction, point⟩ = hashKey isAction inst := by
  cases isAction <;> rfl

variable {sv : Services σ}

theorem sourced_kept (hread : w.ReadFrom sv) (vars : List RuleVariable) :
    KeptByReads sv vars (Sourced w) where
  world _ h := ⟨h.pointValues, h.requests⟩
  miss _ h := ⟨h.pointValues, h.requests⟩
  shared s _ _ _ _ hhit hfin h := by
    rw [hread.getInstance] at hhit
    exact h.store _ ⟨hfin, .inl hhit⟩
  request s _ _ _ _ hmiss h := by
    rw [hread.getInstance] at hmiss
    refine ⟨h.pointValues, fun q hq p hp => ?_⟩
    rcases mem_group_pushKeyed hq hp with ⟨g, hg, hkey, hmem⟩ | ⟨hkey, rfl⟩
    · exact hkey ▸ h.requests g hg p hmem
    rw [hkey]
    exact ⟨rfl, rfl, hmiss⟩
  answer {r q p i val results} s hq hmem hanswer hval hfin h := by
    obtain ⟨hkey, hfield, hmiss⟩ := h.requests q hq p (fst_mem_of_mem_zipIdx hmem)
    obtain ⟨hash, hhash, rfl⟩ := (hread.hashMget _ _ _ _).mp hanswer
    have hp : q.2[i]? = some p := mem_zipIdx_iff_getElem?.mp hmem
    simp only [List.getElem?_map, hp, map_some, join_some, hread.parse, hfield] at hval
    refine h.store _ ⟨hfin, .inr ⟨hmiss, ?_⟩⟩
    rw [stored, hashKey_pointRef, ← hkey, hhash, bind_some, hval]
    simp [hfin]

theorem Sourced.readFormula (h : Sourced w r) (v : RuleVariable) :
    Sourced w (readFormula sv r v) := by
  unfold Executor.readFormula
  split
  · exact h
  · split <;> exact ⟨h.pointValues, h.requests⟩

/-- **What a read pass records** for a point is the value of one of the two tiers. -/
theorem pointValues_source (hread : w.ReadFrom sv) {vars : List RuleVariable}
    {values values' : Values} {world world' : σ} {outcome : RuleReadOutcome}
    (hpass : readRuleVariables sv vars values world = (.ok outcome, values', world'))
    (hval : (p, val) ∈ outcome.pointValues) : w.Available p val := by
  obtain ⟨houtcome, -, -⟩ := readRuleVariables_ok hpass
  have hstart : Sourced w ({ world, values } : Reading σ) :=
    ⟨fun _ he => absurd he not_mem_nil, fun _ hq => absurd hq not_mem_nil⟩
  have hpoints := (sourced_kept hread vars).readPoints hstart
  have hall : Sourced w (vars.foldl (readFormula sv) (readPoints sv vars { world, values })) :=
    foldlRecOn _ _ hpoints fun _ hr _ _ => hr.readFormula _
  rw [houtcome] at hval
  exact hall.pointValues (p, val) hval

/-! ## Points that are read and not sampled -/

/-- A rule reads a finite value for a variable on the point. -/
def Readable (sv : Services σ) (world : σ) (p : PointRef) : Prop :=
  ∃ vars values outcome values' world' val,
    readRuleVariables sv vars values world = (.ok outcome, values', world') ∧
      (p, val) ∈ outcome.pointValues ∧ val.isFinite = true

/-- The snapshot of the subscribed points has a finite value for the point. -/
def Sampled (w : PointStores) (subs : List PointRef) (p : PointRef) : Prop :=
  ∃ val, fetchPointSnapshot w.snapshotSource subs p.cacheKey = some (some val) ∧
    val.isFinite = true

theorem sampled_of_read {subs : List PointRef} (hp : p ∈ subs) :
    w.Sampled subs p ↔ ∃ val, w.snapshotSource.read p = some val ∧ val.isFinite = true := by
  simp only [Sampled, fetchPointSnapshot_eq_some, hp, true_and]

/-- A variable on the point. -/
def variableOn (inst : Nat) (isAction : Bool) (point : Nat) : RuleVariable :=
  ⟨"X", some inst, some (if isAction then "action" else "measurement"), some point, []⟩

/-- The request it makes. -/
def requestOf (inst : Nat) (isAction : Bool) (point : Nat) : Request :=
  ((hashKey isAction inst, isAction), [⟨"X", toString point, inst, point⟩])

variable {isAction : Bool}

theorem readShared_variableOn (sv : Services σ) (world : σ) (values : Values) {inst point : Nat}
    (hmiss : (sv.getInstance world inst isAction point).1 = none) :
    ∃ world', readShared sv [variableOn inst isAction point] { world, values } =
      (.ok (), { world := world', values, requests := [requestOf inst isAction point] }) := by
  refine ⟨(sv.getInstance world inst isAction point).2, ?_⟩
  have haction : (decide ((variableOn inst isAction point).pointType.getD "measurement" = "action")) =
      isAction := by
    cases isAction <;> rfl
  simp only [readShared, haction]
  simp [variableOn, hmiss, requestOf, pushKeyed]

theorem readRequest_requestOf {inst point : Nat} {text : Option String}
    (hanswer : (sv.hashMget r.world (hashKey isAction inst) [toString point]).1 = .ok [text])
    (hval : text.bind sv.parse = some val) (hfin : val.isFinite = true) :
    (readRequest sv r (requestOf inst isAction point)).outcome.pointValues =
      r.outcome.pointValues ++ [(⟨inst, pointKind isAction, point⟩, val)] := by
  obtain ⟨world, hget⟩ : ∃ world, sv.hashMget r.world (hashKey isAction inst) [toString point] =
      (.ok [text], world) := ⟨_, Prod.ext hanswer rfl⟩
  simp only [readRequest, requestOf, map_cons, map_nil, hget, zipIdx_cons,
    zipIdx_nil, foldl_cons, foldl_nil, List.getElem?_cons_zero, join_some,
    readField, hval, hfin, if_true, Reading.store]

/-- **The fallback**: a rule reads what Redis has of a point that shared memory does not have. -/
theorem readable_of_stored (hread : w.ReadFrom sv) (world : σ) (hmiss : w.shared p = none)
    (hstored : w.stored p = some val) : Readable sv world p := by
  obtain ⟨inst, kind, point⟩ := p
  obtain ⟨isAction, rfl⟩ : ∃ isAction, kind = pointKind isAction := by
    cases kind
    · exact ⟨false, rfl⟩
    · exact ⟨true, rfl⟩
  rw [stored, hashKey_pointRef, filter_eq_some_iff] at hstored
  obtain ⟨hstored, hfin⟩ := hstored
  obtain ⟨hash, hhash, hval⟩ := bind_eq_some_iff.mp hstored
  let values : Values := fun _ => none
  obtain ⟨world', hshared⟩ := readShared_variableOn sv world values
    ((hread.getInstance _ _ _ _).trans hmiss)
  have hanswer : (sv.hashMget world' (hashKey isAction inst) [toString point]).1 =
      .ok [hash (toString point)] :=
    (hread.hashMget _ _ _ _).mpr ⟨hash, hhash, rfl⟩
  have horder : sv.requestOrder [requestOf inst isAction point] = [requestOf inst isAction point] :=
    List.perm_singleton.mp (sv.requestOrder_perm _)
  let start : Reading σ := ⟨world', values, {}, [requestOf inst isAction point]⟩
  let done := readRequest sv start (requestOf inst isAction point)
  have hpass : readRuleVariables sv [variableOn inst isAction point] values world =
      (.ok done.outcome, done.values, done.world) := by
    rw [readRuleVariables, hshared]
    dsimp only
    rw [horder]
    rfl
  have hvalues : done.outcome.pointValues = [(⟨inst, pointKind isAction, point⟩, val)] :=
    readRequest_requestOf hanswer (hread.parse ▸ hval) hfin
  exact ⟨_, _, _, _, _, val, hpass, hvalues ▸ mem_singleton.mpr rfl, hfin⟩

/-- **What the scheduler sees**: it samples a subscribed point that rules can read, except where a
reader has nothing for it and Redis has a number. -/
theorem sampled_iff {w : PointStores} {sv : Services σ} (hread : w.ReadFrom sv) (world : σ)
    {subs : List PointRef} {p : PointRef} (hp : p ∈ subs) :
    (Readable sv world p → w.Sampled subs p) ↔
      ¬(w.reader.isSome = true ∧ w.shared p = none ∧ (w.stored p).isSome = true) := by
  rw [sampled_of_read hp, read_snapshotSource]
  constructor
  · rintro hseen ⟨hreader, hmiss, hstored⟩
    obtain ⟨val, hstored⟩ := isSome_iff_exists.mp hstored
    obtain ⟨x, hx, -⟩ := hseen (readable_of_stored hread world hmiss hstored)
    rw [if_pos hreader, hmiss] at hx
    cases hx
  rintro hnot ⟨vars, values, outcome, values', world', val, hpass, hmem, -⟩
  obtain ⟨hfin, htier⟩ := pointValues_source hread hpass hmem
  refine ⟨val, ?_, hfin⟩
  rcases htier with hshared | ⟨hmiss, hstored⟩
  · -- without a reader there is nothing in shared memory
    have hreader : w.reader.isSome = true := by
      cases hr : w.reader with
      | none => simp [shared, hr] at hshared
      | some segment => rfl
    rw [if_pos hreader, hshared, filter_some, if_pos hfin]
  have hreader : ¬w.reader.isSome = true := fun hreader =>
    hnot ⟨hreader, hmiss, by rw [hstored]; rfl⟩
  rw [if_neg hreader, hstored]

theorem perm_id (requests : List Request) : (id requests).Perm requests := .refl _

/-- Services on the stores. -/
def readingFrom (w : PointStores) : Services Unit where
  getInstance _ inst isAction point := (w.shared ⟨inst, pointKind isAction, point⟩, ())
  hashMget _ key fields :=
    match w.redis key with
    | some hash => (.ok (fields.map hash), ())
    | none => (.error "unavailable", ())
  requestOrder := id
  requestOrder_perm := perm_id
  parse := w.parse
  evaluateFormula _ _ := none
  evaluate _ _ _ _ := (.error "unavailable", ())
  periodDelta _ _ _ _ _ := (.error "unavailable", ())
  writeMeasurementPoint _ _ _ _ := (false, ())
  writeActionPoint _ _ _ _ := (false, ())

theorem readFrom_readingFrom (w : PointStores) : w.ReadFrom (readingFrom w) where
  parse := rfl
  getInstance _ _ _ _ := rfl
  hashMget _ key fields results := by
    simp only [readingFrom]
    cases w.redis key with
    | none => simp
    | some hash => simp [eq_comm]

def calculated : PointStores where
  reader := some ⟨⟨⟨unifiedMagic, unifiedVersion, 0, 0, 0, 0, 0, 2⟩, []⟩, [], []⟩
  routes := ⟨⟨[], by decide⟩, fun _ _ => none, fun _ _ _ => none⟩
  redis key := if key = "inst:5:M" then some fun field => if field = "10" then some "3.5" else none
    else some fun _ => none
  parse text := if text = "3.5" then some 3.5 else none

def calculatedPoint : PointRef := ⟨5, .measurement, 10⟩

/-- Without a reader the scheduler looks at Redis as well. -/
theorem sampled_iff_redis_only :
    let w := { calculated with reader := none }
    w.ReadFrom (readingFrom w) ∧ calculatedPoint ∈ [calculatedPoint] ∧
      (Readable (readingFrom w) () calculatedPoint → w.Sampled [calculatedPoint] calculatedPoint) := by
  intro w
  have hread := readFrom_readingFrom w
  refine ⟨hread, by decide, (sampled_iff hread () (by decide)).mpr ?_⟩
  rintro ⟨hreader, -, -⟩
  cases hreader

/-- A rule reads the calculated measurement from Redis; the snapshot has nothing for it. -/
theorem unseen_calculated_point :
    Readable (readingFrom calculated) () calculatedPoint ∧
      fetchPointSnapshot calculated.snapshotSource [calculatedPoint] calculatedPoint.cacheKey =
        some none := by
  have hstored : calculated.stored calculatedPoint = some 3.5 := by decide +kernel
  refine ⟨readable_of_stored (readFrom_readingFrom _) () rfl hstored, ?_⟩
  decide +kernel

end PointStores

end VoltageEMS.Modsrv
