import VoltageEMS.Routing.Cascade

/-!
# The plan of a cascade

Which groups of updates a batch leads to is settled by the batch, the routes and the order of the
groups.  A writer adds what it does with a group, and stops early where that fails.
-/

namespace VoltageEMS.Routing

open Lib List

/-- What a batch leads to. -/
structure Plan where
  groups : List Group := []
  forwards : Nat := 0
  cycles : Nat := 0

/-- All updates of a plan, in the order of its groups. -/
def Plan.updates (p : Plan) : List ChannelPointUpdate := p.groups.flatMap Prod.snd

section Plan

variable (accepts : PointType → Bool) (order : List Group → List Group) (tables : RoutingTables)

/-- The loop over the groups; `sub` is the plan of the forwarded updates of a group. -/
def planGroups (sub : List ChannelPoint → List ChannelPointUpdate → Plan)
    (visited : List ChannelPoint) (gs : List Group) : Plan :=
  let scan (g : Group) := scanGroup tables visited g.2
  let below (g : Group) := sub (scan g).visited (scan g).forwards
  { groups := gs.flatMap fun g => g :: (below g).groups
    forwards := (gs.map fun g => (scan g).forwards.length + (below g).forwards).sum
    cycles := (gs.map fun g => (scan g).cycles + (below g).cycles).sum }

/-- The groups of a batch in the order they are gone through. -/
def orderedGroups (updates : List ChannelPointUpdate) : List Group :=
  order (groupByKey ChannelPointUpdate.key (updates.filter fun u => accepts u.pointType))

/-- The plan of a call, `levels` calls deep at most. -/
def plan : Nat → List ChannelPoint → List ChannelPointUpdate → Plan
  | 0, _, _ => {}
  | levels + 1, visited, updates =>
    planGroups tables (plan levels) visited (orderedGroups accepts order updates)

variable (sub : List ChannelPoint → List ChannelPointUpdate → Plan) (visited : List ChannelPoint)

theorem planGroups_nil : planGroups tables sub visited [] = {} := rfl

theorem planGroups_cons (g : Group) (gs : List Group) : planGroups tables sub visited (g :: gs) =
      let scan := scanGroup tables visited g.2
      let below := sub scan.visited scan.forwards
      let rest := planGroups tables sub visited gs
      { groups := (g :: below.groups) ++ rest.groups
        forwards := scan.forwards.length + below.forwards + rest.forwards
        cycles := scan.cycles + below.cycles + rest.cycles } := rfl

variable (horder : ∀ gs, (order gs).Perm gs)
include horder

theorem orderedGroups_nil : orderedGroups accepts order [] = [] :=
  (horder _).eq_nil

theorem plan_nil (levels : Nat) (visited : List ChannelPoint) :
    plan accepts order tables levels visited [] = {} := by
  cases levels with
  | zero => rfl
  | succ levels => rw [plan, orderedGroups_nil accepts order horder, planGroups_nil]

variable {updates : List ChannelPointUpdate} {g : Group}

theorem mem_orderedGroups (h : g ∈ orderedGroups accepts order updates) :
    g.2 = (updates.filter fun u => accepts u.pointType).filter (·.key = g.1) :=
  mem_groupByKey ((horder _).subset h)

theorem of_mem_orderedGroups (hg : g ∈ orderedGroups accepts order updates) {u : ChannelPointUpdate}
    (hu : u ∈ g.2) : u ∈ updates ∧ accepts u.pointType = true ∧ u.key = g.1 := by
  rw [mem_orderedGroups accepts order horder hg, mem_filter, mem_filter] at hu
  exact ⟨hu.1.1, hu.1.2, of_decide_eq_true hu.2⟩

theorem flatMap_orderedGroups_perm (updates : List ChannelPointUpdate) :
    ((orderedGroups accepts order updates).flatMap Prod.snd).Perm
      (updates.filter fun u => accepts u.pointType) :=
  ((horder _).flatMap_right Prod.snd).trans (groupByKey_perm _ _)

end Plan

/-! ## A writer with a log -/

namespace BatchWriter

variable {σ : Type} (w : BatchWriter σ)

/-- The writer that also keeps the groups it is handed, those whose writes fail included. -/
def logged : BatchWriter (σ × List Group) where
  accepts := w.accepts
  now s := ((w.now s.1).1, (w.now s.1).2, s.2)
  writeGroup s timestampMs g :=
    ((w.writeGroup s.1 timestampMs g).1, (w.writeGroup s.1 timestampMs g).2, s.2 ++ [g])
  writeGroup_routes s timestampMs g := w.writeGroup_routes s.1 timestampMs g
  groupOrder := w.groupOrder
  groupOrder_perm := w.groupOrder_perm

/-- The groups a run is handed. -/
def written (tables : RoutingTables) (updates : List ChannelPointUpdate) (world : σ) : List Group :=
  (w.logged.write tables updates (world, [])).world.2

end BatchWriter

/-! ## Runs follow their plan -/

section Observed

variable {σ β : Type}

/-- What is seen of the states of a writer: a group changes it by `step`, the clock does not. -/
structure BatchWriter.Observed (w : BatchWriter σ) (see : σ → β) (step : β → Group → β) : Prop where
  now : ∀ s, see (w.now s).2 = see s
  group : ∀ s timestampMs g, see (w.writeGroup s timestampMs g).2 = step (see s) g

/-- A run that started with `acc` where `b` was seen wrote the groups of the plan, all unless it
failed, and counted what the plan counts. -/
structure Follows (see : σ → β) (step : β → Group → β) (b : β) (acc : BatchRoutingResult) (p : Plan)
    (run : BatchRun σ) : Prop where
  seen : ∃ groups, groups <+: p.groups ∧ see run.world = groups.foldl step b
  ok : ∀ r, run.outcome = .ok r → see run.world = p.groups.foldl step b ∧
    r.c2cForwards = acc.c2cForwards + p.forwards ∧
    r.cyclesDetected = acc.cyclesDetected + p.cycles

theorem Follows.refl (see : σ → β) (step : β → Group → β) (acc : BatchRoutingResult)
    (events : List BatchEvent) (s : σ) : Follows see step (see s) acc {} ⟨.ok acc, events, s⟩ where
  seen := ⟨[], prefix_refl _, rfl⟩
  ok r h := by
    cases h
    exact ⟨rfl, rfl, rfl⟩

/-- A group was written and its forwarded updates were: the run of the groups behind it goes on. -/
theorem Follows.cons {see : σ → β} {step : β → Group → β} {b : β} {g : Group} {scan : Scan}
    {below rest : Plan} {acc written subResult : BatchRoutingResult} {run run' : BatchRun σ}
    (hwritten : written.c2cForwards = 0 ∧ written.cyclesDetected = 0)
    (hbelow : Follows see step (step b g) {} below run) (hout : run.outcome = .ok subResult)
    (hrest : Follows see step (see run.world)
      (acc.merge (BatchWriter.groupResult written scan subResult)) rest run')
    (events : List BatchEvent) :
    Follows see step b acc
      { groups := (g :: below.groups) ++ rest.groups
        forwards := scan.forwards.length + below.forwards + rest.forwards
        cycles := scan.cycles + below.cycles + rest.cycles } { run' with events := events } := by
  obtain ⟨hseen, hforwards, hcycles⟩ := hbelow.ok subResult hout
  rw [hseen] at hrest
  constructor
  · obtain ⟨groups, hpre, hworld⟩ := hrest.seen
    refine ⟨(g :: below.groups) ++ groups, (prefix_append_right_inj _).mpr hpre, ?_⟩
    rw [foldl_append]
    exact hworld
  intro r hr
  obtain ⟨hworld, hf, hc⟩ := hrest.ok r hr
  refine ⟨?_, ?_, ?_⟩
  · rw [foldl_append]
    exact hworld
  · rw [hf]
    simp only [BatchRoutingResult.merge, BatchWriter.groupResult, hwritten.1, hforwards]
    omega
  · rw [hc]
    simp only [BatchRoutingResult.merge, BatchWriter.groupResult, hwritten.2, hcycles]
    omega

namespace BatchWriter

variable {w : BatchWriter σ} {see : σ → β} {step : β → Group → β} (hsee : w.Observed see step)
  (tables : RoutingTables)

section Sub

variable {sub : List ChannelPoint → List ChannelPointUpdate → σ → BatchRun σ}
  {subPlan : List ChannelPoint → List ChannelPointUpdate → Plan}
  (hnil : ∀ visited, subPlan visited [] = {})
  (hsub : ∀ visited us s, Follows see step (see s) {} (subPlan visited us) (sub visited us s))
include hnil hsub

theorem follows_subRun (scan : Scan) (s : σ) :
    Follows see step (see s) {} (subPlan scan.visited scan.forwards) (subRun sub scan s) := by
  unfold subRun
  split
  · rename_i hempty
    rw [List.isEmpty_iff.mp hempty, hnil]
    exact .refl see step {} [] s
  · exact hsub _ _ s

include hsee

theorem follows_writeGroups (timestampMs : Nat) (visited : List ChannelPoint) :
    ∀ (gs : List Group) (acc : BatchRoutingResult) (s : σ),
      Follows see step (see s) acc (planGroups tables subPlan visited gs)
        (w.writeGroups tables sub timestampMs visited gs acc s)
  | [], acc, s => .refl see step acc [] s
  | g :: gs, acc, s => by
    rw [writeGroups_cons, planGroups_cons]
    rcases hwrite : w.writeGroup s timestampMs g with ⟨out, world⟩
    have hworld : see world = step (see s) g := by rw [← hsee.group s timestampMs g, hwrite]
    cases out with
    | error e => exact ⟨⟨[g], prefix_append [g] _, hworld⟩, fun r h => by cases h⟩
    | ok written =>
      have hroutes := w.writeGroup_routes s timestampMs g written (by rw [hwrite])
      have hbelow := follows_subRun hnil hsub (scanGroup tables visited g.2) world
      rw [hworld] at hbelow
      dsimp only at hbelow ⊢
      cases hout : (subRun sub (scanGroup tables visited g.2) world).outcome with
      | error e =>
        obtain ⟨groups, hpre, hseen⟩ := hbelow.seen
        refine ⟨⟨g :: groups, ?_, hseen⟩, fun r h => by cases h⟩
        exact (prefix_cons_inj g).mpr (hpre.trans (prefix_append _ _))
      | ok subResult =>
        exact .cons hroutes hbelow hout (follows_writeGroups timestampMs visited gs _ _) _

end Sub

/-- The plan of a call of a writer. -/
def plan (w : BatchWriter σ) (levels : Nat) (visited : List ChannelPoint)
    (updates : List ChannelPointUpdate) : Plan :=
  Routing.plan w.accepts w.groupOrder tables levels visited updates

include hsee

/-- **A call follows its plan.** -/
theorem follows_writeImpl : ∀ (levels : Nat) (visited : List ChannelPoint)
    (updates : List ChannelPointUpdate) (s : σ),
    Follows see step (see s) {} (w.plan tables levels visited updates)
      (w.writeImpl tables levels visited updates s)
  | 0, _, _, s => .refl see step {} [] s
  | levels + 1, visited, updates, s => by
    rw [writeImpl]
    split
    · rename_i hempty
      rw [List.isEmpty_iff.mp hempty, plan, plan_nil w.accepts w.groupOrder tables w.groupOrder_perm]
      exact .refl see step {} [] s
    rcases hnow : w.now s with ⟨out, world⟩
    have hworld : see world = see s := by rw [← hsee.now s, hnow]
    cases out with
    | error e => exact ⟨⟨[], nil_prefix, hworld⟩, fun r h => by cases h⟩
    | ok timestampMs =>
      rw [← hworld]
      exact follows_writeGroups hsee tables
        (plan_nil w.accepts w.groupOrder tables w.groupOrder_perm levels)
        (follows_writeImpl levels) timestampMs visited _ {} world

end BatchWriter

end Observed

namespace BatchWriter

variable {σ : Type} (w : BatchWriter σ) (tables : RoutingTables)

/-- The plan of a batch. -/
def batchPlan (updates : List ChannelPointUpdate) : Plan :=
  w.plan tables (maxC2cCascadeDepth + 1) [] updates

theorem seen_write {β : Type} {see : σ → β} {step : β → Group → β} (hsee : w.Observed see step)
    {updates : List ChannelPointUpdate} {world : σ} {r : BatchRoutingResult}
    (h : (w.write tables updates world).outcome = .ok r) :
    see (w.write tables updates world).world =
      (w.batchPlan tables updates).groups.foldl step (see world) ∧
      r.c2cForwards = (w.batchPlan tables updates).forwards ∧
      r.cyclesDetected = (w.batchPlan tables updates).cycles := by
  obtain ⟨hseen, hforwards, hcycles⟩ :=
    (follows_writeImpl hsee tables (maxC2cCascadeDepth + 1) [] updates world).ok r h
  exact ⟨hseen, hforwards.trans (Nat.zero_add _), hcycles.trans (Nat.zero_add _)⟩

theorem foldl_concat_group (log gs : List Group) :
    gs.foldl (fun log g => log ++ [g]) log = log ++ gs := by
  induction gs generalizing log with
  | nil => simp
  | cons g gs ih => simp [ih]

theorem written_prefix (updates : List ChannelPointUpdate) (world : σ) :
    w.written tables updates world <+: (w.batchPlan tables updates).groups := by
  have hlogged : w.logged.Observed Prod.snd fun log g => log ++ [g] := ⟨fun _ => rfl, fun _ _ _ => rfl⟩
  obtain ⟨groups, hpre, hlog⟩ := (follows_writeImpl hlogged tables (maxC2cCascadeDepth + 1) [] updates
    (world, [])).seen
  rw [foldl_concat_group, nil_append] at hlog
  rw [written, write, hlog]
  exact hpre

/-! ## Depth -/

/-- One call, with `sub` for the calls it makes. -/
def call (sub : List ChannelPoint → List ChannelPointUpdate → σ → BatchRun σ)
    (visited : List ChannelPoint) (updates : List ChannelPointUpdate) (world : σ) : BatchRun σ :=
  if updates.isEmpty then ⟨.ok {}, [], world⟩
  else
    match w.now world with
    | (.error e, world) => ⟨.error e, [], world⟩
    | (.ok timestampMs, world) =>
      w.writeGroups tables sub timestampMs visited
        (orderedGroups w.accepts w.groupOrder updates) {} world

/-- The recursion with its first `levels` calls as they are, and anything in place of those below. -/
def unrolled (deeper : List ChannelPoint → List ChannelPointUpdate → σ → BatchRun σ) :
    Nat → List ChannelPoint → List ChannelPointUpdate → σ → BatchRun σ
  | 0 => deeper
  | levels + 1 => w.call tables (unrolled deeper levels)

theorem writeImpl_succ (levels : Nat) :
    w.writeImpl tables (levels + 1) = w.call tables (w.writeImpl tables levels) := by
  funext visited updates world
  rw [writeImpl, call]
  rfl

variable {sub sub' : List ChannelPoint → List ChannelPointUpdate → σ → BatchRun σ}

theorem writeGroups_congr (timestampMs : Nat) (visited : List ChannelPoint) :
    ∀ (gs : List Group) (acc : BatchRoutingResult) (world : σ),
      (∀ g ∈ gs, ∀ world, subRun sub (scanGroup tables visited g.2) world =
        subRun sub' (scanGroup tables visited g.2) world) →
      w.writeGroups tables sub timestampMs visited gs acc world =
        w.writeGroups tables sub' timestampMs visited gs acc world
  | [], _, _, _ => rfl
  | g :: gs, acc, world, h => by
    have ih := fun acc world =>
      writeGroups_congr timestampMs visited gs acc world fun g' hg' => h g' (.tail _ hg')
    rw [writeGroups_cons, writeGroups_cons]
    simp only [h g (.head _), ih]

theorem call_congr {visited : List ChannelPoint} {updates : List ChannelPointUpdate} (world : σ)
    (h : ∀ g ∈ orderedGroups w.accepts w.groupOrder updates, ∀ world,
      subRun sub (scanGroup tables visited g.2) world =
        subRun sub' (scanGroup tables visited g.2) world) :
    w.call tables sub visited updates world = w.call tables sub' visited updates world := by
  simp only [call, fun ts world' => w.writeGroups_congr tables ts visited _ {} world' h]

variable {us : List ChannelPointUpdate} (visited : List ChannelPoint)

theorem forwards_eq_nil (h : ∀ u ∈ us, maxC2cCascadeDepth ≤ u.cascadeDepth) :
    (scanGroup tables visited us).forwards = [] := by
  rw [eq_nil_iff_forall_not_mem]
  intro v hv
  obtain ⟨u, hu, t, ht, -⟩ := forwards_of_scan hv
  exact absurd (lt_of_routeOf ht) (Nat.not_lt.mpr (h u hu))

theorem depth_of_forwards {d : Nat} (h : ∀ u ∈ us, d ≤ u.cascadeDepth) :
    ∀ v ∈ (scanGroup tables visited us).forwards, d + 1 ≤ v.cascadeDepth := by
  intro v hv
  obtain ⟨u, hu, t, -, rfl⟩ := forwards_of_scan hv
  exact Nat.succ_le_succ (h u hu)

theorem mem_of_orderedGroups {updates : List ChannelPointUpdate} {g : Group}
    (hg : g ∈ orderedGroups w.accepts w.groupOrder updates) {u : ChannelPointUpdate}
    (hu : u ∈ g.2) : u ∈ updates :=
  (of_mem_orderedGroups w.accepts w.groupOrder w.groupOrder_perm hg hu).1

/-- **Enough levels.**  A call whose updates have only `levels` hops left makes no call below. -/
theorem unrolled_eq (deeper : List ChannelPoint → List ChannelPointUpdate → σ → BatchRun σ) :
    ∀ (levels : Nat) (visited : List ChannelPoint) (updates : List ChannelPointUpdate) (world : σ),
      (∀ u ∈ updates, maxC2cCascadeDepth - levels ≤ u.cascadeDepth) →
      w.unrolled tables deeper (levels + 1) visited updates world =
        w.writeImpl tables (levels + 1) visited updates world := by
  intro levels
  induction levels with
  | zero =>
    intro visited updates world hdepth
    rw [unrolled, writeImpl_succ]
    refine w.call_congr tables world fun g hg world => ?_
    have hnil := forwards_eq_nil tables visited
      fun u hu => hdepth u (w.mem_of_orderedGroups hg hu)
    simp only [subRun, hnil, isEmpty_nil, if_true]
  | succ levels ih =>
    intro visited updates world hdepth
    rw [unrolled, writeImpl_succ]
    refine w.call_congr tables world fun g hg world => ?_
    have hbelow : ∀ v ∈ (scanGroup tables visited g.2).forwards,
        maxC2cCascadeDepth - levels ≤ v.cascadeDepth := by
      intro v hv
      have := depth_of_forwards tables visited
        (fun u hu => hdepth u (w.mem_of_orderedGroups hg hu)) v hv
      omega
    simp only [subRun, ih _ _ _ hbelow]

/-! ## Size -/

theorem length_forwards_le (us : List ChannelPointUpdate) :
    (scanGroup tables visited us).forwards.length ≤ us.length := by
  have hscan := scanned_scanGroup tables visited us
  have hlen := hscan.routed.length_eq
  have hfilter := length_filterMap_le (routedPair tables) us
  rw [hscan.forwards, length_map]
  rw [length_append] at hlen
  omega

theorem sum_orderedGroups_le (updates : List ChannelPointUpdate) :
    ((orderedGroups w.accepts w.groupOrder updates).map fun g => g.2.length).sum ≤
      updates.length := by
  have hperm := flatMap_orderedGroups_perm w.accepts w.groupOrder w.groupOrder_perm updates
  have hlen := hperm.length_eq
  rw [length_flatMap] at hlen
  rw [hlen]
  exact length_filter_le _ _

theorem length_plan_le : ∀ (levels : Nat) (visited : List ChannelPoint)
    (updates : List ChannelPointUpdate),
    (w.plan tables levels visited updates).updates.length ≤ levels * updates.length
  | 0, _, _ => Nat.zero_le _
  | levels + 1, visited, updates => by
    have hgroup : ∀ g : Group, (g.2 ++ (w.plan tables levels (scanGroup tables visited g.2).visited
        (scanGroup tables visited g.2).forwards).updates).length ≤ (levels + 1) * g.2.length := by
      intro g
      have hbelow := length_plan_le levels (scanGroup tables visited g.2).visited
        (scanGroup tables visited g.2).forwards
      have hforwards := Nat.mul_le_mul_left levels (length_forwards_le tables visited g.2)
      rw [length_append, Nat.succ_mul]
      omega
    calc (w.plan tables (levels + 1) visited updates).updates.length
        = ((orderedGroups w.accepts w.groupOrder updates).map fun g =>
            (g.2 ++ (w.plan tables levels (scanGroup tables visited g.2).visited
              (scanGroup tables visited g.2).forwards).updates).length).sum := by
          simp only [plan, Routing.plan, planGroups, Plan.updates, flatMap_assoc,
            flatMap_cons, length_flatMap]
      _ ≤ ((orderedGroups w.accepts w.groupOrder updates).map fun g =>
            (levels + 1) * g.2.length).sum := sum_le_sum fun g _ => hgroup g
      _ = (levels + 1) * ((orderedGroups w.accepts w.groupOrder updates).map fun g =>
            g.2.length).sum := sum_map_mul_left ..
      _ ≤ (levels + 1) * updates.length := Nat.mul_le_mul_left _ (w.sum_orderedGroups_le updates)

theorem plan_forwards_le : ∀ (levels : Nat) (visited : List ChannelPoint)
    (updates : List ChannelPointUpdate),
    (∀ u ∈ updates, maxC2cCascadeDepth - levels ≤ u.cascadeDepth) →
    (w.plan tables (levels + 1) visited updates).forwards ≤ levels * updates.length
  | 0, visited, updates, hdepth => by
    have hgroup : ∀ g ∈ orderedGroups w.accepts w.groupOrder updates,
        (scanGroup tables visited g.2).forwards.length = 0 := by
      intro g hg
      rw [forwards_eq_nil tables visited fun u hu => hdepth u (w.mem_of_orderedGroups hg hu)]
      rfl
    rw [Nat.zero_mul, Nat.le_zero]
    refine sum_eq_zero fun n hn => ?_
    obtain ⟨g, hg, rfl⟩ := mem_map.mp hn
    rw [hgroup g hg]
    rfl
  | levels + 1, visited, updates, hdepth => by
    have hgroup : ∀ g ∈ orderedGroups w.accepts w.groupOrder updates,
        (scanGroup tables visited g.2).forwards.length +
          (w.plan tables (levels + 1) (scanGroup tables visited g.2).visited
            (scanGroup tables visited g.2).forwards).forwards ≤ (levels + 1) * g.2.length := by
      intro g hg
      have hdeeper := depth_of_forwards tables visited
        fun u hu => hdepth u (w.mem_of_orderedGroups hg hu)
      have hbelow := plan_forwards_le levels (scanGroup tables visited g.2).visited
        (scanGroup tables visited g.2).forwards fun v hv => by
          have := hdeeper v hv
          omega
      have hforwards := length_forwards_le tables visited g.2
      have hmul := Nat.mul_le_mul_left levels hforwards
      rw [Nat.succ_mul]
      omega
    calc (w.plan tables (levels + 1 + 1) visited updates).forwards
        ≤ ((orderedGroups w.accepts w.groupOrder updates).map fun g =>
            (levels + 1) * g.2.length).sum := sum_le_sum hgroup
      _ = (levels + 1) * ((orderedGroups w.accepts w.groupOrder updates).map fun g =>
            g.2.length).sum := sum_map_mul_left ..
      _ ≤ (levels + 1) * updates.length := Nat.mul_le_mul_left _ (w.sum_orderedGroups_le updates)

end BatchWriter

/-! ## Every batch is bounded -/

/-- What no table of routes can do to a batch, a table with cycles included. -/
structure Bounded {σ : Type} (w : BatchWriter σ) (tables : RoutingTables)
    (updates : List ChannelPointUpdate) (world : σ) : Prop where
  /-- whatever solves the equation of the recursion has the value of the model -/
  returns : ∀ f, (∀ visited us s, f visited us s = w.call tables f visited us s) →
    f [] updates world = w.write tables updates world
  /-- no call is made more than `MAX_C2C_CASCADE_DEPTH` below the first -/
  depth : ∀ deeper, w.unrolled tables deeper (maxC2cCascadeDepth + 1) [] updates world =
    w.write tables updates world
  forwards : ∀ r, (w.write tables updates world).outcome = .ok r →
    r.c2cForwards ≤ maxC2cCascadeDepth * updates.length
  processed : ((w.written tables updates world).flatMap Prod.snd).length ≤
    (maxC2cCascadeDepth + 1) * updates.length

variable {σ : Type} (w : BatchWriter σ) (tables : RoutingTables)

theorem unrolled_of_equation
    {f : List ChannelPoint → List ChannelPointUpdate → σ → BatchRun σ}
    (hf : ∀ visited us s, f visited us s = w.call tables f visited us s) (levels : Nat) :
    w.unrolled tables f levels = f := by
  induction levels with
  | zero => rfl
  | succ levels ih =>
    funext visited us s
    rw [BatchWriter.unrolled, ih, hf]

variable (updates : List ChannelPointUpdate) (world : σ)

theorem unrolled_write
    (deeper : List ChannelPoint → List ChannelPointUpdate → σ → BatchRun σ) :
    w.unrolled tables deeper (maxC2cCascadeDepth + 1) [] updates world =
      w.write tables updates world :=
  w.unrolled_eq tables deeper maxC2cCascadeDepth [] updates world fun u _ => by
    rw [Nat.sub_self]
    exact Nat.zero_le _

theorem bounded_write : Bounded w tables updates world where
  returns f hf := by
    rw [← unrolled_write w tables updates world f, unrolled_of_equation w tables hf]
  depth := unrolled_write w tables updates world
  forwards r hr := by
    have hsee : w.Observed (fun _ => ()) fun _ _ => () := ⟨fun _ => rfl, fun _ _ _ => rfl⟩
    rw [(w.seen_write tables hsee hr).2.1]
    refine w.plan_forwards_le tables maxC2cCascadeDepth [] updates fun u _ => ?_
    rw [Nat.sub_self]
    exact Nat.zero_le _
  processed := by
    obtain ⟨rest, hrest⟩ := w.written_prefix tables updates world
    have hlen := w.length_plan_le tables (maxC2cCascadeDepth + 1) [] updates
    have hall : (w.batchPlan tables updates).updates.length =
        ((w.written tables updates world).flatMap Prod.snd).length +
          (rest.flatMap Prod.snd).length := by
      rw [Plan.updates, ← hrest, flatMap_append, length_append]
    rw [BatchWriter.batchPlan] at hall
    omega

/-- **Every batch is bounded.**  Whatever the C2C routes are, each of the three writers returns
without a call more than `MAX_C2C_CASCADE_DEPTH` below the first, forwards at most that many updates
for each update of the batch and handles at most one more; only `write_channel_batch` can fail. -/
theorem cascade_bounded {σ : Type} (tables : RoutingTables) (updates : List ChannelPointUpdate)
    (world : σ) :
    (∀ env : DirectEnv σ, Bounded env.writer tables updates world ∧
      ∃ r, (writeChannelBatchDirect env tables updates world).outcome = .ok r) ∧
    (∀ env : RtdbEnv σ, Bounded (env.writer tables) tables updates world) ∧
    (∀ env : BufferEnv σ, Bounded (env.writer tables) tables updates world ∧
      ∃ r, (writeChannelBatchBuffered env tables updates world).outcome = .ok r) := by
  refine ⟨fun env => ⟨?_, ?_⟩, fun env => ?_, fun env => ⟨?_, ?_⟩⟩
  · exact bounded_write env.writer tables updates world
  · exact outcome_direct env tables updates world
  · exact bounded_write (env.writer tables) tables updates world
  · exact bounded_write (env.writer tables) tables updates world
  · exact outcome_buffered env tables updates world

end VoltageEMS.Routing
