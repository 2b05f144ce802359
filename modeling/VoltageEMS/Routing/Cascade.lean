import VoltageEMS.Routing.Batch

/-!
# C2C cascades

What a batch writer does with the C2C routes of a batch.
-/

namespace VoltageEMS.Routing

open Lib List

/-! ## Events -/

variable (events : List BatchEvent)

/-- The updates handled. -/
def handledOf : List ChannelPointUpdate :=
  events.filterMap fun
    | .handled u => some u
    | _ => none

/-- Those forwarded, with their sources. -/
def forwardsOf : List (ChannelPointUpdate × ChannelPointUpdate) :=
  events.filterMap fun
    | .forwarded u v => some (u, v)
    | _ => none

/-- The same of cycles. -/
def cyclesOf : List (ChannelPointUpdate × ChannelPointUpdate) :=
  events.filterMap fun
    | .cycle u v => some (u, v)
    | _ => none

section Events

variable (xs ys : List BatchEvent) (us : List ChannelPointUpdate)

@[simp] theorem handledOf_append : handledOf (xs ++ ys) = handledOf xs ++ handledOf ys :=
  filterMap_append

@[simp] theorem forwardsOf_append : forwardsOf (xs ++ ys) = forwardsOf xs ++ forwardsOf ys :=
  filterMap_append

@[simp] theorem cyclesOf_append : cyclesOf (xs ++ ys) = cyclesOf xs ++ cyclesOf ys :=
  filterMap_append

@[simp] theorem handledOf_map : handledOf (us.map .handled) = us := by
  simp [handledOf, filterMap_map]

@[simp] theorem forwardsOf_map : forwardsOf (us.map .handled) = [] := by
  simp [forwardsOf, filterMap_map]

@[simp] theorem cyclesOf_map : cyclesOf (us.map .handled) = [] := by
  simp [cyclesOf, filterMap_map]

end Events

variable (a : BatchRoutingResult) {accepts : PointType → Bool}

theorem BatchRoutingResult.merge_assoc (b c : BatchRoutingResult) :
    (a.merge b).merge c = a.merge (b.merge c) := by
  simp [merge, Nat.add_assoc]

theorem BatchRoutingResult.merge_zero : BatchRoutingResult.merge {} a = a := by
  simp [merge]

/-! ## One group -/

variable {u : ChannelPointUpdate} {t : C2CTarget}

theorem lt_of_routeOf {tables : RoutingTables} (h : routeOf tables u = some t) :
    u.cascadeDepth < maxC2cCascadeDepth := by
  unfold routeOf at h
  split at h
  · assumption
  · cases h

theorem lookup_of_routeOf {tables : RoutingTables} (h : routeOf tables u = some t) :
    tables.lookupC2c u.point = some t := by
  unfold routeOf at h
  split at h
  · exact h
  · cases h

variable (tables : RoutingTables)

/-- With the update its route makes. -/
def routedPair (u : ChannelPointUpdate) :
    Option (ChannelPointUpdate × ChannelPointUpdate) :=
  (routeOf tables u).map fun t => (u, u.forward t)

/-- The state of the loop over a group, after the updates `us`. -/
structure Scanned (tables : RoutingTables) (visited : List ChannelPoint)
    (us : List ChannelPointUpdate) (s : Scan) : Prop where
  visited : ∀ p, p ∈ s.visited ↔ (∃ u ∈ us, u.point = p) ∨ p ∈ visited
  cycles : s.cycles = (cyclesOf s.events).length
  forwards : s.forwards = (forwardsOf s.events).map Prod.snd
  handled : handledOf s.events = []
  routed : (forwardsOf s.events ++ cyclesOf s.events).Perm (us.filterMap (routedPair tables))

variable {visited : List ChannelPoint}

theorem Scanned.step {tables : RoutingTables} {us : List ChannelPointUpdate} {s : Scan}
    (h : Scanned tables visited us s) (u : ChannelPointUpdate) :
    Scanned tables visited (us ++ [u]) (scanUpdate tables s u) := by
  have hvisited : ∀ p, p ∈ u.point :: s.visited ↔
      (∃ v ∈ us ++ [u], v.point = p) ∨ p ∈ visited := by
    intro p
    rw [mem_cons, h.visited p]
    constructor
    · rintro (rfl | ⟨v, hv, rfl⟩ | hp)
      · exact .inl ⟨u, by simp, rfl⟩
      · exact .inl ⟨v, mem_append_left _ hv, rfl⟩
      · exact .inr hp
    rintro (⟨v, hv, rfl⟩ | hp)
    · rcases mem_append.mp hv with hv | hv
      · exact .inr (.inl ⟨v, hv, rfl⟩)
      rw [mem_singleton.mp hv]
      exact .inl rfl
    · exact .inr (.inr hp)
  unfold scanUpdate
  cases hroute : routeOf tables u with
  | none =>
    refine ⟨hvisited, h.cycles, h.forwards, h.handled, ?_⟩
    simpa [routedPair, hroute] using h.routed
  | some t =>
    have hpair : routedPair tables u = some (u, u.forward t) := by simp [routedPair, hroute]
    dsimp only
    split
    · refine ⟨hvisited, ?_, ?_, ?_, ?_⟩
      · simp [h.cycles, cyclesOf]
      · simp [h.forwards, forwardsOf]
      · simpa [handledOf] using h.handled
      · simpa [cyclesOf, forwardsOf, hpair] using h.routed.append_right [(u, u.forward t)]
    refine ⟨hvisited, ?_, ?_, ?_, ?_⟩
    · simp [h.cycles, cyclesOf]
    · simp [h.forwards, forwardsOf]
    · simpa [handledOf] using h.handled
    have hperm := h.routed.append_right [(u, u.forward t)]
    simp only [forwardsOf_append, cyclesOf_append, filterMap_append,
      filterMap_cons, hpair, filterMap_nil]
    refine List.Perm.trans ?_ hperm
    simp only [forwardsOf, cyclesOf, filterMap_cons, filterMap_nil, append_nil,
      append_assoc]
    exact List.perm_append_comm.append_left _

theorem scanned_scanGroup (visited : List ChannelPoint)
    (us : List ChannelPointUpdate) : Scanned tables visited us (scanGroup tables visited us) := by
  induction us using reverseRecOn with
  | nil => exact ⟨by simp [scanGroup], rfl, rfl, rfl, .refl _⟩
  | append_singleton us u ih =>
    rw [scanGroup, foldl_append]
    exact ih.step u

variable {v : ChannelPointUpdate}

theorem forwards_of_scan {tables : RoutingTables} {us : List ChannelPointUpdate}
    (h : v ∈ (scanGroup tables visited us).forwards) :
    ∃ u ∈ us, ∃ t, routeOf tables u = some t ∧ v = u.forward t := by
  have hscan := scanned_scanGroup tables visited us
  rw [hscan.forwards] at h
  obtain ⟨⟨u, v⟩, hmem, rfl⟩ := mem_map.mp h
  obtain ⟨u', hu', hpair⟩ :=
    mem_filterMap.mp (hscan.routed.subset (mem_append_left _ hmem))
  obtain ⟨t, ht, heq⟩ := Option.map_eq_some_iff.mp hpair
  cases heq
  exact ⟨u, hu', t, ht, rfl⟩

/-! ## Whole calls -/

/-- The books of a call that handled `direct` itself and forwarded the rest: each handled update
with a route was forwarded or counted as a cycle. -/
structure Accounted (accepts : PointType → Bool) (tables : RoutingTables)
    (direct : List ChannelPointUpdate) (r : BatchRoutingResult) (events : List BatchEvent) :
    Prop where
  cycles : r.cyclesDetected = (cyclesOf events).length
  forwards : r.c2cForwards = (forwardsOf events).length
  handled : (handledOf events).Perm
    (direct ++ ((forwardsOf events).map Prod.snd).filter fun u => accepts u.pointType)
  routed : (forwardsOf events ++ cyclesOf events).Perm
    ((handledOf events).filterMap (routedPair tables))

theorem Accounted.nil {tables : RoutingTables} : Accounted accepts tables [] {} [] :=
  ⟨rfl, rfl, .refl _, .refl _⟩

variable {events : List BatchEvent} {r : BatchRoutingResult}

theorem Accounted.of_perm {tables : RoutingTables} {direct direct' : List ChannelPointUpdate}
    (h : Accounted accepts tables direct r events) (hperm : direct.Perm direct') :
    Accounted accepts tables direct' r events :=
  ⟨h.cycles, h.forwards, h.handled.trans (hperm.append_right _), h.routed⟩

theorem Accounted.append {tables : RoutingTables} {direct direct' : List ChannelPointUpdate}
    {r' : BatchRoutingResult} {events' : List BatchEvent}
    (h : Accounted accepts tables direct r events)
    (h' : Accounted accepts tables direct' r' events') :
    Accounted accepts tables (direct ++ direct') (r.merge r') (events ++ events') where
  cycles := by simp [BatchRoutingResult.merge, h.cycles, h'.cycles]
  forwards := by simp [BatchRoutingResult.merge, h.forwards, h'.forwards]
  handled := by
    have := h.handled.append h'.handled
    simp only [handledOf_append, forwardsOf_append, map_append, filter_append,
      ← Multiset.coe_eq_coe, ← Multiset.coe_add] at this ⊢
    rw [this]
    abel
  routed := by
    have := h.routed.append h'.routed
    simp only [handledOf_append, forwardsOf_append, cyclesOf_append, filterMap_append,
      ← Multiset.coe_eq_coe, ← Multiset.coe_add] at this ⊢
    rw [← this]
    abel

theorem Accounted.group {tables : RoutingTables} {us : List ChannelPointUpdate}
    {written : BatchRoutingResult} (hwritten : written.c2cForwards = 0 ∧ written.cyclesDetected = 0)
    (h : Accounted accepts tables
      ((scanGroup tables visited us).forwards.filter fun u => accepts u.pointType) r events) :
    let scan := scanGroup tables visited us
    Accounted accepts tables us
      (((written.merge { cyclesDetected := scan.cycles }).merge
        { c2cForwards := scan.forwards.length }).merge r)
      (us.map .handled ++ scan.events ++ events) := by
  have hscan := scanned_scanGroup tables visited us
  dsimp only
  constructor
  · simp [BatchRoutingResult.merge, hwritten.2, hscan.cycles, h.cycles]
  · simp [BatchRoutingResult.merge, hwritten.1, hscan.forwards, h.forwards]
  · have hperm := h.handled
    rw [hscan.forwards] at hperm
    simp only [handledOf_append, handledOf_map, hscan.handled, append_nil, forwardsOf_append,
      forwardsOf_map, nil_append, map_append, filter_append]
    exact hperm.append_left us
  have hperm := hscan.routed.append h.routed
  simp only [handledOf_append, handledOf_map, hscan.handled, append_nil, forwardsOf_append,
    forwardsOf_map, cyclesOf_append, cyclesOf_map, nil_append, filterMap_append,
    ← Multiset.coe_eq_coe, ← Multiset.coe_add] at hperm ⊢
  rw [← hperm]
  abel

namespace BatchWriter

variable {σ : Type} (w : BatchWriter σ) (tables : RoutingTables)

/-- The call below a group. -/
def subRun (sub : List ChannelPoint → List ChannelPointUpdate → σ → BatchRun σ) (scan : Scan)
    (world : σ) : BatchRun σ :=
  if scan.forwards.isEmpty then ⟨.ok {}, [], world⟩ else sub scan.visited scan.forwards world

/-- What a group adds up to. -/
def groupResult (written : BatchRoutingResult) (scan : Scan) (subResult : BatchRoutingResult) :
    BatchRoutingResult :=
  ((written.merge { cyclesDetected := scan.cycles }).merge
    { c2cForwards := scan.forwards.length }).merge subResult

theorem writeGroups_cons (sub : List ChannelPoint → List ChannelPointUpdate → σ → BatchRun σ)
    (timestampMs : Nat) (visited : List ChannelPoint) (g : Group) (gs : List Group)
    (acc : BatchRoutingResult) (world : σ) :
    w.writeGroups tables sub timestampMs visited (g :: gs) acc world =
      match w.writeGroup world timestampMs g with
      | (.error e, world) => ⟨.error e, [], world⟩
      | (.ok written, world) =>
        let scan := scanGroup tables visited g.2
        let events := g.2.map .handled ++ scan.events
        let r := subRun sub scan world
        match r.outcome with
        | .error e => ⟨.error e, events ++ r.events, r.world⟩
        | .ok subResult =>
          let rest := w.writeGroups tables sub timestampMs visited gs
            (acc.merge (groupResult written scan subResult)) r.world
          { rest with events := events ++ r.events ++ rest.events } := by
  rw [writeGroups]
  cases w.writeGroup world timestampMs g with
  | mk out world' =>
    cases out with
    | error e => rfl
    | ok written =>
      dsimp only [subRun]
      by_cases hempty : (scanGroup tables visited g.2).forwards.isEmpty = true
      · have hnil : (scanGroup tables visited g.2).forwards = [] := List.isEmpty_iff.mp hempty
        simp [groupResult, BatchRoutingResult.merge, hnil, Nat.add_assoc]
      rw [if_neg hempty, if_neg hempty]
      cases (sub _ _ world').outcome with
      | error e => rfl
      | ok subResult => simp [groupResult, BatchRoutingResult.merge, Nat.add_assoc]

theorem accounted_writeGroups {D : ChannelPointUpdate → Prop}
    {sub : List ChannelPoint → List ChannelPointUpdate → σ → BatchRun σ}
    (hsub : ∀ visited us world r, us ≠ [] → (∀ u ∈ us, D u) →
      (sub visited us world).outcome = .ok r →
      Accounted w.accepts tables (us.filter fun u => w.accepts u.pointType) r
        (sub visited us world).events)
    (timestampMs : Nat) (visited : List ChannelPoint) :
    ∀ (gs : List Group) (acc r : BatchRoutingResult) (world : σ),
      (∀ g ∈ gs, ∀ u ∈ g.2, ∀ t, routeOf tables u = some t → D (u.forward t)) →
      (w.writeGroups tables sub timestampMs visited gs acc world).outcome = .ok r →
      ∃ r', r = acc.merge r' ∧ Accounted w.accepts tables (gs.flatMap Prod.snd) r'
        (w.writeGroups tables sub timestampMs visited gs acc world).events
  | [], acc, r, world, _, h => by
    cases h
    exact ⟨{}, rfl, .nil⟩
  | g :: gs, acc, r, world, hD, h => by
    have hsubRun : ∀ world r, (subRun sub (scanGroup tables visited g.2) world).outcome = .ok r →
        Accounted w.accepts tables ((scanGroup tables visited g.2).forwards.filter
          fun u => w.accepts u.pointType) r
          (subRun sub (scanGroup tables visited g.2) world).events := by
      intro world r hr
      unfold subRun at hr ⊢
      split
      · rename_i hempty
        rw [if_pos hempty] at hr
        cases hr
        rw [List.isEmpty_iff.mp hempty]
        exact .nil
      rename_i hempty
      rw [if_neg hempty] at hr
      refine hsub _ _ _ _ (fun hnil => hempty (by rw [hnil]; rfl)) ?_ hr
      intro u hu
      obtain ⟨v, hv, t, ht, rfl⟩ := forwards_of_scan hu
      exact hD g (.head _) v hv t ht
    rw [writeGroups_cons] at h ⊢
    cases hwrite : w.writeGroup world timestampMs g with
    | mk out world' =>
      rw [hwrite] at h
      cases out with
      | error e => cases h
      | ok written =>
        have hroutes := w.writeGroup_routes world timestampMs g written (by rw [hwrite])
        dsimp only at h ⊢
        cases hout : (subRun sub (scanGroup tables visited g.2) world').outcome with
        | error e => rw [hout] at h; cases h
        | ok subResult =>
          rw [hout] at h
          obtain ⟨r', rfl, hr'⟩ := accounted_writeGroups hsub timestampMs visited gs _ r _
            (fun g' hg' => hD g' (.tail _ hg')) h
          refine ⟨(groupResult written _ subResult).merge r', BatchRoutingResult.merge_assoc .., ?_⟩
          exact (Accounted.group hroutes (hsubRun world' subResult hout)).append hr'

/-- **The books of a call** that has a level for every depth its updates can still reach. -/
theorem accounted_writeImpl : ∀ (levels : Nat) (visited : List ChannelPoint)
    (updates : List ChannelPointUpdate) (world : σ) (r : BatchRoutingResult),
    (∀ u ∈ updates, maxC2cCascadeDepth < levels + u.cascadeDepth) → 0 < levels →
    (w.writeImpl tables levels visited updates world).outcome = .ok r →
    Accounted w.accepts tables (updates.filter fun u => w.accepts u.pointType) r
      (w.writeImpl tables levels visited updates world).events
  | levels + 1, visited, updates, world, r, hdepth, _, h => by
    rw [writeImpl] at h ⊢
    by_cases hempty : updates.isEmpty = true
    · rw [if_pos hempty] at h ⊢
      cases h
      rw [List.isEmpty_iff.mp hempty]
      exact .nil
    rw [if_neg hempty] at h ⊢
    cases hnow : w.now world with
    | mk out world' =>
      rw [hnow] at h
      cases out with
      | error e => cases h
      | ok timestampMs =>
        dsimp only at h ⊢
        have hperm := w.groupOrder_perm (groupByKey ChannelPointUpdate.key
          (updates.filter fun u => w.accepts u.pointType))
        -- a forwarded update is one deeper, and only comes from above the limit
        have hsub : ∀ visited us world r, us ≠ [] →
            (∀ u ∈ us, maxC2cCascadeDepth < levels + u.cascadeDepth ∧
              u.cascadeDepth ≤ maxC2cCascadeDepth) →
            (w.writeImpl tables levels visited us world).outcome = .ok r →
            Accounted w.accepts tables (us.filter fun u => w.accepts u.pointType) r
              (w.writeImpl tables levels visited us world).events := by
          intro visited us world r hne hus hr
          obtain ⟨u, hu⟩ := exists_mem_of_ne_nil us hne
          have := hus u hu
          exact accounted_writeImpl levels visited us world r (fun u hu => (hus u hu).1)
            (by omega) hr
        obtain ⟨r', rfl, hr'⟩ := w.accounted_writeGroups tables hsub timestampMs visited _ _ r _
          (by
            intro g hg u hu t ht
            have hmem := mem_groupByKey (hperm.subset hg) ▸ hu
            have hdeep := hdepth u (mem_of_mem_filter (mem_of_mem_filter hmem))
            have hlt := lt_of_routeOf ht
            simp only [ChannelPointUpdate.forward]
            omega) h
        rw [BatchRoutingResult.merge_zero]
        exact hr'.of_perm ((hperm.flatMap_right Prod.snd).trans (groupByKey_perm _ _))

end BatchWriter

/-! ## Calls without a cycle -/

/-- No route of the updates leads to a visited point, or to a point of the update's own group. -/
def Clear (visited : List ChannelPoint) (us : List ChannelPointUpdate) :
    Prop :=
  ∀ u ∈ us, ∀ t, routeOf tables u = some t →
    t.point ∉ visited ∧ ∀ v ∈ us, v.key = u.key → t.point ≠ v.point

theorem cyclesOf_scanGroup {tables : RoutingTables} {us : List ChannelPointUpdate}
    (h : ∀ u ∈ us, ∀ t, routeOf tables u = some t → t.point ∉ visited ∧ ∀ v ∈ us, t.point ≠ v.point) :
    cyclesOf (scanGroup tables visited us).events = [] := by
  induction us using reverseRecOn with
  | nil => rfl
  | append_singleton us u ih =>
    have hold := ih fun v hv t ht => by
      obtain ⟨hvisited, hgroup⟩ := h v (mem_append_left _ hv) t ht
      exact ⟨hvisited, fun w hw => hgroup w (mem_append_left _ hw)⟩
    have hscan := scanned_scanGroup tables visited us
    rw [scanGroup, foldl_append, foldl_cons, foldl_nil, ← scanGroup, scanUpdate]
    cases hroute : routeOf tables u with
    | none => exact hold
    | some t =>
      obtain ⟨hvisited, hgroup⟩ := h u (by simp) t hroute
      have hfree : t.point ∉ u.point :: (scanGroup tables visited us).visited := by
        rw [mem_cons, hscan.visited, not_or, not_or]
        refine ⟨hgroup u (by simp), ?_, hvisited⟩
        rintro ⟨v, hv, heq⟩
        exact hgroup v (mem_append_left _ hv) heq.symm
      dsimp only
      rw [if_neg hfree, cyclesOf_append, hold]
      rfl

/-- The loop over one group. -/
def scanOf (accepts : PointType → Bool) (tables : RoutingTables) (visited : List ChannelPoint)
    (us : List ChannelPointUpdate) (k : Nat × PointType) : Scan :=
  scanGroup tables visited ((us.filter fun u => accepts u.pointType).filter (·.key = k))

/-- `Clear` for a call and the calls below it. -/
def ClearDeep (accepts : PointType → Bool) (tables : RoutingTables) :
    Nat → List ChannelPoint → List ChannelPointUpdate → Prop
  | 0, _, _ => True
  | levels + 1, visited, us =>
    Clear tables visited (us.filter fun u => accepts u.pointType) ∧
      ∀ k, ClearDeep accepts tables levels (scanOf accepts tables visited us k).visited
        (scanOf accepts tables visited us k).forwards

namespace BatchWriter

variable {σ : Type} (w : BatchWriter σ) (tables : RoutingTables)

theorem cyclesOf_writeGroups
    {sub : List ChannelPoint → List ChannelPointUpdate → σ → BatchRun σ} (timestampMs : Nat)
    (visited : List ChannelPoint) :
    ∀ (gs : List Group) (acc : BatchRoutingResult) (world : σ),
      (∀ g ∈ gs, cyclesOf (scanGroup tables visited g.2).events = [] ∧
        ∀ world, cyclesOf (sub (scanGroup tables visited g.2).visited
          (scanGroup tables visited g.2).forwards world).events = []) →
      cyclesOf (w.writeGroups tables sub timestampMs visited gs acc world).events = []
  | [], _, _, _ => rfl
  | g :: gs, acc, world, h => by
    obtain ⟨hscan, hsub⟩ := h g (.head _)
    have hrun : ∀ world, cyclesOf (subRun sub (scanGroup tables visited g.2) world).events = [] := by
      intro world
      unfold subRun
      split
      · rfl
      · exact hsub world
    rw [writeGroups_cons]
    cases w.writeGroup world timestampMs g with
    | mk out world' =>
      cases out with
      | error e => rfl
      | ok written =>
        dsimp only
        cases (subRun sub (scanGroup tables visited g.2) world').outcome with
        | error e => simp [hscan, hrun]
        | ok subResult =>
          simp only [cyclesOf_append, cyclesOf_map, hscan, hrun, nil_append]
          exact cyclesOf_writeGroups timestampMs visited gs _ _ fun g' hg' => h g' (.tail _ hg')

theorem cyclesOf_writeImpl : ∀ (levels : Nat) (visited : List ChannelPoint)
    (updates : List ChannelPointUpdate) (world : σ),
    ClearDeep w.accepts tables levels visited updates →
    cyclesOf (w.writeImpl tables levels visited updates world).events = []
  | 0, _, _, _, _ => rfl
  | levels + 1, visited, updates, world, h => by
    rw [writeImpl]
    split
    · rfl
    cases w.now world with
    | mk out world' =>
      cases out with
      | error e => rfl
      | ok timestampMs =>
        refine w.cyclesOf_writeGroups tables timestampMs visited _ _ _ fun g hg => ?_
        obtain ⟨k, us⟩ := g
        have hus := mem_groupByKey ((w.groupOrder_perm _).subset hg)
        subst hus
        refine ⟨cyclesOf_scanGroup fun u hu t ht => ?_,
          fun world => cyclesOf_writeImpl levels _ _ world (h.2 k)⟩
        obtain ⟨hu, hk⟩ := mem_filter.mp hu
        obtain ⟨hvisited, hgroup⟩ := h.1 u hu t ht
        refine ⟨hvisited, fun v hv => ?_⟩
        obtain ⟨hv, hk'⟩ := mem_filter.mp hv
        exact hgroup v hv ((of_decide_eq_true hk').trans (of_decide_eq_true hk).symm)

end BatchWriter

/-! ## Batches that are separate -/

/-- One C2C hop. -/
def Hop (p q : ChannelPoint) : Prop :=
  ∃ t, tables.lookupC2c p = some t ∧ t.point = q

/-- No point reaches itself. -/
def Acyclic : Prop := ∀ p, ¬ Relation.TransGen (Hop tables) p p

/-- Neither of two points of one group leads to the other within two hops, and if their targets are
in one group these do not lead to each other. -/
structure Apart (tables : RoutingTables) (p q : ChannelPoint) : Prop where
  one : ¬ Hop tables p q
  two : ∀ t, Hop tables p t → ¬ Hop tables t q
  targets : ∀ t s, Hop tables p t → Hop tables q s → t.channelId = s.channelId →
    t.pointType = s.pointType → ¬ Hop tables t s

/-- Different points of the batch with one channel and type are apart. -/
def Separate (batch : List ChannelPointUpdate) : Prop :=
  ∀ u ∈ batch, ∀ v ∈ batch, u.key = v.key → u.point ≠ v.point → Apart tables u.point v.point

section Separate

variable {accepts : PointType → Bool} {tables : RoutingTables} {batch : List ChannelPointUpdate}

theorem hop_of_routeOf (h : routeOf tables u = some t) :
    Hop tables u.point t.point := ⟨t, lookup_of_routeOf h, rfl⟩

theorem Hop.unique {p q q' : ChannelPoint} (h : Hop tables p q) (h' : Hop tables p q') : q = q' := by
  obtain ⟨t, ht, rfl⟩ := h
  obtain ⟨t', ht', rfl⟩ := h'
  rw [ht] at ht'
  cases ht'
  rfl

theorem Acyclic.one (h : Acyclic tables) {p q : ChannelPoint} (hpq : Hop tables p q) : p ≠ q := by
  rintro rfl
  exact h p (.single hpq)

theorem Acyclic.two (h : Acyclic tables) {p q r : ChannelPoint} (hpq : Hop tables p q)
    (hqr : Hop tables q r) : p ≠ r := by
  rintro rfl
  exact h p (.tail (.single hpq) hqr)

variable {k : Nat × PointType}

theorem mem_scanOf_forwards {us : List ChannelPointUpdate}
    (h : v ∈ (scanOf accepts tables visited us k).forwards) :
    ∃ u ∈ us, u.key = k ∧ ∃ t, routeOf tables u = some t ∧ v = u.forward t := by
  obtain ⟨u, hu, t, ht, rfl⟩ := forwards_of_scan h
  obtain ⟨hu, hk⟩ := mem_filter.mp hu
  exact ⟨u, mem_of_mem_filter hu, of_decide_eq_true hk, t, ht, rfl⟩

theorem mem_scanOf_visited {us : List ChannelPointUpdate} {p : ChannelPoint}
    (h : p ∈ (scanOf accepts tables visited us k).visited) :
    (∃ u ∈ us, u.key = k ∧ u.point = p) ∨ p ∈ visited := by
  refine ((scanned_scanGroup tables visited _).visited p).mp h |>.imp_left ?_
  rintro ⟨u, hu, hp⟩
  obtain ⟨hu, hk⟩ := mem_filter.mp hu
  exact ⟨u, mem_of_mem_filter hu, of_decide_eq_true hk, hp⟩

theorem clear_batch (hacyclic : Acyclic tables) (hsep : Separate tables batch) :
    Clear tables [] (batch.filter fun u => accepts u.pointType) := by
  intro u hu t ht
  refine ⟨not_mem_nil, fun v hv hkey heq => ?_⟩
  have hhop : Hop tables u.point v.point := heq ▸ hop_of_routeOf ht
  exact (hsep u (mem_of_mem_filter hu) v (mem_of_mem_filter hv) hkey.symm
    (hacyclic.one hhop)).one hhop

theorem clear_forwards (hacyclic : Acyclic tables) (hsep : Separate tables batch)
    (k : Nat × PointType) :
    let scan := scanOf accepts tables [] batch k
    Clear tables scan.visited (scan.forwards.filter fun u => accepts u.pointType) := by
  intro scan x hx t' ht'
  obtain ⟨u, hu, huk, t, ht, rfl⟩ := mem_scanOf_forwards (mem_of_mem_filter hx)
  have hfirst : Hop tables u.point t.point := hop_of_routeOf ht
  have hsecond : Hop tables t.point t'.point := hop_of_routeOf ht'
  constructor
  · intro hvisited
    rcases mem_scanOf_visited hvisited with ⟨v, hv, hvk, hp⟩ | hnil
    · rw [← hp] at hsecond
      exact (hsep u hu v hv (huk.trans hvk.symm) (hacyclic.two hfirst hsecond)).two _ hfirst hsecond
    · cases hnil
  intro y hy hkey heq
  obtain ⟨v, hv, hvk, s, hs, rfl⟩ := mem_scanOf_forwards (mem_of_mem_filter hy)
  have hother : Hop tables v.point s.point := hop_of_routeOf hs
  have hback : Hop tables t.point s.point := by
    have : t'.point = s.point := heq
    rwa [this] at hsecond
  by_cases hsame : u.point = v.point
  · exact hacyclic.one hback (hfirst.unique (hsame ▸ hother))
  have hkeys : (s.channelId, s.pointType) = (t.channelId, t.pointType) := hkey
  injection hkeys with hchannel htype
  exact (hsep u hu v hv (huk.trans hvk.symm) hsame).targets _ _ hfirst hother hchannel.symm
    htype.symm hback

theorem clearDeep_of_separate (hacyclic : Acyclic tables) (hsep : Separate tables batch)
    (hdepth : ∀ u ∈ batch, u.cascadeDepth = 0) :
    ClearDeep accepts tables (maxC2cCascadeDepth + 1) [] batch := by
  refine ⟨clear_batch hacyclic hsep, fun k => ⟨clear_forwards hacyclic hsep k, fun k' => ⟨?_,
    fun _ => trivial⟩⟩⟩
  -- two hops down the depth limit is reached
  intro z hz t ht
  obtain ⟨x, hx, -, t', -, rfl⟩ := mem_scanOf_forwards (mem_of_mem_filter hz)
  obtain ⟨u, hu, -, t'', -, rfl⟩ := mem_scanOf_forwards hx
  have hlt := lt_of_routeOf ht
  simp only [ChannelPointUpdate.forward, hdepth u hu, maxC2cCascadeDepth] at hlt
  omega

/-- No cycle, every handled update below the depth limit that has a route is forwarded along it, and
all updates the writer takes are handled, those of the batch and those forwarded. -/
structure ForwardsAll {σ : Type} (accepts : PointType → Bool) (tables : RoutingTables)
    (updates : List ChannelPointUpdate) (run : BatchRun σ) (r : BatchRoutingResult) : Prop where
  cycles : r.cyclesDetected = 0
  forwards : r.c2cForwards = (forwardsOf run.events).length
  routed : (forwardsOf run.events).Perm ((handledOf run.events).filterMap (routedPair tables))
  handled : (handledOf run.events).Perm ((updates ++ (forwardsOf run.events).map Prod.snd).filter
    fun u => accepts u.pointType)

theorem forwardsAll_write {σ : Type} (w : BatchWriter σ) (hacyclic : Acyclic tables)
    (hsep : Separate tables batch) (hdepth : ∀ u ∈ batch, u.cascadeDepth = 0) {world : σ}
    (h : (w.write tables batch world).outcome = .ok r) :
    ForwardsAll w.accepts tables batch (w.write tables batch world) r := by
  have hnone := w.cyclesOf_writeImpl tables _ [] batch world (clearDeep_of_separate hacyclic hsep hdepth)
  have hbooks := w.accounted_writeImpl tables _ [] batch world r (fun u hu => by omega)
    (Nat.succ_pos _) h
  constructor
  · rw [hbooks.cycles, hnone]
    rfl
  · exact hbooks.forwards
  · have := hbooks.routed
    rwa [hnone, append_nil] at this
  rw [filter_append]
  exact hbooks.handled

end Separate

/-! ## The three writers -/

namespace BatchWriter

variable {σ : Type} (w : BatchWriter σ) (tables : RoutingTables)

theorem outcome_writeImpl (hnow : ∀ world, ∃ ts, (w.now world).1 = .ok ts)
    (hwrite : ∀ world ts g, ∃ r, (w.writeGroup world ts g).1 = .ok r) :
    ∀ (levels : Nat) (visited : List ChannelPoint) (updates : List ChannelPointUpdate) (world : σ),
      ∃ r, (w.writeImpl tables levels visited updates world).outcome = .ok r
  | 0, _, _, _ => ⟨_, rfl⟩
  | levels + 1, visited, updates, world => by
    have hloop : ∀ (ts : Nat) (gs : List Group) (acc : BatchRoutingResult) (world : σ),
        ∃ r, (w.writeGroups tables (w.writeImpl tables levels) ts visited gs acc world).outcome =
          .ok r := by
      intro ts gs
      induction gs with
      | nil => exact fun _ _ => ⟨_, rfl⟩
      | cons g gs ih =>
        intro acc world
        obtain ⟨written, hwritten⟩ := hwrite world ts g
        obtain ⟨subResult, hsub⟩ : ∃ r, (subRun (w.writeImpl tables levels)
            (scanGroup tables visited g.2) (w.writeGroup world ts g).2).outcome = .ok r := by
          unfold subRun
          split
          · exact ⟨_, rfl⟩
          · exact outcome_writeImpl hnow hwrite levels _ _ _
        rw [writeGroups_cons]
        rcases hg : w.writeGroup world ts g with ⟨out, world'⟩
        rw [hg] at hwritten hsub
        cases hwritten
        dsimp only at hsub ⊢
        rw [hsub]
        exact ih _ _
    rw [writeImpl]
    split
    · exact ⟨_, rfl⟩
    obtain ⟨ts, hts⟩ := hnow world
    rcases hn : w.now world with ⟨out, world'⟩
    rw [hn] at hts
    cases hts
    exact hloop ts _ _ _

end BatchWriter

theorem outcome_direct {σ : Type} (env : DirectEnv σ) (tables : RoutingTables)
    (updates : List ChannelPointUpdate) (world : σ) :
    ∃ r, (writeChannelBatchDirect env tables updates world).outcome = .ok r :=
  env.writer.outcome_writeImpl tables (fun _ => ⟨_, rfl⟩) (fun _ _ _ => ⟨_, rfl⟩) _ _ _ _

theorem outcome_buffered {σ : Type} (env : BufferEnv σ) (tables : RoutingTables)
    (updates : List ChannelPointUpdate) (world : σ) :
    ∃ r, (writeChannelBatchBuffered env tables updates world).outcome = .ok r :=
  (env.writer tables).outcome_writeImpl tables (fun _ => ⟨_, rfl⟩) (fun _ _ _ => ⟨_, rfl⟩) _ _ _ _

/-- **Separate batches are forwarded in full.**  For every C2C table without cycles and every
separate batch of fresh updates, in whatever order it comes: the three writers detect no cycle and
forward every update they take whose point has a route; the direct writer takes telemetry and signal
updates only. -/
theorem separate_batch_forwards {σ : Type} (tables : RoutingTables) (hacyclic : Acyclic tables)
    (batch : List ChannelPointUpdate) (hdepth : ∀ u ∈ batch, u.cascadeDepth = 0)
    (hsep : Separate tables batch) (updates : List ChannelPointUpdate)
    (horder : updates.Perm batch) :
    (∀ (env : DirectEnv σ) world, ∃ r,
      (writeChannelBatchDirect env tables updates world).outcome = .ok r ∧
        ForwardsAll PointType.isMeasurement tables updates
          (writeChannelBatchDirect env tables updates world) r) ∧
    (∀ (env : RtdbEnv σ) world r, (writeChannelBatch env tables updates world).outcome = .ok r →
      ForwardsAll (fun _ => true) tables updates (writeChannelBatch env tables updates world) r) ∧
    (∀ (env : BufferEnv σ) world, ∃ r,
      (writeChannelBatchBuffered env tables updates world).outcome = .ok r ∧
        ForwardsAll (fun _ => true) tables updates
          (writeChannelBatchBuffered env tables updates world) r) := by
  have hsep' : Separate tables updates := fun u hu v hv =>
    hsep u (horder.subset hu) v (horder.subset hv)
  have hdepth' : ∀ u ∈ updates, u.cascadeDepth = 0 := fun u hu => hdepth u (horder.subset hu)
  refine ⟨fun env world => ?_, fun env world r h => ?_, fun env world => ?_⟩
  · obtain ⟨r, hr⟩ := outcome_direct env tables updates world
    exact ⟨r, hr, forwardsAll_write env.writer hacyclic hsep' hdepth' hr⟩
  · exact forwardsAll_write (env.writer tables) hacyclic hsep' hdepth' h
  obtain ⟨r, hr⟩ := outcome_buffered env tables updates world
  exact ⟨r, hr, forwardsAll_write (env.writer tables) hacyclic hsep' hdepth' hr⟩

theorem acyclic_of_targets {tables : RoutingTables}
    (h : ∀ p q, Hop tables p q → tables.lookupC2c q = none) : Acyclic tables := by
  intro p hp
  obtain ⟨q, ⟨t, ht, -⟩, -⟩ := Relation.TransGen.head'_iff.mp hp
  obtain ⟨r, -, hlast⟩ := Relation.TransGen.tail'_iff.mp hp
  rw [h r p hlast] at ht
  cases ht

private def oneRoute (p : ChannelPoint) (t : C2CTarget) : RoutingTables where
  lookupC2m _ := none
  lookupC2c q := if q = p then some t else none

private theorem hop_oneRoute {p q r : ChannelPoint} :
    Hop (oneRoute p t) q r ↔ q = p ∧ t.point = r := by
  simp only [Hop, oneRoute]
  split <;> simp_all

private def anyDirect : DirectEnv Unit where
  sinceEpoch world := (some 1000, world)
  groupOrder := id
  groupOrder_perm _ := .refl _
  lookup p := some p.pointId
  setDirect world _ _ _ _ := world

private def lineRoute : RoutingTables :=
  oneRoute ⟨1, .telemetry, 0⟩ ⟨2, .telemetry, 0, 1, 0⟩

private def lineBatch : List ChannelPointUpdate :=
  [{ channelId := 1, pointType := .telemetry, pointId := 1, value := 5 },
   { channelId := 1, pointType := .telemetry, pointId := 0, value := 7 }]

theorem separate_batch_forwards_line :
    Acyclic lineRoute ∧ (∀ u ∈ lineBatch, u.cascadeDepth = 0) ∧ Separate lineRoute lineBatch ∧
      ∃ r, (writeChannelBatchDirect anyDirect lineRoute lineBatch ()).outcome = .ok r ∧
        ForwardsAll PointType.isMeasurement lineRoute lineBatch
          (writeChannelBatchDirect anyDirect lineRoute lineBatch ()) r := by
  have hacyclic : Acyclic lineRoute := acyclic_of_targets fun p q h => by
    obtain ⟨-, rfl⟩ := hop_oneRoute.mp h
    rfl
  have hdepth : ∀ u ∈ lineBatch, u.cascadeDepth = 0 := by decide
  have hsep : Separate lineRoute lineBatch := by
    intro u hu v hv _ _
    constructor
    · intro h
      have hv' : v.channelId = 1 := (by decide : ∀ v ∈ lineBatch, v.channelId = 1) v hv
      have := congrArg ChannelPoint.channelId (hop_oneRoute.mp h).2
      exact absurd (this.trans hv') (by decide)
    · intro t ht h
      exact absurd ((hop_oneRoute.mp ht).2.trans (hop_oneRoute.mp h).1) (by decide)
    intro t s ht _ _ _ h
    exact absurd ((hop_oneRoute.mp ht).2.trans (hop_oneRoute.mp h).1) (by decide)
  exact ⟨hacyclic, hdepth, hsep,
    (separate_batch_forwards lineRoute hacyclic lineBatch hdepth hsep lineBatch (.refl _)).1
      anyDirect ()⟩

-- not separate: the target is in the batch too, before its source, and is taken for a cycle
example : (writeChannelBatchDirect anyDirect
    (oneRoute ⟨1, .telemetry, 0⟩ ⟨1, .telemetry, 1, 1, 0⟩) lineBatch ()).outcome =
      .ok { channelWrites := 2, cyclesDetected := 1 } := by decide

private def controlRoute : RoutingTables :=
  oneRoute ⟨1, .control, 0⟩ ⟨2, .telemetry, 0, 1, 0⟩

private def controlUpdate : ChannelPointUpdate :=
  { channelId := 1, pointType := .control, pointId := 0, value := 1 }

/-- The direct writer refuses a control point, and with it the route of the point. -/
theorem direct_refuses_control :
    Acyclic controlRoute ∧ controlUpdate.cascadeDepth = 0 ∧
      (controlRoute.lookupC2c controlUpdate.point).isSome = true ∧
      forwardsOf (writeChannelBatchDirect anyDirect controlRoute [controlUpdate] ()).events = [] := by
  refine ⟨acyclic_of_targets fun p q h => ?_, rfl, by decide, by decide⟩
  obtain ⟨-, rfl⟩ := hop_oneRoute.mp h
  rfl

end VoltageEMS.Routing
