import VoltageEMS.Alarmsrv.Monitor

/-!
# The history of alerts

An alert leaves its table through one of three transactions, and each writes a row of the
history.  Those of disabled and deleted rules read the alerts they move.  `resolve_alert`
moves an alert that was read before, by a check or by a call that resolves it by hand: if both read
it before either writes, both write a row.

* `history_of_run` — **one row for every alert**, over whole runs.
-/

namespace VoltageEMS.Alarmsrv

open Lib List

/-- The rows about an alert. -/
def Db.rowsAbout (db : Db) (alertId : Nat) : Nat := (db.events.map fun e => e.alert.id).count alertId

/-- Alerts get the ids from 1 to `lastAlert`. -/
structure History (db : Db) : Prop where
  recorded : ∀ id, 0 < id → id ≤ db.lastAlert →
    db.rowsAbout id = if id ∈ db.alerts.map Alert.id then 0 else 1
  known : ∀ e ∈ db.events, e.alert.id ≤ db.lastAlert

/-- An alert that is resolved is there. -/
def resolvesPresent (db : Db) : Task → Bool
  | .act rule value (some alert) => rule.evaluate value || (db.getAlertById alert.id).isSome
  | .resolveWrite alert => (db.getAlertById alert.id).isSome
  | _ => true

/-! ## One step -/

section Step

variable {db : Db}

theorem History.empty : History Db.empty where
  recorded id hpos hle := absurd hle (Nat.not_le_of_lt hpos)
  known e he := by cases he

theorem History.of_eq (h : History db) {db' : Db}
    (hids : db'.alerts.map Alert.id = db.alerts.map Alert.id) (hevents : db'.events = db.events)
    (hlast : db'.lastAlert = db.lastAlert) : History db' where
  recorded id hpos hle := by
    rw [Db.rowsAbout, hevents, hids]
    exact h.recorded id hpos (hlast ▸ hle)
  known e he := by
    rw [hlast]
    exact h.known e (hevents ▸ he)

/-- **Alerts that are moved with one row each.** -/
theorem history_moveAlerts (h : History db) {p : Alert → Bool} {events : List AlertEvent}
    (hevents : (events.map fun e => e.alert.id) = (db.alerts.filter p).map Alert.id) :
    History (db.moveAlerts p events) where
  recorded id hpos hle := by
    have hold := h.recorded id hpos hle
    have hnodup : ((db.alerts.filter p).map Alert.id).Nodup :=
      db.alertIds.sublist (filter_sublist.map _)
    have hsum : (db.moveAlerts p events).rowsAbout id =
        db.rowsAbout id + ((db.alerts.filter p).map Alert.id).count id := by
      simp only [Db.rowsAbout, Db.moveAlerts, map_append, count_append, hevents]
    -- an alert that is moved is the only one with its id
    have hkept : id ∈ (db.moveAlerts p events).alerts.map Alert.id ↔
        id ∈ db.alerts.map Alert.id ∧ id ∉ (db.alerts.filter p).map Alert.id := by
      simp only [Db.moveAlerts, mem_map, mem_filter, not_exists, not_and]
      constructor
      · rintro ⟨a, ⟨ha, hp⟩, rfl⟩
        refine ⟨⟨a, ha, rfl⟩, fun b hb hid => ?_⟩
        rw [inj_on_of_nodup_map db.alertIds hb.1 ha hid] at hb
        simp [hb.2] at hp
      rintro ⟨⟨a, ha, rfl⟩, hnot⟩
      exact ⟨a, ⟨ha, by simpa using fun hp => hnot a ⟨ha, hp⟩ rfl⟩, rfl⟩
    rw [hsum, hold, List.Nodup.count hnodup]
    by_cases hin : id ∈ db.alerts.map Alert.id
    · by_cases hmoved : id ∈ (db.alerts.filter p).map Alert.id
      · rw [if_pos hin, if_pos hmoved, if_neg (by rw [hkept]; exact fun hk => hk.2 hmoved)]
      · rw [if_pos hin, if_neg hmoved, if_pos (hkept.mpr ⟨hin, hmoved⟩)]
    have hmoved : id ∉ (db.alerts.filter p).map Alert.id :=
      fun hm => hin ((filter_sublist.map Alert.id).subset hm)
    rw [if_neg hin, if_neg hmoved, if_neg (by rw [hkept]; exact fun hk => hin hk.1)]
  known e he := by
    rcases mem_append.mp he with he | he
    · exact h.known e he
    have hmem : e.alert.id ∈ (db.alerts.filter p).map Alert.id :=
      hevents ▸ mem_map.mpr ⟨e, he, rfl⟩
    obtain ⟨a, ha, hid⟩ := mem_map.mp hmem
    rw [← hid]
    exact db.alertIds_le a (mem_of_mem_filter ha)

theorem history_resolveAlert (h : History db) {alert : Alert} (value : Float) (now : Int)
    (hthere : (db.getAlertById alert.id).isSome = true) :
    History (db.resolveAlert alert value now) := by
  refine history_moveAlerts h ?_
  obtain ⟨a, ha⟩ := Option.isSome_iff_exists.mp hthere
  obtain ⟨hmem, hid⟩ := Db.getAlertById_eq_some_iff.mp ha
  have hin : alert.id ∈ db.alerts.map Alert.id := mem_map.mpr ⟨a, hmem, hid⟩
  have hone : (db.alerts.filter fun a => a.id == alert.id).map Alert.id = [alert.id] := by
    have hfilter := filter_map (f := Alert.id) (p := (· == alert.id)) (l := db.alerts)
    rw [filter_beq, count_eq_one_of_mem db.alertIds hin] at hfilter
    exact hfilter.symm
  rw [hone]
  rfl

theorem history_insertAlert (h : History db) {rule : AlertRule} {value : Float} {names : DeviceNames}
    {now : Int} {db' : Db} {alertId : Nat}
    (hins : db.insertAlert rule value names now = some (db', alertId)) : History db' := by
  unfold Db.insertAlert at hins
  split at hins
  · cases hins
    constructor
    · intro id hpos hle
      have hle : id ≤ db.lastAlert + 1 := hle
      rcases Nat.lt_or_eq_of_le hle with hlt | rfl
      · have hne : id ≠ db.lastAlert + 1 := hlt.ne
        have hold := h.recorded id hpos (Nat.le_of_lt_succ hlt)
        simpa [Db.rowsAbout, hne] using hold
      have hnone : db.rowsAbout (db.lastAlert + 1) = 0 := by
        refine count_eq_zero_of_not_mem fun hmem => ?_
        obtain ⟨e, he, hid⟩ := mem_map.mp hmem
        have hknown := h.known e he
        have hid : e.alert.id = db.lastAlert + 1 := hid
        omega
      simpa [Db.rowsAbout] using hnone
    intro e he
    exact (h.known e he).trans (Nat.le_succ _)
  · cases hins

theorem history_task {env : Env} {t : Task} (h : History db) (ht : resolvesPresent db t = true) :
    History (t.step env db).1 := by
  have hchange := change_step env db t
  generalize (t.step env db).1 = db' at hchange
  have hrows : ∀ ruleId : Nat,
      ((db.alertsOf ruleId).map fun a => (⟨a, none, env.now⟩ : AlertEvent)).map (fun e => e.alert.id) =
        (db.alerts.filter fun a => a.ruleId == ruleId).map Alert.id := fun _ => map_map
  cases hchange with
  | keep hreads => exact h
  | insertAlert heval hins => exact history_insertAlert h hins
  | updateAlertValue rule value alert =>
    refine h.of_eq ?_ rfl rfl
    rw [Db.updateAlertValue, map_map]
    refine map_congr_left fun a _ => ?_
    dsimp only [Function.comp]
    split <;> rfl
  | resolveChecked alert heval =>
    have hthere : (db.getAlertById alert.id).isSome = true := by
      simpa [resolvesPresent, heval] using ht
    exact history_resolveAlert h _ _ hthere
  | resolveManually alert => exact history_resolveAlert h _ _ ht
  | resolveDisabled rule done => exact history_moveAlerts h (hrows rule.id)
  | insertRule | enable | disable => exact h.of_eq rfl rfl rfl
  | updateRule id req =>
    unfold Db.updateRule
    split
    · exact h
    · exact h.of_eq rfl rfl rfl
  | deleteRule rule => exact (history_moveAlerts h (hrows rule.id)).of_eq rfl rfl rfl

end Step

/-! ## Whole runs -/

/-- The step resolves an alert that is there. -/
def ResolvesPresentAt (s : State) : Input → Prop
  | .run i _ => s.tasks[i]?.all (resolvesPresent s.db) = true
  | _ => True

instance (s : State) : ∀ x, Decidable (ResolvesPresentAt s x)
  | .run i _ => inferInstanceAs (Decidable (s.tasks[i]?.all (resolvesPresent s.db) = true))
  | .tick | .call _ => inferInstanceAs (Decidable True)

theorem history_step {s : State} (x : Input) (h : History s.db) (hx : ResolvesPresentAt s x) :
    History (step s x).1.db := by
  cases x with
  | tick | call => exact h
  | run i env =>
    unfold step
    dsimp only
    split
    · exact h
    rename_i t hi
    exact history_task h (by simpa [ResolvesPresentAt, hi] using hx)

/-- **One row for every alert.**  If no step resolves an alert that is gone by then, every alert
ever inserted is in its table and has no row, or has left it and has one. -/
theorem history_of_run (db : Db) (hdb : History db) (inputs : List Input)
    (hinputs : machine.Along ResolvesPresentAt ⟨db, []⟩ inputs) :
    History (machine.run ⟨db, []⟩ inputs).db := by
  have hinv := machine.invariant (fun s (_ : List Event) => History s.db)
    (fun s _ x h hx => history_step x h hx) (s := ⟨db, []⟩) (l := []) hdb hinputs
  exact hinv

/-- A reading. -/
private def found (value : Float) : Env := ⟨some value, 0, ⟨none, none, none⟩⟩

/-- None. -/
private def noReading : Env := ⟨none, 1, ⟨none, none, none⟩⟩

/-- An alert is triggered. -/
private def triggered : List Input :=
  [.call (.create ⟨"inst", 1, "M", 1, "Temperature", 2, ">", 30, true, none⟩), .run 0 noReading,
    .run 0 noReading, .run 0 noReading, .tick, .run 0 (found 35), .run 0 noReading]

/-- A check and a call resolve it. -/
private def bothResolve : List Input :=
  triggered ++ [.tick, .run 0 (found 20), .call (.resolve 1), .run 1 noReading, .run 1 noReading,
    .run 1 noReading, .run 0 noReading]

/-- A check resolves it, then a call asks. -/
private def checkResolves : List Input :=
  triggered ++ [.tick, .run 0 (found 20), .run 0 noReading, .call (.resolve 1), .run 0 noReading]

theorem recorded_by_check : History (machine.run ⟨Db.empty, []⟩ checkResolves).db :=
  history_of_run Db.empty History.empty checkResolves (by decide)

/-- **Two rows for one alert.** -/
theorem resolved_twice :
    (machine.run ⟨Db.empty, []⟩ bothResolve).tasks = [] ∧
      (machine.run ⟨Db.empty, []⟩ bothResolve).db.lastAlert = 1 ∧
      (machine.run ⟨Db.empty, []⟩ bothResolve).db.rowsAbout 1 = 2 :=
  ⟨rfl, rfl, by decide⟩

end VoltageEMS.Alarmsrv
