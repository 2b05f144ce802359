import VoltageEMS.Shm.Dispatch

/-!
# Concurrent dispatches to one point

Any number of `dispatch` calls for the same point, interleaved step by step.  The stores happen in
one order, the notifications in another: a call stores before it waits for the notifier lock.
-/

namespace VoltageEMS.Shm

open Lib List Option

/-! ## Stores and sends -/

/-- The stores, in order. -/
def stores (log : List ShmEvent) : List (Nat × Float) :=
  log.filterMap fun
    | .stored call _ _ value => some (call, value)
    | _ => none

/-- The notifications, in order. -/
def sends (log : List ShmEvent) : List (Nat × ShmNotification) :=
  log.filterMap fun
    | .sent call notification => some (call, notification)
    | _ => none

@[simp] theorem stores_append (log more : List ShmEvent) :
    stores (log ++ more) = stores log ++ stores more := filterMap_append

@[simp] theorem sends_append (log more : List ShmEvent) :
    sends (log ++ more) = sends log ++ sends more := filterMap_append

theorem stores_perform (w : World) (i : Nat) (c : Call) (e : World.Effect) :
    stores (w.perform i c e).2 = e.store.toList.map fun _ => (i, c.value) := by
  cases hstore : e.store <;> cases hsent : e.sent <;> simp [World.perform, hstore, hsent, stores]

theorem sends_perform (w : World) (i : Nat) (c : Call) (e : World.Effect) :
    sends (w.perform i c e).2 = e.sent.toList.map fun m => (i, m) := by
  cases hstore : e.store <;> cases hsent : e.sent <;> simp [World.perform, hstore, hsent, sends]

/-! ## One point -/

/-- The same channel, type and id. -/
def SamePoint (target ctx : RouteContext) : Prop :=
  ctx.targetChannelId = target.targetChannelId ∧ ctx.targetPointType = target.targetPointType ∧
    ctx.targetPointId = target.targetPointId

variable {target : RouteContext} {ctx : RouteContext}

theorem actionSlot_samePoint (h : SamePoint target ctx) (layouts : List ChannelLayout) :
    actionSlot layouts ctx = actionSlot layouts target := by
  obtain ⟨hch, hty, hid⟩ := h
  simp only [actionSlot, hch, hty, hid]

/-- The dispatcher before the calls: a mapped file with a slot for the target, and a notifier. -/
structure Ready (target : RouteContext) (aw : ActionWriter) (slot : Nat) (w : World) : Prop where
  writer : w.writer = some aw
  slot_eq : actionSlot aw.layouts target = some slot
  notifier : ∃ n, w.notifier = some n
  idle : w.calls = []

/-- A step of the calls for the point. -/
def ForPoint (target : RouteContext) : ShmInput → Prop
  | .call ctx _ => SamePoint target ctx
  | .advance .. => True
  | _ => False

/-- A step of the calls for the target, at which the sequence number does not wrap. -/
def DispatchStep (target : RouteContext) (w : World) (input : ShmInput) : Prop :=
  (∀ n ∈ w.notifier, n.nextSeq + 1 < 2 ^ 64) ∧ ForPoint target input

instance (target ctx : RouteContext) : Decidable (SamePoint target ctx) :=
  inferInstanceAs (Decidable (_ ∧ _ ∧ _))

instance (target : RouteContext) : ∀ input, Decidable (ForPoint target input)
  | .call ctx _ => inferInstanceAs (Decidable (SamePoint target ctx))
  | .advance .. => inferInstanceAs (Decidable True)
  | .swap .. | .watchInode | .openWriter .. | .publish => inferInstanceAs (Decidable False)

instance (target : RouteContext) (w : World) (input : ShmInput) :
    Decidable (DispatchStep target w input) :=
  inferInstanceAs (Decidable (_ ∧ _))

/-- The mapping a call works on. -/
def Phase.mapping : Phase → Option ActionWriter
  | .loaded aw | .checked aw _ | .written aw _ => some aw
  | _ => none

/-- The call has stored its value. -/
def Phase.pastStore : Phase → Bool
  | .written .. | .awaitingNotifier | .notifying | .done .delivered => true
  | _ => false

/-- What a step of a call for the target does. -/
structure EffectOrdered (aw : ActionWriter) (slot : Nat) (w : World) (c : Call)
    (e : World.Effect) : Prop where
  mapping : ∀ aw', e.phase.mapping = some aw' → aw' = aw
  store : ∀ s, e.store = some s → s = (aw.inode, slot) ∧ slot < w.slotCount aw
  stored : e.phase.pastStore = true → c.phase.pastStore = true ∨ e.store.isSome
  notifier : ∀ n, w.notifier = some n → ∃ n', e.notifier = some n' ∧
    (n'.nextSeq = n.nextSeq ∨ n'.nextSeq = ShmNotifier.seqAfter n.nextSeq) ∧
    ∀ m, e.sent = some m →
      m.value = c.value ∧ m.seq = n.nextSeq ∧ n'.nextSeq = ShmNotifier.seqAfter n.nextSeq
  delivered : e.phase = .done .delivered → c.phase = .done .delivered ∨ e.sent.isSome

variable {aw : ActionWriter} {slot : Nat} {w : World} {c : Call}

theorem effectOrdered_goTo {phase : Phase} (clear : Bool) (lock : Option Nat)
    (hmap : ∀ aw', phase.mapping = some aw' → aw' = aw)
    (hpast : phase.pastStore = true → c.phase.pastStore = true)
    (hdel : phase = .done .delivered → c.phase = .done .delivered) :
    EffectOrdered aw slot w c { w.goTo phase with clearWriter := clear, lockedBy := lock } where
  mapping := hmap
  store := by simp [World.goTo]
  stored h := .inl (hpast h)
  notifier n hn := ⟨n, hn, .inl rfl, by simp [World.goTo]⟩
  delivered h := .inl (hdel h)

theorem effectOrdered (hslot : actionSlot aw.layouts target = some slot)
    (hwriter : ∀ aw', w.writer = some aw' → aw' = aw) (hpoint : SamePoint target c.ctx)
    (hmap : ∀ aw', c.phase.mapping = some aw' → aw' = aw) (i : Nat) (io : CallIo) :
    EffectOrdered aw slot w c (w.effect i c io) := by
  obtain ⟨ctx, value, phase⟩ := c
  unfold World.effect
  cases phase with
  | started =>
    cases haw : w.writer with
    | none => exact effectOrdered_goTo false _ nofun nofun nofun
    | some aw' =>
      refine effectOrdered_goTo false _ ?_ nofun nofun
      rintro aw'' ⟨⟩
      exact hwriter _ haw
  | loaded aw' =>
    dsimp only
    split
    · exact effectOrdered_goTo true _ nofun nofun nofun
    · exact effectOrdered_goTo false _ hmap nofun nofun
  | checked aw' expected =>
    obtain rfl := hmap aw' rfl
    dsimp only
    rw [actionSlot_samePoint hpoint, hslot]
    dsimp only
    split
    · exact effectOrdered_goTo false _ nofun nofun nofun
    rename_i hbound
    refine ⟨hmap, ?_, ?_, ?_, nofun⟩
    · rintro s ⟨⟩
      exact ⟨rfl, by omega⟩
    · exact fun _ => .inr rfl
    · exact fun n hn => ⟨n, hn, .inl rfl, nofun⟩
  | written aw' expected =>
    dsimp only
    split
    · exact effectOrdered_goTo true _ nofun nofun nofun
    cases w.notifier with
    | none => exact effectOrdered_goTo false _ nofun nofun nofun
    | some n => exact effectOrdered_goTo false _ nofun (fun _ => rfl) nofun
  | awaitingNotifier =>
    dsimp only
    split
    · exact effectOrdered_goTo false _ nofun nofun nofun
    split <;> exact effectOrdered_goTo false _ nofun (fun _ => rfl) nofun
  | notifying =>
    dsimp only
    split
    · exact effectOrdered_goTo false _ nofun (fun _ => rfl) nofun
    · exact effectOrdered_goTo false _ nofun nofun nofun
    rename_i n pt hn _
    obtain ⟨hseq, hsent, hnum⟩ := n.notify_spec io.notify ctx.targetChannelId pt
      ctx.targetPointId value ctx.timestampMs
    refine ⟨nofun, nofun, fun _ => .inl rfl, ?_, ?_⟩
    · rintro n' hn'
      rw [hn] at hn'
      cases hn'
      exact ⟨_, rfl, hseq, hnum⟩
    intro hdel
    right
    apply hsent.mp
    cases hres : (n.notify io.notify ctx.targetChannelId pt ctx.targetPointId value
      ctx.timestampMs).2.1 with
    | sent => rfl
    | degraded | off =>
      simp only [hres, World.outcomeOf] at hdel
      cases hdel
  | done outcome =>
    exact effectOrdered_goTo false _ nofun id id
  | panicked => exact effectOrdered_goTo false _ nofun nofun nofun

/-! ## Whole runs -/

/-- The state of the calls for one point, and the log of their stores and sends. -/
structure Ordered (target : RouteContext) (aw : ActionWriter) (slot : Nat) (w : World)
    (log : List ShmEvent) : Prop where
  writer : ∀ aw', w.writer = some aw' → aw' = aw
  point : ∀ c ∈ w.calls, SamePoint target c.ctx
  mapping : ∀ c ∈ w.calls, ∀ aw', c.phase.mapping = some aw' → aw' = aw
  stored : ∀ i c, w.calls[i]? = some c → c.phase.pastStore = true → (i, c.value) ∈ stores log
  delivered : ∀ i c, w.calls[i]? = some c → c.phase = .done .delivered →
    ∃ m, (i, m) ∈ sends log
  storeOf : ∀ e ∈ stores log, ∃ c, w.calls[e.1]? = some c ∧ c.value = e.2
  sendOf : ∀ e ∈ sends log, ∃ c, w.calls[e.1]? = some c ∧ c.value = e.2.value
  slotValue : ∀ e, (stores log).getLast? = some e → ∃ f s, w.files[aw.inode]? = some f ∧
    f.segment.slots[slot]? = some s ∧ s.value = e.2
  increasing : (sends log).Pairwise fun e f => e.2.seq < f.2.seq
  numbered : ∃ n, w.notifier = some n ∧ ∀ e ∈ sends log, e.2.seq < n.nextSeq

theorem ordered_init (h : Ready target aw slot w) : Ordered target aw slot w [] := by
  obtain ⟨n, hn⟩ := h.notifier
  have hwriter : ∀ aw', w.writer = some aw' → aw' = aw := by
    intro aw' haw'
    exact (some.inj (h.writer.symm.trans haw')).symm
  refine ⟨hwriter, ?_, ?_, ?_, ?_, nofun, nofun, nofun, .nil, n, hn, nofun⟩ <;> simp [h.idle]

variable {calls : List Call}

theorem calls_set {i j : Nat} {d : Call} (hj : (calls.set i c)[j]? = some d) :
    (j = i ∧ d = c) ∨ calls[j]? = some d := by
  rw [List.getElem?_set] at hj
  split at hj
  · rename_i hij
    split at hj
    · exact .inl ⟨hij.symm, (some.inj hj).symm⟩
    · cases hj
  · exact .inr hj

theorem calls_set_value {i j : Nat} {d : Call} (hi : calls[i]? = some c) (hj : calls[j]? = some d)
    (phase : Phase) : ∃ d', (calls.set i { c with phase })[j]? = some d' ∧ d'.value = d.value := by
  by_cases hij : i = j
  · subst hij
    rw [hi] at hj
    cases hj
    have hlt : i < calls.length := (List.getElem?_eq_some_iff.mp hi).1
    exact ⟨_, List.getElem?_set_self hlt, rfl⟩
  · exact ⟨d, by rw [List.getElem?_set_ne hij]; exact hj, rfl⟩

variable {e : World.Effect}

theorem slot_perform (he : EffectOrdered aw slot w c e) :
    (e.store = none ∧ w.filesAfter c e.store = w.files) ∨
      (e.store.isSome = true ∧ ∃ f s, (w.filesAfter c e.store)[aw.inode]? = some f ∧
        f.segment.slots[slot]? = some s ∧ s.value = c.value) := by
  cases hstore : e.store with
  | none => exact .inl ⟨rfl, rfl⟩
  | some place =>
    right
    obtain ⟨rfl, hlt⟩ := he.store place hstore
    refine ⟨rfl, ?_⟩
    unfold World.slotCount at hlt
    split at hlt
    · rename_i f hf
      obtain ⟨s, hs⟩ : ∃ s, f.segment.slots[slot]? = some s :=
        ⟨_, List.getElem?_eq_getElem (by exact hlt)⟩
      refine ⟨World.storeIn f slot c.value c.ctx.timestampMs,
        s.set c.value c.value c.ctx.timestampMs, ?_, ?_, ?_⟩
      · simp [World.filesAfter, hf]
      · simp [World.storeIn, hs]
      · rw [PointSlot.set_eq]
    · omega

variable {log : List ShmEvent}

theorem numbered_perform (he : EffectOrdered aw slot w c e) {n : ShmNotifier}
    (hn : w.notifier = some n) (hwrap : n.nextSeq + 1 < 2 ^ 64)
    (hinc : (sends log).Pairwise fun e f => e.2.seq < f.2.seq)
    (hbelow : ∀ e ∈ sends log, e.2.seq < n.nextSeq) (i : Nat) :
    (sends (log ++ (w.perform i c e).2)).Pairwise (fun e f => e.2.seq < f.2.seq) ∧
      ∃ n', e.notifier = some n' ∧
        ∀ ev ∈ sends (log ++ (w.perform i c e).2), ev.2.seq < n'.nextSeq := by
  obtain ⟨n', hn', hnext, hsent⟩ := he.notifier n hn
  have hafter : ShmNotifier.seqAfter n.nextSeq = n.nextSeq + 1 := by
    unfold ShmNotifier.seqAfter
    rw [Nat.mod_eq_of_lt hwrap]
    omega
  rw [sends_append, sends_perform]
  refine ⟨?_, n', hn', ?_⟩
  · refine pairwise_append.mpr ⟨hinc, by cases e.sent <;> simp, ?_⟩
    intro ev hev ev' hev'
    obtain ⟨m, hm, rfl⟩ := List.mem_map.mp hev'
    rw [(hsent m (Option.mem_toList.mp hm)).2.1]
    exact hbelow ev hev
  intro ev hev
  rcases mem_append.mp hev with hev | hev
  · have := hbelow ev hev
    rcases hnext with hnext | hnext <;> omega
  obtain ⟨m, hm, rfl⟩ := List.mem_map.mp hev
  obtain ⟨-, hseq, hnext⟩ := hsent m (Option.mem_toList.mp hm)
  simp only [hseq, hnext, hafter]
  omega

theorem Ordered.perform (h : Ordered target aw slot w log) {i : Nat} (hi : w.calls[i]? = some c)
    (he : EffectOrdered aw slot w c e) (hwrap : ∀ n, w.notifier = some n → n.nextSeq + 1 < 2 ^ 64) :
    Ordered target aw slot (w.perform i c e).1 (log ++ (w.perform i c e).2) := by
  have hc : c ∈ w.calls := mem_of_getElem? hi
  obtain ⟨n, hn, hbelow⟩ := h.numbered
  obtain ⟨_, -, -, hsent⟩ := he.notifier n hn
  obtain ⟨hinc, hnumbered⟩ := numbered_perform he hn (hwrap n hn) h.increasing hbelow i
  refine ⟨?_, ?_, ?_, ?_, ?_, ?_, ?_, ?_, hinc, hnumbered⟩
  · intro aw' haw'
    simp only [World.perform] at haw'
    split at haw'
    · cases haw'
    · exact h.writer aw' haw'
  · intro d hd
    rcases mem_or_eq_of_mem_set hd with hd | rfl
    · exact h.point d hd
    · exact h.point c hc
  · intro d hd
    rcases mem_or_eq_of_mem_set hd with hd | rfl
    · exact h.mapping d hd
    · exact he.mapping
  · intro j d hj hpast
    rw [stores_append, stores_perform]
    rcases calls_set hj with ⟨rfl, rfl⟩ | hj
    · rcases he.stored hpast with hpast | hstore
      · exact mem_append_left _ (h.stored j c hi hpast)
      obtain ⟨place, hplace⟩ := isSome_iff_exists.mp hstore
      simp [hplace]
    · exact mem_append_left _ (h.stored j d hj hpast)
  · intro j d hj hdel
    rw [sends_append, sends_perform]
    rcases calls_set hj with ⟨rfl, rfl⟩ | hj
    · rcases he.delivered hdel with hdel | hsome
      · obtain ⟨m, hm⟩ := h.delivered j c hi hdel
        exact ⟨m, mem_append_left _ hm⟩
      obtain ⟨m, hm⟩ := isSome_iff_exists.mp hsome
      exact ⟨m, by simp [hm]⟩
    obtain ⟨m, hm⟩ := h.delivered j d hj hdel
    exact ⟨m, mem_append_left _ hm⟩
  · intro ev hev
    rw [stores_append, stores_perform] at hev
    rcases mem_append.mp hev with hev | hev
    · obtain ⟨d, hd, hvalue⟩ := h.storeOf ev hev
      obtain ⟨d', hd', hvalue'⟩ := calls_set_value hi hd e.phase
      exact ⟨d', hd', hvalue'.trans hvalue⟩
    obtain ⟨-, -, rfl⟩ := List.mem_map.mp hev
    exact calls_set_value hi hi e.phase
  · intro ev hev
    rw [sends_append, sends_perform] at hev
    rcases mem_append.mp hev with hev | hev
    · obtain ⟨d, hd, hvalue⟩ := h.sendOf ev hev
      obtain ⟨d', hd', hvalue'⟩ := calls_set_value hi hd e.phase
      exact ⟨d', hd', hvalue'.trans hvalue⟩
    obtain ⟨m, hm, rfl⟩ := List.mem_map.mp hev
    obtain ⟨d', hd', hvalue'⟩ := calls_set_value hi hi e.phase
    exact ⟨d', hd', hvalue'.trans (hsent m (Option.mem_toList.mp hm)).1.symm⟩
  intro ev hev
  rw [stores_append, stores_perform] at hev
  rcases slot_perform he with ⟨hnone, hfiles⟩ | ⟨hsome, hslot⟩
  · rw [hnone] at hev
    obtain ⟨f, s, hf, hrest⟩ := h.slotValue ev (by simpa using hev)
    exact ⟨f, s, by rw [← hfiles] at hf; exact hf, hrest⟩
  obtain ⟨place, hplace⟩ := isSome_iff_exists.mp hsome
  obtain rfl : (i, c.value) = ev := by simpa [hplace] using hev
  exact hslot

theorem Ordered.call (h : Ordered target aw slot w log) (hctx : SamePoint target ctx)
    (value : Float) :
    Ordered target aw slot { w with calls := w.calls ++ [⟨ctx, value, .started⟩] } log := by
  have hget : ∀ {j : Nat} {d : Call}, w.calls[j]? = some d →
      (w.calls ++ [⟨ctx, value, .started⟩])[j]? = some d := by
    intro j d hd
    rw [List.getElem?_append_left (List.getElem?_eq_some_iff.mp hd).1]
    exact hd
  have hnew : ∀ {j : Nat} {d : Call}, (w.calls ++ [⟨ctx, value, .started⟩])[j]? = some d →
      d.phase = .started ∨ w.calls[j]? = some d := by
    intro j d hd
    rw [List.getElem?_append] at hd
    split at hd
    · exact .inr hd
    cases mem_singleton.mp (mem_of_getElem? hd)
    exact .inl rfl
  refine ⟨h.writer, ?_, ?_, ?_, ?_, ?_, ?_, h.slotValue, h.increasing, h.numbered⟩
  · intro c hc
    rcases mem_append.mp hc with hc | hc
    · exact h.point c hc
    cases mem_singleton.mp hc
    exact hctx
  · intro c hc
    rcases mem_append.mp hc with hc | hc
    · exact h.mapping c hc
    cases mem_singleton.mp hc
    nofun
  · intro j d hj hpast
    rcases hnew hj with hstart | hj
    · rw [hstart] at hpast
      cases hpast
    · exact h.stored j d hj hpast
  · intro j d hj hdel
    rcases hnew hj with hstart | hj
    · rw [hstart] at hdel
      cases hdel
    · exact h.delivered j d hj hdel
  · intro ev hev
    obtain ⟨d, hd, hvalue⟩ := h.storeOf ev hev
    exact ⟨d, hget hd, hvalue⟩
  intro ev hev
  obtain ⟨d, hd, hvalue⟩ := h.sendOf ev hev
  exact ⟨d, hget hd, hvalue⟩

theorem ordered_step {env : ShmEnv} (hslot : actionSlot aw.layouts target = some slot)
    (input : ShmInput) (h : Ordered target aw slot w log) (hinput : DispatchStep target w input) :
    Ordered target aw slot (w.step env input).1 (log ++ (w.step env input).2) := by
  cases input with
  | call ctx value =>
    simp only [World.step, append_nil]
    exact h.call hinput.2 value
  | advance i io =>
    unfold World.step
    dsimp only
    split
    · rw [append_nil]
      exact h
    rename_i c hc
    have hmem : c ∈ w.calls := mem_of_getElem? hc
    exact h.perform hc (effectOrdered hslot h.writer (h.point c hmem) (h.mapping c hmem) i io)
      hinput.1
  | swap | watchInode | openWriter | publish => exact hinput.2.elim

theorem ordered_run {env : ShmEnv} (h : Ready target aw slot w) {inputs : List ShmInput}
    (hsteps : (World.machine env).Along (DispatchStep target) w inputs) :
    Ordered target aw slot ((World.machine env).run w inputs)
      ((World.machine env).trace w inputs) := by
  have hrun := (World.machine env).invariant (Ordered target aw slot)
    (fun w log input hw hinput => ordered_step h.slot_eq input hw hinput) (ordered_init h) hsteps
  simpa using hrun

/-- The slot holds the value of the call that stored last, and the notification with the highest
number that of the call that sent last; one call that did both makes them equal. -/
def LastStoreLastSend (aw : ActionWriter) (slot : Nat) (w : World) (log : List ShmEvent) : Prop :=
  ∃ i ci j cj m f s,
    (stores log).getLast? = some (i, ci.value) ∧ w.calls[i]? = some ci ∧
    w.files[aw.inode]? = some f ∧ f.segment.slots[slot]? = some s ∧ s.value = ci.value ∧
    (sends log).getLast? = some (j, m) ∧ w.calls[j]? = some cj ∧ m.value = cj.value ∧
    (∀ e ∈ sends log, e.2.seq ≤ m.seq) ∧ (i = j → s.value = m.value)

/-- **Concurrent dispatches to one point**, all of them delivered. -/
theorem slot_and_latest_notification {env : ShmEnv} {target : RouteContext} {aw : ActionWriter}
    {slot : Nat} {w : World} (h : Ready target aw slot w) {inputs : List ShmInput}
    (hsteps : (World.machine env).Along (DispatchStep target) w inputs)
    (hcalls : ((World.machine env).run w inputs).calls ≠ [])
    (hall : ∀ c ∈ ((World.machine env).run w inputs).calls, c.phase = .done .delivered) :
    LastStoreLastSend aw slot ((World.machine env).run w inputs)
      ((World.machine env).trace w inputs) := by
  have hrun := ordered_run h hsteps
  -- every call stored and sent, so there is a last store and a last send
  obtain ⟨c₀, hc₀⟩ := exists_mem_of_ne_nil _ hcalls
  obtain ⟨k, hk⟩ := List.getElem?_of_mem hc₀
  have hdone := hall c₀ hc₀
  have hstore := hrun.stored k c₀ hk (by rw [hdone]; rfl)
  obtain ⟨m₀, hsend⟩ := hrun.delivered k c₀ hk hdone
  obtain ⟨⟨i, v⟩, hlast⟩ := ne_none_iff_exists'.mp
    (mt getLast?_eq_none_iff.mp (ne_nil_of_mem hstore))
  obtain ⟨⟨j, m⟩, hlast'⟩ := ne_none_iff_exists'.mp
    (mt getLast?_eq_none_iff.mp (ne_nil_of_mem hsend))
  obtain ⟨ci, hci, rfl⟩ := hrun.storeOf _ (mem_of_getLast? hlast)
  obtain ⟨cj, hcj, hm⟩ := hrun.sendOf _ (mem_of_getLast? hlast')
  obtain ⟨f, s, hf, hs, hvalue⟩ := hrun.slotValue _ hlast
  have hmax : ∀ e ∈ sends ((World.machine env).trace w inputs), e.2.seq ≤ m.seq := by
    obtain ⟨older, hsplit⟩ := getLast?_eq_some_iff.mp hlast'
    have hinc := hrun.increasing
    rw [hsplit] at hinc ⊢
    intro e he
    rcases mem_append.mp he with he | he
    · exact ((pairwise_append.mp hinc).2.2 e he _ (mem_singleton_self _)).le
    · rw [mem_singleton.mp he]
  refine ⟨i, ci, j, cj, m, f, s, hlast, hci, hf, hs, hvalue, hlast', hcj, hm.symm, hmax, ?_⟩
  rintro rfl
  have hsame : ci = cj := some.inj (hci.symm.trans hcj)
  rw [hvalue, hsame]
  exact hm

/-- modsrv has opened the file. -/
def opened : World :=
  (World.machine telemetryEnv).run (.init (some connectedNotifier))
    [.swap 2 oneControl, .openWriter oneControl, .publish]

/-- The second call overtakes the first. -/
def overtaken : List ShmInput :=
  [.call controlCtx 1.0, .call controlCtx 2.0] ++ replicate 3 (.advance 0 smoothIo) ++
    replicate 6 (.advance 1 smoothIo) ++ replicate 3 (.advance 0 smoothIo)

/-- Two calls, one after the other. -/
theorem slot_and_latest_notification_twoCalls :
    ∃ aw, LastStoreLastSend aw 0
      ((World.machine telemetryEnv).run opened (wholeCall 0 1.0 ++ wholeCall 1 2.0))
      ((World.machine telemetryEnv).trace opened (wholeCall 0 1.0 ++ wholeCall 1 2.0)) := by
  have hready : Ready controlCtx _ 0 opened :=
    ⟨rfl, by decide, ⟨connectedNotifier, rfl⟩, rfl⟩
  exact ⟨_, slot_and_latest_notification hready (by decide) (by decide) (by decide)⟩

/-- The first call stores first but sends last: the slot keeps 2, the later notification carries 1.
-/
theorem slot_differs_from_latest_notification :
    ((World.machine telemetryEnv).run opened overtaken).calls =
        [⟨controlCtx, 1.0, .done .delivered⟩, ⟨controlCtx, 2.0, .done .delivered⟩] ∧
      (∃ f s, ((World.machine telemetryEnv).run opened overtaken).files[0]? = some f ∧
        f.segment.slots[0]? = some s ∧ s.value = 2.0) ∧
      sends ((World.machine telemetryEnv).trace opened overtaken) =
        [(1, ⟨1, 0, 2, 2.0, 50, 9, 1⟩), (0, ⟨1, 0, 2, 1.0, 50, 9, 2⟩)] := by
  refine ⟨by decide, ⟨_, _, rfl, rfl, ?_⟩, by decide⟩
  decide

end VoltageEMS.Shm
