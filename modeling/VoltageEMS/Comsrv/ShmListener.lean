import VoltageEMS.Lib.Run
import VoltageEMS.Lib.SeqFilter
import VoltageEMS.Shm.Notifier

/-!
# The command listener of comsrv

`ShmCommandListener::handle_notification` on any number of connections.  Each connection has its own
task; a task filters a notification and then sends the command, two steps between which other tasks
may run.
-/

namespace VoltageEMS.Comsrv

open Lib Shm List Function

/-! ## Commands -/

/-- `ChannelCommand`. -/
inductive ChannelCommand
  | control (commandId : String) (pointId : Nat) (value : Float) (timestamp : Int)
  | adjustment (commandId : String) (pointId : Nat) (value : Float) (timestamp : Int)
deriving DecidableEq

/-- `{:016x}`. -/
def hexLower16 (n : Nat) : String :=
  let digits := String.ofList (Nat.toDigits 16 n)
  "".pushn '0' (16 - digits.length) ++ digits

/-- `as i64`. -/
def asI64 (n : Nat) : Int := if n < 2 ^ 63 then n else n - 2 ^ 64

/-- `build_command`. -/
def buildCommand (pointType : PointType) (pointId : Nat) (value : Float) (timestamp : Int)
    (producerId seq : Nat) : ChannelCommand :=
  let commandId := "uds-" ++ hexLower16 producerId ++ "-" ++ toString seq
  match pointType with
  | .control => .control commandId pointId value timestamp
  | _ => .adjustment commandId pointId value timestamp

/-! ## The listener -/

/-- The key of `last_sequences`: channel, type byte, point. -/
abbrev SeqKey := Nat × Nat × Nat

/-- The key of a notification. -/
def seqKey (n : ShmNotification) : SeqKey := (n.channelId, n.pointType, n.pointId)

/-- A task between its filter and the end of its send. -/
structure Pending where
  conn : Nat
  notification : ShmNotification
  command : ChannelCommand
deriving DecidableEq

/-- `ShmCommandListener`, with the tasks that are sending. -/
structure Listener where
  registered : Nat → Bool
  lastSequences : SeqKey → Option (Nat × Nat)
  pending : List Pending
  droppedCount : Nat

/-- How `sender.send` with its timeout ends. -/
inductive SendResult
  | sent
  | closed
  | timeout
deriving DecidableEq

/-- The steps of all tasks. -/
inductive ListenerInput
  | registerChannel (channelId : Nat)
  | unregisterChannel (channelId : Nat)
  /-- the task of the connection reads a notification; its number is a `u64` -/
  | receive (conn : Nat) (n : ShmNotification) (hseq : n.seq < 2 ^ 64)
  | deliver (conn : Nat) (result : SendResult)

/-- What is observed of a notification. -/
inductive ListenerEvent
  | received (n : ShmNotification)
  | accepted (n : ShmNotification)
  | forwarded (n : ShmNotification) (command : ChannelCommand)
deriving DecidableEq

/-- The duplicate filter. -/
def passes (entry : Option (Nat × Nat)) (n : ShmNotification) : Bool :=
  match entry with
  | some (lastProducer, lastSeq) =>
    let sameProducer := lastProducer == n.producerId
    let isStale := sameProducer && decide (wrappingSub n.seq lastSeq > (2 ^ 64 - 1) / 2)
    if isStale then false
    else if sameProducer && n.seq == lastSeq then false
    else true
  | none => true

variable (st : Listener)

/-- A notification is read and filtered. -/
def receive (conn : Nat) (n : ShmNotification) : Listener × List ListenerEvent :=
  -- a task that is still sending does not read
  if st.pending.any (·.conn == conn) then (st, [])
  else
    match n.getPointType with
    | none => (st, [])
    | some pointType =>
      if passes (st.lastSequences (seqKey n)) n then
        let lastSequences :=
          update st.lastSequences (seqKey n) (some (n.producerId, n.seq))
        match validateValue n.value {} with
        | .error _ => ({ st with lastSequences }, [.received n, .accepted n])
        | .ok value =>
          let command := buildCommand pointType n.pointId value (asI64 n.timestampMs) n.producerId
            n.seq
          ({ st with lastSequences, pending := st.pending ++ [⟨conn, n, command⟩] },
            [.received n, .accepted n])
      else (st, [.received n])

/-- A send ends. -/
def deliver (conn : Nat) (result : SendResult) : Listener × List ListenerEvent :=
  match st.pending.find? (·.conn == conn) with
  | none => (st, [])
  | some p =>
    let st' := { st with pending := st.pending.eraseP (·.conn == conn) }
    if st.registered p.notification.channelId then
      match result with
      | .sent => (st', [.forwarded p.notification p.command])
      | .closed => (st', [])
      | .timeout => ({ st' with droppedCount := st.droppedCount + 1 }, [])
    else (st', [])

/-- One step. -/
def Listener.step : ListenerInput → Listener × List ListenerEvent
  | .registerChannel id => ({ st with registered := update st.registered id true }, [])
  | .unregisterChannel id => ({ st with registered := update st.registered id false }, [])
  | .receive conn n _ => receive st conn n
  | .deliver conn result => deliver st conn result

/-- The listener and its tasks. -/
def Listener.machine : Machine Listener ListenerInput ListenerEvent := ⟨Listener.step⟩

/-- No channel is registered. -/
def Listener.init : Listener := ⟨fun _ => false, fun _ => none, [], 0⟩

/-! ## One point -/

/-- Producer and number. -/
def ident (n : ShmNotification) : Nat × Nat := (n.producerId, n.seq)

/-- Those received for a point. -/
def receivedFor (k : SeqKey) (log : List ListenerEvent) : List (Nat × Nat) :=
  log.filterMap fun
    | .received n => if seqKey n = k then some (ident n) else none
    | _ => none

/-- Those that passed. -/
def acceptedFor (k : SeqKey) (log : List ListenerEvent) : List (Nat × Nat) :=
  log.filterMap fun
    | .accepted n => if seqKey n = k then some (ident n) else none
    | _ => none

/-- Those forwarded. -/
def forwardedFor (k : SeqKey) (log : List ListenerEvent) : List (Nat × Nat) :=
  log.filterMap fun
    | .forwarded n _ => if seqKey n = k then some (ident n) else none
    | _ => none

/-- Those being sent. -/
def pendingFor (k : SeqKey) (pending : List Pending) : List (Nat × Nat) :=
  pending.filterMap fun p => if seqKey p.notification = k then some (ident p.notification) else none

theorem receivedFor_append (k : SeqKey) (log more : List ListenerEvent) :
    receivedFor k (log ++ more) = receivedFor k log ++ receivedFor k more := filterMap_append

theorem acceptedFor_append (k : SeqKey) (log more : List ListenerEvent) :
    acceptedFor k (log ++ more) = acceptedFor k log ++ acceptedFor k more := filterMap_append

theorem forwardedFor_append (k : SeqKey) (log more : List ListenerEvent) :
    forwardedFor k (log ++ more) = forwardedFor k log ++ forwardedFor k more :=
  filterMap_append

theorem pendingFor_append (k : SeqKey) (pending more : List Pending) :
    pendingFor k (pending ++ more) = pendingFor k pending ++ pendingFor k more :=
  filterMap_append

theorem pendingFor_singleton (k : SeqKey) (p : Pending) :
    pendingFor k [p] = if seqKey p.notification = k then [ident p.notification] else [] := by
  by_cases hk : seqKey p.notification = k <;> simp [pendingFor, hk]

theorem receivedFor_passed (k : SeqKey) (n : ShmNotification) :
    receivedFor k [.received n, .accepted n] = if seqKey n = k then [ident n] else [] := by
  by_cases hk : seqKey n = k <;> simp [receivedFor, hk]

theorem acceptedFor_passed (k : SeqKey) (n : ShmNotification) :
    acceptedFor k [.received n, .accepted n] = if seqKey n = k then [ident n] else [] := by
  by_cases hk : seqKey n = k <;> simp [acceptedFor, hk]

theorem forwardedFor_passed (k : SeqKey) (n : ShmNotification) :
    forwardedFor k [.received n, .accepted n] = [] := by
  simp [forwardedFor]

/-! ## One step -/

variable {n : ShmNotification}

theorem passes_eq_admits {entry : Option (Nat × Nat)} (hseq : n.seq < 2 ^ 64)
    (hentry : ∀ e, entry = some e → e.2 < 2 ^ 64) : passes entry n = admits entry (ident n) := by
  cases entry with
  | none => rfl
  | some e =>
    obtain ⟨producer, seq⟩ := e
    have hlast : seq < 2 ^ 64 := hentry _ rfl
    have hnewer : wrapLt seq n.seq ↔
        wrappingSub n.seq seq ≤ (2 ^ 64 - 1) / 2 ∧ n.seq ≠ seq := by
      unfold wrapLt wrappingSub
      omega
    rw [Bool.eq_iff_iff]
    by_cases hsame : producer = n.producerId
    · simp [passes, admits, ident, hsame, hnewer]
    · simp [passes, admits, ident, hsame]

theorem receive_spec (conn : Nat) (n : ShmNotification) :
    receive st conn n = (st, []) ∨
    (passes (st.lastSequences (seqKey n)) n = false ∧ receive st conn n = (st, [.received n])) ∨
    (passes (st.lastSequences (seqKey n)) n = true ∧ (∀ p ∈ st.pending, p.conn ≠ conn) ∧
      (receive st conn n).2 = [.received n, .accepted n] ∧
      (receive st conn n).1.lastSequences =
        update st.lastSequences (seqKey n) (some (ident n)) ∧
      ((receive st conn n).1.pending = st.pending ∨ ∃ command,
        (receive st conn n).1.pending = st.pending ++ [⟨conn, n, command⟩])) := by
  unfold receive
  split
  · exact .inl rfl
  rename_i hidle
  split
  · exact .inl rfl
  split
  · rename_i hpass
    right; right
    refine ⟨hpass, by simpa using hidle, ?_⟩
    dsimp only
    split
    · exact ⟨rfl, rfl, .inl rfl⟩
    · exact ⟨rfl, rfl, .inr ⟨_, rfl⟩⟩
  rename_i hpass
  exact .inr (.inl ⟨by simpa using hpass, rfl⟩)

theorem deliver_spec (conn : Nat) (result : SendResult) :
    deliver st conn result = (st, []) ∨
    ∃ before p after, st.pending = before ++ p :: after ∧ p.conn = conn ∧
      (∀ q ∈ before, q.conn ≠ conn) ∧
      (deliver st conn result).1.pending = before ++ after ∧
      (deliver st conn result).1.lastSequences = st.lastSequences ∧
      ((deliver st conn result).2 = [] ∨
        (deliver st conn result).2 = [.forwarded p.notification p.command]) := by
  unfold deliver
  split
  · exact .inl rfl
  rename_i p hfind
  right
  obtain ⟨hconn, before, after, hsplit, hbefore⟩ := find?_eq_some_iff_append.mp hfind
  have herase : st.pending.eraseP (·.conn == conn) = before ++ after := by
    rw [hsplit, eraseP_append_right _ (by simpa using hbefore),
      eraseP_cons_of_pos (p := fun q : Pending => q.conn == conn) hconn]
  refine ⟨before, p, after, hsplit, by simpa using hconn, by simpa using hbefore, ?_⟩
  dsimp only
  rw [herase]
  split
  · cases result with
    | sent => exact ⟨rfl, rfl, .inr rfl⟩
    | closed | timeout => exact ⟨rfl, rfl, .inl rfl⟩
  · exact ⟨rfl, rfl, .inl rfl⟩

/-! ## Whole runs -/

/-- The listener on one point: its entry and what passed are those of the duplicate filter, and what
passed is forwarded or being sent at most once. -/
structure Filtered (k : SeqKey) (st : Listener) (log : List ListenerEvent) : Prop where
  range : ∀ m ∈ receivedFor k log, m.2 < 2 ^ 64
  last : st.lastSequences k = lastAdmitted none (receivedFor k log)
  accepted : acceptedFor k log = admitted none (receivedFor k log)
  flow : (forwardedFor k log ++ pendingFor k st.pending).Subperm (acceptedFor k log)

variable {log : List ListenerEvent} {k : SeqKey} {st : Listener} {more : List ListenerEvent}

theorem Filtered.of_same {st' : Listener} (h : Filtered k st log)
    (hlast : st'.lastSequences k = st.lastSequences k) (hreceived : receivedFor k more = [])
    (haccepted : acceptedFor k more = [])
    (hflow : (forwardedFor k (log ++ more) ++ pendingFor k st'.pending).Subperm
      (forwardedFor k log ++ pendingFor k st.pending)) : Filtered k st' (log ++ more) := by
  refine ⟨?_, ?_, ?_, ?_⟩
  · rw [receivedFor_append, hreceived, append_nil]
    exact h.range
  · rw [hlast, receivedFor_append, hreceived, append_nil]
    exact h.last
  · rw [acceptedFor_append, haccepted, receivedFor_append, hreceived, append_nil,
      append_nil]
    exact h.accepted
  rw [acceptedFor_append, haccepted, append_nil]
  exact hflow.trans h.flow

theorem Filtered.passes_eq (h : Filtered k st log) (hseq : n.seq < 2 ^ 64) :
    passes (st.lastSequences k) n = admits (lastAdmitted none (receivedFor k log)) (ident n) := by
  rw [h.last]
  apply passes_eq_admits hseq
  intro e he
  exact h.range e (by simpa using mem_of_lastAdmitted he)

theorem Filtered.received {st' : Listener} (h : Filtered (seqKey n) st log) (hseq : n.seq < 2 ^ 64)
    {pass : Bool} (hpass : passes (st.lastSequences (seqKey n)) n = pass)
    (hlast : st'.lastSequences (seqKey n) =
      if pass then some (ident n) else st.lastSequences (seqKey n))
    (hreceived : receivedFor (seqKey n) more = [ident n])
    (haccepted : acceptedFor (seqKey n) more = if pass then [ident n] else [])
    (hflow : (forwardedFor (seqKey n) (log ++ more) ++ pendingFor (seqKey n) st'.pending).Subperm
      (acceptedFor (seqKey n) (log ++ more))) : Filtered (seqKey n) st' (log ++ more) := by
  rw [h.passes_eq hseq] at hpass
  refine ⟨?_, ?_, ?_, hflow⟩
  · rw [receivedFor_append, hreceived]
    intro m hm
    rcases mem_append.mp hm with hm | hm
    · exact h.range m hm
    cases mem_singleton.mp hm
    exact hseq
  · rw [receivedFor_append, hreceived, lastAdmitted_append, hlast, h.last]
    simp [lastAdmitted, hpass]
  rw [acceptedFor_append, haccepted, receivedFor_append, hreceived, admitted_append, h.accepted]
  simp [admitted, hpass]

theorem Filtered.receive (h : Filtered k st log) (conn : Nat) (hseq : n.seq < 2 ^ 64) :
    Filtered k (receive st conn n).1 (log ++ (receive st conn n).2) := by
  rcases receive_spec st conn n with hnone | ⟨hpass, hdrop⟩ | ⟨hpass, -, hevents, hlast, hpending⟩
  · rw [hnone, append_nil]
    exact h
  · rw [hdrop]
    by_cases hk : seqKey n = k
    · subst hk
      refine h.received hseq hpass rfl (by simp [receivedFor]) (by simp [acceptedFor]) ?_
      rw [forwardedFor_append, acceptedFor_append]
      simpa [forwardedFor, acceptedFor] using h.flow
    refine h.of_same rfl (by simp [receivedFor, hk]) (by simp [acceptedFor]) ?_
    rw [forwardedFor_append]
    simp [forwardedFor, List.Subperm.refl]
  rw [hevents]
  by_cases hk : seqKey n = k
  · subst hk
    refine h.received hseq hpass (by rw [hlast, update_self, if_pos rfl])
      (by rw [receivedFor_passed, if_pos rfl])
      (by rw [acceptedFor_passed, if_pos rfl, if_pos rfl]) ?_
    rw [forwardedFor_append, forwardedFor_passed, append_nil, acceptedFor_append,
      acceptedFor_passed, if_pos rfl]
    rcases hpending with hpending | ⟨command, hpending⟩
    · rw [hpending]
      exact h.flow.trans (sublist_append_left _ _).subperm
    rw [hpending, pendingFor_append, pendingFor_singleton, if_pos rfl, ← append_assoc]
    exact h.flow.append (List.Subperm.refl _)
  have hsame : pendingFor k (Comsrv.receive st conn n).1.pending = pendingFor k st.pending := by
    rcases hpending with hpending | ⟨command, hpending⟩
    · rw [hpending]
    · rw [hpending, pendingFor_append, pendingFor_singleton, if_neg hk, append_nil]
  refine h.of_same (by rw [hlast, update_of_ne (Ne.symm hk)])
    (by rw [receivedFor_passed, if_neg hk]) (by rw [acceptedFor_passed, if_neg hk]) ?_
  rw [hsame, forwardedFor_append, forwardedFor_passed, append_nil]

theorem deliver_flow (k : SeqKey) (st : Listener) (conn : Nat) (result : SendResult) :
    (forwardedFor k (deliver st conn result).2 ++
      pendingFor k (deliver st conn result).1.pending).Subperm (pendingFor k st.pending) := by
  rcases deliver_spec st conn result with hnone |
    ⟨before, p, after, hsplit, -, -, hpending, -, hevents⟩
  · rw [hnone]
    exact List.Subperm.refl _
  rw [hpending, hsplit]
  have hdrop : (pendingFor k (before ++ after)).Subperm (pendingFor k (before ++ p :: after)) := by
    apply List.Sublist.subperm
    exact ((sublist_cons_self p after).append_left before).filterMap _
  rcases hevents with hnone | hsent
  · rw [hnone]
    exact hdrop
  rw [hsent]
  apply List.Perm.subperm
  by_cases hk : seqKey p.notification = k
  · simp only [forwardedFor, pendingFor, filterMap_append, filterMap_cons, hk,
      if_true, filterMap_nil, singleton_append]
    exact perm_middle.symm
  · simp [forwardedFor, pendingFor, filterMap_append, hk]

theorem Filtered.deliver (h : Filtered k st log) (conn : Nat) (result : SendResult) :
    Filtered k (deliver st conn result).1 (log ++ (deliver st conn result).2) := by
  have hflow : (forwardedFor k (log ++ (Comsrv.deliver st conn result).2) ++
      pendingFor k (Comsrv.deliver st conn result).1.pending).Subperm
        (forwardedFor k log ++ pendingFor k st.pending) := by
    rw [forwardedFor_append, append_assoc]
    exact (subperm_append_left _).mpr (deliver_flow k st conn result)
  rcases deliver_spec st conn result with hnone | ⟨-, p, -, -, -, -, -, hlast, hevents⟩
  · rw [hnone, append_nil]
    exact h
  refine h.of_same (by rw [hlast]) ?_ ?_ hflow <;> rcases hevents with he | he <;>
    simp [he, receivedFor, acceptedFor]

theorem filtered_step (input : ListenerInput) (h : Filtered k st log) :
    Filtered k (st.step input).1 (log ++ (st.step input).2) := by
  cases input with
  | registerChannel id | unregisterChannel id =>
    simp only [Listener.step, append_nil]
    exact ⟨h.range, h.last, h.accepted, h.flow⟩
  | receive conn n hseq => exact h.receive conn hseq
  | deliver conn result => exact h.deliver conn result

theorem filtered_run (k : SeqKey) (inputs : List ListenerInput) :
    Filtered k (Listener.machine.run .init inputs) (Listener.machine.trace .init inputs) := by
  have hrun := Listener.machine.invariant (Filtered k) (P := fun _ _ => True)
    (fun st log input h _ => filtered_step input h)
    (s := Listener.init) (l := []) ⟨nofun, rfl, rfl, List.Subperm.refl _⟩
    (Listener.machine.along_true _ inputs)
  simpa using hrun

/-! ## One connection -/

/-- One connection carries the point. -/
def OverConnection (k : SeqKey) (conn : Nat) (_ : Listener) : ListenerInput → Prop
  | .receive c n _ => seqKey n = k → c = conn
  | _ => True

/-- The command queue keeps the order of the filter. -/
structure InOrder (k : SeqKey) (conn : Nat) (st : Listener) (log : List ListenerEvent) : Prop where
  order : (forwardedFor k log ++ pendingFor k st.pending).Sublist (acceptedFor k log)
  sender : ∀ p ∈ st.pending, seqKey p.notification = k → p.conn = conn

theorem pendingFor_eq_nil {pending : List Pending} (h : ∀ p ∈ pending, seqKey p.notification ≠ k) :
    pendingFor k pending = [] := by
  rw [pendingFor, filterMap_eq_nil_iff]
  intro p hp
  rw [if_neg (h p hp)]

variable {conn : Nat}

theorem InOrder.receive (h : InOrder k conn st log) {c : Nat} (hconn : seqKey n = k → c = conn) :
    InOrder k conn (receive st c n).1 (log ++ (receive st c n).2) := by
  rcases receive_spec st c n with hnone | ⟨-, hdrop⟩ | ⟨-, hidle, hevents, -, hpending⟩
  · rw [hnone, append_nil]
    exact h
  · rw [hdrop]
    refine ⟨?_, h.sender⟩
    rw [forwardedFor_append, acceptedFor_append]
    simpa [forwardedFor, acceptedFor] using h.order
  rw [hevents]
  have hkeep := sublist_append_left (acceptedFor k log)
    (acceptedFor k [.received n, .accepted n])
  rcases hpending with hpending | ⟨command, hpending⟩
  · refine ⟨?_, by rw [hpending]; exact h.sender⟩
    rw [forwardedFor_append, forwardedFor_passed, append_nil, hpending, acceptedFor_append]
    exact h.order.trans hkeep
  refine ⟨?_, ?_⟩
  · rw [forwardedFor_append, forwardedFor_passed, append_nil, hpending, pendingFor_append,
      pendingFor_singleton, acceptedFor_append, acceptedFor_passed]
    by_cases hk : seqKey n = k
    · -- the connection was idle, so no command for the point is being sent
      have hnone : pendingFor k st.pending = [] := by
        apply pendingFor_eq_nil
        intro p hp hpk
        exact hidle p hp ((h.sender p hp hpk).trans (hconn hk).symm)
      have horder := h.order
      rw [hnone, append_nil] at horder
      rw [if_pos hk, hnone, nil_append]
      exact horder.append (List.Sublist.refl _)
    rw [if_neg hk, append_nil, append_nil]
    exact h.order
  rw [hpending]
  intro p hp hpk
  rcases mem_append.mp hp with hp | hp
  · exact h.sender p hp hpk
  cases mem_singleton.mp hp
  exact hconn hpk

theorem InOrder.deliver (h : InOrder k conn st log) (c : Nat) (result : SendResult) :
    InOrder k conn (deliver st c result).1 (log ++ (deliver st c result).2) := by
  rcases deliver_spec st c result with hnone |
    ⟨before, p, after, hsplit, hc, hbefore, hpending, -, hevents⟩
  · rw [hnone, append_nil]
    exact h
  have hsender : ∀ q ∈ before ++ after, seqKey q.notification = k → q.conn = conn := by
    intro q hq
    apply h.sender q
    rw [hsplit]
    exact ((sublist_cons_self p after).append_left before).mem hq
  have haccepted : acceptedFor k (log ++ (Comsrv.deliver st c result).2) = acceptedFor k log := by
    rw [acceptedFor_append]
    rcases hevents with he | he <;> simp [he, acceptedFor]
  refine ⟨?_, by rw [hpending]; exact hsender⟩
  rw [haccepted]
  refine List.Sublist.trans ?_ h.order
  rw [forwardedFor_append, append_assoc, hpending, hsplit]
  refine List.Sublist.append_left ?_ _
  rcases hevents with he | he
  · rw [he]
    exact ((sublist_cons_self p after).append_left before).filterMap _
  rw [he]
  by_cases hk : seqKey p.notification = k
  · -- commands of the point before `p` would be on the same connection
    have hp : p.conn = conn := h.sender p (by rw [hsplit]; simp) hk
    have hnone : pendingFor k before = [] := by
      apply pendingFor_eq_nil
      intro q hq hqk
      exact hbefore q hq ((hsender q (mem_append_left _ hq) hqk).trans (hp.symm.trans hc))
    have hsplitFor : ∀ l, pendingFor k (before ++ l) = pendingFor k l := by
      intro l
      rw [pendingFor, filterMap_append, ← pendingFor, hnone]
      rfl
    rw [hsplitFor, hsplitFor]
    simp [forwardedFor, pendingFor, hk]
  · simp [forwardedFor, pendingFor, filterMap_append, hk]

theorem inOrder_run {inputs : List ListenerInput}
    (hconn : ∀ input ∈ inputs, ∀ st, OverConnection k conn st input) :
    InOrder k conn (Listener.machine.run .init inputs) (Listener.machine.trace .init inputs) := by
  have hrun := Listener.machine.invariant (InOrder k conn) (P := OverConnection k conn)
    (fun st log input h hinput => by
      cases input with
      | registerChannel id | unregisterChannel id =>
        show InOrder k conn _ (log ++ [])
        rw [append_nil]
        exact ⟨h.order, h.sender⟩
      | receive c n hseq => exact h.receive hinput
      | deliver c result => exact h.deliver c result)
    (s := Listener.init) (l := []) ⟨List.Sublist.refl _, nofun⟩
    (Listener.machine.along_of_mem _ inputs hconn)
  simpa using hrun

/-! ## What the listener guarantees -/

/-- **Forwarding to the command queue of one point.**  From each notification that passes to the
next one that passes, if it is of the same producer, the numbers increase around the circle.  If no
producer comes back after another one and the numbers of each stay within half the circle, each
notification is forwarded at most once; over one connection all forwarded numbers of a producer
increase. -/
theorem forwarded_at_most_once (k : SeqKey) (inputs : List ListenerInput) :
    (acceptedFor k (Listener.machine.trace .init inputs)).IsChain Newer ∧
      (NoReturn ((receivedFor k (Listener.machine.trace .init inputs)).map Prod.fst) →
        (∃ base : Nat → Nat, ∀ m ∈ receivedFor k (Listener.machine.trace .init inputs),
          InWindow (base m.1) m.2) →
        (forwardedFor k (Listener.machine.trace .init inputs)).Nodup ∧
          ∀ conn, (∀ input ∈ inputs, ∀ st, OverConnection k conn st input) →
            (forwardedFor k (Listener.machine.trace .init inputs)).Pairwise Newer) := by
  have hrun := filtered_run k inputs
  refine ⟨?_, ?_⟩
  · rw [hrun.accepted]
    exact admitted_isChain none _
  rintro hreturn ⟨base, hwindow⟩
  have hnewer : (acceptedFor k (Listener.machine.trace .init inputs)).Pairwise Newer := by
    rw [hrun.accepted]
    exact admitted_pairwise none _ hwindow hreturn
  refine ⟨?_, ?_⟩
  · have hforwarded := (sublist_append_left _ _).subperm.trans hrun.flow
    obtain ⟨l, hperm, hsub⟩ := hforwarded
    exact hperm.nodup_iff.mp ((nodup_of_pairwise_newer hnewer).sublist hsub)
  intro conn hconn
  exact hnewer.sublist ((sublist_append_left _ _).trans (inOrder_run hconn).order)

def command (producerId seq : Nat) : ShmNotification := ⟨1, 0, 2, 7.0, 50, producerId, seq⟩

/-- One that is sent at once. -/
def arrival (producerId : Nat) (seq : Fin (2 ^ 64)) : List ListenerInput :=
  [.receive 0 (command producerId seq) seq.isLt, .deliver 0 .sent]

/-- The producer is restarted. -/
def restart : List ListenerInput :=
  .registerChannel 1 :: arrival 7 1 ++ arrival 7 2 ++ arrival 7 2 ++ arrival 8 1

theorem forwarded_at_most_once_restart :
    forwardedFor (1, 2, 0) (Listener.machine.trace .init restart) = [(7, 1), (7, 2), (8, 1)] ∧
      (forwardedFor (1, 2, 0) (Listener.machine.trace .init restart)).Pairwise Newer := by
  refine ⟨by decide, ?_⟩
  refine ((forwarded_at_most_once (1, 2, 0) restart).2 (by decide) ⟨fun _ => 0, by decide⟩).2 0 ?_
  intro input hinput st
  simp only [restart, arrival, cons_append, nil_append, mem_cons, not_mem_nil,
    or_false] at hinput
  rcases hinput with rfl | rfl | rfl | rfl | rfl | rfl | rfl | rfl | rfl <;> simp [OverConnection]

/-- A late duplicate of producer 7, after producer 8, is forwarded; of two notifications over two
connections, the second is sent first. -/
theorem forwarded_twice :
    forwardedFor (1, 2, 0) (Listener.machine.trace .init
      (.registerChannel 1 :: arrival 7 1 ++ arrival 8 1 ++ arrival 7 1)) =
        [(7, 1), (8, 1), (7, 1)] ∧
    forwardedFor (1, 2, 0) (Listener.machine.trace .init
      [.registerChannel 1, .receive 0 (command 7 1) (by decide), .receive 1 (command 7 2) (by decide),
        .deliver 1 .sent, .deliver 0 .sent]) = [(7, 2), (7, 1)] := by
  decide

end VoltageEMS.Comsrv
