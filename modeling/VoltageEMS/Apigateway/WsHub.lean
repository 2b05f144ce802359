import VoltageEMS.Lib.Run
import VoltageEMS.Lib.Hashes

/-!
# The WebSocket hub

Clients connect under an id they may choose (`apigateway/src/ws.rs`, `ws_handler` in `main.rs`).  The
hub keeps one handle per id; broadcasts and subscribed data go to the handles.  A connection has two
tasks, and deregisters its id when either of them has ended.

* `active_registered` — **in every steady run** an open connection with a frame in the last 300 seconds
  is registered, and broadcasts and pushes reach it.
-/

namespace VoltageEMS.Apigateway.Ws

open Lib List Option AList

/-- What a client has subscribed to. -/
structure Subscription where
  source : String
  channels : List Int
  dataTypes : List String
  intervalMs : Nat
  /-- Loaded when the client subscribed to `homepage`. -/
  homepagePoints : List Int
  deriving DecidableEq, Repr

/-- The handle of a client, with the connection it sends to. -/
structure ClientHandle where
  conn : Nat
  sub : Subscription
  lastActivity : Nat
  deriving DecidableEq, Repr

/-- `WsHub`: the handles by id. -/
abbrev Hub := Hash String ClientHandle

/-- A connection until it has deregistered.  The program does not keep when the last frame of any
kind and the last one that counts as activity arrived. -/
structure Conn where
  clientId : String
  isOpen : Bool
  connectedAt : Nat
  lastFrame : Option Nat
  lastCounted : Option Nat
  deriving DecidableEq, Repr

/-- When it was heard last. -/
def Conn.lastSeen (c : Conn) : Nat := c.lastFrame.getD c.connectedAt

/-- When it was active last. -/
def Conn.lastActive (c : Conn) : Nat := c.lastCounted.getD c.connectedAt

/-- The hub, the connections and the clock. -/
structure State where
  now : Nat
  clients : Hub
  conns : Hash Nat Conn
  nextConn : Nat

/-- The messages to a client. -/
inductive Message
  | pingSentinel
  | text (text : String)
  | reply (type code : String)
  | dataBatch (keys : List String)
  | ruleBatch (rule : Int)
  | homepageBatch (points : List Int)
  deriving DecidableEq, Repr

/-- A text frame as `handle_client_message` understands it. -/
inductive ClientMessage
  | invalidJson
  | ping
  | subscribe (sub : Subscription)
  | unsubscribe (source : String)
  | control (complete : Bool)
  | unknown
  deriving DecidableEq, Repr

/-- A frame from a client. -/
inductive Frame
  | text (message : ClientMessage)
  | ping
  | pong
  | binary
  deriving DecidableEq, Repr

/-- The frames for which the activity is updated. -/
def Frame.isActivity : Frame → Bool
  | .text _ | .ping => true
  | .pong | .binary => false

/-! ## The hub -/

namespace Hub

variable (hub : Hub)

variable (clientId : String) (f : ClientHandle → ClientHandle) (now : Nat)

/-- `register`. -/
def register (conn now : Nat) : Hub :=
  hub.insert clientId ⟨conn, ⟨"inst", [], [], 1000, []⟩, now⟩

/-- `deregister`. -/
def deregister : Hub := hub.erase clientId

/-- Change the handle of a client. -/
def modify (f : ClientHandle → ClientHandle) : Hub :=
  match hub.lookup clientId with
  | some handle => hub.insert clientId (f handle)
  | none => hub

/-- `update_activity`. -/
def updateActivity : Hub :=
  hub.modify clientId fun h => { h with lastActivity := now }

/-- `update_subscription`. -/
def updateSubscription (sub : Subscription) : Hub :=
  hub.modify clientId fun h => { h with sub }

/-- `cleanup_inactive`. -/
def cleanupInactive : Hub :=
  ⟨hub.entries.filter fun e => ¬ e.2.lastActivity + 300 < now,
    hub.nodupKeys.sublist filter_sublist⟩

theorem lookup_modify (id : String) : (hub.modify clientId f).lookup id =
      if id = clientId then (hub.lookup id).map f else hub.lookup id := by
  unfold modify
  by_cases hid : id = clientId
  · rw [if_pos hid, hid]
    cases h : hub.lookup clientId with
    | none => exact h
    | some handle => exact lookup_insert hub
  rw [if_neg hid]
  cases hub.lookup clientId with
  | none => rfl
  | some handle => exact lookup_insert_ne hid

theorem lookup_cleanupInactive {now : Nat} {id : String} {handle : ClientHandle} :
    (hub.cleanupInactive now).lookup id = some handle ↔
      hub.lookup id = some handle ∧ ¬ handle.lastActivity + 300 < now := by
  have hmem : ∀ h : Hub, h.lookup id = some handle ↔ Sigma.mk id handle ∈ h.entries :=
    fun h => mem_lookup_iff
  rw [hmem, hmem, cleanupInactive, mem_filter, decide_eq_true_eq]

end Hub

/-! ## Sending -/

variable (s : State)

/-- A send reaches an open connection. -/
def State.send (handle : ClientHandle) (m : Message) : List (Nat × Message) :=
  if (s.conns.lookup handle.conn).any Conn.isOpen then [(handle.conn, m)] else []

/-- `send_to`. -/
def State.sendTo (clientId : String) (m : Message) : List (Nat × Message) :=
  ((s.clients.lookup clientId).map fun handle => s.send handle m).getD []

/-- `broadcast`. -/
def State.broadcast (m : Message) : List (Nat × Message) :=
  s.clients.entries.flatMap fun e => s.send e.2 m

/-- What a push has for a subscription. -/
def Subscription.batch (sub : Subscription) (hasData : String → Bool) : Option Message :=
  if sub.channels = [] ∧ sub.source ≠ "homepage" then none
  else if sub.source = "rule" then
    sub.channels.head?.bind fun rule =>
      if hasData ("rule:" ++ toString rule ++ ":exec") then some (.ruleBatch rule) else none
  else if sub.source = "homepage" then
    if sub.homepagePoints = [] then none else some (.homepageBatch sub.homepagePoints)
  else
    let keys := (sub.channels.flatMap fun channel => sub.dataTypes.map fun dataType =>
      sub.source ++ ":" ++ toString channel ++ ":" ++ dataType).filter hasData
    if keys = [] then none else some (.dataBatch keys)

/-- `push_subscribed_data`. -/
def State.pushSubscribedData (hasData : String → Bool) : List (Nat × Message) :=
  s.clients.entries.flatMap fun e => ((e.2.sub.batch hasData).map (s.send e.2)).getD []

/-- The reply to a text frame. -/
def ClientMessage.reply : ClientMessage → Option Message
  | .invalidJson => some (.reply "error" "INVALID_JSON")
  | .ping => some (.reply "pong" "")
  | .subscribe _ => some (.reply "subscribe_ack" "")
  | .unsubscribe _ => some (.reply "unsubscribe_ack" "")
  | .control complete => some (.reply "error" (if complete then "CONTROL_UNSUPPORTED" else "CONTROL_ERROR"))
  | .unknown => none

/-- What a text frame changes. -/
def ClientMessage.apply (hub : Hub) (clientId : String) : ClientMessage → Hub
  | .subscribe sub => hub.updateSubscription clientId sub
  | .unsubscribe source => hub.updateSubscription clientId ⟨source, [], [], 1000, []⟩
  | _ => hub

/-- What a frame changes. -/
def Frame.handle (hub : Hub) (clientId : String) (now : Nat) : Frame → Hub
  | .text message => message.apply (hub.updateActivity clientId now) clientId
  | .ping => hub.updateActivity clientId now
  | .pong | .binary => hub

/-- The reply to a frame. -/
def Frame.reply : Frame → Option Message
  | .text message => message.reply
  | _ => none

/-! ## Runs -/

/-- What can happen. -/
inductive Input
  | connect (clientId : String)
  | frame (conn : Nat) (f : Frame)
  /-- One of the two tasks has ended. -/
  | stop (conn : Nat)
  /-- `handle_socket` comes to its end. -/
  | finish (conn : Nat)
  | broadcast (text : String)
  | heartbeat
  | cleanup
  | push (hasData : String → Bool)
  | pass (seconds : Nat)

/-- A client connects. -/
def State.connect (clientId : String) : State :=
  { s with
    clients := s.clients.register clientId s.nextConn s.now
    conns := s.conns.insert s.nextConn ⟨clientId, true, s.now, none, none⟩
    nextConn := s.nextConn + 1 }

/-- The times after a frame. -/
def Conn.heard (c : Conn) (f : Frame) (now : Nat) : Conn :=
  { c with lastFrame := some now, lastCounted := if f.isActivity then some now else c.lastCounted }

/-- A frame arrives. -/
def State.frame (num : Nat) (c : Conn) (f : Frame) : State :=
  { s with
    clients := f.handle s.clients c.clientId s.now
    conns := s.conns.insert num (c.heard f s.now) }

/-- A task of the connection ends. -/
def State.stop (num : Nat) (c : Conn) : State :=
  { s with conns := s.conns.insert num { c with isOpen := false } }

/-- The connection deregisters. -/
def State.finish (num : Nat) (c : Conn) : State :=
  { s with clients := s.clients.deregister c.clientId, conns := s.conns.erase num }

/-- Connections, frames and timers interleaved. -/
def machine : Machine State Input (Nat × Message) where
  step s
    | .connect clientId => (s.connect clientId, [(s.nextConn, .reply "connection_established" "")])
    | .frame num f =>
      match s.conns.lookup num with
      | some c => if c.isOpen then
          (s.frame num c f,
            (f.reply.map ((s.frame num c f).sendTo c.clientId)).getD [])
        else (s, [])
      | none => (s, [])
    | .stop num =>
      match s.conns.lookup num with
      | some c => (s.stop num c, [])
      | none => (s, [])
    | .finish num =>
      match s.conns.lookup num with
      | some c => if c.isOpen then (s, []) else (s.finish num c, [])
      | none => (s, [])
    | .broadcast text => (s, s.broadcast (.text text))
    | .heartbeat => ({ s with clients := s.clients.cleanupInactive s.now }, s.broadcast .pingSentinel)
    | .cleanup => ({ s with clients := s.clients.cleanupInactive s.now }, [])
    | .push hasData => (s, s.pushSubscribedData hasData)
    | .pass seconds => ({ s with now := s.now + seconds }, [])

/-- Nobody is connected. -/
def State.start (now : Nat) : State := ⟨now, ∅, ∅, 0⟩

/-- The connection has its handle. -/
def State.Registered (num : Nat) (c : Conn) : Prop :=
  ∃ handle, s.clients.lookup c.clientId = some handle ∧ handle.conn = num

/-! ## Connections and their handles -/

/-- A connection heard in the last 300 seconds was also active in them. -/
def Conn.keepsActive (now : Nat) (c : Conn) : Bool :=
  !c.isOpen || c.lastSeen + 300 < now || now ≤ c.lastActive + 300

/-- Ids are not shared, frames come at most 300 seconds apart, and a cleanup finds every connection
heard in the last 300 seconds active. -/
def steady : Input → Bool
  | .connect clientId => s.conns.entries.all fun e => e.2.clientId != clientId
  | .frame num _ => (s.conns.lookup num).all fun c => s.now ≤ c.lastSeen + 300
  | .heartbeat | .cleanup => s.conns.entries.all fun e => e.2.keepsActive s.now
  | _ => true

/-- Ids are not shared, and an open connection has its own handle unless it is silent for too long.
-/
structure Linked (s : State) : Prop where
  fresh : ∀ num c, s.conns.lookup num = some c → num < s.nextConn
  ids : ∀ num num' c c', s.conns.lookup num = some c → s.conns.lookup num' = some c' →
    c.clientId = c'.clientId → num = num'
  owner : ∀ num c, s.conns.lookup num = some c → c.isOpen = true →
    (∃ handle, s.clients.lookup c.clientId = some handle ∧ handle.conn = num ∧
      handle.lastActivity = c.lastActive) ∨ c.lastSeen + 300 < s.now

section Step

variable {s s' : State}

theorem Linked.of_conns (h : Linked s) (hnext : s'.nextConn = s.nextConn)
    (hold : ∀ num c, s'.conns.lookup num = some c →
      ∃ d, s.conns.lookup num = some d ∧ d.clientId = c.clientId)
    (howner : ∀ num c, s'.conns.lookup num = some c → c.isOpen = true →
      (∃ handle, s'.clients.lookup c.clientId = some handle ∧ handle.conn = num ∧
        handle.lastActivity = c.lastActive) ∨ c.lastSeen + 300 < s'.now) : Linked s' := by
  refine ⟨fun num c hc => ?_, fun num num' c c' hc hc' heq => ?_, howner⟩
  · obtain ⟨d, hd, -⟩ := hold num c hc
    rw [hnext]
    exact h.fresh num d hd
  obtain ⟨d, hd, hid⟩ := hold num c hc
  obtain ⟨d', hd', hid'⟩ := hold num' c' hc'
  exact h.ids num num' d d' hd hd' (hid.trans (heq.trans hid'.symm))

variable {num : Nat} {c : Conn}

theorem exists_of_insert {conns : Hash Nat Conn} {m : Nat} {c' d : Conn}
    (hd : (conns.insert num c').lookup m = some d) (hc : conns.lookup num = some c)
    (hid : c.clientId = c'.clientId) : ∃ e, conns.lookup m = some e ∧ e.clientId = d.clientId := by
  rw [Hash.lookup_insert_eq] at hd
  split at hd
  · cases hd
    exact ⟨c, by rw [‹m = num›, hc], hid⟩
  · exact ⟨d, hd, rfl⟩

theorem Linked.connect (h : Linked s) {clientId : String}
    (hnew : ∀ num c, s.conns.lookup num = some c → c.clientId ≠ clientId) :
    Linked (s.connect clientId) := by
  have hlookup : ∀ num, (s.connect clientId).conns.lookup num =
      if num = s.nextConn then some ⟨clientId, true, s.now, none, none⟩ else s.conns.lookup num :=
    fun num => Hash.lookup_insert_eq _ _ _ _
  have hclients : ∀ id, (s.connect clientId).clients.lookup id =
      if id = clientId then some ⟨s.nextConn, ⟨"inst", [], [], 1000, []⟩, s.now⟩
      else s.clients.lookup id :=
    fun id => Hash.lookup_insert_eq _ _ _ _
  refine ⟨fun num c hc => ?_, fun num num' c c' hc hc' heq => ?_, fun num c hc hopen => ?_⟩
  · rw [hlookup] at hc
    split at hc
    · exact lt_of_eq_of_lt ‹_› (Nat.lt_succ_self _)
    · exact Nat.lt_succ_of_lt (h.fresh num c hc)
  · rw [hlookup] at hc hc'
    split at hc <;> split at hc'
    · exact ‹num = _›.trans ‹num' = _›.symm
    · cases hc
      exact absurd heq.symm (hnew num' c' hc')
    · cases hc'
      exact absurd heq (hnew num c hc)
    · exact h.ids num num' c c' hc hc' heq
  rw [hlookup] at hc
  split at hc
  · cases hc
    exact .inl ⟨_, (hclients clientId).trans (if_pos rfl), ‹num = _›.symm, rfl⟩
  refine (h.owner num c hc hopen).imp_left fun ⟨handle, hhandle, hconn⟩ => ⟨handle, ?_, hconn⟩
  rw [hclients, if_neg (hnew num c hc), hhandle]

/-- Only the handle of a client is new, and it was active now if the frame counts. -/
def Hub.Touches (hub : Hub) (clientId : String) (now : Nat) (counts : Bool) (hub' : Hub) : Prop :=
  ∃ g : ClientHandle → ClientHandle,
    (∀ handle, (g handle).conn = handle.conn ∧
      (g handle).lastActivity = if counts then now else handle.lastActivity) ∧
    ∀ id, hub'.lookup id = if id = clientId then (hub.lookup id).map g else hub.lookup id

theorem Frame.touches_handle (hub : Hub) (clientId : String) (now : Nat) (f : Frame) :
    Hub.Touches hub clientId now f.isActivity (f.handle hub clientId now) := by
  have hsub : ∀ sub, Hub.Touches hub clientId now true
      ((hub.updateActivity clientId now).updateSubscription clientId sub) := by
    intro sub
    refine ⟨fun h => { h with sub, lastActivity := now }, fun _ => ⟨rfl, rfl⟩, fun id => ?_⟩
    rw [Hub.updateSubscription, Hub.lookup_modify, Hub.updateActivity, Hub.lookup_modify]
    split
    · rw [Option.map_map]
      rfl
    · rfl
  have hactivity : Hub.Touches hub clientId now true (hub.updateActivity clientId now) :=
    ⟨fun h => { h with lastActivity := now }, fun _ => ⟨rfl, rfl⟩, Hub.lookup_modify hub clientId _⟩
  cases f with
  | text message =>
    cases message with
    | subscribe sub => exact hsub sub
    | unsubscribe source => exact hsub _
    | _ => exact hactivity
  | ping => exact hactivity
  | pong | binary =>
    exact ⟨id, fun _ => ⟨rfl, rfl⟩, fun id => by rw [Option.map_id, id_eq, ite_self]; rfl⟩

theorem Linked.frame (h : Linked s) {f : Frame} (hc : s.conns.lookup num = some c)
    (hopen : c.isOpen = true) (htime : s.now ≤ c.lastSeen + 300) : Linked (s.frame num c f) := by
  have hlookup : ∀ m, (s.frame num c f).conns.lookup m =
      if m = num then some (c.heard f s.now) else s.conns.lookup m :=
    fun m => Hash.lookup_insert_eq _ _ _ _
  obtain ⟨g, hg, hclients⟩ := Frame.touches_handle s.clients c.clientId s.now f
  refine h.of_conns rfl (fun m d hd => exists_of_insert hd hc rfl) fun m d hd hopen' => ?_
  rw [hlookup] at hd
  split at hd
  · cases hd
    subst ‹m = num›
    obtain ⟨handle, hhandle, hconn, hlast⟩ :=
      (h.owner m c hc hopen).resolve_right (Nat.not_lt.mpr htime)
    refine .inl ⟨g handle, ?_, (hg handle).1.trans hconn, ?_⟩
    swap
    · rw [(hg handle).2, hlast, Conn.lastActive, Conn.lastActive, Conn.heard]
      cases f.isActivity <;> rfl
    exact (hclients c.clientId).trans (by rw [if_pos rfl, hhandle]; rfl)
  refine (h.owner m d hd hopen').imp_left fun ⟨handle, hhandle, hconn⟩ => ⟨handle, ?_, hconn⟩
  have hne : d.clientId ≠ c.clientId := fun heq => ‹¬ m = num› (h.ids m num d c hd hc heq)
  exact (hclients d.clientId).trans (by rw [if_neg hne, hhandle])

theorem Linked.stop (h : Linked s) (hc : s.conns.lookup num = some c) : Linked (s.stop num c) := by
  have hlookup : ∀ m, (s.stop num c).conns.lookup m =
      if m = num then some { c with isOpen := false } else s.conns.lookup m :=
    fun m => Hash.lookup_insert_eq _ _ _ _
  refine h.of_conns rfl (fun m d hd => exists_of_insert hd hc rfl) fun m d hd hopen => ?_
  rw [hlookup] at hd
  split at hd
  · cases hd
    cases hopen
  · exact h.owner m d hd hopen

theorem Linked.finish (h : Linked s) (hc : s.conns.lookup num = some c) :
    Linked (s.finish num c) := by
  have hold : ∀ m d, (s.finish num c).conns.lookup m = some d → m ≠ num ∧ s.conns.lookup m = some d := by
    intro m d hd
    by_cases hm : m = num
    · rw [hm] at hd
      cases (lookup_erase num s.conns).symm.trans hd
    · exact ⟨hm, (lookup_erase_ne hm).symm.trans hd⟩
  refine h.of_conns rfl (fun m d hd => ⟨d, (hold m d hd).2, rfl⟩) fun m d hd hopen => ?_
  obtain ⟨hne, hd⟩ := hold m d hd
  refine (h.owner m d hd hopen).imp_left fun ⟨handle, hhandle, hconn⟩ => ⟨handle, ?_, hconn⟩
  have hid : d.clientId ≠ c.clientId := fun heq => hne (h.ids m num d c hd hc heq)
  exact (lookup_erase_ne hid).trans hhandle

theorem Linked.cleanup (h : Linked s)
    (hkeeps : s.conns.entries.all (fun e => e.2.keepsActive s.now) = true) :
    Linked { s with clients := s.clients.cleanupInactive s.now } := by
  refine ⟨h.fresh, h.ids, fun num c hc hopen => ?_⟩
  obtain ⟨handle, hhandle, hconn, hlast⟩ | hsilent := h.owner num c hc hopen
  · have hkeep := List.all_eq_true.mp hkeeps ⟨num, c⟩ (mem_lookup_iff.mp hc)
    simp only [Conn.keepsActive, hopen, Bool.not_true, Bool.false_or, Bool.or_eq_true,
      decide_eq_true_eq] at hkeep
    refine hkeep.symm.imp_left fun hactive => ⟨handle, ?_, hconn, hlast⟩
    exact (Hub.lookup_cleanupInactive s.clients).mpr ⟨hhandle, by omega⟩
  · exact .inr hsilent

end Step

theorem linked_step {s : State} {x : Input} (h : Linked s) (hx : steady s x = true) :
    Linked (machine.step s x).1 := by
  cases x with
  | connect clientId =>
    refine h.connect fun num c hc => ?_
    have hall := List.all_eq_true.mp hx ⟨num, c⟩ (mem_lookup_iff.mp hc)
    exact bne_iff_ne.mp hall
  | frame num f =>
    simp only [machine]
    cases hc : s.conns.lookup num with
    | none => exact h
    | some c =>
      simp only [steady, hc, all_some, decide_eq_true_eq] at hx
      dsimp only
      split
      · exact h.frame hc ‹_› hx
      · exact h
  | stop num =>
    simp only [machine]
    cases hc : s.conns.lookup num with
    | none => exact h
    | some c => exact h.stop hc
  | finish num =>
    simp only [machine]
    cases hc : s.conns.lookup num with
    | none => exact h
    | some c =>
      dsimp only
      split
      · exact h
      · exact h.finish hc
  | broadcast | push => exact h
  | heartbeat | cleanup => exact h.cleanup hx
  | pass seconds =>
    refine ⟨h.fresh, h.ids, fun num c hc hopen => (h.owner num c hc hopen).imp_right fun hlt => ?_⟩
    exact Nat.lt_add_right seconds hlt

/-! ## What reaches a connection -/

section Delivery

variable {s : State} {num : Nat} {c : Conn}

theorem send_of_open {handle : ClientHandle} (hc : s.conns.lookup handle.conn = some c)
    (hopen : c.isOpen = true) (m : Message) : s.send handle m = [(handle.conn, m)] := by
  rw [State.send, hc, any_some, if_pos hopen]

theorem State.Registered.broadcast (h : s.Registered num c) (hc : s.conns.lookup num = some c)
    (hopen : c.isOpen = true) (m : Message) : (num, m) ∈ s.broadcast m := by
  obtain ⟨handle, hhandle, rfl⟩ := h
  refine mem_flatMap.mpr ⟨⟨c.clientId, handle⟩, mem_lookup_iff.mp hhandle, ?_⟩
  rw [send_of_open hc hopen]
  exact mem_singleton_self _

theorem State.Registered.push (h : s.Registered num c) (hc : s.conns.lookup num = some c)
    (hopen : c.isOpen = true) (hasData : String → Bool) :
    ∃ handle, s.clients.lookup c.clientId = some handle ∧ handle.conn = num ∧
      ∀ m ∈ handle.sub.batch hasData, (num, m) ∈ s.pushSubscribedData hasData := by
  obtain ⟨handle, hhandle, rfl⟩ := h
  refine ⟨handle, hhandle, rfl, fun m hm => ?_⟩
  refine mem_flatMap.mpr ⟨⟨c.clientId, handle⟩, mem_lookup_iff.mp hhandle, ?_⟩
  rw [mem_def.mp hm, map_some, getD_some, send_of_open hc hopen]
  exact mem_singleton_self _

end Delivery

/-! ## Runs -/

theorem linked_start (now : Nat) : Linked (.start now) :=
  ⟨fun _ _ hc => (by cases hc), fun _ _ _ _ hc => (by cases hc), fun _ _ hc => (by cases hc)⟩

/-- An open connection with a frame in the last 300 seconds is registered, and what the hub sends
reaches it. -/
def ActiveRegistered : Prop :=
  ∀ num c t, s.conns.lookup num = some c → c.isOpen = true → c.lastFrame = some t → s.now ≤ t + 300 →
    s.Registered num c ∧ (∀ m, (num, m) ∈ s.broadcast m) ∧
      ∀ hasData, ∃ handle, s.clients.lookup c.clientId = some handle ∧ handle.conn = num ∧
        ∀ m ∈ handle.sub.batch hasData, (num, m) ∈ s.pushSubscribedData hasData

/-- **Active connections are registered**, in every run in which ids are not shared, frames come in
time and no cleanup finds a connection that was heard in time but not active. -/
theorem active_registered (now : Nat) (xs : List Input)
    (h : machine.Along (fun s x => steady s x = true) (.start now) xs) :
    ActiveRegistered (machine.run (.start now) xs) := by
  have hinv : Linked (machine.run (.start now) xs) :=
    machine.invariant (fun s (_ : List (Nat × Message)) => Linked s) (l := [])
      (fun _ _ _ hs hx => linked_step hs hx) (linked_start now) h
  intro num c t hc hopen hframe htime
  have hseen : c.lastSeen = t := by rw [Conn.lastSeen, hframe, getD_some]
  obtain ⟨handle, hhandle, hconn, -⟩ :=
    (hinv.owner num c hc hopen).resolve_right (Nat.not_lt.mpr (hseen ▸ htime))
  have hreg : (machine.run (.start now) xs).Registered num c := ⟨handle, hhandle, hconn⟩
  exact ⟨hreg, hreg.broadcast hc hopen, hreg.push hc hopen⟩

namespace SampleWs

/-- A ping and a pong behind it. -/
def pinging : List Input :=
  [.connect "a", .pass 200, .frame 0 .ping, .pass 40, .frame 0 .pong, .pass 100, .heartbeat]

/-- A pong only. -/
def ponging : List Input := [.connect "a", .pass 240, .frame 0 .pong, .pass 100, .heartbeat]

end SampleWs

theorem active_registered_pinging :
    (machine.run (.start 0) SampleWs.pinging).Registered 0 ⟨"a", true, 0, some 240, some 200⟩ :=
  (active_registered 0 SampleWs.pinging (by decide +kernel) 0 ⟨"a", true, 0, some 240, some 200⟩ 240
    (by decide +kernel) rfl rfl (by decide +kernel)).1

/-- A pong is a frame, but no activity: the heartbeat drops a client that answers it. -/
theorem pong_not_counted :
    ¬ ∀ (now : Nat) (xs : List Input), ActiveRegistered (machine.run (.start now) xs) := by
  intro h
  obtain ⟨⟨handle, hhandle, -⟩, -⟩ := h 0 SampleWs.ponging 0 ⟨"a", true, 0, some 240, none⟩ 240
    (by decide +kernel) rfl rfl (by decide +kernel)
  have hnone : (machine.run (.start 0) SampleWs.ponging).clients.lookup "a" = none := by decide +kernel
  rw [hnone] at hhandle
  cases hhandle

end VoltageEMS.Apigateway.Ws
