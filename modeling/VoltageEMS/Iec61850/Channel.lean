import VoltageEMS.Lib.Exchange
import VoltageEMS.Lib.Run
import VoltageEMS.Iec61850.Mms
import VoltageEMS.Model.Point

/-!
# The IEC 61850 channel

`Iec61850Channel` (`adapters/iec61850.rs`) over a connection that carries whole MMS PDUs.  An
`Exchange` is what the environment does with one request: whether it is sent, what the server does
until the receive returns or gives up, and how it gives up.
-/

namespace VoltageEMS.Iec61850

open Lib

/-! ## The connection -/

/-- A numbered PDU. -/
structure Request where
  invokeId : UInt8
  pdu : Bytes
deriving DecidableEq

/-- An information report. -/
def isReport (pdu : Bytes) : Bool := pdu.head? == some 0xA3

/-- An MMS server: a response carries the invoke id of its request, notices are reports. -/
def mmsService : Service Request Bytes where
  own r pdu := isReport pdu = false ∧ ∀ i ∈ invokeIdOf pdu, i = r.invokeId
  notice := isReport
  not_notice := fun h => h.1

/-- `Framer`, above its frames. -/
structure Framer where
  stream : Wire Request Bytes := {}
  pendingReports : List Bytes := []

/-- `recv_mms`, for what is there: reports are put aside. -/
def Framer.recvMms (f : Framer) : Option (Delivery Request Bytes) × Framer :=
  let r := f.stream.receive mmsService
  (r.1, { stream := r.2.2, pendingReports := f.pendingReports ++ r.2.1 })

/-- `drain_socket`: everything that is there must be a report. -/
def Framer.drainSocket (f : Framer) (ioError : Option String) :
    Except GatewayError (List Bytes) × Framer :=
  let f' : Framer := { stream := { f.stream with inbox := [] }, pendingReports := [] }
  match ioError with
  | some msg => (.error (.io msg), f')
  | none =>
    if f.stream.inbox.all fun d => isReport d.msg then
      (.ok (f.pendingReports ++ f.stream.inbox.map Delivery.msg), f')
    else (.error (.protocol ("IEC 61850: unexpected confirmed PDU while no request was outstanding; "
      ++ "reconnecting to avoid response misassociation")), f')

/-- How a send ends. -/
inductive SendEnd
  | sent
  | timeout
  | failed (msg : String)
deriving DecidableEq

/-- How a receive gives up. -/
inductive RecvEnd
  | timeout
  /-- the peer closed the connection, or it broke -/
  | closed (msg : String)
deriving DecidableEq

/-- What happens in an exchange. -/
structure Exchange where
  send : SendEnd := .sent
  during : List (Action mmsService) := []
  finish : RecvEnd := .timeout

/-- A request, numbered within its connection, and the message that was taken for its answer. -/
structure Paired where
  request : Nat × Request
  answer : Delivery Request Bytes

/-! ## Texts -/

/-- `derive_ctlmodel_item`. -/
def deriveCtlmodelItem (item : String) : Option String :=
  (splitOnce "$CO$".toList item.toList).map fun (ln, rest) =>
    String.ofList (ln ++ "$CF$".toList ++ rest.takeWhile (· != '$') ++ "$ctlModel".toList)

/-- `split_rcb_ref`. -/
def splitRcbRef (rcbRef : String) : Option (String × String) :=
  (splitOnce ['/'] rcbRef.toList).map fun (domain, base) => (String.ofList domain, String.ofList base)

/-! ## Values -/

/-- `Value`. -/
inductive Value
  | float (f : Float)
  | integer (i : Int64)
  | bool (b : Bool)
  | string (s : String)
  | null
deriving DecidableEq

/-- `mms_to_value`. -/
def mmsToValue : MmsValue → Value
  | .float32 f => .float f.toFloat
  | .float64 f => .float f
  | .integer i => .integer i
  | .unsigned u => .integer u.toInt64
  | .boolean b => .bool b
  | .visibleString s => .string s
  | .bitString .. | .utcTime _ | .octetString _ | .failure _ => .null

/-- `apply_transform`. -/
def applyTransform (value : Value) (transform : TransformConfig) : Value :=
  match value with
  | .float f => .float (transform.apply f)
  | .integer i => .float (transform.apply i.toFloat)
  | .bool b => .bool (transform.applyBool b)
  | .string s => .string s
  | .null => .null

/-! ## State -/

/-- `PointEntry`. -/
structure PointEntry where
  domain : String
  item : String
  id : Nat
  pointType : PointType
  transform : TransformConfig := {}

/-- `WriteEntry`. -/
structure WriteEntry where
  domain : String
  item : String
  ctrlModel : UInt8
deriving DecidableEq

/-- `ReportConfig`. -/
structure ReportConfig where
  rcbRef : String
  rptId : Option String := none
  datasetMembers : List String := []

/-- The id, unless blank. -/
def ReportConfig.trimmedRptId (config : ReportConfig) : Option String :=
  (config.rptId.map trim).filter fun id => !id.isEmpty

/-- `ConnectionState`. -/
inductive ConnectionState
  | disconnected
  | connecting
  | connected
  | error
deriving DecidableEq

/-- `Iec61850Channel`; the maps of write points by id are lists. -/
structure Channel where
  framer : Option Framer := none
  state : ConnectionState := .disconnected
  invokeId : UInt8 := 1
  points : List PointEntry
  ctrlPoints : List (Nat × WriteEntry)
  adjPoints : List (Nat × WriteEntry)
  reportConfigs : List ReportConfig := []
  subscribedReportIndices : List Nat := []
  activeReportIndices : List Nat := []
  pathToPoint : String → Option (Nat × PointType × TransformConfig)
  reportSkipSet : List Nat := []

/-- A point of the configuration; points with another kind of address are ignored. -/
structure PointConfig where
  id : Nat
  pointType : PointType
  address : Option WriteEntry
  transform : TransformConfig := {}
  enabled : Bool := true

/-- The points of the types. -/
def PointConfig.entries (points : List PointConfig) (types : List PointType) :
    List (PointConfig × WriteEntry) :=
  points.filterMap fun p =>
    match p.address with
    | some address => if p.enabled && types.contains p.pointType then some (p, address) else none
    | none => none

/-- `HashMap::insert`. -/
def insertEntry (entries : List (Nat × WriteEntry)) (id : Nat) (e : WriteEntry) :
    List (Nat × WriteEntry) :=
  if entries.any fun x => x.1 == id then entries.map fun x => if x.1 == id then (id, e) else x
  else entries ++ [(id, e)]

variable (c : Channel)

namespace Channel

/-- `new`. -/
def new (reports : List ReportConfig) (points : List PointConfig) : Channel :=
  let writes (t : PointType) : List (Nat × WriteEntry) :=
    (PointConfig.entries points [t]).foldl (fun m x => insertEntry m x.1.id x.2) []
  let polled : List PointEntry :=
    (PointConfig.entries points [.telemetry, .signal]).map fun x =>
      ⟨x.2.domain, x.2.item, x.1.id, x.1.pointType, x.1.transform⟩
  { points := polled
    ctrlPoints := writes .control
    adjPoints := writes .adjustment
    reportConfigs := reports
    pathToPoint := insertAll (fun _ => none)
      (polled.map fun p => (p.domain ++ "/" ++ p.item, (p.id, p.pointType, p.transform))) }

/-- `next_invoke_id`. -/
def nextInvokeId : UInt8 × Channel :=
  (c.invokeId, { c with invokeId := if c.invokeId = 255 then 1 else c.invokeId + 1 })

/-- `go_disconnected`. -/
def goDisconnected : Channel :=
  { c with
    framer := none
    state := .disconnected
    subscribedReportIndices := []
    activeReportIndices := []
    reportSkipSet := [] }

/-! ## One exchange -/

/-- `do_request_raw`. -/
def doRequestRaw (ex : Exchange) (req : Request) :
    Except GatewayError Paired × Channel :=
  match c.framer with
  | none => (.error (.protocol "IEC 61850: not connected"), c)
  | some f =>
    match ex.send with
    | .timeout => (.error .writeTimeout, c)
    | .failed msg => (.error (.io msg), c)
    | .sent =>
      match { f with stream := (f.stream.ask req).serve ex.during }.recvMms with
      | (some answer, f') =>
        (.ok ⟨(f.stream.sent, req), answer⟩, { c with framer := some f' })
      | (none, f') =>
        match ex.finish with
        | .timeout => (.error .readTimeout, { c with framer := some f' })
        | .closed msg =>
          (.error (.io msg), { c with framer := some { f' with stream := f'.stream.close } })

/-- `read_variable`: the invoke id of the response is dropped. -/
def readVariable (ex : Exchange) (invokeId : UInt8) (domain item : String) :
    Except GatewayError (Paired × MmsValue) × Channel :=
  match c.doRequestRaw ex ⟨invokeId, buildReadRequest invokeId domain item⟩ with
  | (.error e, c) => (.error e, c)
  | (.ok p, c) =>
    match parseReadResponse p.answer.msg with
    | .error e => (.error (e.within "IEC 61850: parse response: "), c)
    | .ok (_, value) => (.ok (p, value), c)

/-- `do_write`. -/
def doWrite (ex : Exchange) (req : Request) : Except GatewayError Paired × Channel :=
  match c.doRequestRaw ex req with
  | (.error e, c) => (.error e, c)
  | (.ok p, c) =>
    match parseWriteResponse p.answer.msg with
    | .error e => (.error (e.within "IEC 61850: write response: "), c)
    | .ok _ => (.ok p, c)

/-! ## Connecting -/

/-- A `ctlModel` to read: of a control point or not, its id, domain and item. -/
structure CtlModelRead where
  isCtrl : Bool
  id : Nat
  domain : String
  item : String

/-- The loops over the write points. -/
def detectWork : List CtlModelRead :=
  let reads (isCtrl : Bool) (entries : List (Nat × WriteEntry)) : List CtlModelRead :=
    entries.filterMap fun e =>
      (deriveCtlmodelItem e.2.item).map fun item => ⟨isCtrl, e.1, e.2.domain, item⟩
  reads true c.ctrlPoints ++ reads false c.adjPoints

/-- The model is stored. -/
def setCtrlModel (r : CtlModelRead) (ctrlModel : UInt8) : Channel :=
  let set (entries : List (Nat × WriteEntry)) : List (Nat × WriteEntry) :=
    entries.map fun e => if e.1 == r.id then (e.1, { e.2 with ctrlModel := ctrlModel }) else e
  if r.isCtrl then { c with ctrlPoints := set c.ctrlPoints }
  else { c with adjPoints := set c.adjPoints }

/-- The loop over what is to be read. -/
def detectLoop (exchange : Nat → Exchange) :
    List (CtlModelRead × Nat) → Channel → Except GatewayError Unit × Channel
  | [], c => (.ok (), c)
  | (r, i) :: work, c =>
    let (invokeId, c) := c.nextInvokeId
    match c.readVariable (exchange i) invokeId r.domain r.item with
    | (.ok (_, value), c) =>
      match value with
      | .integer n => detectLoop exchange work (c.setCtrlModel r n.toUInt64.toUInt8)
      | .unsigned n => detectLoop exchange work (c.setCtrlModel r n.toUInt8)
      | _ => detectLoop exchange work c
    | (.error .panicked, c) => (.error .panicked, c)
    | (.error _, c) => (.ok (), c)

/-- `RcbWriteResult`. -/
inductive RcbWriteResult
  | ok
  | notFound
  | err (e : GatewayError)

/-- `try_rcb_write_bool`. -/
def tryRcbWriteBool (ex : Exchange) (domain baseItem attr : String) (value : Bool) :
    RcbWriteResult × Channel :=
  let (invokeId, c) := c.nextInvokeId
  let item := baseItem ++ "$" ++ attr
  match c.doWrite ex ⟨invokeId, buildWriteSimpleBool invokeId domain item value⟩ with
  | (.ok _, c) => (.ok, c)
  | (.error e, c) => (if containsText e.toText "error code 10" then .notFound else .err e, c)

/-- `activate_report`. -/
def activateReport (configIndex : Nat) : Channel :=
  if c.activeReportIndices.contains configIndex then c
  else
    let members := ((c.reportConfigs[configIndex]?).map ReportConfig.datasetMembers).getD []
    { c with
      activeReportIndices := c.activeReportIndices ++ [configIndex]
      reportSkipSet := c.reportSkipSet ++ members.filterMap fun path =>
        (c.pathToPoint path).map Prod.fst }

/-- The exchanges of one report. -/
structure RcbExchanges where
  enable : Exchange := {}
  enableIndexed : Exchange := {}
  interrogate : Exchange := {}

/-- What follows an enabled report. -/
def enableReport (exs : RcbExchanges) (configIndex : Nat) (config : ReportConfig)
    (domain resolvedBase : String) : Channel :=
  let c := { c with subscribedReportIndices := c.subscribedReportIndices ++ [configIndex] }
  let routable := config.trimmedRptId.isSome || c.reportConfigs.length == 1
  let c := if routable then c.activateReport configIndex else c
  let (invokeId, c) := c.nextInvokeId
  (c.doWrite exs.interrogate
    ⟨invokeId, buildWriteSimpleBool invokeId domain (resolvedBase ++ "$GI") true⟩).2

/-- One report. -/
def subscribeReport (exs : RcbExchanges) (configIndex : Nat) (config : ReportConfig)
    (domain baseItem : String) : Channel :=
  match c.tryRcbWriteBool exs.enable domain baseItem "RptEna" true with
  | (.ok, c) => c.enableReport exs configIndex config domain baseItem
  | (.notFound, c) =>
    let indexed := baseItem ++ "01"
    match c.tryRcbWriteBool exs.enableIndexed domain indexed "RptEna" true with
    | (.ok, c) => c.enableReport exs configIndex config domain indexed
    | (.notFound, c) | (.err _, c) => c
  | (.err _, c) => c

/-- The loop over the reports. -/
def subscribeLoop (exchanges : Nat → RcbExchanges) :
    List (ReportConfig × Nat) → (seenRptIds : List String) → Channel → Channel
  | [], _, c => c
  | (config, i) :: work, seen, c =>
    match splitRcbRef config.rcbRef with
    | none => subscribeLoop exchanges work seen c
    | some (domain, baseItem) =>
      if c.reportConfigs.length > 1 then
        match config.trimmedRptId with
        | none => subscribeLoop exchanges work seen c
        | some rptId =>
          if seen.contains rptId then subscribeLoop exchanges work seen c
          else subscribeLoop exchanges work (rptId :: seen)
            (c.subscribeReport (exchanges i) i config domain baseItem)
      else subscribeLoop exchanges work seen
        (c.subscribeReport (exchanges i) i config domain baseItem)

/-- `subscribe_reports`. -/
def subscribeReports (exchanges : Nat → RcbExchanges) : Channel :=
  let c := { c with
    subscribedReportIndices := []
    activeReportIndices := []
    reportSkipSet := [] }
  subscribeLoop exchanges c.reportConfigs.zipIdx [] c

/-- What happens in a `connect`: the outcome of the handshakes, the order in which the hash maps
yield the write points, and the exchanges. -/
structure ConnectEnv where
  handshake : Except GatewayError Unit
  order : List CtlModelRead → List CtlModelRead
  perm : ∀ l, (order l).Perm l
  detect : Nat → Exchange
  subscribe : Nat → RcbExchanges

/-- The connection is made. -/
def opened : Channel := { c with framer := some {}, state := .connected }

/-- `connect`. -/
def connect (env : ConnectEnv) : Except GatewayError Unit × Channel :=
  match env.handshake with
  | .error e => (.error e, { c with state := .error })
  | .ok () =>
    match detectLoop env.detect (env.order c.opened.detectWork).zipIdx c.opened with
    | (.error e, c) => (.error e, c)
    | (.ok (), c) => (.ok (), c.subscribeReports env.subscribe)

/-! ## Polling -/

/-- A value that was read. -/
structure Reading where
  point : PointEntry
  value : Value
  source : Paired

/-- `PollResult`, with the reports before they are decoded. -/
structure PollResult where
  readings : List Reading := []
  reportPdus : List Bytes := []
  failures : List (Nat × String) := []

/-- What happens in a poll. -/
structure PollEnv where
  before : List (Action mmsService) := []
  drainError : Option String := none
  read : Nat → Exchange := fun _ => {}

/-- The loop over the points. -/
def pollLoop (read : Nat → Exchange) :
    List (PointEntry × Nat) → Channel → PollResult → Option PollResult × Channel
  | [], c, acc => (some acc, c)
  | (p, i) :: rest, c, acc =>
    if c.reportSkipSet.contains p.id then pollLoop read rest c acc
    else
      let (invokeId, c) := c.nextInvokeId
      match c.readVariable (read i) invokeId p.domain p.item with
      | (.ok (_, .failure code), c) =>
        pollLoop read rest c { acc with
          failures := acc.failures ++ [(p.id, "MMS data-access error " ++ toString code.toNat)] }
      | (.ok (source, value), c) =>
        pollLoop read rest c { acc with
          readings := acc.readings ++ [⟨p, applyTransform (mmsToValue value) p.transform, source⟩] }
      | (.error .panicked, c) => (none, c)
      | (.error .readTimeout, c) | (.error .writeTimeout, c) =>
        (some { acc with failures := acc.failures ++ [(p.id, "read timeout")] }, c.goDisconnected)
      | (.error e, c) =>
        (some { acc with failures := acc.failures ++ [(p.id, e.toText)] }, c.goDisconnected)

/-- What came since the last poll. -/
def drainReports (env : PollEnv) : Except GatewayError (List Bytes) × Channel :=
  match c.framer with
  | none => (.ok [], c)
  | some f =>
    let f := { f with stream := f.stream.serve env.before }
    if c.subscribedReportIndices.isEmpty then (.ok [], { c with framer := some f })
    else
      let (drained, f) := f.drainSocket env.drainError
      (drained, { c with framer := some f })

/-- `take_pending_reports`. -/
def takePendingReports : List Bytes × Channel :=
  match c.framer with
  | none => ([], c)
  | some f =>
    if c.subscribedReportIndices.isEmpty then ([], c)
    else (f.pendingReports, { c with framer := some { f with pendingReports := [] } })

/-- `poll_once`. -/
def pollOnce (env : PollEnv) : Option PollResult × Channel :=
  if c.state ≠ .connected then (some {}, c)
  else
    match c.drainReports env with
    | (.error _, c) => (some {}, c.goDisconnected)
    | (.ok reports, c) =>
      match pollLoop env.read c.points.zipIdx c {} with
      | (none, c) => (none, c)
      | (some result, c) =>
        let (mid, c) := c.takePendingReports
        (some { result with reportPdus := reports ++ mid }, c)

/-! ## Commands -/

/-- What a command carries. -/
inductive CommandValue
  | control (value : Bool)
  | adjustment (value : Float32)

/-- A command counted as written: where it went, what it carried and the exchange. -/
structure Written where
  pointId : Nat
  entry : WriteEntry
  value : CommandValue
  time : Bytes
  source : Paired

/-- The write request of the command. -/
def Written.pdu (w : Written) (invokeId : UInt8) : Bytes :=
  match w.value with
  | .control value => buildWriteBoolRequest invokeId w.entry.domain w.entry.item value w.time
  | .adjustment value => buildWriteF32Request invokeId w.entry.domain w.entry.item value w.time

/-- The exchanges of one command and the time it is stamped with. -/
structure CommandEnv where
  select : Exchange := {}
  operate : Exchange := {}
  time : Bytes := []

/-- How a selection ends. -/
inductive Selected
  | selected
  | refused
  | lost
  | panicked

/-- Select before operate. -/
def sboSelect (ex : Exchange) (domain item : String) : Selected × Channel :=
  let (invokeId, c) := c.nextInvokeId
  match c.doRequestRaw ex ⟨invokeId, buildSboSelectRequest invokeId domain item⟩ with
  | (.error _, c) => (.lost, c)
  | (.ok p, c) =>
    match parseSboSelectResponse p.answer.msg with
    | .ok true => (.selected, c)
    | .ok false => (.refused, c)
    | .error .panicked => (.panicked, c)
    | .error _ => (.refused, c)

/-- `write_control`, the loop; the value in the text of its first error is left out. -/
def controlLoop (env : Nat → CommandEnv) :
    List ((Nat × Float) × Nat) → Channel → List Written →
      Except GatewayError Unit × List Written × Channel
  | [], c, ok => (.ok (), ok, c)
  | ((pointId, value), i) :: rest, c, ok =>
    match c.ctrlPoints.lookup pointId with
    | none => controlLoop env rest c ok
    | some e =>
      if value != 0 && value != 1 then
        (.error (.protocol ("IEC 61850 control point " ++ toString pointId ++
          " only supports boolean SPC values 0 or 1")), ok, c)
      else if e.ctrlModel ≠ 1 ∧ e.ctrlModel ≠ 2 then
        (.error (.protocol ("IEC 61850 control point " ++ toString pointId ++ " uses ctlModel=" ++
          toString e.ctrlModel.toNat ++
          "; enhanced-security control is not yet supported safely")), ok, c)
      else
        let select := if e.ctrlModel = 2 then c.sboSelect (env i).select e.domain e.item
          else (.selected, c)
        match select with
        | (.panicked, c) => (.error .panicked, ok, c)
        | (.lost, c) => (.ok (), ok, c.goDisconnected)
        | (.refused, c) => controlLoop env rest c ok
        | (.selected, c) =>
          let (invokeId, c) := c.nextInvokeId
          let pdu := buildWriteBoolRequest invokeId e.domain e.item (value != 0) (env i).time
          match c.doWrite (env i).operate ⟨invokeId, pdu⟩ with
          | (.ok p, c) =>
            controlLoop env rest c (ok ++ [⟨pointId, e, .control (value != 0), (env i).time, p⟩])
          | (.error _, c) => (.ok (), ok, c.goDisconnected)

/-- `write_control`. -/
def writeControl (commands : List (Nat × Float)) (env : Nat → CommandEnv) :
    Except GatewayError Unit × List Written × Channel :=
  if c.state ≠ .connected then (.ok (), [], c) else controlLoop env commands.zipIdx c []

/-- `write_adjustment`, the loop. -/
def adjustmentLoop (env : Nat → CommandEnv) :
    List ((Nat × Float) × Nat) → Channel → List Written →
      Except GatewayError Unit × List Written × Channel
  | [], c, ok => (.ok (), ok, c)
  | ((pointId, value), i) :: rest, c, ok =>
    match c.adjPoints.lookup pointId with
    | none => adjustmentLoop env rest c ok
    | some e =>
      if e.ctrlModel ≠ 1 then
        (.error (.protocol ("IEC 61850 adjustment point " ++ toString pointId ++ " uses ctlModel=" ++
          toString e.ctrlModel.toNat ++
          "; only direct-normal APC control is currently supported")), ok, c)
      else
        let (invokeId, c) := c.nextInvokeId
        let pdu := buildWriteF32Request invokeId e.domain e.item value.toFloat32 (env i).time
        match c.doWrite (env i).operate ⟨invokeId, pdu⟩ with
        | (.ok p, c) =>
          adjustmentLoop env rest c
            (ok ++ [⟨pointId, e, .adjustment value.toFloat32, (env i).time, p⟩])
        | (.error _, c) => (.ok (), ok, c.goDisconnected)

/-- `write_adjustment`. -/
def writeAdjustment (adjustments : List (Nat × Float)) (env : Nat → CommandEnv) :
    Except GatewayError Unit × List Written × Channel :=
  if c.state ≠ .connected then (.ok (), [], c) else adjustmentLoop env adjustments.zipIdx c []

end Channel

/-! ## Runs -/

/-- The calls. -/
inductive Call
  | connect (env : Channel.ConnectEnv)
  | disconnect
  | pollOnce (env : Channel.PollEnv)
  | writeControl (commands : List (Nat × Float)) (env : Nat → Channel.CommandEnv)
  | writeAdjustment (adjustments : List (Nat × Float)) (env : Nat → Channel.CommandEnv)

/-- What is observed of a call. -/
inductive ChannelEvent
  | read (r : Channel.Reading)
  | written (w : Channel.Written)

/-- One call. -/
def step : Call → Channel × List ChannelEvent
  | .connect env => ((c.connect env).2, [])
  | .disconnect => (c.goDisconnected, [])
  | .pollOnce env =>
    let (result, c) := c.pollOnce env
    (c, ((result.map Channel.PollResult.readings).getD []).map .read)
  | .writeControl commands env =>
    let (_, ok, c) := c.writeControl commands env
    (c, ok.map .written)
  | .writeAdjustment adjustments env =>
    let (_, ok, c) := c.writeAdjustment adjustments env
    (c, ok.map .written)

/-- The channel under its calls. -/
def machine : Machine Channel Call ChannelEvent := ⟨step⟩

end VoltageEMS.Iec61850
