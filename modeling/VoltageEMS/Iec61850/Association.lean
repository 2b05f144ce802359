import VoltageEMS.Iec61850.Channel

/-!
# Answers and their requests

No exchange of the channel looks at the invoke id of the answer.  What keeps answers with their
requests is that a request is sent only when no other answer is outstanding: polls and commands
close the connection when an exchange fails.  `connect` does not.
-/

namespace VoltageEMS.Iec61850

open Lib Channel List

/-! ## The property -/

/-- The message is the answer of this very request. -/
def Paired.Own (p : Paired) : Prop := p.answer.request = some p.request

/-- A value read comes from the response to the read request built for its point, a command counted
as written was confirmed by the response to the write request built for it; both carry the invoke
id. -/
def ChannelEvent.Associated : ChannelEvent → Prop
  | .read r =>
    r.source.Own ∧
    r.source.request.2.pdu =
      buildReadRequest r.source.request.2.invokeId r.point.domain r.point.item ∧
    ∃ value, parseReadResponse r.source.answer.msg = .ok (r.source.request.2.invokeId, value) ∧
      r.value = applyTransform (mmsToValue value) r.point.transform
  | .written w =>
    w.source.Own ∧ w.source.request.2.pdu = w.pdu w.source.request.2.invokeId ∧
      parseWriteResponse w.source.answer.msg = .ok w.source.request.2.invokeId

/-! ## The condition -/

/-- The answer comes before the receive gives up, unless the request was not sent or the connection
is lost. -/
def Exchange.settles (ex : Exchange) : Bool :=
  ex.send != .sent || ex.finish != .timeout || ex.during.any Action.answersFirst

/-- All three come in time. -/
def RcbSettles (exs : RcbExchanges) : Prop :=
  exs.enable.settles = true ∧ exs.enableIndexed.settles = true ∧ exs.interrogate.settles = true

/-- The requests of `connect` are answered in time. -/
def Settled (c : Channel) : Call → Prop
  | .connect env =>
    (∀ i < c.detectWork.length, (env.detect i).settles = true) ∧
    ∀ i < c.reportConfigs.length, RcbSettles (env.subscribe i)
  | .disconnect | .pollOnce _ | .writeControl .. | .writeAdjustment .. => True

/-! ## One exchange -/

/-- No answer is outstanding. -/
def Ready (c : Channel) : Prop := ∀ f, c.framer = some f → f.stream.Quiet mmsService

section Exchanges

variable {c : Channel}

theorem Ready.congr {c' : Channel} (h : Ready c) (hf : c'.framer = c.framer) : Ready c' :=
  fun f hf' => h f (hf ▸ hf')

theorem ready_goDisconnected (c : Channel) : Ready c.goDisconnected := fun f hf => by cases hf

theorem Ready.nextInvokeId (h : Ready c) : Ready c.nextInvokeId.2 := h.congr rfl

/-- **One exchange.**  The channel takes the answer of its own request, or none; if it comes in
time, none is left behind. -/
theorem doRequestRaw_cases (h : Ready c) (ex : Exchange) (req : Request) :
    (∃ p c', c.doRequestRaw ex req = (.ok p, c') ∧ p.Own ∧ p.request.2 = req ∧
      (∀ i ∈ invokeIdOf p.answer.msg, i = req.invokeId) ∧ Ready c') ∨
    ∃ e c', c.doRequestRaw ex req = (.error e, c') ∧ e ≠ .panicked ∧
      (ex.settles = true → Ready c') := by
  unfold doRequestRaw
  cases hf : c.framer with
  | none => exact .inr ⟨_, c, rfl, by simp, fun _ => h⟩
  | some f =>
    have hquiet := h f hf
    cases hsend : ex.send with
    | timeout | failed => exact .inr ⟨_, c, rfl, by simp, fun _ => h⟩
    | sent =>
      dsimp only [Framer.recvMms]
      cases hd : (((f.stream.ask req).serve ex.during).receive mmsService).1 with
      | some d =>
        obtain ⟨hrequest, hown, hready⟩ := Wire.receive_own hquiet hd
        refine .inl ⟨_, _, rfl, hrequest, rfl, hown.2, fun f' hf' => ?_⟩
        cases hf'
        exact hready
      | none =>
        cases hfinish : ex.finish with
        | closed msg =>
          refine .inr ⟨_, _, rfl, by simp, fun _ f' hf' => ?_⟩
          cases hf'
          exact Wire.quiet_close hd
        | timeout =>
          refine .inr ⟨_, _, rfl, by simp, fun hsettles f' hf' => ?_⟩
          have hprompt : ∃ a ∈ ex.during, a.answersFirst = true := by
            simpa [Exchange.settles, hsend, hfinish] using hsettles
          cases hf'
          exact Wire.quiet_of_prompt hquiet hprompt

theorem readVariable_cases (h : Ready c) (ex : Exchange) (invokeId : UInt8) (domain item : String) :
    (∃ p value c', c.readVariable ex invokeId domain item = (.ok (p, value), c') ∧ p.Own ∧
      p.request.2 = ⟨invokeId, buildReadRequest invokeId domain item⟩ ∧
      parseReadResponse p.answer.msg = .ok (invokeId, value) ∧ Ready c') ∨
    ∃ e c', c.readVariable ex invokeId domain item = (.error e, c') ∧
      (e = .panicked ∨ ex.settles = true → Ready c') := by
  unfold readVariable
  obtain ⟨p, c', heq, hown, hreq, hid, hready⟩ | ⟨e, c', heq, hpanic, hready⟩ :=
    doRequestRaw_cases h ex ⟨invokeId, buildReadRequest invokeId domain item⟩
  · rw [heq]
    cases hparse : parseReadResponse p.answer.msg with
    | error e =>
      exact .inr ⟨e.within "IEC 61850: parse response: ", c', by simp only [hparse], fun _ => hready⟩
    | ok r =>
      obtain ⟨id, value⟩ := r
      have hid' : id = invokeId := hid id (parseReadResponse_invokeId hparse)
      subst hid'
      exact .inl ⟨p, value, c', by simp only [hparse], hown, hreq, hparse, hready⟩
  rw [heq]
  exact .inr ⟨e, c', rfl, fun hor => hready (hor.resolve_left hpanic)⟩

theorem doWrite_cases (h : Ready c) (ex : Exchange) (req : Request) :
    (∃ p c', c.doWrite ex req = (.ok p, c') ∧ p.Own ∧ p.request.2 = req ∧
      parseWriteResponse p.answer.msg = .ok p.request.2.invokeId ∧ Ready c') ∨
    ∃ e c', c.doWrite ex req = (.error e, c') ∧ (ex.settles = true → Ready c') := by
  unfold doWrite
  obtain ⟨p, c', heq, hown, hreq, hid, hready⟩ | ⟨e, c', heq, -, hready⟩ :=
    doRequestRaw_cases h ex req
  · rw [heq]
    cases hparse : parseWriteResponse p.answer.msg with
    | error e =>
      exact .inr ⟨e.within "IEC 61850: write response: ", c', by simp only [hparse], fun _ => hready⟩
    | ok id =>
      have hid' : id = p.request.2.invokeId := by
        rw [hreq]
        exact hid id (parseWriteResponse_invokeId hparse)
      exact .inl ⟨p, c', by simp only [hparse], hown, hreq, by rw [hparse, hid'], hready⟩
  rw [heq]
  exact .inr ⟨e, c', rfl, hready⟩

end Exchanges

/-! ## Connecting -/

section Connecting

variable {c : Channel}

theorem Ready.setCtrlModel (h : Ready c) (r : CtlModelRead) (ctrlModel : UInt8) :
    Ready (c.setCtrlModel r ctrlModel) := by
  unfold Channel.setCtrlModel
  split <;> exact h.congr rfl

theorem ready_detectLoop {exchange : Nat → Exchange} :
    ∀ {work : List (CtlModelRead × Nat)} {c : Channel}, Ready c →
      (∀ e ∈ work, (exchange e.2).settles = true) → Ready (detectLoop exchange work c).2
  | [], _, h, _ => h
  | (r, i) :: work, c, h, hwork => by
    have hrest : ∀ e ∈ work, (exchange e.2).settles = true := fun e he => hwork e (.tail _ he)
    unfold detectLoop
    dsimp only
    obtain ⟨p, value, c', heq, -, -, -, hready⟩ | ⟨e, c', heq, hready⟩ :=
      readVariable_cases h.nextInvokeId (exchange i) c.nextInvokeId.1 r.domain r.item
    · rw [heq]
      cases value with
      | integer | unsigned => exact ready_detectLoop (hready.setCtrlModel r _) hrest
      | _ => exact ready_detectLoop hready hrest
    have hsettled := hready (.inr (hwork (r, i) (.head _)))
    rw [heq]
    cases e <;> exact hsettled

theorem ready_doWrite (h : Ready c) {ex : Exchange} (hex : ex.settles = true) (req : Request) :
    Ready (c.doWrite ex req).2 := by
  obtain ⟨p, c', heq, -, -, -, hready⟩ | ⟨e, c', heq, hready⟩ := doWrite_cases h ex req
  · rw [heq]
    exact hready
  rw [heq]
  exact hready hex

theorem ready_tryRcbWriteBool (h : Ready c) {ex : Exchange} (hex : ex.settles = true)
    (domain baseItem attr : String) (value : Bool) :
    Ready (c.tryRcbWriteBool ex domain baseItem attr value).2 := by
  have hwrite := ready_doWrite h.nextInvokeId hex ⟨c.nextInvokeId.1,
    buildWriteSimpleBool c.nextInvokeId.1 domain (baseItem ++ "$" ++ attr) value⟩
  unfold tryRcbWriteBool
  dsimp only
  split
  · rename_i heq
    rwa [heq] at hwrite
  rename_i heq
  rwa [heq] at hwrite

theorem Ready.activateReport (h : Ready c) (i : Nat) : Ready (c.activateReport i) := by
  unfold Channel.activateReport
  split
  · exact h
  · exact h.congr rfl

variable {exs : RcbExchanges}

theorem ready_enableReport (h : Ready c) (hex : exs.interrogate.settles = true) (i : Nat)
    (config : ReportConfig) (domain base : String) :
    Ready (c.enableReport exs i config domain base) := by
  have hsub : Ready { c with subscribedReportIndices := c.subscribedReportIndices ++ [i] } :=
    h.congr rfl
  unfold enableReport
  dsimp only
  split
  · exact ready_doWrite (hsub.activateReport i).nextInvokeId hex _
  · exact ready_doWrite hsub.nextInvokeId hex _

theorem ready_subscribeReport (h : Ready c) (hexs : RcbSettles exs) (i : Nat)
    (config : ReportConfig) (domain base : String) :
    Ready (c.subscribeReport exs i config domain base) := by
  obtain ⟨henable, hindexed, hinterrogate⟩ := hexs
  have hfirst := ready_tryRcbWriteBool h henable domain base "RptEna" true
  unfold subscribeReport
  split
  · rename_i heq
    rw [heq] at hfirst
    exact ready_enableReport hfirst hinterrogate i config domain base
  · rename_i c' heq
    rw [heq] at hfirst
    have hsecond := ready_tryRcbWriteBool hfirst hindexed domain (base ++ "01") "RptEna" true
    dsimp only
    split
    · rename_i heq
      rw [heq] at hsecond
      exact ready_enableReport hsecond hinterrogate i config domain (base ++ "01")
    · rename_i heq
      rwa [heq] at hsecond
    rename_i heq
    rwa [heq] at hsecond
  rename_i heq
  rwa [heq] at hfirst

theorem ready_subscribeLoop {exchanges : Nat → RcbExchanges} :
    ∀ {work : List (ReportConfig × Nat)} {seen : List String} {c : Channel}, Ready c →
      (∀ e ∈ work, RcbSettles (exchanges e.2)) → Ready (subscribeLoop exchanges work seen c)
  | [], _, _, h, _ => h
  | (config, i) :: work, seen, c, h, hwork => by
    have hrest : ∀ e ∈ work, RcbSettles (exchanges e.2) := fun e he => hwork e (.tail _ he)
    have hthis : ∀ domain base, Ready (c.subscribeReport (exchanges i) i config domain base) :=
      fun domain base => ready_subscribeReport h (hwork (config, i) (.head _)) i config domain base
    unfold subscribeLoop
    split
    · exact ready_subscribeLoop h hrest
    split
    · split
      · exact ready_subscribeLoop h hrest
      split
      · exact ready_subscribeLoop h hrest
      · exact ready_subscribeLoop (hthis _ _) hrest
    · exact ready_subscribeLoop (hthis _ _) hrest

theorem readVariable_reportConfigs (c : Channel) (ex : Exchange) (invokeId : UInt8)
    (domain item : String) :
    (c.readVariable ex invokeId domain item).2.reportConfigs = c.reportConfigs := by
  have hraw : ∀ req, (c.doRequestRaw ex req).2.reportConfigs = c.reportConfigs := by
    intro req
    unfold doRequestRaw
    repeat' split
    all_goals rfl
  have hreq := hraw ⟨invokeId, buildReadRequest invokeId domain item⟩
  unfold readVariable
  split
  · rename_i heq
    rwa [heq] at hreq
  rename_i heq
  rw [heq] at hreq
  split <;> exact hreq

theorem detectLoop_reportConfigs (exchange : Nat → Exchange) :
    ∀ (work : List (CtlModelRead × Nat)) (c : Channel),
      (detectLoop exchange work c).2.reportConfigs = c.reportConfigs
  | [], _ => rfl
  | (r, i) :: work, c => by
    have hread := readVariable_reportConfigs c.nextInvokeId.2 (exchange i) c.nextInvokeId.1 r.domain
      r.item
    have hset : ∀ (c : Channel) (n : UInt8), (c.setCtrlModel r n).reportConfigs = c.reportConfigs := by
      intro c n
      unfold setCtrlModel
      split <;> rfl
    unfold detectLoop
    dsimp only
    split
    · rename_i heq
      rw [heq] at hread
      split
      · rw [detectLoop_reportConfigs, hset]
        exact hread
      · rw [detectLoop_reportConfigs, hset]
        exact hread
      rw [detectLoop_reportConfigs]
      exact hread
    · rename_i heq
      rwa [heq] at hread
    rename_i heq
    rwa [heq] at hread

theorem ready_connect {env : ConnectEnv} (hs : Settled c (.connect env))
    (hstate : (c.connect env).2.state = .connected) : Ready (c.connect env).2 := by
  obtain ⟨hdetect, hsubscribe⟩ := hs
  unfold connect at hstate ⊢
  cases hhand : env.handshake with
  | error e =>
    rw [hhand] at hstate
    cases hstate
  | ok u =>
    -- the connection is new, whatever became of the old one
    have hnew : Ready c.opened := by
      intro f hf
      cases hf
      exact ⟨rfl, fun d hd => by cases hd⟩
    have hwork : ∀ e ∈ (env.order c.opened.detectWork).zipIdx, (env.detect e.2).settles = true := by
      intro e he
      refine hdetect e.2 ?_
      change e.2 < c.opened.detectWork.length
      rw [← (env.perm _).length_eq]
      exact (List.getElem?_eq_some_iff.mp (mem_zipIdx_iff_getElem?.mp he)).1
    have hready := ready_detectLoop hnew hwork
    have hconfigs := detectLoop_reportConfigs env.detect (env.order c.opened.detectWork).zipIdx
      c.opened
    dsimp only
    split
    · rename_i heq
      rwa [heq] at hready
    rename_i c' heq
    rw [heq] at hready hconfigs
    refine ready_subscribeLoop (hready.congr rfl) fun e he => hsubscribe e.2 ?_
    have := (List.getElem?_eq_some_iff.mp (mem_zipIdx_iff_getElem?.mp he)).1
    rwa [← show c'.reportConfigs = c.reportConfigs from hconfigs]

end Connecting

/-! ## Polling and commands -/

section Calls

variable {c : Channel}

theorem pollLoop_associated (read : Nat → Exchange) :
    ∀ (work : List (PointEntry × Nat)) {c : Channel} {acc : PollResult}, Ready c →
      (∀ r ∈ acc.readings, (ChannelEvent.read r).Associated) →
      (∀ result, (pollLoop read work c acc).1 = some result →
        ∀ r ∈ result.readings, (ChannelEvent.read r).Associated) ∧
      Ready (pollLoop read work c acc).2
  | [], c, acc, h, hacc => ⟨fun result heq => (by cases heq; exact hacc), h⟩
  | (p, i) :: rest, c, acc, h, hacc => by
    unfold pollLoop
    split
    · exact pollLoop_associated read rest h hacc
    dsimp only
    obtain ⟨source, value, c', heq, hown, hreq, hparse, hready⟩ | ⟨e, c', heq, hready⟩ :=
      readVariable_cases h.nextInvokeId (read i) c.nextInvokeId.1 p.domain p.item
    · have hnew : (ChannelEvent.read
          ⟨p, applyTransform (mmsToValue value) p.transform, source⟩).Associated := by
        refine ⟨hown, ?_, value, ?_, rfl⟩
        · rw [hreq]
        rw [hreq]
        exact hparse
      have hacc' : ∀ r ∈ acc.readings ++
          [⟨p, applyTransform (mmsToValue value) p.transform, source⟩],
          (ChannelEvent.read r).Associated := by
        intro r hr
        rcases mem_append.mp hr with hr | hr
        · exact hacc r hr
        rw [mem_singleton.mp hr]
        exact hnew
      rw [heq]
      cases value with
      | failure code => exact pollLoop_associated read rest hready hacc
      | _ => exact pollLoop_associated read rest hready hacc'
    rw [heq]
    cases e with
    | panicked => exact ⟨fun result hres => (by cases hres), hready (.inl rfl)⟩
    | _ => exact ⟨fun result hres => (by cases hres; exact hacc), ready_goDisconnected c'⟩

theorem ready_drainReports (h : Ready c) (env : PollEnv) : Ready (c.drainReports env).2 := by
  unfold drainReports
  split
  · exact h
  rename_i f hf
  have hserved := (h f hf).serve env.before
  dsimp only
  split
  · intro f' hf'
    cases hf'
    exact hserved
  intro f' hf'
  cases hf'
  unfold Framer.drainSocket
  dsimp only
  repeat' split
  all_goals exact ⟨hserved.waiting, fun d hd => by cases hd⟩

theorem pollOnce_associated (h : c.state = .connected → Ready c) (env : PollEnv) :
    (∀ result, (c.pollOnce env).1 = some result →
      ∀ r ∈ result.readings, (ChannelEvent.read r).Associated) ∧
    ((c.pollOnce env).2.state = .connected → Ready (c.pollOnce env).2) := by
  have hnone : ∀ result : PollResult, some {} = some result →
      ∀ r ∈ result.readings, (ChannelEvent.read r).Associated := by
    intro result heq r hr
    cases heq
    cases hr
  unfold pollOnce
  split
  · exact ⟨hnone, h⟩
  rename_i hstate
  have hdrain := ready_drainReports (h (Classical.not_not.mp hstate)) env
  split
  · exact ⟨hnone, fun _ => ready_goDisconnected _⟩
  rename_i reports c' heq
  rw [heq] at hdrain
  obtain ⟨hreadings, hready⟩ :=
    pollLoop_associated env.read c'.points.zipIdx hdrain (hnone {} rfl)
  split
  · rename_i hloop
    rw [hloop] at hready
    exact ⟨fun result heq => (by cases heq), fun _ => hready⟩
  rename_i result c'' hloop
  rw [hloop] at hready hreadings
  refine ⟨fun r hr => (by cases hr; exact hreadings result rfl), fun _ => ?_⟩
  unfold takePendingReports
  dsimp only
  repeat' split
  · exact hready
  · exact hready
  rename_i f hf _
  intro f' hf'
  cases hf'
  exact hready f hf

theorem ready_sboSelect (h : Ready c) (ex : Exchange) (domain item : String) :
    (c.sboSelect ex domain item).1 = .lost ∨ Ready (c.sboSelect ex domain item).2 := by
  unfold sboSelect
  dsimp only
  obtain ⟨p, c', heq, -, -, -, hready⟩ | ⟨e, c', heq, -, -⟩ :=
    doRequestRaw_cases h.nextInvokeId ex
      ⟨c.nextInvokeId.1, buildSboSelectRequest c.nextInvokeId.1 domain item⟩
  · rw [heq]
    dsimp only
    repeat' split
    all_goals exact .inr hready
  rw [heq]
  exact .inl rfl

/-- What the loops of the two commands keep. -/
def WritesAssociated (r : Except GatewayError Unit × List Written × Channel) : Prop :=
  (∀ w ∈ r.2.1, (ChannelEvent.written w).Associated) ∧ Ready r.2.2

theorem writes_of_loop {loop : Except GatewayError Unit × List Written × Channel}
    (h : c.state = .connected → Ready c) (hloop : Ready c → WritesAssociated loop) :
    let r := if c.state ≠ .connected then (.ok (), [], c) else loop
    (∀ w ∈ r.2.1, (ChannelEvent.written w).Associated) ∧
      (r.2.2.state = .connected → Ready r.2.2) := by
  dsimp only
  split
  · exact ⟨fun w hw => (by cases hw), h⟩
  rename_i hstate
  obtain ⟨hok, hready⟩ := hloop (h (Classical.not_not.mp hstate))
  exact ⟨hok, fun _ => hready⟩

theorem writesAssociated_snoc {ok : List Written} {new : Written}
    (hok : ∀ w ∈ ok, (ChannelEvent.written w).Associated)
    (hnew : (ChannelEvent.written new).Associated) :
    ∀ w ∈ ok ++ [new], (ChannelEvent.written w).Associated := by
  intro w hw
  rcases mem_append.mp hw with hw | hw
  · exact hok w hw
  rwa [mem_singleton.mp hw]

theorem adjustmentLoop_associated (env : Nat → CommandEnv) :
    ∀ (work : List ((Nat × Float) × Nat)) {c : Channel} {ok : List Written}, Ready c →
      (∀ w ∈ ok, (ChannelEvent.written w).Associated) →
      WritesAssociated (adjustmentLoop env work c ok)
  | [], _, _, h, hok => ⟨hok, h⟩
  | ((pointId, value), i) :: rest, c, ok, h, hok => by
    unfold adjustmentLoop
    split
    · exact adjustmentLoop_associated env rest h hok
    split
    · exact ⟨hok, h⟩
    rename_i e _ _
    dsimp only
    obtain ⟨p, c', heq, hown, hreq, hparse, hready⟩ | ⟨e, c', heq, -⟩ :=
      doWrite_cases h.nextInvokeId (env i).operate ⟨c.nextInvokeId.1,
        buildWriteF32Request c.nextInvokeId.1 e.domain e.item value.toFloat32 (env i).time⟩
    · rw [heq]
      exact adjustmentLoop_associated env rest hready
        (writesAssociated_snoc hok ⟨hown, by rw [hreq]; rfl, hparse⟩)
    rw [heq]
    exact ⟨hok, ready_goDisconnected c'⟩

theorem controlLoop_associated (env : Nat → CommandEnv) :
    ∀ (work : List ((Nat × Float) × Nat)) {c : Channel} {ok : List Written}, Ready c →
      (∀ w ∈ ok, (ChannelEvent.written w).Associated) →
      WritesAssociated (controlLoop env work c ok)
  | [], _, _, h, hok => ⟨hok, h⟩
  | ((pointId, value), i) :: rest, c, ok, h, hok => by
    unfold controlLoop
    split
    · exact controlLoop_associated env rest h hok
    rename_i e _
    split
    · exact ⟨hok, h⟩
    split
    · exact ⟨hok, h⟩
    -- the select step of SBO control, nothing for direct control
    have hselect : ∀ {r : Selected × Channel},
        (if e.ctrlModel = 2 then c.sboSelect (env i).select e.domain e.item
          else (.selected, c)) = r → r.1 = .lost ∨ Ready r.2 := by
      rintro _ rfl
      split
      · exact ready_sboSelect h _ _ _
      · exact .inr h
    dsimp only
    split
    · rename_i heq
      exact ⟨hok, (hselect heq).resolve_left (by simp)⟩
    · exact ⟨hok, ready_goDisconnected _⟩
    · rename_i heq
      exact controlLoop_associated env rest ((hselect heq).resolve_left (by simp)) hok
    rename_i c' heq
    have hready := (hselect heq).resolve_left (by simp)
    obtain ⟨p, c'', heq, hown, hreq, hparse, hready⟩ | ⟨e', c'', heq, -⟩ :=
      doWrite_cases hready.nextInvokeId (env i).operate ⟨c'.nextInvokeId.1,
        buildWriteBoolRequest c'.nextInvokeId.1 e.domain e.item (value != 0) (env i).time⟩
    · rw [heq]
      exact controlLoop_associated env rest hready
        (writesAssociated_snoc hok ⟨hown, by rw [hreq]; rfl, hparse⟩)
    rw [heq]
    exact ⟨hok, ready_goDisconnected c''⟩

end Calls

/-! ## Runs -/

/-- **One call.** -/
theorem step_associated {c : Channel} {call : Call} (h : c.state = .connected → Ready c)
    (hs : Settled c call) :
    (∀ e ∈ (step c call).2, e.Associated) ∧
      ((step c call).1.state = .connected → Ready (step c call).1) := by
  have hnone : ∀ w ∈ ([] : List Written), (ChannelEvent.written w).Associated :=
    fun w hw => by cases hw
  cases call with
  | connect env => exact ⟨fun e he => (by cases he), ready_connect hs⟩
  | disconnect => exact ⟨fun e he => (by cases he), fun _ => ready_goDisconnected c⟩
  | pollOnce env =>
    obtain ⟨hreadings, hready⟩ := pollOnce_associated h env
    refine ⟨fun e he => ?_, hready⟩
    change e ∈ (((c.pollOnce env).1.map PollResult.readings).getD []).map ChannelEvent.read at he
    obtain ⟨r, hr, rfl⟩ := mem_map.mp he
    cases hresult : (c.pollOnce env).1 with
    | none => simp [hresult] at hr
    | some result => exact hreadings result hresult r (by simpa [hresult] using hr)
  | writeControl commands env =>
    obtain ⟨hwrites, hready⟩ := writes_of_loop h fun hr =>
      controlLoop_associated env commands.zipIdx hr hnone
    refine ⟨fun e he => ?_, hready⟩
    obtain ⟨w, hw, rfl⟩ := mem_map.mp he
    exact hwrites w hw
  | writeAdjustment adjustments env =>
    obtain ⟨hwrites, hready⟩ := writes_of_loop h fun hr =>
      adjustmentLoop_associated env adjustments.zipIdx hr hnone
    refine ⟨fun e he => ?_, hready⟩
    obtain ⟨w, hw, rfl⟩ := mem_map.mp he
    exact hwrites w hw

/-- **Association.**  If every request of `connect` is answered before its receive gives up, then in
every sequence of calls every value read comes from the answer of its own read request and every
command counted as written was confirmed by that of its own write request. -/
theorem associated_of_settled (reports : List ReportConfig) (points : List PointConfig)
    (calls : List Call) (h : machine.Along Settled (Channel.new reports points) calls) :
    ∀ e ∈ machine.trace (Channel.new reports points) calls, e.Associated := by
  have hrun := machine.invariant
    (fun c log => (∀ e ∈ log, e.Associated) ∧ (c.state = .connected → Ready c))
    (fun c log call hinv hs => by
      obtain ⟨hevents, hready⟩ := step_associated hinv.2 hs
      refine ⟨fun e he => ?_, hready⟩
      exact (mem_append.mp he).elim (hinv.1 e) (hevents e))
    (s := Channel.new reports points) (l := [])
    ⟨fun e he => (by cases he), fun hstate => by cases hstate⟩ h
  exact hrun.1

/-! ## A late answer -/

private def breakerPoints : List PointConfig :=
  [⟨1, .control, some ⟨"LD0", "GGIO1$CO$SPCSO1$Oper$ctlVal", 1⟩, {}, true⟩,
   ⟨101, .telemetry, some ⟨"LD0", "GGIO1$MX$AnIn1$mag$f", 1⟩, {}, true⟩]

/-- A response with the invoke id of its request; it reads the integer one. -/
private def replyOne (r : Request) : {m : Bytes // mmsService.own r m} :=
  ⟨[0xA1, 0x0A, 0x02, 0x01, r.invokeId, 0xA4, 0x05, 0xA1, 0x03, 0x85, 0x01, 0x01], by
    refine ⟨rfl, fun i hi => ?_⟩
    simpa [invokeIdOf, parseTlv, parseBerLen] using hi.symm⟩

private def connectWith (detect : Exchange) : Call :=
  .connect ⟨.ok (), id, fun _ => .refl _, fun _ => detect, fun _ => {}⟩

private def answerOne : Action mmsService := .answer 0 replyOne

private def promptPoll : Call := .pollOnce { read := fun _ => ⟨.sent, [answerOne], .timeout⟩ }

/-- The control model of the breaker comes in time; the voltage is read from its own answer. -/
theorem associated_of_settled_breaker :
    machine.Along Settled (Channel.new [] breakerPoints)
      [connectWith ⟨.sent, [answerOne], .timeout⟩, promptPoll] ∧
    ∀ e ∈ machine.trace (Channel.new [] breakerPoints)
      [connectWith ⟨.sent, [answerOne], .timeout⟩, promptPoll], e.Associated := by
  have hsettled : machine.Along Settled (Channel.new [] breakerPoints)
      [connectWith ⟨.sent, [answerOne], .timeout⟩, promptPoll] :=
    ⟨⟨fun _ _ => rfl, fun i hi => absurd hi (Nat.not_lt_zero i)⟩, trivial, trivial⟩
  exact ⟨hsettled, associated_of_settled [] breakerPoints _ hsettled⟩

private def invokeIds : ChannelEvent → UInt8 × Option UInt8
  | .read r => (r.source.request.2.invokeId, invokeIdOf r.source.answer.msg)
  | .written w => (w.source.request.2.invokeId, invokeIdOf w.source.answer.msg)

private theorem invokeIds_of_associated {e : ChannelEvent} (h : e.Associated) :
    (invokeIds e).2 = some (invokeIds e).1 := by
  cases e with
  | read r =>
    obtain ⟨-, -, value, hparse, -⟩ := h
    exact parseReadResponse_invokeId hparse
  | written w => exact parseWriteResponse_invokeId h.2.2

/-- The control model comes when `connect` has given up; the next poll takes it for the voltage it
asked for. -/
theorem late_ctlModel_read_as_value :
    ¬ ∀ e ∈ machine.trace (Channel.new [] breakerPoints) [connectWith {}, promptPoll],
      e.Associated := by
  intro h
  have hids : (machine.trace (Channel.new [] breakerPoints) [connectWith {}, promptPoll]).map
      invokeIds = [(2, some 1)] := by
    decide
  obtain ⟨e, he, hpair⟩ := List.map_eq_singleton_iff.mp hids
  rw [he] at h
  have hid := invokeIds_of_associated (h e (.head _))
  rw [hpair] at hid
  exact absurd hid (by decide)

end VoltageEMS.Iec61850
