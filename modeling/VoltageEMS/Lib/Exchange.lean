import Mathlib.Data.List.TakeWhile

/-!
# Requests and answers on one connection

A client sends requests over a connection and takes messages from it in the order in which they
arrive.  The server answers a request at most once and never before an older one, but whenever it
likes; between its answers it sends notices that nobody asked for.

* `Wire.receive_own` — **association**: asked on a quiet wire, the first answer received is that of
  the request, and the wire is quiet again.
* `Wire.quiet_of_prompt` — if the answer comes in time, the wire is quiet after the exchange.
-/

namespace VoltageEMS.Lib

open List

variable {ρ μ : Type}

/-- The messages of a server: answers, and notices. -/
structure Service (ρ μ : Type) where
  own : ρ → μ → Prop
  notice : μ → Bool
  not_notice : ∀ {r : ρ} {m : μ}, own r m → notice m = false

/-- A message with the request it answers, numbered within its connection. -/
structure Delivery (ρ μ : Type) where
  request : Option (Nat × ρ)
  msg : μ

/-- The connection: what was asked, what has arrived. -/
structure Wire (ρ μ : Type) where
  sent : Nat := 0
  waiting : List (Nat × ρ) := []
  inbox : List (Delivery ρ μ) := []
  isOpen : Bool := true

/-- What a server may do: skip `skip` requests and answer the next, or send a notice. -/
inductive Action (S : Service ρ μ)
  | answer (skip : Nat) (reply : (r : ρ) → {m : μ // S.own r m})
  | notify (m : {m : μ // S.notice m = true})

/-- The oldest request is answered. -/
def Action.answersFirst {S : Service ρ μ} : Action S → Bool
  | .answer 0 _ => true
  | .answer (_ + 1) _ | .notify _ => false

namespace Wire

variable {S : Service ρ μ} {w : Wire ρ μ} {q : Nat × ρ}

/-- The client sends a request. -/
def ask (w : Wire ρ μ) (r : ρ) : Wire ρ μ :=
  { w with
    sent := w.sent + 1
    waiting := if w.isOpen then w.waiting ++ [(w.sent, r)] else w.waiting }

/-- The server acts. -/
def act (w : Wire ρ μ) : Action S → Wire ρ μ
  | .answer skip reply =>
    match w.waiting.drop skip with
    | [] => w
    | q :: rest => { w with waiting := rest, inbox := w.inbox ++ [⟨some q, (reply q.2).1⟩] }
  | .notify m => if w.isOpen then { w with inbox := w.inbox ++ [⟨none, m.1⟩] } else w

/-- The server acts several times. -/
def serve (w : Wire ρ μ) (acts : List (Action S)) : Wire ρ μ := acts.foldl act w

/-- The connection is lost. -/
def close (w : Wire ρ μ) : Wire ρ μ := { w with isOpen := false, waiting := [] }

/-- Take messages up to the first that is no notice. -/
def receive (S : Service ρ μ) (w : Wire ρ μ) : Option (Delivery ρ μ) × List μ × Wire ρ μ :=
  let notices := (w.inbox.takeWhile fun d => S.notice d.msg).map Delivery.msg
  match w.inbox.dropWhile fun d => S.notice d.msg with
  | [] => (none, notices, { w with inbox := [] })
  | d :: rest => (some d, notices, { w with inbox := rest })

/-! ## Quiet wires -/

/-- Nothing but notices. -/
def AllNotices (S : Service ρ μ) (l : List (Delivery ρ μ)) : Prop := ∀ d ∈ l, S.notice d.msg = true

theorem AllNotices.snoc {l : List (Delivery ρ μ)} (h : AllNotices S l)
    (m : {m : μ // S.notice m = true}) : AllNotices S (l ++ [⟨none, m.1⟩]) := by
  intro d hd
  rcases mem_append.mp hd with hd | hd
  · exact h d hd
  rw [mem_singleton.mp hd]
  exact m.2

theorem receive_of_allNotices (h : AllNotices S w.inbox) : (w.receive S).1 = none := by
  have hdrop : w.inbox.dropWhile (fun d => S.notice d.msg) = [] := List.dropWhile_eq_nil_iff.mpr h
  unfold Wire.receive
  rw [hdrop]

theorem receive_none (h : (w.receive S).1 = none) : (w.receive S).2.2 = { w with inbox := [] } := by
  unfold Wire.receive at h ⊢
  split at h
  · rfl
  · cases h

/-- No answer is outstanding. -/
structure Quiet (S : Service ρ μ) (w : Wire ρ μ) : Prop where
  waiting : w.waiting = []
  inbox : AllNotices S w.inbox

theorem Quiet.act (h : Quiet S w) (a : Action S) : Quiet S (w.act a) := by
  cases a with
  | answer skip reply =>
    have hact : w.act (.answer skip reply) = w := by simp [Wire.act, h.waiting]
    rwa [hact]
  | notify m =>
    simp only [Wire.act]
    split
    · exact ⟨h.waiting, h.inbox.snoc m⟩
    · exact h

theorem Quiet.serve (acts : List (Action S)) :
    ∀ {w : Wire ρ μ}, Quiet S w → Quiet S (w.serve acts) := by
  induction acts with
  | nil => exact fun h => h
  | cons a acts ih => exact fun h => ih (h.act a)

theorem quiet_close (h : (w.receive S).1 = none) : Quiet S (w.receive S).2.2.close := by
  rw [receive_none h]
  exact ⟨rfl, fun d hd => by cases hd⟩

/-! ## One request -/

/-- One request is under way on an otherwise quiet wire. -/
inductive Settling (S : Service ρ μ) (q : Nat × ρ) (w : Wire ρ μ) : Prop
  | lost (hquiet : Quiet S w) (hopen : w.isOpen = false)
  | waiting (hwaiting : w.waiting = [q]) (hinbox : AllNotices S w.inbox)
  | answered (hwaiting : w.waiting = []) (before : List (Delivery ρ μ)) (d : Delivery ρ μ)
      (after : List (Delivery ρ μ)) (hinbox : w.inbox = before ++ d :: after)
      (hrequest : d.request = some q) (hown : S.own q.2 d.msg) (hbefore : AllNotices S before)
      (hafter : AllNotices S after)

theorem Quiet.ask (h : Quiet S w) (r : ρ) : Settling S (w.sent, r) (w.ask r) := by
  cases hopen : w.isOpen with
  | true => exact .waiting (by simp [Wire.ask, hopen, h.waiting]) h.inbox
  | false => exact .lost ⟨by simp [Wire.ask, hopen, h.waiting], h.inbox⟩ hopen

@[simp] theorem isOpen_act (a : Action S) : (w.act a).isOpen = w.isOpen := by
  cases a <;> simp only [Wire.act] <;> split <;> rfl

theorem Settling.act (h : Settling S q w) (a : Action S) : Settling S q (w.act a) := by
  cases h with
  | lost hquiet hopen => exact .lost (hquiet.act a) (by rwa [isOpen_act])
  | waiting hwaiting hinbox =>
    cases a with
    | answer skip reply =>
      simp only [Wire.act, hwaiting]
      cases skip with
      | zero => exact .answered rfl w.inbox _ [] rfl rfl (reply q.2).2 hinbox (fun x hx => by cases hx)
      | succ skip =>
        rw [drop_succ_cons, drop_nil]
        exact .waiting hwaiting hinbox
    | notify m =>
      simp only [Wire.act]
      split
      · exact .waiting hwaiting (hinbox.snoc m)
      · exact .waiting hwaiting hinbox
  | answered hwaiting before d after hinbox hrequest hown hbefore hafter =>
    cases a with
    | answer skip reply =>
      simp only [Wire.act, hwaiting, drop_nil]
      exact .answered hwaiting before d after hinbox hrequest hown hbefore hafter
    | notify m =>
      simp only [Wire.act]
      split
      · exact .answered hwaiting before d (after ++ [⟨none, m.1⟩]) (by simp [hinbox]) hrequest hown
          hbefore (hafter.snoc m)
      · exact .answered hwaiting before d after hinbox hrequest hown hbefore hafter

theorem Settling.serve (acts : List (Action S)) :
    ∀ {w : Wire ρ μ}, Settling S q w → Settling S q (w.serve acts) := by
  induction acts with
  | nil => exact fun h => h
  | cons a acts ih => exact fun h => ih (h.act a)

variable {d : Delivery ρ μ}

theorem Settling.receive (h : Settling S q w) (hd : (w.receive S).1 = some d) :
    d.request = some q ∧ S.own q.2 d.msg ∧ Quiet S (w.receive S).2.2 := by
  cases h with
  | lost hquiet _ =>
    rw [receive_of_allNotices hquiet.inbox] at hd
    cases hd
  | waiting _ hinbox =>
    rw [receive_of_allNotices hinbox] at hd
    cases hd
  | answered hwaiting before d' after hinbox hrequest hown hbefore hafter =>
    have hdrop : w.inbox.dropWhile (fun d => S.notice d.msg) = d' :: after := by
      rw [hinbox, dropWhile_append_of_pos hbefore,
        dropWhile_cons_of_neg (by simp [S.not_notice hown])]
    unfold Wire.receive at hd ⊢
    rw [hdrop] at hd ⊢
    cases hd
    exact ⟨hrequest, hown, hwaiting, hafter⟩

variable {acts : List (Action S)}

/-- **Association.**  Asked on a quiet wire, the answer received is that of the request. -/
theorem receive_own {r : ρ} (h : Quiet S w) (hd : (((w.ask r).serve acts).receive S).1 = some d) :
    d.request = some (w.sent, r) ∧ S.own r d.msg ∧
      Quiet S (((w.ask r).serve acts).receive S).2.2 :=
  ((h.ask r).serve acts).receive hd

theorem length_waiting_act (w : Wire ρ μ) (a : Action S) :
    (w.act a).waiting.length ≤ w.waiting.length - (if a.answersFirst then 1 else 0) := by
  cases a with
  | answer skip reply =>
    simp only [Wire.act]
    cases hdrop : w.waiting.drop skip with
    | nil =>
      cases skip with
      | zero => simp_all
      | succ skip => simp [Action.answersFirst]
    | cons q rest =>
      have hlen := congrArg List.length hdrop
      simp only [length_drop, length_cons] at hlen
      simp only
      split <;> omega
  | notify m =>
    simp only [Wire.act]
    split <;> simp [Action.answersFirst]

theorem length_waiting_serve (acts : List (Action S)) : ∀ w : Wire ρ μ,
    (w.serve acts).waiting.length ≤ w.waiting.length - acts.countP Action.answersFirst := by
  induction acts with
  | nil => simp [Wire.serve]
  | cons a acts ih =>
    intro w
    have hact := length_waiting_act w a
    have hserve := ih (w.act a)
    rw [countP_cons]
    change ((w.act a).serve acts).waiting.length ≤ _
    omega

theorem quiet_of_prompt {r : ρ} (h : Quiet S w) (hprompt : ∃ a ∈ acts, a.answersFirst = true) :
    Quiet S (((w.ask r).serve acts).receive S).2.2 := by
  have hcount : 0 < acts.countP Action.answersFirst := List.countP_pos_iff.mpr hprompt
  have hone : (w.ask r).waiting.length ≤ 1 := by
    simp only [Wire.ask, h.waiting]
    split <;> simp
  have hnone : ((w.ask r).serve acts).waiting = [] := by
    have := length_waiting_serve acts (w.ask r)
    exact length_eq_zero_iff.mp (by omega)
  cases hd : (((w.ask r).serve acts).receive S).1 with
  | some d => exact (receive_own h hd).2.2
  | none =>
    rw [receive_none hd]
    exact ⟨hnone, fun d hd => by cases hd⟩

end Wire

end VoltageEMS.Lib
