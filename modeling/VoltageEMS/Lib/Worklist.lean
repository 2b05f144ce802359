import Mathlib.Data.Finset.Card
import Mathlib.Data.Finset.Insert

/-!
# Worklists

A graph is walked with a queue: the node at its head is skipped when it was visited before, else it
is visited and its successors are appended.  The walk stops when the queue is empty, or at the node
that would exceed a cap on the number of visits.

* `drain_ends` — **the induction rule**: what the rounds preserve holds where the walk ends.
* `walk_drain` — what the path and the edges recorded by the visits have to do with each other.
* `drain_visitAll` — a walk works on the data after the visits of its path.
-/

namespace VoltageEMS.Lib

open List Option

/-- The nodes to do, those done in their order, and the data of the visits. -/
structure Search (α σ : Type) [DecidableEq α] where
  queue : List α
  visited : Finset α
  path : List α
  data : σ

variable {α σ : Type} [DecidableEq α]

/-- How a walk works: the cap, what a visit does and schedules, what happens beyond the cap. -/
structure Walker (α σ : Type) where
  cap : Nat
  visit : σ → α → σ × List α
  overflow : σ → σ

namespace Walker

variable (W : Walker α σ)

/-- The rounds, until the queue is empty or the cap is exceeded. -/
def drain (s : Search α σ) : Search α σ :=
  match s with
  | ⟨[], _, _, _⟩ => s
  | ⟨id :: rest, visited, path, data⟩ =>
    if id ∈ visited then drain ⟨rest, visited, path, data⟩
    else if W.cap < (insert id visited).card then ⟨rest, insert id visited, path, W.overflow data⟩
    else
      drain ⟨rest ++ (W.visit data id).2, insert id visited, path ++ [id], (W.visit data id).1⟩
termination_by (W.cap + 1 - s.visited.card, s.queue.length)
decreasing_by
  · exact Prod.Lex.right _ (Nat.lt_succ_self _)
  rename_i hid hcap
  refine Prod.Lex.left _ _ ?_
  rw [Finset.card_insert_of_notMem hid] at hcap
  simp only [Finset.card_insert_of_notMem hid]
  omega

/-- After the visit of `id`. -/
def visited (s : Search α σ) (id : α) (rest : List α) : Search α σ where
  queue := rest ++ (W.visit s.data id).2
  visited := insert id s.visited
  path := s.path ++ [id]
  data := (W.visit s.data id).1

/-- The node `id` is one too many. -/
def Exceeds (s : Search α σ) (id : α) (rest : List α) : Prop :=
  s.queue = id :: rest ∧ id ∉ s.visited ∧ W.cap < (insert id s.visited).card

/-- After the node that was one too many. -/
def stopped (s : Search α σ) (id : α) (rest : List α) : Search α σ :=
  { s with queue := rest, visited := insert id s.visited, data := W.overflow s.data }

/-- **The induction rule**: what skipping and visiting keep holds where the queue ran empty or the
cap was met. -/
theorem drain_ends (Inv : Search α σ → Prop)
    (hskip : ∀ {s : Search α σ} {id : α} {rest : List α}, Inv s → s.queue = id :: rest →
      id ∈ s.visited → Inv { s with queue := rest })
    (hvisit : ∀ {s : Search α σ} {id : α} {rest : List α}, Inv s → s.queue = id :: rest →
      id ∉ s.visited → (insert id s.visited).card ≤ W.cap → Inv (W.visited s id rest))
    (s : Search α σ) (h : Inv s) :
    ∃ t, Inv t ∧ (t.queue = [] ∧ W.drain s = t ∨
      ∃ id rest, W.Exceeds t id rest ∧ W.drain s = W.stopped t id rest) := by
  induction s using drain.induct W with
  | case1 visited path data =>
    rw [drain]
    exact ⟨_, h, .inl ⟨rfl, rfl⟩⟩
  | case2 id rest visited path data hid ih =>
    rw [drain, if_pos hid]
    exact ih (hskip h rfl hid)
  | case3 id rest visited path data hid hcap =>
    rw [drain, if_neg hid, if_pos hcap]
    exact ⟨_, h, .inr ⟨id, rest, ⟨rfl, hid, hcap⟩, rfl⟩⟩
  | case4 id rest visited path data hid hcap ih =>
    rw [drain, if_neg hid, if_neg hcap]
    exact ih (hvisit h rfl hid (Nat.le_of_not_lt hcap))

/-! ## Paths and edges -/

section Edges

/-- Visits record the edges they follow in the data, and nothing else does. -/
structure Records (edges : σ → List (α × α)) : Prop where
  visit : ∀ d id, edges (W.visit d id).1 = edges d ++ (W.visit d id).2.map (Prod.mk id)
  overflow : ∀ d, edges (W.overflow d) = edges d

/-- Every node of the path, the first apart, was scheduled by one before it. -/
def Reached (start : α) (path : List α) (es : List (α × α)) : Prop :=
  ∀ before id after, path = before ++ id :: after → id = start ∨ ∃ src ∈ before, (src, id) ∈ es

/-- The queue and the recorded edges belong to the path. -/
structure Walk (edges : σ → List (α × α)) (start : α) (s : Search α σ) : Prop where
  visited : s.visited = s.path.toFinset
  nodup : s.path.Nodup
  length_le : s.path.length ≤ W.cap
  queued : ∀ id ∈ s.queue, id = start ∨ ∃ src ∈ s.path, (src, id) ∈ edges s.data
  reached : Reached start s.path (edges s.data)
  scheduled : ∀ e ∈ edges s.data, e.1 ∈ s.path ∧ (e.2 ∈ s.path ∨ e.2 ∈ s.queue)

variable {W} {edges : σ → List (α × α)} {start : α}

omit [DecidableEq α] in
theorem Reached.snoc {path : List α} {es more : List (α × α)} {id : α}
    (h : Reached start path es) (hid : id = start ∨ ∃ src ∈ path, (src, id) ∈ es) :
    Reached start (path ++ [id]) (es ++ more) := by
  intro before x after heq
  rcases eq_nil_or_concat after with rfl | ⟨after, y, rfl⟩
  · obtain ⟨rfl, hx⟩ := append_inj' heq rfl
    cases hx
    exact hid.imp_right fun ⟨src, hsrc, he⟩ => ⟨src, hsrc, mem_append_left _ he⟩
  rw [concat_eq_append, ← cons_append, ← append_assoc] at heq
  obtain ⟨hpath, -⟩ := append_inj' heq rfl
  exact (h before x after hpath).imp_right
    fun ⟨src, hsrc, he⟩ => ⟨src, hsrc, mem_append_left _ he⟩

theorem Walk.skip {s : Search α σ} {id : α} {rest : List α} (h : W.Walk edges start s)
    (hq : s.queue = id :: rest) (hid : id ∈ s.visited) :
    W.Walk edges start { s with queue := rest } where
  visited := h.visited
  nodup := h.nodup
  length_le := h.length_le
  queued x hx := h.queued x (hq ▸ .tail _ hx)
  reached := h.reached
  scheduled e he := by
    obtain ⟨hsrc, htgt⟩ := h.scheduled e he
    refine ⟨hsrc, htgt.elim .inl fun htgt => ?_⟩
    rw [hq] at htgt
    rcases mem_cons.mp htgt with rfl | htgt
    · rw [h.visited, List.mem_toFinset] at hid
      exact .inl hid
    · exact .inr htgt

theorem Walk.visit {s : Search α σ} {id : α} {rest : List α} (hrec : W.Records edges)
    (h : W.Walk edges start s) (hq : s.queue = id :: rest) (hid : id ∉ s.visited)
    (hcap : (insert id s.visited).card ≤ W.cap) :
    W.Walk edges start (W.visited s id rest) := by
  have hnotMem : id ∉ s.path := by rwa [h.visited, List.mem_toFinset] at hid
  have hfrom := h.queued id (hq ▸ .head _)
  constructor
  · simp only [Walker.visited, h.visited, toFinset_append, toFinset_cons,
      toFinset_nil, insert_empty_eq, Finset.union_comm, Finset.insert_eq]
  · rw [Walker.visited, ← concat_eq_append]
    exact h.nodup.concat hnotMem
  · rw [Finset.card_insert_of_notMem hid, h.visited, toFinset_card_of_nodup h.nodup] at hcap
    simpa [Walker.visited] using hcap
  · intro x hx
    simp only [Walker.visited, hrec.visit, mem_append] at hx ⊢
    rcases hx with hx | hx
    · exact (h.queued x (hq ▸ .tail _ hx)).imp_right
        fun ⟨src, hsrc, he⟩ => ⟨src, .inl hsrc, .inl he⟩
    · exact .inr ⟨id, .inr (mem_singleton_self _), .inr (List.mem_map_of_mem hx)⟩
  · simp only [Walker.visited, hrec.visit]
    exact h.reached.snoc hfrom
  intro e he
  simp only [Walker.visited, hrec.visit, mem_append, List.mem_map,
    mem_singleton] at he ⊢
  rcases he with he | ⟨y, hy, rfl⟩
  · obtain ⟨hsrc, htgt⟩ := h.scheduled e he
    refine ⟨.inl hsrc, ?_⟩
    rcases htgt with htgt | htgt
    · exact .inl (.inl htgt)
    rw [hq] at htgt
    rcases mem_cons.mp htgt with htgt | htgt
    · exact .inl (.inr htgt)
    · exact .inr (.inl htgt)
  · exact ⟨.inr rfl, .inr (.inr hy)⟩

/-- **What a walk leaves behind**: no node twice, at most the cap, every node scheduled by an
earlier one, every scheduled node visited unless the cap was met. -/
theorem walk_drain (hrec : W.Records edges) (d : σ) (hd : edges d = []) (start : α) :
    let t := W.drain ⟨[start], ∅, [], d⟩
    t.path.Nodup ∧ t.path.length ≤ W.cap ∧ Reached start t.path (edges t.data) ∧
      ∀ e ∈ edges t.data, e.1 ∈ t.path ∧
        (e.2 ∈ t.path ∨ t.path.length = W.cap ∧ ∃ d', t.data = W.overflow d') := by
  have hstart : W.Walk edges start ⟨[start], ∅, [], d⟩ := {
    visited := rfl
    nodup := .nil
    length_le := Nat.zero_le _
    queued := fun id hid => .inl (mem_singleton.mp hid)
    reached := fun before id after h => by simp at h
    scheduled := fun e he => by rw [hd] at he; cases he }
  obtain ⟨t, ht, ⟨hq, heq⟩ | ⟨id, rest, ⟨hq, hid, hcap⟩, heq⟩⟩ :=
    W.drain_ends (W.Walk edges start) Walk.skip (Walk.visit hrec) _ hstart
  · simp only [heq]
    refine ⟨ht.nodup, ht.length_le, ht.reached, fun e he => ?_⟩
    obtain ⟨hsrc, htgt⟩ := ht.scheduled e he
    rw [hq] at htgt
    exact ⟨hsrc, htgt.elim .inl fun h => absurd h not_mem_nil⟩
  simp only [heq, stopped, hrec.overflow]
  refine ⟨ht.nodup, ht.length_le, ht.reached, fun e he => ⟨(ht.scheduled e he).1, .inr ?_⟩⟩
  rw [Finset.card_insert_of_notMem hid, ht.visited, toFinset_card_of_nodup ht.nodup] at hcap
  have := ht.length_le
  exact ⟨by omega, t.data, rfl⟩

end Edges

/-! ## The data along the path -/

/-- The data after the visits of a path. -/
def visitAll (d : σ) (path : List α) : σ := path.foldl (fun d id => (W.visit d id).1) d

omit [DecidableEq α] in
theorem visitAll_concat (d : σ) (path : List α) (id : α) :
    W.visitAll d (path ++ [id]) = (W.visit (W.visitAll d path) id).1 := by
  rw [visitAll, foldl_append]
  rfl

theorem drain_visitAll (d : σ) (start : α) :
    let t := W.drain ⟨[start], ∅, [], d⟩
    t.data = W.visitAll d t.path ∨ t.data = W.overflow (W.visitAll d t.path) := by
  obtain ⟨t, ht, ⟨-, heq⟩ | ⟨id, rest, -, heq⟩⟩ :=
    W.drain_ends (fun s => s.data = W.visitAll d s.path) (fun h _ _ => h)
      (fun h _ _ _ => by rw [visited, visitAll_concat, h]) ⟨[start], ∅, [], d⟩ rfl
  · rw [heq]
    exact .inl ht
  rw [heq, stopped, ht]
  exact .inr rfl

theorem start_mem_drain (hcap : 0 < W.cap) (d : σ) (start : α) :
    start ∈ (W.drain ⟨[start], ∅, [], d⟩).path := by
  rw [drain, if_neg (Finset.notMem_empty _), if_neg (by simpa using hcap.ne')]
  obtain ⟨t, ht, ⟨-, heq⟩ | ⟨id, rest, -, heq⟩⟩ :=
    W.drain_ends (fun s => start ∈ s.path) (fun h _ _ => h)
      (fun h _ _ _ => mem_append_left _ h)
      ⟨[] ++ (W.visit d start).2, {start}, [] ++ [start], (W.visit d start).1⟩
      (mem_singleton_self start)
  · rw [insert_empty_eq, heq]
    exact ht
  rw [insert_empty_eq, heq]
  exact ht

/-! ## Computing a walk -/

/-- The walk in at most the given number of rounds. -/
def drainFuel : Nat → Search α σ → Option (Search α σ)
  | 0, _ => none
  | _ + 1, ⟨[], visited, path, data⟩ => some ⟨[], visited, path, data⟩
  | n + 1, ⟨id :: rest, visited, path, data⟩ =>
    if id ∈ visited then drainFuel n ⟨rest, visited, path, data⟩
    else if W.cap < (insert id visited).card then
      some ⟨rest, insert id visited, path, W.overflow data⟩
    else
      drainFuel n ⟨rest ++ (W.visit data id).2, insert id visited, path ++ [id],
        (W.visit data id).1⟩

theorem drain_of_drainFuel : ∀ {n : Nat} {s t : Search α σ}, W.drainFuel n s = some t → W.drain s = t
  | 0, _, _, h => by cases h
  | _ + 1, ⟨[], _, _, _⟩, _, h => by
    rw [drain]
    exact some.inj h
  | n + 1, ⟨id :: rest, visited, path, data⟩, _, h => by
    rw [drainFuel] at h
    rw [drain]
    split at h
    · rename_i hid
      rw [if_pos hid]
      exact drain_of_drainFuel h
    rename_i hid
    rw [if_neg hid]
    split at h
    · rename_i hcap
      rw [if_pos hcap]
      exact some.inj h
    rename_i hcap
    rw [if_neg hcap]
    exact drain_of_drainFuel h

theorem drain_of_fuel {β : Type} (f : Search α σ → β) {n : Nat} {s : Search α σ} {b : β}
    (h : (W.drainFuel n s).map f = some b) : f (W.drain s) = b := by
  obtain ⟨t, ht, hb⟩ := map_eq_some_iff.mp h
  rw [W.drain_of_drainFuel ht, hb]

end Walker

end VoltageEMS.Lib
