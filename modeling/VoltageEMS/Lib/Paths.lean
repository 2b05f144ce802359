import VoltageEMS.Lib.Basic

/-!
# Paths below a directory

Slash-separated texts as Rust's `Path` reads them, and the files they lead to.

* `enclosed` — where a text leads below a directory: `none` for one that is absolute or leaves it.
* `RelPath.enclosed_text`, `RelPath.ofComponents_splitOn` — a file's own path leads to it.
-/

namespace VoltageEMS.Lib

open List

/-- `Path::components`. -/
def pathComponents (text : String) : List (List Char) :=
  match text.toList.splitOn '/' with
  | [] => []
  | first :: rest => (first :: rest.filter fun c => c ≠ ['.']).filter fun c => c ≠ []

/-- One component further, if it does not lead out. -/
def follow (here : List (List Char)) (c : List Char) : Option (List (List Char)) :=
  if c = ['.'] then some here
  else if c = ['.', '.'] then if here = [] then none else some here.dropLast
  else some (here ++ [c])

/-- `enclosed_name`, with the `..` resolved. -/
def enclosed (text : String) : Option (List (List Char)) :=
  if Char.ofNat 0 ∈ text.toList ∨ text.toList.head? = some '/' then none
  else (pathComponents text).foldlM follow []

/-- The text of a file's path: it names a file by proper components. -/
def properPath (text : String) : Bool :=
  Char.ofNat 0 ∉ text.toList &&
    (text.toList.splitOn '/').all fun c => c ≠ [] && c ≠ ['.'] && c ≠ ['.', '.']

/-- A file below a directory. -/
structure RelPath where
  text : String
  proper : properPath text = true
deriving DecidableEq

namespace RelPath

/-- A path given as a text. -/
def ofText (text : String) : Option RelPath :=
  if h : properPath text = true then some ⟨text, h⟩ else none

/-- A path given by its components. -/
def ofComponents (cs : List (List Char)) : Option RelPath :=
  ofText (String.ofList (intercalate ['/'] cs))

variable (p : RelPath)

theorem ofText_text : ofText p.text = some p := dif_pos p.proper

theorem foldlM_follow {cs here : List (List Char)} (h : ∀ c ∈ cs, c ≠ ['.'] ∧ c ≠ ['.', '.']) :
    cs.foldlM follow here = some (here ++ cs) := by
  induction cs generalizing here with
  | nil => simp
  | cons c cs ih =>
    obtain ⟨hdot, hdots⟩ := h c (.head _)
    have hstep : follow here c = some (here ++ [c]) := by
      rw [follow, if_neg hdot, if_neg hdots]
    rw [foldlM_cons, hstep]
    exact (ih fun c hc => h c (.tail _ hc)).trans (by simp)

theorem components_proper :
    Char.ofNat 0 ∉ p.text.toList ∧
      ∀ c ∈ p.text.toList.splitOn '/', c ≠ [] ∧ c ≠ ['.'] ∧ c ≠ ['.', '.'] := by
  simpa [properPath, and_assoc] using p.proper

theorem pathComponents_text : pathComponents p.text = p.text.toList.splitOn '/' := by
  have hcomponents := p.components_proper.2
  unfold pathComponents
  cases hsplit : p.text.toList.splitOn '/' with
  | nil => rfl
  | cons first rest =>
    rw [hsplit] at hcomponents
    have hrest : (rest.filter fun c => c ≠ ['.']) = rest :=
      List.filter_eq_self.mpr fun c hc => by simpa using (hcomponents c (.tail _ hc)).2.1
    dsimp only
    rw [hrest]
    exact List.filter_eq_self.mpr fun c hc => by simpa using (hcomponents c hc).1

theorem enclosed_text : enclosed p.text = some (p.text.toList.splitOn '/') := by
  obtain ⟨hnul, hcomponents⟩ := p.components_proper
  have hrelative : p.text.toList.head? ≠ some '/' := by
    intro hhead
    obtain ⟨rest, hrest⟩ := head?_eq_some_iff.mp hhead
    rw [hrest] at hcomponents
    have hsplit := splitOn_append_cons_self_of_not_mem not_mem_nil rest (a := '/')
    rw [nil_append] at hsplit
    exact (hcomponents [] (hsplit ▸ .head _)).1 rfl
  rw [enclosed, if_neg (not_or.mpr ⟨hnul, hrelative⟩), p.pathComponents_text]
  exact foldlM_follow fun c hc => (hcomponents c hc).2

theorem nil_mem_splitOn {text : List Char} (h : text.getLast? = some '/') :
    [] ∈ text.splitOn '/' := by
  induction hn : text.length using Nat.strong_induction_on generalizing text with
  | _ n ih =>
    -- cut the text at its first slash
    have hslash : '/' ∈ text := mem_of_getLast? h
    obtain ⟨front, rest, rfl, hfront⟩ := eq_append_cons_of_mem hslash
    rw [splitOn_append_cons_self_of_not_mem hfront]
    cases rest with
    | nil => exact .tail _ (by rw [splitOn_nil]; exact .head _)
    | cons c rest =>
      have hlast : (c :: rest).getLast? = some '/' := by
        rwa [getLast?_append_cons, getLast?_cons_cons] at h
      refine .tail _ (ih _ ?_ hlast rfl)
      simp only [← hn, length_append, length_cons]
      omega

theorem getLast?_text : p.text.toList.getLast? ≠ some '/' := fun h =>
  (p.components_proper.2 [] (nil_mem_splitOn h)).1 rfl

theorem ofComponents_splitOn :
    ofComponents (p.text.toList.splitOn '/') = some p := by
  rw [ofComponents, intercalate_splitOn, String.ofList_toList]
  exact p.ofText_text

end RelPath

end VoltageEMS.Lib
