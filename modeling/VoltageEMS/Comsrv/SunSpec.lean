import Mathlib

/-!
# Discovery of SunSpec models

A SunSpec device lists its models in a chain of headers: an id, a length, and after that many registers
the next header (`comsrv/src/protocols/sunspec/discovery.rs`).  The walk reads two registers at a time
and stops at the end marker or where the device has no more registers.
-/

namespace VoltageEMS.Comsrv.SunSpec

open List Option

/-- What a read of two registers gives. -/
inductive Answer
  | words (first second : UInt16)
  | short
  | error (text : String)
  deriving DecidableEq, Repr

/-- The answer to the `n`-th read, of the register given and the next one. -/
abbrev Device := (n register : Nat) → Answer

/-- `DiscoveredModel`. -/
structure DiscoveredModel where
  modelId : UInt16
  length : UInt16
  startRegister : Nat
  deriving DecidableEq, Repr

def sunsMagicHi : UInt16 := 0x5375
def sunsMagicLo : UInt16 := 0x6E53
def modelEndId : UInt16 := 0xFFFF

/-- `CANDIDATE_BASES`. -/
def candidateBases : List Nat := [0, 40000, 50000]

/-- `u16::saturating_add`. -/
def saturatingAdd (a b : Nat) : Nat := min (a + b) 65535

/-- `{:#06x}`. -/
def hex (w : UInt16) : String :=
  let digits := Nat.toDigits 16 w.toNat
  "0x" ++ String.ofList (replicate (4 - digits.length) '0' ++ digits)

/-- `str::contains`. -/
def contains (text part : String) : Bool := decide (part.toList <:+: text.toList)

/-- The device has no such register. -/
def isIllegalAddress (text : String) : Bool :=
  contains text "0x02" || contains text "Illegal Data Address"

/-- `verify_suns`, given the answer to the read at the base. -/
def verifySuns (functionCode base : Nat) (answer : Answer) : Except String Unit :=
  if functionCode ≠ 3 ∧ functionCode ≠ 4 then .error "Unsupported function code for SunS verify"
  else
    let invalid (hi lo : UInt16) : Except String Unit :=
      .error ("Invalid SunS at " ++ toString base ++ ": got " ++ hex hi ++ "/" ++ hex lo ++
        ", expected " ++ hex sunsMagicHi ++ "/" ++ hex sunsMagicLo)
    match answer with
    | .words hi lo => if hi = sunsMagicHi ∧ lo = sunsMagicLo then .ok () else invalid hi lo
    | .short => invalid 0 0
    | .error text => .error text

/-- `detect_base`: the first candidate with the signature, and how many reads it took. -/
def detectBase (dev : Device) (functionCode : Nat) : (n : Nat) → List Nat → Except String (Nat × Nat)
  | _, [] => .error ("SunS signature not found at bases " ++ toString candidateBases)
  | n, base :: bases =>
    match verifySuns functionCode base (dev n base) with
    | .ok () => .ok (base, n + 1)
    | .error _ => detectBase dev functionCode (n + 1) bases

/-- The base given, or detected. -/
def findBase (dev : Device) (functionCode : Nat) : Option Nat → Except String (Nat × Nat)
  | some base => (verifySuns functionCode base (dev 0 base)).map fun () => (base, 1)
  | none => detectBase dev functionCode 0 candidateBases

/-- The next header. -/
def nextRegister (reg : Nat) (length : UInt16) : Nat := saturatingAdd (saturatingAdd reg 2) length.toNat

/-- The loop of `discover_models`. -/
def chain (dev : Device) : (fuel n reg : Nat) → List DiscoveredModel →
    Option (Except String (List DiscoveredModel))
  | 0, _, _, _ => none
  | fuel + 1, n, reg, models =>
    match dev n reg with
    | .words modelId length =>
      if modelId = modelEndId then some (.ok models)
      else if nextRegister reg length = 0 then some (.error "SunSpec model chain overflow")
      else chain dev fuel (n + 1) (nextRegister reg length) (models ++ [⟨modelId, length, reg⟩])
    -- the chain ran past the registers of the device
    | .error text => if isIllegalAddress text then some (.ok models) else some (.error text)
    | .short => some (.error ("Short response reading model header at reg " ++ toString reg))

/-- `discover_models`. -/
def discoverModels (dev : Device) (functionCode : Nat) (baseAddress : Option Nat) (fuel : Nat) :
    Option (Except String (Nat × List DiscoveredModel)) :=
  match findBase dev functionCode baseAddress with
  | .error text => some (.error text)
  | .ok (base, n) =>
    (chain dev fuel n (saturatingAdd base 2) []).map fun r => r.bind fun models =>
      if models = [] then
        .error ("No SunSpec models found at base " ++ toString base ++ " (only end marker?)")
      else .ok (base, models)

/-! ## The walk -/

/-- A model follows. -/
def Answer.IsHeader : Answer → Prop
  | .words modelId _ => modelId ≠ modelEndId
  | _ => False

instance : DecidablePred Answer.IsHeader := fun a =>
  match a with
  | .words modelId _ => inferInstanceAs (Decidable (modelId ≠ modelEndId))
  | .short | .error _ => inferInstanceAs (Decidable False)

/-- Header and content. -/
def DiscoveredModel.registers (m : DiscoveredModel) : Set Nat :=
  Set.Ico m.startRegister (m.startRegister + 2 + m.length.toNat)

/-- The second model starts after the first one, and they share no register. -/
def Ascending (a b : DiscoveredModel) : Prop :=
  a.startRegister < b.startRegister ∧ Disjoint a.registers b.registers

variable {reg : Nat}

theorem nextRegister_eq {length : UInt16} (h : nextRegister reg length < 65535) :
    nextRegister reg length = reg + 2 + length.toNat := by
  unfold nextRegister saturatingAdd at *
  omega

theorem le_nextRegister (reg : Nat) (length : UInt16) :
    min (reg + 2) 65535 ≤ nextRegister reg length ∧ nextRegister reg length ≤ 65535 := by
  unfold nextRegister saturatingAdd
  omega

/-- The headers there is room for. -/
def headersFrom (reg : Nat) : Nat := (65536 - reg) / 2 + 1

theorem headersFrom_next (hreg : reg < 65535) (length : UInt16) :
    headersFrom (nextRegister reg length) + 1 ≤ headersFrom reg := by
  have hle := le_nextRegister reg length
  unfold headersFrom
  omega

theorem ascending_of_adjacent {a b : DiscoveredModel}
    (h : a.startRegister + 2 + a.length.toNat = b.startRegister) : Ascending a b := by
  refine ⟨by omega, Set.disjoint_left.mpr fun r ha hb => ?_⟩
  exact absurd (ha.2.trans_le (h.trans_le hb.1)) (lt_irrefl _)

variable {dev : Device}

/-- **The walk ends** where no header is found at the last register, and the models ascend. -/
theorem chain_ok {Reached : Nat → Nat → Prop}
    (hreached : ∀ n reg modelId length, Reached n reg → dev n reg = .words modelId length →
      modelId ≠ modelEndId → reg ≠ 65535 ∧ Reached (n + 1) (nextRegister reg length)) :
    ∀ (fuel n reg : Nat) (models : List DiscoveredModel), Reached n reg → 2 ≤ reg → reg ≤ 65535 →
      headersFrom reg ≤ fuel → models.IsChain Ascending →
      (∀ last ∈ models.getLast?, reg < 65535 →
        last.startRegister + 2 + last.length.toNat = reg) →
      ∃ r, chain dev fuel n reg models = some r ∧ ∀ ms, r = .ok ms → ms.IsChain Ascending
  | 0, n, reg, models, _, _, _, hfuel, _, _ => absurd hfuel (by unfold headersFrom; omega)
  | fuel + 1, n, reg, models, hat, hlow, hhigh, hfuel, hchain, hlast => by
    rw [chain]
    cases hanswer : dev n reg with
    | short => exact ⟨_, rfl, nofun⟩
    | error text =>
      dsimp only
      split
      · exact ⟨_, rfl, fun ms h => Except.ok.inj h ▸ hchain⟩
      · exact ⟨_, rfl, nofun⟩
    | words modelId length =>
      dsimp only
      split_ifs with hend hzero
      · exact ⟨_, rfl, fun ms h => Except.ok.inj h ▸ hchain⟩
      · exact ⟨_, rfl, nofun⟩
      obtain ⟨hne, hnext⟩ := hreached n reg modelId length hat hanswer hend
      have hlt : reg < 65535 := lt_of_le_of_ne hhigh hne
      have hle := le_nextRegister reg length
      refine chain_ok hreached fuel (n + 1) _ _ hnext (by omega) hle.2 ?_ ?_ ?_
      · have := headersFrom_next hlt length
        omega
      · refine List.isChain_append.mpr ⟨hchain, isChain_singleton _, ?_⟩
        intro a ha b hb
        cases mem_some_iff.mp hb
        exact ascending_of_adjacent (hlast a ha hlt)
      intro last hmem hin
      rw [getLast?_append, getLast?_singleton, some_or] at hmem
      cases mem_some_iff.mp hmem
      exact (nextRegister_eq hin).symm

/-- Where the headers lead from a register on, if the answers depend on the register alone. -/
inductive Leads (answers : Nat → Answer) (start : Nat) : Nat → Prop
  | start : Leads answers start start
  | next {reg : Nat} {modelId length : UInt16} (h : Leads answers start reg)
      (hheader : answers reg = .words modelId length) (hend : modelId ≠ modelEndId) :
      Leads answers start (nextRegister reg length)

section Endless

variable {answers : Nat → Answer}

theorem chain_header {n : Nat} {modelId length : UInt16}
    (hheader : dev n reg = .words modelId length) (hend : modelId ≠ modelEndId) (fuel : Nat)
    (models : List DiscoveredModel) : chain dev (fuel + 1) n reg models =
      chain dev fuel (n + 1) (nextRegister reg length) (models ++ [⟨modelId, length, reg⟩]) := by
  have hzero : nextRegister reg length ≠ 0 := by
    have := le_nextRegister reg length
    omega
  rw [chain, hheader]
  dsimp only
  rw [if_neg hend, if_neg hzero]

theorem chain_last_eq_none (hheader : (answers 65535).IsHeader) :
    ∀ fuel n models, chain (fun _ => answers) fuel n 65535 models = none
  | 0, _, _ => rfl
  | fuel + 1, n, models => by
    cases hanswer : answers 65535 with
    | words modelId length =>
      rw [hanswer] at hheader
      have hnext : nextRegister 65535 length = 65535 := by
        have := le_nextRegister 65535 length
        omega
      rw [chain_header hanswer hheader, hnext]
      exact chain_last_eq_none (by rw [hanswer]; exact hheader) fuel (n + 1) _
    | short | error => rw [hanswer] at hheader; exact hheader.elim

theorem chain_eq_none_of_leads {start : Nat} (h : Leads answers start reg)
    (hnone : ∀ fuel n models, chain (fun _ => answers) fuel n reg models = none) :
    ∀ fuel n models, chain (fun _ => answers) fuel n start models = none := by
  induction h with
  | start => exact hnone
  | next h hheader hend ih =>
    refine ih fun fuel n models => ?_
    cases fuel with
    | zero => rfl
    | succ fuel =>
      rw [chain_header hheader hend]
      exact hnone fuel (n + 1) _

end Endless

/-! ## Discovery -/

/-- The discovery ends after at most 32768 reads of model headers, and the models it returns ascend. -/
def Bounded (dev : Device) (functionCode : Nat) (baseAddress : Option Nat) : Prop :=
  ∃ r, discoverModels dev functionCode baseAddress 32768 = some r ∧
    ∀ base models, r = .ok (base, models) → models.IsChain Ascending

theorem bounded_of_reached {functionCode : Nat} {baseAddress : Option Nat}
    (h : ∀ base n, findBase dev functionCode baseAddress = .ok (base, n) →
      ∃ Reached : Nat → Nat → Prop, Reached n (saturatingAdd base 2) ∧
        ∀ n reg modelId length, Reached n reg → dev n reg = .words modelId length →
          modelId ≠ modelEndId → reg ≠ 65535 ∧ Reached (n + 1) (nextRegister reg length)) :
    Bounded dev functionCode baseAddress := by
  unfold Bounded discoverModels
  cases hbase : findBase dev functionCode baseAddress with
  | error text => exact ⟨_, rfl, nofun⟩
  | ok r =>
    obtain ⟨base, n⟩ := r
    obtain ⟨Reached, hat, hreached⟩ := h base n hbase
    have hstart : 2 ≤ saturatingAdd base 2 ∧ saturatingAdd base 2 ≤ 65535 ∧
        headersFrom (saturatingAdd base 2) ≤ 32768 := by
      unfold headersFrom saturatingAdd
      omega
    obtain ⟨r, hr, hok⟩ := chain_ok hreached 32768 n _ [] hat hstart.1 hstart.2.1 hstart.2.2
      isChain_nil nofun
    refine ⟨_, by dsimp only; rw [hr]; rfl, fun base' models heq => ?_⟩
    cases r with
    | error text => cases heq
    | ok ms =>
      dsimp only [Except.bind] at heq
      split at heq
      · cases heq
      cases heq
      exact hok _ rfl

/-- **When discovery is bounded.**  If no read at the last register finds the header of a model, it
is, whatever the device answers elsewhere.  If the answers depend on the register alone, it is
exactly when the headers do not lead to a header at the last register. -/
theorem discovery_bounded_iff (functionCode : Nat) (baseAddress : Option Nat) :
    (∀ dev : Device, (∀ n, ¬ (dev n 65535).IsHeader) → Bounded dev functionCode baseAddress) ∧
    ∀ answers : Nat → Answer, Bounded (fun _ => answers) functionCode baseAddress ↔
      ∀ base n, findBase (fun _ => answers) functionCode baseAddress = .ok (base, n) →
        ¬ (Leads answers (saturatingAdd base 2) 65535 ∧ (answers 65535).IsHeader) := by
  refine ⟨fun dev hlast => bounded_of_reached fun base n _ => ?_, fun answers => ⟨?_, fun h => ?_⟩⟩
  · refine ⟨fun _ _ => True, trivial, fun n reg modelId length _ hheader hend => ⟨?_, trivial⟩⟩
    rintro rfl
    exact hlast n (by rw [hheader]; exact hend)
  · rintro ⟨r, hr, -⟩ base n hbase ⟨hleads, hheader⟩
    have hnone := chain_eq_none_of_leads hleads (chain_last_eq_none hheader) 32768 n []
    rw [discoverModels, hbase] at hr
    dsimp only at hr
    rw [hnone] at hr
    cases hr
  refine bounded_of_reached fun base n hbase => ?_
  refine ⟨fun _ reg => Leads answers (saturatingAdd base 2) reg, .start, ?_⟩
  intro n' reg modelId length hat hheader hend
  refine ⟨?_, hat.next hheader hend⟩
  rintro rfl
  exact h base n hbase ⟨hat, by rw [hheader]; exact hend⟩

def commonOnly (register : Nat) : Answer :=
  if register = 0 then .words sunsMagicHi sunsMagicLo
  else if register = 2 then .words 1 66
  else .words modelEndId 0

theorem bounded_commonOnly : Bounded (fun _ => commonOnly) 3 none :=
  (discovery_bounded_iff 3 none).1 (fun _ => commonOnly) fun _ => by decide

def longModels (register : Nat) : Answer :=
  if register = 0 then .words sunsMagicHi sunsMagicLo else .words 1 0xFFFF

/-- The walk goes from register 2 to the last one, and stays there. -/
theorem endless_discovery :
    ¬ ∀ (dev : Device) (functionCode : Nat) (baseAddress : Option Nat),
      Bounded dev functionCode baseAddress := by
  intro h
  have hbase : findBase (fun _ => longModels) 3 none = .ok (0, 1) := by decide
  have hheader : longModels (saturatingAdd 0 2) = .words 1 0xFFFF := by decide
  have hnext : nextRegister (saturatingAdd 0 2) 0xFFFF = 65535 := by decide
  have hlast := Leads.next .start hheader (by decide)
  rw [hnext] at hlast
  obtain ⟨r, hr, -⟩ := h (fun _ => longModels) 3 none
  rw [discoverModels, hbase] at hr
  dsimp only at hr
  rw [chain_eq_none_of_leads hlast (chain_last_eq_none (by decide))] at hr
  cases hr

end VoltageEMS.Comsrv.SunSpec
