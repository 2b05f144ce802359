import Mathlib

/-!
# Texts

Functions on strings as Rust's `str` has them.

* `parseUnsigned`, `parseSigned` — `str::parse` and `from_str_radix` of integers.
* `trim_of_parseSigned`, `parseUnsigned_of_parseSigned` — a decimal numeral has no blanks around it,
  and is read alike by the signed and the unsigned parser.
* `parseUnsigned_toString` — what is printed is read back.
-/

namespace VoltageEMS.Lib

open List Option

/-! ## Parts of a text -/

/-- `str::split_once`. -/
def splitOnce (pattern : List Char) : List Char → Option (List Char × List Char)
  | [] => if pattern.isEmpty then some ([], []) else none
  | c :: cs =>
    if pattern.isPrefixOf (c :: cs) then some ([], (c :: cs).drop pattern.length)
    else (splitOnce pattern cs).map fun parts => (c :: parts.1, parts.2)

/-- `str::contains`. -/
def containsText (text pattern : String) : Bool := (splitOnce pattern.toList text.toList).isSome

/-- `str::strip_prefix`. -/
def stripPrefix (s start : String) : Option String :=
  if start.toList.isPrefixOf s.toList then some (String.ofList (s.toList.drop start.toList.length))
  else none

/-- `str::strip_suffix`. -/
def stripSuffix (s suffix : String) : Option String :=
  if suffix.toList.isSuffixOf s.toList then
    some (String.ofList (s.toList.take (s.toList.length - suffix.toList.length)))
  else none

/-- `char::is_whitespace`. -/
def isWhitespace (c : Char) : Bool :=
  let n := c.toNat
  (9 ≤ n && n ≤ 13) || n == 0x20 || n == 0x85 || n == 0xA0 || n == 0x1680 ||
    (0x2000 ≤ n && n ≤ 0x200A) || n == 0x2028 || n == 0x2029 || n == 0x202F || n == 0x205F ||
    n == 0x3000

/-- `str::trim`. -/
def trim (s : String) : String :=
  String.ofList (((s.toList.dropWhile isWhitespace).reverse.dropWhile isWhitespace).reverse)

/-- `str::eq_ignore_ascii_case`. -/
def eqIgnoreAsciiCase (s t : String) : Bool := s.toList.map Char.toLower == t.toList.map Char.toLower

variable {s : String}

theorem trim_of_forall (h : ∀ c ∈ s.toList, isWhitespace c = false) : trim s = s := by
  have hfront : ∀ {cs : List Char}, (∀ c ∈ cs, isWhitespace c = false) →
      cs.dropWhile isWhitespace = cs := by
    intro cs hcs
    cases cs with
    | nil => rfl
    | cons c cs => simp [hcs c (.head _)]
  unfold trim
  rw [hfront h, hfront fun c hc => h c (List.mem_reverse.mp hc), reverse_reverse,
    String.ofList_toList]

/-! ## Integers -/

/-- `char::to_digit`. -/
def digitVal (radix : Nat) (c : Char) : Option Nat :=
  let n := c.toNat
  let d :=
    if 48 ≤ n ∧ n ≤ 57 then some (n - 48)
    else if 97 ≤ n ∧ n ≤ 122 then some (n - 87)
    else if 65 ≤ n ∧ n ≤ 90 then some (n - 55)
    else none
  d.filter (· < radix)

/-- Digits only, and at least one. -/
def parseDigits (radix : Nat) : List Char → Option Nat
  | [] => none
  | cs => cs.foldlM (fun n c => (digitVal radix c).map fun d => n * radix + d) 0

/-- `from_str_radix` of an unsigned type with values below `bound`. -/
def parseUnsigned (radix bound : Nat) (s : String) : Option Nat :=
  let digits := match s.toList with
    | '+' :: rest => rest
    | cs => cs
  (parseDigits radix digits).filter (· < bound)

/-- `str::parse` of a signed type of `w + 1` bits. -/
def parseSigned (w : Nat) (s : String) : Option Int :=
  match s.toList with
  | '-' :: rest => ((parseDigits 10 rest).filter (· ≤ 2 ^ w)).map fun n : Nat => -(n : Int)
  | '+' :: rest => ((parseDigits 10 rest).filter (· < 2 ^ w)).map fun n : Nat => (n : Int)
  | cs => ((parseDigits 10 cs).filter (· < 2 ^ w)).map fun n : Nat => (n : Int)

variable {cs : List Char}

theorem foldlM_digits :
    ∀ {n m : Nat}, cs.foldlM (fun n c => (digitVal 10 c).map fun d => n * 10 + d) n = some m →
      ∀ c ∈ cs, 48 ≤ c.toNat ∧ c.toNat ≤ 57 := by
  induction cs with
  | nil => simp
  | cons c cs ih =>
    intro n m h
    rw [foldlM_cons] at h
    obtain ⟨k, hk, h⟩ := bind_eq_some_iff.mp h
    obtain ⟨d, hd, -⟩ := map_eq_some_iff.mp hk
    refine forall_mem_cons.mpr ⟨?_, ih h⟩
    obtain ⟨hd, hlt⟩ := filter_eq_some_iff.mp hd
    have hlt : d < 10 := by simpa using hlt
    split at hd
    · assumption
    split at hd
    · cases hd
      omega
    split at hd
    · cases hd
      omega
    · cases hd

variable {n : Nat}

theorem digits_of_parseDigits (h : parseDigits 10 cs = some n) :
    ∀ c ∈ cs, 48 ≤ c.toNat ∧ c.toNat ≤ 57 := by
  cases cs with
  | nil => cases h
  | cons c cs => exact foldlM_digits h

theorem isWhitespace_of_digit {c : Char} (h : 48 ≤ c.toNat ∧ c.toNat ≤ 57) :
    isWhitespace c = false := by
  simp only [isWhitespace, Bool.or_eq_false_iff, Bool.and_eq_false_iff, beq_eq_false_iff_ne,
    decide_eq_false_iff_not]
  omega

theorem foldlM_isDigit (h : ∀ c ∈ cs, c.isDigit = true) (n : Nat) :
    cs.foldlM (fun n c => (digitVal 10 c).map fun d => n * 10 + d) n =
      some (Nat.ofDigitChars 10 cs n) := by
  induction cs generalizing n with
  | nil => rfl
  | cons c cs ih =>
    have hc : 48 ≤ c.toNat ∧ c.toNat ≤ 57 := by
      have hdigit := h c (.head _)
      simp only [Char.isDigit, Bool.and_eq_true, decide_eq_true_eq, UInt32.le_iff_toNat_le] at hdigit
      exact hdigit
    have hval : digitVal 10 c = some (c.toNat - 48) := by
      rw [digitVal, if_pos hc, filter_some, if_pos (by simpa using by omega)]
    rw [foldlM_cons, hval, Nat.ofDigitChars_cons]
    exact (ih (fun c' hc' => h c' (.tail _ hc')) _).trans (by rw [Nat.mul_comm]; rfl)

theorem parseDigits_toDigits (n : Nat) : parseDigits 10 (Nat.toDigits 10 n) = some n := by
  have hdigits : ∀ c ∈ Nat.toDigits 10 n, c.isDigit = true :=
    fun c hc => Nat.isDigit_of_mem_toDigits (by decide) (by decide) hc
  have hfold := foldlM_isDigit hdigits 0
  rw [Nat.ofDigitChars_ten_toDigits] at hfold
  cases hcs : Nat.toDigits 10 n with
  | nil => exact absurd hcs Nat.toDigits_ne_nil
  | cons c cs => rwa [hcs] at hfold

theorem toList_toString (n : Nat) : (toString n).toList = Nat.toDigits 10 n := by
  rw [Nat.toString_eq_repr, Nat.toList_repr]

theorem parseUnsigned_toString {bound : Nat} (h : n < bound) :
    parseUnsigned 10 bound (toString n) = some n := by
  unfold parseUnsigned
  rw [toList_toString]
  split
  · rename_i rest hplus
    have hmem : '+' ∈ Nat.toDigits 10 n := hplus ▸ .head _
    exact absurd (Nat.isDigit_of_mem_toDigits (by decide) (by decide) hmem) (by decide)
  · simp only [parseDigits_toDigits, filter_some, h, decide_true, if_true]

theorem parseUnsigned_lt {radix bound : Nat} (h : parseUnsigned radix bound s = some n) :
    n < bound := by
  unfold parseUnsigned at h
  exact of_decide_eq_true (filter_eq_some_iff.mp h).2

theorem parseUnsigned_unique {radix bound bound' m : Nat} (h : parseUnsigned radix bound s = some n)
    (h' : parseUnsigned radix bound' s = some m) : n = m := by
  unfold parseUnsigned at h h'
  exact some.inj
    ((filter_eq_some_iff.mp h).1.symm.trans (filter_eq_some_iff.mp h').1)

variable {w : Nat}

theorem parseSigned_toString (h : n < 2 ^ w) : parseSigned w (toString n) = some (n : Int) := by
  have hsign : ∀ c ∈ (toString n).toList, c.isDigit = true := by
    rw [toList_toString]
    exact fun c hc => Nat.isDigit_of_mem_toDigits (by decide) (by decide) hc
  unfold parseSigned
  split
  · rename_i rest hs
    exact absurd (hsign '-' (hs ▸ .head _)) (by decide)
  · rename_i rest hs
    exact absurd (hsign '+' (hs ▸ .head _)) (by decide)
  simp only [toList_toString, parseDigits_toDigits, filter_some, h, decide_true, if_true, map_some]

variable {i : Int}

theorem parseSigned_chars (h : parseSigned w s = some i) :
    ∀ c ∈ s.toList, (48 ≤ c.toNat ∧ c.toNat ≤ 57) ∨ c = '+' ∨ c = '-' := by
  have hdigits : ∀ {cs : List Char} {p : Nat → Bool} {f : Nat → Int},
      ((parseDigits 10 cs).filter p).map f = some i →
      ∀ c ∈ cs, (48 ≤ c.toNat ∧ c.toNat ≤ 57) ∨ c = '+' ∨ c = '-' := by
    intro cs p f h c hc
    obtain ⟨n, hn, -⟩ := map_eq_some_iff.mp h
    exact .inl (digits_of_parseDigits (filter_eq_some_iff.mp hn).1 c hc)
  unfold parseSigned at h
  split at h
  · rename_i hs
    rw [hs]
    exact forall_mem_cons.mpr ⟨.inr (.inr rfl), hdigits h⟩
  · rename_i hs
    rw [hs]
    exact forall_mem_cons.mpr ⟨.inr (.inl rfl), hdigits h⟩
  · exact hdigits h

theorem trim_of_parseSigned (h : parseSigned w s = some i) : trim s = s := by
  refine trim_of_forall fun c hc => ?_
  rcases parseSigned_chars h c hc with hc | rfl | rfl
  · exact isWhitespace_of_digit hc
  · decide
  · decide

theorem stripPrefix_of_parseSigned {start : String} {c : Char} (h : parseSigned w s = some i)
    (hc : c ∈ start.toList) (hletter : 57 < c.toNat) : stripPrefix s start = none := by
  refine if_neg fun hprefix => ?_
  have hmem : c ∈ s.toList := (List.isPrefixOf_iff_prefix.mp hprefix).subset hc
  rcases parseSigned_chars h c hmem with hc | rfl | rfl
  · omega
  · exact absurd hletter (by decide)
  · exact absurd hletter (by decide)

theorem parseUnsigned_of_parseSigned {bound : Nat} (hi : parseSigned w s = some i)
    (hn : parseUnsigned 10 bound s = some n) : i = n := by
  unfold parseUnsigned at hn
  obtain ⟨hn, -⟩ := filter_eq_some_iff.mp hn
  have hvalue : ∀ {cs : List Char} {p : Nat → Bool}, parseDigits 10 cs = some n →
      ((parseDigits 10 cs).filter p).map (fun n : Nat => (n : Int)) = some i → i = n := by
    intro cs p hcs h
    obtain ⟨m, hm, rfl⟩ := map_eq_some_iff.mp h
    rw [some.inj ((filter_eq_some_iff.mp hm).1.symm.trans hcs)]
  unfold parseSigned at hi
  split at hi
  · -- the unsigned parser takes the minus for a digit
    rename_i rest hs
    rw [hs] at hn
    exact absurd (digits_of_parseDigits hn '-' (.head _)) (by decide)
  · rename_i rest hs
    rw [hs] at hn
    exact hvalue hn hi
  rename_i hplus
  split at hn
  · rename_i rest hs
    exact absurd hs (hplus rest)
  · exact hvalue hn hi

end VoltageEMS.Lib
