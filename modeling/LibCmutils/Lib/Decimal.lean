import LibCmutils.Lib.CNumber
import Mathlib.Data.Rat.Defs
import Mathlib.Algebra.Order.Field.Basic
import Mathlib.Algebra.Field.Rat

/-!
Decimal numbers as text: an optional sign, digits, an optional fraction and an optional
exponent.

* `Decimal`: the parts of such a number. `Decimal.value` is the number it denotes,
  `Decimal.whole` the integer before the point.
* `readDecimal`: the parts of a text that is one decimal number from end to end.
* `scanInt_readDecimal`: the integer functions read the integer before the point.
-/

namespace LibCmutils

/-- The parts of a decimal number. -/
structure Decimal where
  neg : Bool
  int : List UInt8
  frac : List UInt8
  exp : ℤ
  deriving DecidableEq

/-- A number with its sign. -/
def signed (neg : Bool) (n : ℕ) : ℤ := if neg then -(n : ℤ) else n

/-- The integer before the point. -/
def Decimal.whole (p : Decimal) : ℤ := signed p.neg (digitsValue 10 p.int)

/-- The number that is denoted. -/
def Decimal.value (p : Decimal) : ℚ :=
  signed p.neg (digitsValue 10 (p.int ++ p.frac)) * (10 : ℚ) ^ (p.exp - p.frac.length)

/-- The exponent, with the letter `e` before it. -/
def readExponent : List UInt8 → Option ℤ
  | [] => some 0
  | c :: s =>
      let r := scanSign s
      if (c = 0x65 ∨ c = 0x45) ∧ r.2 ≠ [] ∧ r.2.all (isDigit 10) then
        some (signed r.1 (digitsValue 10 r.2))
      else none

/-- The digits behind the point, and the exponent. -/
def readFraction (s : List UInt8) : Option (List UInt8 × ℤ) :=
  if s.head? = some 0x2E then
    if s.tail.takeWhile (isDigit 10) = [] then none
    else (readExponent (s.tail.dropWhile (isDigit 10))).map fun e =>
      (s.tail.takeWhile (isDigit 10), e)
  else (readExponent s).map fun e => ([], e)

/-- The parts of a text that is a decimal number. -/
def readDecimal (s : List UInt8) : Option Decimal :=
  let r := scanSign s
  if r.2.takeWhile (isDigit 10) = [] then none
  else (readFraction (r.2.dropWhile (isDigit 10))).map fun q =>
    { neg := r.1, int := r.2.takeWhile (isDigit 10), frac := q.1, exp := q.2 }

/-- A character of a decimal number. -/
def isDecimal (c : UInt8) : Bool :=
  isDigit 10 c || c == 0x2B || c == 0x2D || c == 0x2E || c == 0x65 || c == 0x45

/-! ### The characters -/

lemma scanSign_cases (s : List UInt8) :
    (scanSign s).2 = s ∨ s = 0x2D :: (scanSign s).2 ∨ s = 0x2B :: (scanSign s).2 := by
  cases s with
  | nil => exact .inl rfl
  | cons c s =>
      rw [scanSign]
      split_ifs with h1 h2
      · exact .inr (.inl (by rw [h1]))
      · exact .inr (.inr (by rw [h2]))
      · exact .inl rfl

/-- What stands before a sign does not stand in what follows it. -/
lemma forall_of_scanSign {P : UInt8 → Prop} {s : List UInt8} (hsign : P 0x2D ∧ P 0x2B)
    (h : ∀ c ∈ (scanSign s).2, P c) : ∀ c ∈ s, P c := by
  intro c hc
  rcases scanSign_cases s with heq | heq | heq
  · exact h c (heq.symm ▸ hc)
  · rw [heq] at hc
    rcases List.mem_cons.mp hc with rfl | hc
    · exact hsign.1
    · exact h c hc
  · rw [heq] at hc
    rcases List.mem_cons.mp hc with rfl | hc
    · exact hsign.2
    · exact h c hc

lemma mem_scanSign {c : UInt8} (hminus : c ≠ 0x2D) (hplus : c ≠ 0x2B) {s : List UInt8} :
    c ∈ s ↔ c ∈ (scanSign s).2 := by
  rcases scanSign_cases s with heq | heq | heq
  · rw [heq]
  · conv_lhs => rw [heq]
    simp [hminus]
  · conv_lhs => rw [heq]
    simp [hplus]

lemma isDecimal_of_isDigit {c : UInt8} (h : isDigit 10 c = true) : isDecimal c = true := by
  simp [isDecimal, h]

/-- An exponent has no point. -/
lemma readExponent_bytes {s : List UInt8} {e : ℤ} (h : readExponent s = some e) :
    ∀ c ∈ s, isDecimal c = true ∧ c ≠ 0x2E := by
  cases s with
  | nil => simp
  | cons c s =>
      simp only [readExponent, Option.ite_none_right_eq_some] at h
      obtain ⟨⟨hc, -, hall⟩, -⟩ := h
      refine List.forall_mem_cons.mpr ⟨?_, forall_of_scanSign (by decide) fun b hb => ?_⟩
      · rcases hc with rfl | rfl <;> decide
      · have hdigit := List.all_eq_true.mp hall b hb
        refine ⟨isDecimal_of_isDigit hdigit, ?_⟩
        rintro rfl
        cases hdigit

lemma readFraction_bytes {s frac : List UInt8} {e : ℤ} (h : readFraction s = some (frac, e)) :
    (∀ c ∈ s, isDecimal c = true) ∧ (0x2E ∈ s ↔ frac ≠ []) := by
  rw [readFraction] at h
  split_ifs at h with hpoint hnil
  · obtain ⟨t, rfl⟩ := List.head?_eq_some_iff.mp hpoint
    obtain ⟨e', he, hq⟩ := Option.map_eq_some_iff.mp h
    obtain ⟨rfl, rfl⟩ := Prod.mk.inj hq
    refine ⟨List.forall_mem_cons.mpr ⟨rfl, fun c hc => ?_⟩, by simpa using hnil⟩
    rw [← List.takeWhile_append_dropWhile (p := isDigit 10) (l := t)] at hc
    rcases List.mem_append.mp hc with hc | hc
    · exact isDecimal_of_isDigit (List.mem_takeWhile_imp hc)
    · exact (readExponent_bytes he c hc).1
  · obtain ⟨e', he, hq⟩ := Option.map_eq_some_iff.mp h
    obtain ⟨rfl, rfl⟩ := Prod.mk.inj hq
    have hbytes := readExponent_bytes he
    exact ⟨fun c hc => (hbytes c hc).1, iff_of_false (fun hm => (hbytes _ hm).2 rfl) (by simp)⟩

/-- A decimal number is made of its characters, and has a point when it has a fraction. -/
lemma readDecimal_bytes {s : List UInt8} {p : Decimal} (h : readDecimal s = some p) :
    (∀ c ∈ s, isDecimal c = true) ∧ (0x2E ∈ s ↔ p.frac ≠ []) := by
  simp only [readDecimal] at h
  split_ifs at h with hnil
  obtain ⟨⟨frac, e⟩, hq, rfl⟩ := Option.map_eq_some_iff.mp h
  obtain ⟨hbytes, hpoint⟩ := readFraction_bytes hq
  have hsplit := List.takeWhile_append_dropWhile (p := isDigit 10) (l := (scanSign s).2)
  refine ⟨forall_of_scanSign (by decide) fun c hc => ?_, ?_⟩
  · rw [← hsplit] at hc
    rcases List.mem_append.mp hc with hc | hc
    · exact isDecimal_of_isDigit (List.mem_takeWhile_imp hc)
    · exact hbytes c hc
  · rw [← hpoint]
    have hint : (0x2E : UInt8) ∉ (scanSign s).2.takeWhile (isDigit 10) := fun hm =>
      absurd (List.mem_takeWhile_imp hm) (by decide)
    rw [mem_scanSign (by decide) (by decide), ← hsplit, List.mem_append, or_iff_right hint, hsplit]

/-- A decimal number begins with a digit or a sign. -/
lemma readDecimal_head {s : List UInt8} {p : Decimal} (h : readDecimal s = some p) :
    ∃ c t, s = c :: t ∧ (isDigit 10 c = true ∨ c = 0x2D ∨ c = 0x2B) := by
  simp only [readDecimal] at h
  split_ifs at h with hnil
  rcases scanSign_cases s with heq | heq | heq
  · rw [heq] at hnil
    cases s with
    | nil => exact absurd rfl hnil
    | cons c t =>
        refine ⟨c, t, rfl, .inl ?_⟩
        by_contra hc
        exact hnil (List.takeWhile_cons_of_neg hc)
  · exact ⟨_, _, heq, .inr (.inl rfl)⟩
  · exact ⟨_, _, heq, .inr (.inr rfl)⟩

/-! ### The integer functions -/

set_option maxRecDepth 8000 in
lemma not_isspace : ∀ c : UInt8, (isDigit 10 c = true ∨ c = 0x2D ∨ c = 0x2B) → isspace c = false := by
  decide

/-- The integer functions read a decimal number up to its point or its exponent. -/
lemma scanInt_readDecimal {s : List UInt8} {p : Decimal} (h : readDecimal s = some p) :
    ∃ r, scanInt 10 s = some (p.whole, r) := by
  obtain ⟨c, t, rfl, hc⟩ := readDecimal_head h
  simp only [readDecimal] at h
  split_ifs at h with hnil
  obtain ⟨⟨frac, e⟩, -, rfl⟩ := Option.map_eq_some_iff.mp h
  refine ⟨(scanSign (c :: t)).2.dropWhile (isDigit 10), ?_⟩
  rw [scanInt, List.dropWhile_cons_of_neg (by simp [not_isspace c hc])]
  simp only [scanDigits, dropHexPrefix_ten, if_neg hnil, Option.map_some, Decimal.whole, signed]

end LibCmutils
