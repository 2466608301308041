import LibCmutils.Lib.CString

/-!
Integers as text: the integer scanning and printing functions of the C library.

* `scanInt`: the common part of `strtol`, `strtoll` and `strtoul`: white space, a sign,
  a prefix `0x` in base 16, digits. The result is the number before it is fitted to
  a type and the text after it, or `none` without digits.
* `strtoll`, `strtoul`: the number clamped to 64 bits, or wrapped around.
* `toInt`: the conversion to `int`.
* `Numeral`: the texts that begin with a number in base ten; `scanInt_ten_iff`.
* `decimal`, `printInt`: the conversions `%u` and `%d`; `scanInt_printInt` reads
  a printed number back.
-/

namespace LibCmutils

/-- A 32 bit number as the `int` of the same bits. -/
def toInt (n : ℕ) : ℤ := (n : ℤ).bmod (2 ^ 32)

lemma toInt_eq (n : ℕ) : toInt n =
    if (n : ℤ) % 4294967296 < 2147483648 then (n : ℤ) % 4294967296
    else (n : ℤ) % 4294967296 - 4294967296 :=
  Int.bmod_def ..

lemma toInt_of_lt {n : ℕ} (h : n < 2147483648) : toInt n = n := by
  rw [toInt_eq]
  split <;> omega

/-- A number of 32 bits that is no `int` becomes negative. -/
lemma toInt_neg {n : ℕ} (hge : 2147483648 ≤ n) (hlt : n < 4294967296) : toInt n < 0 := by
  rw [toInt_eq]
  split <;> omega

/-- An `int` is at most the number that it was cut from. -/
lemma toInt_le (n : ℕ) : toInt n ≤ n := by
  rw [toInt_eq]
  split <;> omega

/-- `isspace` in the C locale. -/
def isspace (c : UInt8) : Bool := c == 0x20 || (0x09 ≤ c && c ≤ 0x0D)

/-- The value of a character as a digit, in bases up to 36. -/
def digitValue (c : UInt8) : ℕ :=
  if 0x30 ≤ c ∧ c ≤ 0x39 then (c - 0x30).toNat
  else if 0x41 ≤ c ∧ c ≤ 0x5A then (c - 0x41).toNat + 10
  else if 0x61 ≤ c ∧ c ≤ 0x7A then (c - 0x61).toNat + 10
  else 36

/-- A digit in the given base. -/
def isDigit (base : ℕ) (c : UInt8) : Bool := digitValue c < base

/-- The number a list of digits writes. -/
def digitsValue (base : ℕ) (ds : List UInt8) : ℕ :=
  ds.foldl (fun n c => n * base + digitValue c) 0

lemma digitsValue_concat (base : ℕ) (ds : List UInt8) (c : UInt8) :
    digitsValue base (ds ++ [c]) = digitsValue base ds * base + digitValue c := by
  rw [digitsValue, List.foldl_append]
  rfl

/-- A number has as many digits as its size needs. -/
lemma digitsValue_lt {base : ℕ} {ds : List UInt8} (h : ∀ c ∈ ds, isDigit base c = true) :
    digitsValue base ds < base ^ ds.length := by
  induction ds using List.reverseRecOn with
  | nil => simp [digitsValue]
  | append_singleton ds c ih =>
      have ih := ih fun b hb => h b (by simp [hb])
      have hc : digitValue c < base := by simpa [isDigit] using h c (by simp)
      rw [digitsValue_concat, List.length_append, List.length_singleton, pow_succ]
      calc digitsValue base ds * base + digitValue c
          < digitsValue base ds * base + base := by omega
        _ = (digitsValue base ds + 1) * base := by ring
        _ ≤ base ^ ds.length * base := Nat.mul_le_mul_right base ih

/-- The prefix `0x` of a hexadecimal number, when a digit follows it. -/
def dropHexPrefix (base : ℕ) : List UInt8 → List UInt8
  | 0x30 :: x :: c :: s => if base = 16 ∧ (x = 0x78 ∨ x = 0x58) ∧ isDigit 16 c then c :: s
      else 0x30 :: x :: c :: s
  | s => s

/-- Digits, and the text after them. -/
def scanDigits (base : ℕ) (s : List UInt8) : Option (ℕ × List UInt8) :=
  let s := dropHexPrefix base s
  if s.takeWhile (isDigit base) = [] then none
  else some (digitsValue base (s.takeWhile (isDigit base)), s.dropWhile (isDigit base))

/-- Whether a minus sign comes first, and the text after the sign. -/
def scanSign : List UInt8 → Bool × List UInt8
  | [] => (false, [])
  | c :: s => if c = 0x2D then (true, s) else if c = 0x2B then (false, s) else (false, c :: s)

/-- White space, a sign and digits, and the text after them. -/
def scanInt (base : ℕ) (s : List UInt8) : Option (ℤ × List UInt8) :=
  let r := scanSign (s.dropWhile isspace)
  (scanDigits base r.2).map fun q => (if r.1 then -(q.1 : ℤ) else q.1, q.2)

/-- A number clamped to 64 bits. -/
def clampInt64 (n : ℤ) : ℤ := max (-2 ^ 63) (min n (2 ^ 63 - 1))

/-- `strtoll` and, where `long` has 64 bits, `strtol`. -/
def strtoll (base : ℕ) (s : List UInt8) : Option (ℤ × List UInt8) :=
  (scanInt base s).map fun r => (clampInt64 r.1, r.2)

/-- `(int)strtol` in base ten, with an `int` of 32 bits; zero without digits. -/
def intStrtol (s : List UInt8) : ℤ := (((strtoll 10 s).map Prod.fst).getD 0).bmod (2 ^ 32)

/-- `strtoul`, with a `long` of 64 bits: a negative number wraps around, and one that does
not fit gives the greatest. -/
def strtoul (base : ℕ) (s : List UInt8) : Option (ℕ × List UInt8) :=
  (scanInt base s).map fun r =>
    (if 2 ^ 64 ≤ r.1.natAbs then 2 ^ 64 - 1 else (r.1 % 2 ^ 64).toNat, r.2)

lemma scanSign_eq (s : List UInt8) : ∃ sign, s = sign ++ (scanSign s).2 ∧
    (sign = [0x2D] ∧ (scanSign s).1 = true ∨
      (sign = [] ∨ sign = [0x2B]) ∧ (scanSign s).1 = false) := by
  cases s with
  | nil => exact ⟨[], rfl, .inr ⟨.inl rfl, rfl⟩⟩
  | cons c s =>
      rw [scanSign]
      split_ifs with h1 h2
      · exact ⟨[c], rfl, .inl ⟨by rw [h1], rfl⟩⟩
      · exact ⟨[c], rfl, .inr ⟨.inr (by rw [h2]), rfl⟩⟩
      · exact ⟨[], rfl, .inr ⟨.inl rfl, rfl⟩⟩

/-- A text that begins with a number in base ten: white space, a sign, digits, and no digit
behind them. -/
inductive Numeral : List UInt8 → ℤ → Prop
  | mk {w sign ds r : List UInt8} {n : ℤ} : (∀ c ∈ w, isspace c = true) → ds ≠ [] →
      (∀ c ∈ ds, isDigit 10 c = true) → (∀ c ∈ r.head?, isDigit 10 c = false) →
      (sign = [0x2D] ∧ n = -(digitsValue 10 ds : ℤ) ∨
        (sign = [] ∨ sign = [0x2B]) ∧ n = digitsValue 10 ds) →
      Numeral (w ++ sign ++ ds ++ r) n

/-! ### Printing -/

/-- The character of a decimal digit. -/
def digitChar (d : ℕ) : UInt8 := UInt8.ofNat (0x30 + d)

/-- The digits of a number in base ten. -/
def decimal (n : ℕ) : List UInt8 :=
  if n = 0 then [0x30] else (Nat.digits 10 n).reverse.map digitChar

/-- `%d`. -/
def printInt (n : ℤ) : List UInt8 :=
  if n < 0 then 0x2D :: decimal n.natAbs else decimal n.natAbs

lemma digitChar_spec : ∀ d < 10, digitValue (digitChar d) = d ∧ isDigit 10 (digitChar d) ∧
    0x30 ≤ digitChar d ∧ digitChar d ≤ 0x39 := by
  decide

lemma foldl_digits (ds : List ℕ) (hds : ∀ d ∈ ds, d < 10) :
    digitsValue 10 (ds.reverse.map digitChar) = Nat.ofDigits 10 ds := by
  induction ds with
  | nil => rfl
  | cons d ds ih =>
      have hd := (digitChar_spec d (hds d (by simp))).1
      have ih := ih fun e he => hds e (by simp [he])
      rw [digitsValue] at ih ⊢
      rw [List.reverse_cons, List.map_append, List.foldl_append, ih, Nat.ofDigits_cons]
      simp only [List.map_cons, List.map_nil, List.foldl_cons, List.foldl_nil, hd]
      ring

set_option maxRecDepth 8000 in
/-- A printed number is made of decimal digits and has its value. -/
lemma decimal_spec (n : ℕ) : decimal n ≠ [] ∧ (∀ c ∈ decimal n, 0x30 ≤ c ∧ c ≤ 0x39) ∧
    digitsValue 10 (decimal n) = n := by
  by_cases hn : n = 0
  · subst hn
    simp only [decimal, if_true]
    decide
  · have hlt : ∀ d ∈ Nat.digits 10 n, d < 10 := fun d hd => Nat.digits_lt_base (by norm_num) hd
    rw [decimal, if_neg hn]
    refine ⟨?_, ?_, ?_⟩
    · simpa [Nat.digits_eq_nil_iff_eq_zero] using hn
    · intro c hc
      obtain ⟨d, hd, rfl⟩ := List.mem_map.mp hc
      exact (digitChar_spec d (hlt d (List.mem_reverse.mp hd))).2.2
    · rw [foldl_digits _ hlt, Nat.ofDigits_digits]

lemma decimal_notMem {c : UInt8} (hc : ¬ (0x30 ≤ c ∧ c ≤ 0x39)) (n : ℕ) : c ∉ decimal n :=
  fun h => hc ((decimal_spec n).2.1 c h)

lemma decimal_injective : Function.Injective decimal := by
  intro m n h
  rw [← (decimal_spec m).2.2, h, (decimal_spec n).2.2]

/-- A number has at most `k` digits exactly below `10 ^ k`. -/
lemma length_decimal_le_iff {n k : ℕ} (hk : 0 < k) : (decimal n).length ≤ k ↔ n < 10 ^ k := by
  rw [decimal]
  split
  next hn =>
    have hpos : 0 < 10 ^ k := Nat.pow_pos (by norm_num)
    rw [hn, List.length_singleton]
    omega
  next hn =>
    rw [List.length_map, List.length_reverse]
    exact Nat.digits_length_le_iff (by norm_num) n

/-- A printed number is made of digits and a sign. -/
lemma printInt_bytes (n : ℤ) : printInt n ≠ [] ∧
    ∀ c ∈ printInt n, (0x30 ≤ c ∧ c ≤ 0x39) ∨ c = 0x2D := by
  obtain ⟨hne, hdigit, -⟩ := decimal_spec n.natAbs
  rw [printInt]
  split
  · refine ⟨by simp, fun c hc => ?_⟩
    rcases List.mem_cons.mp hc with rfl | hc
    · exact .inr rfl
    · exact .inl (hdigit c hc)
  · exact ⟨hne, fun c hc => .inl (hdigit c hc)⟩

lemma zero_notMem_printInt (n : ℤ) : (0 : UInt8) ∉ printInt n := by
  intro h
  rcases (printInt_bytes n).2 0 h with h | h
  · exact absurd h.1 (by decide)
  · exact absurd h (by decide)

set_option maxRecDepth 8000 in
lemma isDigit_head : ∀ c : UInt8, isDigit 10 c = true →
    isspace c = false ∧ c ≠ 0x2D ∧ c ≠ 0x2B := by
  decide

set_option maxRecDepth 8000 in
lemma isDigit_of_decimal : ∀ c : UInt8, 0x30 ≤ c → c ≤ 0x39 →
    isDigit 10 c = true ∧ isspace c = false ∧ c ≠ 0x2D ∧ c ≠ 0x2B := by
  decide

lemma dropHexPrefix_ten (s : List UInt8) : dropHexPrefix 10 s = s := by
  unfold dropHexPrefix
  split <;> simp

/-- **Scanning a number** in base ten. -/
theorem scanInt_ten_iff {s : List UInt8} {n : ℤ} :
    (∃ r, scanInt 10 s = some (n, r)) ↔ Numeral s n := by
  constructor
  · rintro ⟨r, h⟩
    obtain ⟨⟨k, r⟩, hdigits, hn⟩ := Option.map_eq_some_iff.mp h
    obtain ⟨hval, rfl⟩ := Prod.mk.inj hn
    obtain ⟨sign, hsign, hneg⟩ := scanSign_eq (s.dropWhile isspace)
    generalize (scanSign (s.dropWhile isspace)).2 = t at hsign hdigits
    simp only [scanDigits, dropHexPrefix_ten] at hdigits
    split_ifs at hdigits with hnil
    obtain ⟨rfl, -⟩ := Prod.mk.inj (Option.some.inj hdigits)
    have hs : s = s.takeWhile isspace ++ sign ++ t.takeWhile (isDigit 10) ++
        t.dropWhile (isDigit 10) := by
      rw [List.append_assoc, List.takeWhile_append_dropWhile, List.append_assoc, ← hsign,
        List.takeWhile_append_dropWhile]
    rw [hs]
    refine .mk (fun c => List.mem_takeWhile_imp) hnil (fun c => List.mem_takeWhile_imp)
      (fun c hc => ?_) ?_
    · have hhead := List.head?_dropWhile_not (isDigit 10) t
      rw [Option.mem_def.mp hc] at hhead
      exact hhead
    · rcases hneg with ⟨hsign, hneg⟩ | ⟨hsign, hneg⟩
      · exact .inl ⟨hsign, by rw [← hval, hneg, if_pos rfl]⟩
      · exact .inr ⟨hsign, by rw [← hval, hneg, if_neg (by decide)]⟩
  · rintro @⟨w, sign, ds, r, n, hw, hnil, hds, hr, hsign⟩
    obtain ⟨c, k, hck⟩ := List.exists_cons_of_ne_nil hnil
    obtain ⟨hspace, hminus, hplus⟩ := isDigit_head c (hds c (by simp [hck]))
    have hrest : r.dropWhile (isDigit 10) = r ∧ r.takeWhile (isDigit 10) = [] := by
      cases r with
      | nil => exact ⟨rfl, rfl⟩
      | cons d r =>
          have hd : ¬ isDigit 10 d = true := by simp [hr d rfl]
          exact ⟨List.dropWhile_cons_of_neg hd, List.takeWhile_cons_of_neg hd⟩
    have hdigits : scanDigits 10 (ds ++ r) = some (digitsValue 10 ds, r) := by
      simp only [scanDigits, dropHexPrefix_ten, List.takeWhile_append_of_pos hds,
        List.dropWhile_append_of_pos hds, hrest.1, hrest.2, List.append_nil, hnil, if_false]
    have hskip : (w ++ sign ++ ds ++ r).dropWhile isspace = (sign ++ ds ++ r).dropWhile isspace := by
      rw [List.append_assoc, List.append_assoc, List.dropWhile_append_of_pos hw, List.append_assoc]
    refine ⟨r, ?_⟩
    rw [scanInt, hskip]
    rcases hsign with ⟨rfl, rfl⟩ | ⟨rfl | rfl, rfl⟩
    · have hfirst : scanSign (([0x2D] ++ ds ++ r).dropWhile isspace) = (true, ds ++ r) := rfl
      simp only [hfirst, hdigits]
      rfl
    · have hfirst : scanSign (([] ++ ds ++ r).dropWhile isspace) = (false, ds ++ r) := by
        rw [List.nil_append, hck, List.cons_append, List.dropWhile_cons_of_neg (by simp [hspace]),
          scanSign, if_neg hminus, if_neg hplus]
      simp only [hfirst, hdigits]
      rfl
    · have hfirst : scanSign (([0x2B] ++ ds ++ r).dropWhile isspace) = (false, ds ++ r) := rfl
      simp only [hfirst, hdigits]
      rfl

/-- Scanning what `%u` prints. -/
lemma scanDigits_decimal (n : ℕ) : scanDigits 10 (decimal n) = some (n, []) := by
  obtain ⟨hne, hdigit, hvalue⟩ := decimal_spec n
  have hall : ∀ c ∈ decimal n, isDigit 10 c = true :=
    fun c hc => (isDigit_of_decimal c (hdigit c hc).1 (hdigit c hc).2).1
  have htake := List.takeWhile_eq_self_iff.mpr hall
  have hdrop := List.dropWhile_eq_nil_iff.mpr hall
  simp only [scanDigits, dropHexPrefix_ten, htake, hdrop, hne, hvalue, if_false]

/-- **Scanning what `%d` prints.** -/
theorem scanInt_printInt (n : ℤ) : scanInt 10 (printInt n) = some (n, []) := by
  obtain ⟨hne, hdigit, -⟩ := decimal_spec n.natAbs
  obtain ⟨c, s, hs⟩ : ∃ c s, decimal n.natAbs = c :: s := List.exists_cons_of_ne_nil hne
  have hc := hdigit c (by simp [hs])
  obtain ⟨-, hspace, hminus, hplus⟩ := isDigit_of_decimal c hc.1 hc.2
  rw [printInt]
  split
  · have hsign : scanSign ((0x2D :: decimal n.natAbs).dropWhile isspace)
        = (true, decimal n.natAbs) := rfl
    simp only [scanInt, hsign, scanDigits_decimal, Option.map_some, if_true, Option.some.injEq,
      Prod.mk.injEq, and_true]
    omega
  · have hsign : scanSign ((decimal n.natAbs).dropWhile isspace) = (false, decimal n.natAbs) := by
      rw [hs, List.dropWhile_cons_of_neg (by simp [hspace]), scanSign, if_neg hminus, if_neg hplus]
    simp only [scanInt, hsign, scanDigits_decimal, Option.map_some, Bool.false_eq_true, if_false,
      Option.some.injEq, Prod.mk.injEq, and_true]
    omega

/-- What `strtol` and the cast make of a number. -/
lemma intStrtol_of_scan {s : List UInt8} {n : ℤ} {r : List UInt8} (h : scanInt 10 s = some (n, r)) :
    intStrtol s = (clampInt64 n).bmod (2 ^ 32) := by
  rw [intStrtol, strtoll, h]
  rfl

/-- Reading what `%u` prints. -/
lemma intStrtol_decimal (n : ℕ) :
    intStrtol (decimal n) = (min (n : ℤ) (2 ^ 63 - 1)).bmod (2 ^ 32) := by
  have hprint : decimal n = printInt n := by rw [printInt, if_neg (by omega), Int.natAbs_natCast]
  have hclamp : clampInt64 n = min (n : ℤ) (2 ^ 63 - 1) := by
    rw [clampInt64]
    omega
  rw [hprint, intStrtol_of_scan (scanInt_printInt n), hclamp]

end LibCmutils
