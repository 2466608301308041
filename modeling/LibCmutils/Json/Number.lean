import LibCmutils.Lib.Decimal
import LibCmutils.Json.RoundTrip
import LibCmutils.String.Split

/-!
JSON numbers (`src/nanojson.c`).

* `CDouble.Exact`: what `strtod` and `%.17g` do with decimal numbers.
* `NumberExact`: an unquoted token is a decimal number, and the value read is that number.
  `NumberFits` says for which tokens: `CMUTIL_JsonParseConst` takes a token without a point
  for an integer, and neither reader is asked where it stopped.
* `jsonNumber_iff`: when a token and a printed double are read right.
-/

namespace LibCmutils

/-- The C library on decimal numbers: `strtod` gives the double for the number, zero with
its sign, the text of a finite double is a decimal number, and `strtod` gives the double back. -/
structure CDouble.Exact (cd : CDouble) where
  round : Bool → ℚ → cd.carrier
  finite : cd.carrier → Prop
  strtod_decimal : ∀ (s : CString) p, readDecimal s.1 = some p →
    cd.strtod s = some (round p.neg p.value)
  print_decimal : ∀ x, finite x → ∃ p, readDecimal (cd.print x).1 = some p
  strtod_print : ∀ x, finite x → cd.strtod (cd.print x) = some x

/-- A value of the type long or double. -/
def Json.isNumber : Json → Bool
  | .value .long _ => true
  | .value .double _ => true
  | _ => false

/-- The token `u` is a decimal number, and `v` is that number. -/
def NumberExact {cd : CDouble} (ex : cd.Exact) (u : List UInt8) (v : Json) : Prop :=
  ∃ p, readDecimal (stringSelfTrim u) = some p ∧
    ((∃ n : ℤ, -2 ^ 63 ≤ n ∧ n < 2 ^ 63 ∧ (n : ℚ) = p.value ∧ v = jsonValueSetLong n) ∨
      v = jsonValueSetDouble (cd.print (ex.round p.neg p.value)))

/-- The number is the integer before its exponent, in the range of 64 bits, or the end of
that range when the integer is beyond it. -/
def Decimal.LongFits (p : Decimal) : Prop :=
  (-2 ^ 63 ≤ p.whole ∧ p.whole < 2 ^ 63 ∧ (p.exp = 0 ∨ p.whole = 0)) ∨
    (p.whole < -2 ^ 63 ∧ p.value = -2 ^ 63) ∨ (2 ^ 63 ≤ p.whole ∧ p.value = 2 ^ 63 - 1)

/-- The token `u` is a decimal number with a point, or one that its integer stands for. -/
def NumberFits (u : List UInt8) : Prop :=
  ∃ p, readDecimal (stringSelfTrim u) = some p ∧ (p.frac ≠ [] ∨ p.LongFits)

/-! ### Long numbers -/

lemma Decimal.value_of_frac {p : Decimal} (hp : p.frac = []) :
    p.value = p.whole * (10 : ℚ) ^ p.exp := by
  rw [Decimal.value, Decimal.whole, hp]
  simp

/-- The integer that is read is the number. -/
lemma Decimal.longFits_iff {p : Decimal} (hp : p.frac = []) :
    p.LongFits ↔ (clampInt64 p.whole : ℚ) = p.value := by
  rw [Decimal.LongFits]
  rcases lt_or_ge p.whole (-2 ^ 63) with hlow | hlow
  · have hclamp : clampInt64 p.whole = -2 ^ 63 := by
      rw [clampInt64]
      omega
    rw [hclamp]
    push_cast
    constructor
    · rintro (⟨h, -⟩ | ⟨-, h⟩ | ⟨h, -⟩)
      · omega
      · exact h.symm
      · omega
    · exact fun h => .inr (.inl ⟨hlow, h.symm⟩)
  rcases lt_or_ge p.whole (2 ^ 63) with hhigh | hhigh
  · have hclamp : clampInt64 p.whole = p.whole := by
      rw [clampInt64]
      omega
    rw [hclamp, Decimal.value_of_frac hp]
    constructor
    · rintro (⟨-, -, h | h⟩ | ⟨h, -⟩ | ⟨h, -⟩)
      · rw [h, zpow_zero, mul_one]
      · rw [h, Int.cast_zero, zero_mul]
      · omega
      · omega
    · intro h
      refine .inl ⟨hlow, hhigh, ?_⟩
      by_cases hzero : p.whole = 0
      · exact .inr hzero
      · have hne : (p.whole : ℚ) ≠ 0 := Int.cast_ne_zero.mpr hzero
        have hone : (10 : ℚ) ^ p.exp = 1 := (mul_eq_left₀ hne).mp h.symm
        exact .inl ((zpow_eq_one_iff_right₀ (by norm_num) (by norm_num)).mp hone)
  · have hclamp : clampInt64 p.whole = 2 ^ 63 - 1 := by
      rw [clampInt64]
      omega
    have hcast : ((2 ^ 63 - 1 : ℤ) : ℚ) = 2 ^ 63 - 1 := by norm_num
    rw [hclamp, hcast]
    constructor
    · rintro (⟨-, h, -⟩ | ⟨h, -⟩ | ⟨-, h⟩)
      · omega
      · omega
      · exact h.symm
    · exact fun h => .inr (.inr ⟨hhigh, h.symm⟩)

/-! ### Constants -/

variable {cd : CDouble}

set_option maxRecDepth 8000 in
lemma decimal_plain : ∀ c : UInt8, isDecimal c = true → isPlain c = true := by
  decide

set_option maxRecDepth 8000 in
lemma numeral_head : ∀ c : UInt8, (isDigit 10 c = true ∨ c = 0x2D ∨ c = 0x2B) →
    strchr [0x74, 0x54, 0x66, 0x46] c = false ∧ strchr [0x6E, 0x4E] c = false ∧ c ≠ 0x22 := by
  decide

/-- A token that is a decimal number is read by `strtod` or by `strtoll`. -/
lemma jsonParseConst_decimal {s : List UInt8} {p : Decimal}
    (hp : readDecimal (stringSelfTrim s) = some p) :
    jsonParseConst cd s = if p.frac ≠ [] then
        (cd.strtod (CString.ofBytes (stringSelfTrim s))).map fun x => jsonValueSetDouble (cd.print x)
      else some (jsonValueSetLong (clampInt64 p.whole)) := by
  obtain ⟨hbytes, hdot⟩ := readDecimal_bytes hp
  have hzero : (0 : UInt8) ∉ stringSelfTrim s := fun h =>
    (isPlain_spec (decimal_plain 0 (hbytes 0 h))).1 rfl
  obtain ⟨c, k, hck, hc⟩ := readDecimal_head hp
  obtain ⟨htf, hnull, -⟩ := numeral_head c hc
  obtain ⟨r, hscan⟩ := scanInt_readDecimal hp
  rw [jsonParseConst_numeral rfl hck hzero htf hnull, CString.ofBytes_of_notMem hzero]
  simp only [hdot, strtoll, hscan, Option.map_some]

/-! ### Tokens -/

/-- Without escapes a token is what it is scanned as. -/
lemma Scan.eq_of_noEscape {stop : UInt8 → Bool} {u r s : List UInt8} (h : Scan stop (u ++ r) s r)
    (hu : (0x5C : UInt8) ∉ u) : s = u := by
  generalize hl : u ++ r = l at h
  induction h generalizing u with
  | nil l => exact (List.append_left_eq_self.mp hl).symm
  | char hc _ hscan ih =>
      cases u with
      | nil =>
          have := hscan.length_le
          rw [List.nil_append] at hl
          simp [hl] at this
      | cons e u =>
          obtain ⟨rfl, htail⟩ := List.cons.inj hl
          rw [ih (fun hm => hu (List.mem_cons_of_mem _ hm)) htail]
  | escape he hscan _ =>
      cases u with
      | nil =>
          have hlen := hscan.length_le
          have := he.length_lt
          rw [List.nil_append] at hl
          simp only [hl, List.length_cons] at hlen
          omega
      | cons e u =>
          obtain ⟨rfl, -⟩ := List.cons.inj hl
          exact absurd (List.mem_cons_self ..) hu

/-- A token that is a decimal number has no escapes. -/
lemma notMem_of_readDecimal {u : List UInt8} {p : Decimal}
    (hp : readDecimal (stringSelfTrim u) = some p) : (0x5C : UInt8) ∉ u := by
  obtain ⟨pre, post, hu, hpre, hpost⟩ := exists_stringSelfTrim u
  rw [hu, List.mem_append, List.mem_append]
  rintro (hm | hm | hm)
  · exact absurd (hpre _ hm) (by decide)
  · exact absurd ((readDecimal_bytes hp).1 _ hm) (by decide)
  · exact absurd (hpost _ hm) (by decide)

/-- What an accepted token that is a decimal number is read as. -/
lemma jsonParseValue_decimal {u r : List UInt8} {d : ℕ} {v : Json} {p : Decimal}
    (hl : TokenStart (u ++ r)) (hq : (u ++ r).head? ≠ some 0x22)
    (h : jsonParseValue cd (.at (u ++ r) d) = some (.at r d, some v))
    (hp : readDecimal (stringSelfTrim u) = some p) : jsonParseConst cd u = some v := by
  rw [jsonParseValue, jsonSkipSpaces_token hl, Option.bind_eq_bind, Option.bind_some] at h
  cases hstring : jsonParseString (.at (u ++ r) d) with
  | none => simp [hstring] at h
  | some res =>
      obtain ⟨st, _ | ⟨s, isconst⟩⟩ := res
      · simp [hstring] at h
      · obtain ⟨r', rfl, hname⟩ := jsonParseString_sound hl hstring
        rcases hname with ⟨-, k, hk, -⟩ | ⟨rfl, -, hu⟩
        · rw [hk] at hq
          exact absurd rfl hq
        · simp [hstring] at h
          obtain ⟨hr, hconst⟩ := h
          obtain rfl : r' = r := congrArg JsonParser.curr hr
          rwa [hu.1.eq_of_noEscape (notMem_of_readDecimal hp)] at hconst

lemma jsonValueSetLong_inj {n m : ℤ} (h : jsonValueSetLong n = jsonValueSetLong m) : n = m := by
  have htext := congrArg Subtype.val (Json.value.inj h).2
  rw [CString.ofBytes_of_notMem (zero_notMem_printInt n),
    CString.ofBytes_of_notMem (zero_notMem_printInt m)] at htext
  have hscan := scanInt_printInt n
  rw [show printInt n = printInt m from htext, scanInt_printInt] at hscan
  exact (Prod.mk.inj (Option.some.inj hscan)).1.symm

/-- **A token** that is accepted as a number is read right exactly when it fits. -/
lemma numberExact_iff (ex : cd.Exact) {u r : List UInt8} {d : ℕ} {v : Json}
    (hl : TokenStart (u ++ r)) (hq : (u ++ r).head? ≠ some 0x22)
    (h : jsonParseValue cd (.at (u ++ r) d) = some (.at r d, some v)) :
    NumberExact ex u v ↔ NumberFits u := by
  refine exists_congr fun p => and_congr_right fun hp => ?_
  have hconst := jsonParseValue_decimal hl hq h hp
  have hzero : (0 : UInt8) ∉ stringSelfTrim u := fun hm =>
    absurd ((readDecimal_bytes hp).1 _ hm) (by decide)
  rw [jsonParseConst_decimal hp] at hconst
  by_cases hfrac : p.frac = []
  · rw [if_neg (not_not.mpr hfrac)] at hconst
    obtain rfl := Option.some.inj hconst
    rw [or_iff_right (not_not.mpr hfrac), Decimal.longFits_iff hfrac]
    have hrange : -2 ^ 63 ≤ clampInt64 p.whole ∧ clampInt64 p.whole < 2 ^ 63 := by
      rw [clampInt64]
      omega
    constructor
    · rintro (⟨n, -, -, hn, heq⟩ | heq)
      · rw [jsonValueSetLong_inj heq, hn]
      · exact absurd (Json.value.inj heq).1 (by decide)
    · exact fun hn => .inl ⟨_, hrange.1, hrange.2, hn, rfl⟩
  · rw [if_pos hfrac, CString.ofBytes_of_notMem hzero,
      ex.strtod_decimal ⟨stringSelfTrim u, hzero⟩ p hp] at hconst
    exact iff_of_true (.inr (Option.some.inj hconst).symm) (.inl hfrac)

/-- **A printed double** is read back exactly when its text has a point. -/
lemma readBack_iff (ex : cd.Exact) {x : cd.carrier} (hx : ex.finite x) (pretty : Bool) :
    jsonParse cd (jsonToString (jsonValueSetDouble (cd.print x)) pretty) =
        some (some (jsonValueSetDouble (cd.print x))) ↔ 0x2E ∈ (cd.print x).1 := by
  obtain ⟨p, hp⟩ := ex.print_decimal x hx
  set t := (cd.print x).1 with ht
  have hplain : ∀ c ∈ t, isPlain c = true := fun c hc =>
    decimal_plain c ((readDecimal_bytes hp).1 c hc)
  obtain ⟨c, k, hck, hc⟩ := readDecimal_head hp
  have hne : t ≠ [] := by simp [hck]
  have hquote : t.head? ≠ some 0x22 := by
    rw [hck]
    simpa using (numeral_head c hc).2.2
  have hconst (w : List UInt8) (hw : Pad w) : jsonParseConst cd (t ++ w) =
      if p.frac ≠ [] then some (jsonValueSetDouble (cd.print x))
      else some (jsonValueSetLong (clampInt64 p.whole)) := by
    have htrim := selfTrim_plain hplain hne hw
    rw [jsonParseConst_decimal (htrim ▸ hp), htrim, ht, CString.ofBytes_coe, ex.strtod_print x hx]
    rfl
  have hparse {v : Json} (hv : ∀ w, Pad w → jsonParseConst cd (t ++ w) = some v) :
      jsonParse cd t = some (some v) := by
    obtain ⟨q, hd, -⟩ := prints_literal hne hplain hquote hv (d := 0) (w := []) (r := [])
      (by decide) (by simp [Pad]) (by simp [Stop])
    rw [List.append_nil, List.append_nil] at hd
    exact jsonParse_eq_some_iff.mpr ⟨_, q, .nil _, hd.mono true⟩
  have htext : jsonToString (jsonValueSetDouble (cd.print x)) pretty = t := by
    simp [jsonToString, jsonValueSetDouble, jsonToStringInternal, jsonValueToString, ht]
  rw [htext, (readDecimal_bytes hp).2]
  by_cases hfrac : p.frac = []
  · have hlong := hparse fun w hw => by rw [hconst w hw, if_neg (not_not.mpr hfrac)]
    rw [hlong]
    refine iff_of_false (fun heq => ?_) (not_not.mpr hfrac)
    have := Option.some.inj (Option.some.inj heq)
    exact absurd (Json.value.inj this).1 (by decide)
  · exact iff_of_true (hparse fun w hw => by rw [hconst w hw, if_pos hfrac]) hfrac

/-- Rational numbers with a sign in the place of doubles; one of them is printed. -/
def rationalDouble : CDouble where
  carrier := Bool × ℚ
  strtod s := (readDecimal s.1).map fun p => (p.neg, p.value)
  print _ := ⟨[0x31, 0x2E, 0x35], by decide⟩

lemma readDecimal_point :
    readDecimal [0x31, 0x2E, 0x35] = some ⟨false, [0x31], [0x35], 0⟩ := by decide

/-- They read decimal numbers, and `1.5` is printed right. -/
def rationalDoubleExact : rationalDouble.Exact where
  round neg q := (neg, q)
  finite x := x = (false, 3 / 2)
  strtod_decimal s p hp := by
    show (readDecimal s.1).map _ = _
    rw [hp]
    rfl
  print_decimal _ _ := ⟨⟨false, [0x31], [0x35], 0⟩, readDecimal_point⟩
  strtod_print x hx := by
    have hvalue : Decimal.value ⟨false, [0x31], [0x35], 0⟩ = 3 / 2 := by
      rw [Decimal.value, show digitsValue 10 ([0x31] ++ [0x35]) = 15 from by decide]
      norm_num [signed]
    show (readDecimal [0x31, 0x2E, 0x35]).map (fun p => (p.neg, p.value)) = some x
    rw [readDecimal_point, hx, Option.map_some, hvalue]
    rfl

end LibCmutils
