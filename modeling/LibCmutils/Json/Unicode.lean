import LibCmutils.Json.Bounds
import LibCmutils.Json.Document

/-!
Unicode escapes in JSON strings (`src/nanojson.c`).

* `Hex4`: four hexadecimal digits. `CharWritten`, `StringWritten`: how a sequence of
  Unicode scalar values is written between quotes, as characters, as `\u` escapes and as
  surrogate pairs.
* `BadUnicode`, `StringMalformed`: a string with an escape that has no meaning.
* `StringExact`, `StringRejected`: the parser stores the UTF-8 encoding, or refuses the
  string wherever it stands. `ReachesString` says where a document has a string.
* `jsonString_unicode_iff`: when it does so. A decoded NUL cuts the stored string short,
  and a NUL where two digits should begin is read as `FF` (`PaddedHex4`).
-/

namespace LibCmutils

/-- A hexadecimal digit. -/
def hexDigitValue (c : UInt8) : Option ℕ :=
  if 0x30 ≤ c ∧ c ≤ 0x39 then some (c.toNat - 0x30)
  else if 0x41 ≤ c ∧ c ≤ 0x46 then some (c.toNat - 0x37)
  else if 0x61 ≤ c ∧ c ≤ 0x66 then some (c.toNat - 0x57)
  else none

/-- Four hexadecimal digits and their number. -/
inductive Hex4 : List UInt8 → ℕ → Prop
  | digits {a b c e : UInt8} {i j k n : ℕ} : hexDigitValue a = some i → hexDigitValue b = some j →
      hexDigitValue c = some k → hexDigitValue e = some n →
      Hex4 [a, b, c, e] ((i * 16 + j) * 256 + (k * 16 + n))

/-- Four bytes, with a NUL where a pair of digits begins, and what is read there. -/
inductive PaddedHex4 : List UInt8 → ℕ → Prop
  | both (b c e : UInt8) : PaddedHex4 [0, b, c, e] 0xFFFF
  | last {a b : UInt8} {i j : ℕ} (e : UInt8) : hexDigitValue a = some i → hexDigitValue b = some j →
      PaddedHex4 [a, b, 0, e] ((i * 16 + j) * 256 + 0xFF)

/-! ### What is written -/

/-- A Unicode scalar value as a character, an escape or a surrogate pair. -/
inductive CharWritten : Char → List UInt8 → Prop
  | plain {c : Char} : c ≠ '"' → c ≠ '\\' → CharWritten c (String.utf8EncodeChar c)
  | unicode {c : Char} {l : List UInt8} : Hex4 l c.toNat → CharWritten c (0x5C :: 0x75 :: l)
  | pair {c : Char} {l m : List UInt8} : 0x10000 ≤ c.toNat →
      Hex4 l (0xD800 + (c.toNat - 0x10000) / 0x400) →
      Hex4 m (0xDC00 + (c.toNat - 0x10000) % 0x400) →
      CharWritten c (0x5C :: 0x75 :: l ++ 0x5C :: 0x75 :: m)

/-- A sequence of Unicode scalar values. -/
inductive StringWritten : List Char → List UInt8 → Prop
  | nil : StringWritten [] []
  | cons {c : Char} {x : List UInt8} {cs : List Char} {w : List UInt8} : CharWritten c x →
      StringWritten cs w → StringWritten (c :: cs) (x ++ w)

/-- Characters and escapes of a string, with `digits` as the four digits of an escape. -/
inductive StringText (digits : List UInt8 → ℕ → Prop) : List UInt8 → List UInt8 → Prop
  | nil (l : List UInt8) : StringText digits l l
  | char {c : UInt8} {l r : List UInt8} : c ≠ 0x5C → c ≠ 0x22 → StringText digits l r →
      StringText digits (c :: l) r
  | byte {c : UInt8} {l r : List UInt8} : c ≠ 0x75 → StringText digits l r →
      StringText digits (0x5C :: c :: l) r
  | unicode {x l r : List UInt8} {n : ℕ} : digits x n → ¬(0xD800 ≤ n ∧ n ≤ 0xDFFF) →
      StringText digits l r → StringText digits (0x5C :: 0x75 :: x ++ l) r
  | pair {x y l r : List UInt8} {n m : ℕ} : digits x n → 0xD800 ≤ n ∧ n ≤ 0xDBFF → digits y m →
      0xDC00 ≤ m ∧ m ≤ 0xDFFF → StringText digits l r →
      StringText digits (0x5C :: 0x75 :: x ++ 0x5C :: 0x75 :: y ++ l) r

/-- The text after `\u` has no meaning: no four digits, a low surrogate, or a high surrogate
that no low one follows. -/
inductive BadUnicode (l : List UInt8) : Prop
  | digits : (∀ x r n, l = x ++ r → ¬Hex4 x n) → BadUnicode l
  | low {x r : List UInt8} {n : ℕ} : l = x ++ r → Hex4 x n → 0xDC00 ≤ n ∧ n ≤ 0xDFFF →
      BadUnicode l
  | high {x r : List UInt8} {n : ℕ} : l = x ++ r → Hex4 x n → 0xD800 ≤ n ∧ n ≤ 0xDBFF →
      (∀ y s m, r = 0x5C :: 0x75 :: y ++ s → Hex4 y m → ¬(0xDC00 ≤ m ∧ m ≤ 0xDFFF)) → BadUnicode l

/-- A string, after its opening quote, with an escape that has no meaning. -/
def StringMalformed (l : List UInt8) : Prop :=
  ∃ x, StringText Hex4 l (0x5C :: 0x75 :: x) ∧ BadUnicode x

/-- A string that can be read to its closing quote, or to the end of the text, when `FF`
stands for a NUL where a pair of digits begins. -/
def StringPadded (l : List UInt8) : Prop :=
  ∃ r, StringText (fun x n => Hex4 x n ∨ PaddedHex4 x n) l r ∧ (r = [] ∨ r.head? = some 0x22)

/-! ### Where a string stands -/

/-- A text that the descent goes on with. -/
inductive JsonStart
  | value (depth : ℕ) (l : List UInt8)
  | members (depth : ℕ) (l : List UInt8)
  | items (depth : ℕ) (l : List UInt8)

/-- After complete members and items, the text has the quoted string `k` (without its opening
quote) as a value or as the name of a member. -/
inductive ReachesString (cd : CDouble) (k : List UInt8) : JsonStart → Prop
  | string {d} : ReachesString cd k (.value d (0x22 :: k))
  | object {d l} : ReachesString cd k (.members (d + 1) l) → ReachesString cd k (.value d (0x7B :: l))
  | array {d l} : ReachesString cd k (.items (d + 1) l) → ReachesString cd k (.value d (0x5B :: l))
  | name {d l} : Blank l (0x22 :: k) → ReachesString cd k (.members d l)
  | member {d l m s n o p} : Blank l m → NameToken false m s n → Blank n (0x3A :: o) → Blank o p →
      ReachesString cd k (.value d p) → ReachesString cd k (.members d l)
  | members {d l m s n o p v q j} : Blank l m → NameToken false m s n → Blank n (0x3A :: o) →
      Blank o p → Derives cd false (.value d p v q) → Blank q (0x2C :: j) →
      ReachesString cd k (.members d j) → ReachesString cd k (.members d l)
  | item {d l p} : Blank l p → ReachesString cd k (.value d p) → ReachesString cd k (.items d l)
  | items {d l p v q j} : Blank l p → Derives cd false (.value d p v q) → Blank q (0x2C :: j) →
      ReachesString cd k (.items d j) → ReachesString cd k (.items d l)

/-- The quoted text `w` is stored as the UTF-8 encoding of `cs`: as a value and as a name,
in any state of the parser, and as a document. -/
structure StringExact (cd : CDouble) (cs : List Char) (w : List UInt8) : Prop where
  value : ∀ r d, ∃ data : CString, data.1 = utf8Bytes cs ∧
    jsonParseValue cd (.at (0x22 :: w ++ 0x22 :: r) d) =
      some (.at r d, some (.value .string data))
  name : ∀ r o d, Blank r (0x3A :: o) → ∃ name : CString, name.1 = utf8Bytes cs ∧
    jsonParseName (.at (0x22 :: w ++ 0x22 :: r) d) = some (.at o d, some name)
  document : ∀ t r, Blank t (0x22 :: w ++ 0x22 :: r) → ∃ data : CString, data.1 = utf8Bytes cs ∧
    jsonParse cd t = some (some (.value .string data))

/-- The quoted string `k` is refused: as a value and as a name, in any state of the parser,
and with every document that has it. -/
structure StringRejected (cd : CDouble) (k : List UInt8) : Prop where
  value : ∀ d ≤ 512, ∃ st, jsonParseValue cd (.at (0x22 :: k) d) = some (st, none)
  name : ∀ d ≤ 512, ∃ st, jsonParseName (.at (0x22 :: k) d) = some (st, none)
  document : ∀ t m, Blank t m → ReachesString cd k (.value 0 m) → jsonParse cd t = some none

/-! ### Digits -/

set_option maxRecDepth 8000 in
lemma stringHexChar_eq : ∀ c : UInt8, stringHexChar c = (hexDigitValue c).map UInt8.ofNat ∧
    (∀ i ∈ hexDigitValue c, i < 16) := by
  decide

lemma hexPair_toNat : ∀ i < 16, ∀ j < 16,
    (UInt8.ofNat i <<< 4 ||| UInt8.ofNat j).toNat = i * 16 + j := by
  decide

lemma Hex4.length {l : List UInt8} {n : ℕ} (h : Hex4 l n) : l.length = 4 := by
  cases h
  rfl

lemma Hex4.of_eq {a b c e : UInt8} {i j k m n : ℕ} (ha : hexDigitValue a = some i)
    (hb : hexDigitValue b = some j) (hc : hexDigitValue c = some k) (he : hexDigitValue e = some m)
    (hn : (i * 16 + j) * 256 + (k * 16 + m) = n) : Hex4 [a, b, c, e] n :=
  hn ▸ .digits ha hb hc he

lemma PaddedHex4.length {l : List UInt8} {n : ℕ} (h : PaddedHex4 l n) : l.length = 4 := by
  cases h <;> rfl

/-- A pair of digits. -/
lemma hexPairsToBytes_succ {a b : UInt8} (ha : a ≠ 0) (pairs : ℕ) (l : List UInt8) :
    hexPairsToBytes (pairs + 1) (a :: b :: l) =
      (hexDigitValue a).bind fun i => (hexDigitValue b).bind fun j =>
        (hexPairsToBytes pairs l).bind fun rest =>
          some ((UInt8.ofNat i <<< 4 ||| UInt8.ofNat j) :: rest) := by
  simp only [hexPairsToBytes, List.headD_cons, List.tail_cons, ha, if_false,
    (stringHexChar_eq _).1, Option.bind_eq_bind, Option.bind_map, List.drop_succ_cons,
    List.drop_zero]
  rfl

lemma hexDigitValue_ne_zero {c : UInt8} {i : ℕ} (h : hexDigitValue c = some i) : c ≠ 0 := by
  rintro rfl
  cases h

/-- Four bytes are read as digits, with `FF` for a NUL. -/
lemma jsonHex4_iff {l : List UInt8} {n : ℕ} :
    (l.length = 4 ∧ jsonHex4 l = some n) ↔ Hex4 l n ∨ PaddedHex4 l n := by
  constructor
  · rintro ⟨hl, h⟩
    obtain ⟨a, b, c, e, rfl⟩ := List.length_eq_four.mp hl
    by_cases ha : a = 0
    · subst ha
      obtain rfl : 0xFFFF = n := by simpa [jsonHex4, stringHexToBytes, hexPairsToBytes] using h
      exact .inr (.both b c e)
    rw [jsonHex4, stringHexToBytes, if_neg (by decide), hexPairsToBytes_succ ha] at h
    cases hi : hexDigitValue a with
    | none => simp [hi] at h
    | some i =>
        cases hj : hexDigitValue b with
        | none => simp [hi, hj] at h
        | some j =>
            have hij := hexPair_toNat i ((stringHexChar_eq a).2 i hi) j ((stringHexChar_eq b).2 j hj)
            by_cases hc : c = 0
            · subst hc
              obtain rfl : (i * 16 + j) * 256 + 0xFF = n := by
                simpa [hi, hj, hexPairsToBytes, hij] using h
              exact .inr (.last e hi hj)
            rw [hexPairsToBytes_succ hc] at h
            cases hk : hexDigitValue c with
            | none => simp [hi, hj, hk] at h
            | some k =>
                cases hm : hexDigitValue e with
                | none => simp [hi, hj, hk, hm] at h
                | some m =>
                    have hkm := hexPair_toNat k ((stringHexChar_eq c).2 k hk) m
                      ((stringHexChar_eq e).2 m hm)
                    obtain rfl : (i * 16 + j) * 256 + (k * 16 + m) = n := by
                      simpa [hi, hj, hk, hm, hexPairsToBytes, hij, hkm] using h
                    exact .inl (.digits hi hj hk hm)
  · have hpair {a b : UInt8} {i j : ℕ} (hi : hexDigitValue a = some i)
        (hj : hexDigitValue b = some j) :=
      hexPair_toNat i ((stringHexChar_eq a).2 i hi) j ((stringHexChar_eq b).2 j hj)
    rintro (⟨hi, hj, hk, hm⟩ | (⟨b, c, e⟩ | ⟨e, hi, hj⟩))
    · refine ⟨rfl, ?_⟩
      rw [jsonHex4, stringHexToBytes, if_neg (by decide),
        hexPairsToBytes_succ (hexDigitValue_ne_zero hi), hexPairsToBytes_succ
        (hexDigitValue_ne_zero hk)]
      simp [hi, hj, hk, hm, hexPairsToBytes, hpair hi hj, hpair hk hm]
    · exact ⟨rfl, by simp [jsonHex4, stringHexToBytes, hexPairsToBytes]⟩
    · refine ⟨rfl, ?_⟩
      rw [jsonHex4, stringHexToBytes, if_neg (by decide),
        hexPairsToBytes_succ (hexDigitValue_ne_zero hi)]
      simp [hi, hj, hexPairsToBytes, hpair hi hj]

/-! ### Reading -/

/-- What can be read is what the grammar scans. -/
lemma stringText_iff {l r : List UInt8} :
    StringText (fun x n => Hex4 x n ∨ PaddedHex4 x n) l r ↔ ∃ s, Scan isQuote l s r := by
  constructor
  · intro h
    induction h with
    | nil l => exact ⟨[], .nil l⟩
    | char hbs hq _ ih =>
        obtain ⟨s, hs⟩ := ih
        exact ⟨_, .char hbs (by simpa [isQuote] using hq) hs⟩
    | byte hc _ ih =>
        obtain ⟨s, hs⟩ := ih
        exact ⟨_, .escape (.byte _ hc) hs⟩
    | unicode hx hn _ ih =>
        obtain ⟨s, hs⟩ := ih
        obtain ⟨hlen, hx⟩ := jsonHex4_iff.mpr hx
        exact ⟨_, .escape (.unicode hlen hx hn) hs⟩
    | pair hx hn hy hm _ ih =>
        obtain ⟨s, hs⟩ := ih
        obtain ⟨hxlen, hx⟩ := jsonHex4_iff.mpr hx
        obtain ⟨hylen, hy⟩ := jsonHex4_iff.mpr hy
        exact ⟨_, .escape (.pair hxlen hx hn hylen hy hm) hs⟩
  · rintro ⟨s, h⟩
    induction h with
    | nil l => exact .nil l
    | char hbs hq _ ih => exact .char hbs (by simpa [isQuote] using hq) ih
    | escape he _ ih =>
        cases he with
        | byte _ hc => exact .byte hc ih
        | unicode hlen hx hn => exact .unicode (jsonHex4_iff.mp ⟨hlen, hx⟩) hn ih
        | pair hxlen hx hn hylen hy hm =>
            exact .pair (jsonHex4_iff.mp ⟨hxlen, hx⟩) hn (jsonHex4_iff.mp ⟨hylen, hy⟩) hm ih

/-- A string that can be read is a quoted string of the grammar. -/
lemma stringPadded_iff {l : List UInt8} : StringPadded l ↔ ∃ s r, QuotedBody true l s r := by
  constructor
  · rintro ⟨r, h, hr⟩
    obtain ⟨s, hs⟩ := stringText_iff.mp h
    rcases hr with rfl | hr
    · exact ⟨s, [], .cut rfl hs⟩
    · obtain ⟨r, rfl⟩ := List.head?_eq_some_iff.mp hr
      exact ⟨s, r, .close hs⟩
  · rintro ⟨s, r, h⟩
    cases h with
    | close hs => exact ⟨_, stringText_iff.mpr ⟨s, hs⟩, .inr rfl⟩
    | cut _ hs => exact ⟨_, stringText_iff.mpr ⟨s, hs⟩, .inl rfl⟩

/-- Digits end at one place and have one number. -/
lemma Hex4.unique {x y r s : List UInt8} {n m : ℕ} (h : Hex4 x n) (h' : Hex4 y m)
    (heq : x ++ r = y ++ s) : n = m ∧ r = s := by
  obtain ⟨rfl, rfl⟩ := List.append_inj heq (h.length.trans h'.length.symm)
  have hn := (jsonHex4_iff.mpr (.inl h)).2
  have hm := (jsonHex4_iff.mpr (.inl h')).2
  exact ⟨Option.some.inj (hn.symm.trans hm), rfl⟩

/-- What an escape for a code unit can be read as. -/
lemma StringText.unicode_inv {digits : List UInt8 → ℕ → Prop} {l r : List UInt8}
    (h : StringText digits (0x5C :: 0x75 :: l) r) : r = 0x5C :: 0x75 :: l ∨
    (∃ x k n, l = x ++ k ∧ digits x n ∧ ¬(0xD800 ≤ n ∧ n ≤ 0xDFFF) ∧ StringText digits k r) ∨
    ∃ x y k n m, l = x ++ (0x5C :: 0x75 :: y ++ k) ∧ digits x n ∧ (0xD800 ≤ n ∧ n ≤ 0xDBFF) ∧
      digits y m ∧ (0xDC00 ≤ m ∧ m ≤ 0xDFFF) ∧ StringText digits k r := by
  generalize hl : (0x5C :: 0x75 :: l : List UInt8) = l' at h
  cases h with
  | nil => exact .inl rfl
  | char hbs => exact absurd (List.cons.inj hl).1.symm hbs
  | byte hc => exact absurd (List.cons.inj (List.cons.inj hl).2).1.symm hc
  | unicode hx hn h =>
      exact .inr (.inl ⟨_, _, _, (List.cons.inj (List.cons.inj hl).2).2, hx, hn, h⟩)
  | pair hx hn hy hm h =>
      refine .inr (.inr ⟨_, _, _, _, _, ?_, hx, hn, hy, hm, h⟩)
      simpa using hl

/-- An escape that has no meaning cannot be read. -/
lemma BadUnicode.not_text {x r : List UInt8} (hx : BadUnicode x)
    (hr : r = [] ∨ r.head? = some 0x22) : ¬StringText Hex4 (0x5C :: 0x75 :: x) r := by
  intro h
  rcases h.unicode_inv with rfl | ⟨y, k, n, rfl, hd, hn, -⟩ | ⟨y, z, k, n, m, rfl, hd, hn, hd', hm, -⟩
  · simp at hr
  · cases hx with
    | digits hx => exact hx _ _ _ rfl hd
    | low heq hd' hm =>
        obtain ⟨rfl, -⟩ := hd.unique hd' heq
        omega
    | high heq hd' hm =>
        obtain ⟨rfl, -⟩ := hd.unique hd' heq
        omega
  · cases hx with
    | digits hx => exact hx _ _ _ rfl hd
    | low heq hd' hm' =>
        obtain ⟨rfl, -⟩ := hd.unique hd' heq
        omega
    | high heq hd'' hm' hno =>
        obtain ⟨-, rfl⟩ := hd.unique hd'' heq
        exact hno _ _ _ rfl hd' hm

/-- A string with an escape that has no meaning cannot be read to its end. -/
lemma StringText.not_bad {l x r : List UInt8} (h : StringText Hex4 l (0x5C :: 0x75 :: x))
    (hx : BadUnicode x) (hr : r = [] ∨ r.head? = some 0x22) : ¬StringText Hex4 l r := by
  generalize hb : (0x5C :: 0x75 :: x : List UInt8) = b at h
  induction h with
  | nil l =>
      subst hb
      exact hx.not_text hr
  | char hbs hq _ ih =>
      intro h'
      cases h' with
      | nil => exact hq (by simpa using hr)
      | char _ _ h' => exact ih hb h'
      | byte => exact hbs rfl
      | unicode => exact hbs rfl
      | pair => exact hbs rfl
  | byte hc _ ih =>
      intro h'
      cases h' with
      | nil => simp at hr
      | char hbs => exact absurd rfl hbs
      | byte _ h' => exact ih hb h'
      | unicode => exact hc rfl
      | pair => exact hc rfl
  | unicode hd hn _ ih =>
      intro h'
      rcases h'.unicode_inv with rfl | ⟨y, k, n, heq, hd', -, h'⟩ | ⟨y, z, k, n, m, heq, hd', hn', -⟩
      · simp at hr
      · obtain ⟨-, rfl⟩ := hd.unique hd' heq
        exact ih hb h'
      · obtain ⟨rfl, -⟩ := hd.unique hd' heq
        omega
  | @pair x₁ y₁ l₁ _ _ _ hd hn hd₂ hm _ ih =>
      intro h'
      have hassoc : x₁ ++ 0x5C :: 0x75 :: y₁ ++ l₁ = x₁ ++ (0x5C :: 0x75 :: (y₁ ++ l₁)) := by simp
      rcases h'.unicode_inv with rfl | ⟨y, k, n, heq, hd', hn', -⟩ |
        ⟨y, z, k, n, m, heq, hd', -, hd₂', -, h'⟩
      · simp at hr
      · obtain ⟨rfl, -⟩ := hd.unique hd' (hassoc.symm.trans heq)
        omega
      · obtain ⟨-, heq⟩ := hd.unique hd' (hassoc.symm.trans heq)
        obtain ⟨-, rfl⟩ := hd₂.unique hd₂' (List.cons.inj (List.cons.inj heq).2).2
        exact ih hb h'

/-- Without NULs the digits are digits. -/
lemma StringText.strict {l r : List UInt8} (h0 : (0 : UInt8) ∉ l)
    (h : StringText (fun x n => Hex4 x n ∨ PaddedHex4 x n) l r) : StringText Hex4 l r := by
  have hdigits {x : List UInt8} {n : ℕ} (hx : (0 : UInt8) ∉ x) (h : Hex4 x n ∨ PaddedHex4 x n) :
      Hex4 x n := by
    refine h.resolve_right fun h => hx ?_
    cases h <;> simp
  induction h with
  | nil l => exact .nil l
  | char hbs hq _ ih => exact .char hbs hq (ih fun hm => h0 (by simp [hm]))
  | byte hc _ ih => exact .byte hc (ih fun hm => h0 (by simp [hm]))
  | unicode hx hn _ ih =>
      exact .unicode (hdigits (fun hm => h0 (by simp [hm])) hx) hn (ih fun hm => h0 (by simp [hm]))
  | pair hx hn hy hm _ ih =>
      exact .pair (hdigits (fun hm => h0 (by simp [hm])) hx) hn
        (hdigits (fun hm => h0 (by simp [hm])) hy) hm (ih fun hm => h0 (by simp [hm]))

/-- A malformed string without NULs cannot be read. -/
lemma StringMalformed.not_padded {l : List UInt8} (h : StringMalformed l) (h0 : (0 : UInt8) ∉ l) :
    ¬StringPadded l := by
  obtain ⟨x, hx, hbad⟩ := h
  rintro ⟨r, h, hr⟩
  exact hx.not_bad hbad hr (h.strict h0)

/-! ### Storing -/

/-- Scalar values are no surrogates. -/
lemma char_toNat (c : Char) : c.toNat < 0xD800 ∨ (0xDFFF < c.toNat ∧ c.toNat < 0x110000) :=
  c.valid

/-- The bytes of an ordinary character are ordinary bytes. -/
lemma utf8EncodeChar_plain {c : Char} (hq : c ≠ '"') (hbs : c ≠ '\\') :
    ∀ b ∈ String.utf8EncodeChar c, b ≠ 0x5C ∧ isQuote b = false := by
  rw [← utf8Encode_char]
  intro b hb
  by_cases hc : c.toNat < 0x80
  · rw [utf8Encode, if_pos hc, List.mem_singleton] at hb
    have hne {n : ℕ} (hn : n < 256) (h : c.toNat ≠ n) : b ≠ UInt8.ofNat n := by
      rw [hb]
      intro heq
      have := congrArg UInt8.toNat heq
      rw [UInt8.toNat_ofNat_of_lt' (hc.trans (by decide)), UInt8.toNat_ofNat_of_lt' hn] at this
      exact h this
    have hquote := hne (n := 0x22) (by decide) fun h => hq (Char.toNat_inj.mp h)
    exact ⟨hne (n := 0x5C) (by decide) fun h => hbs (Char.toNat_inj.mp h),
      by simpa [isQuote] using hquote⟩
  · have hle := le_of_mem_utf8Encode (not_lt.mp hc) (by have := char_toNat c; omega) b hb
    constructor
    · rintro rfl
      exact absurd hle (by decide)
    · rw [isQuote, beq_eq_false_iff_ne]
      rintro rfl
      exact absurd hle (by decide)

/-- Only the NUL is encoded with a NUL. -/
lemma zero_mem_utf8EncodeChar {c : Char} : (0 : UInt8) ∈ String.utf8EncodeChar c ↔ c = '\x00' := by
  constructor
  · intro h
    rw [← utf8Encode_char] at h
    by_cases hc : c.toNat < 0x80
    · rw [utf8Encode, if_pos hc, List.mem_singleton] at h
      have := congrArg UInt8.toNat h
      rw [UInt8.toNat_ofNat_of_lt' (hc.trans (by decide))] at this
      exact Char.toNat_inj.mp this.symm
    · exact absurd (le_of_mem_utf8Encode (not_lt.mp hc) (by have := char_toNat c; omega) 0 h)
        (by decide)
  · rintro rfl
    decide

lemma zero_mem_utf8Bytes {cs : List Char} : (0 : UInt8) ∈ utf8Bytes cs ↔ '\x00' ∈ cs := by
  rw [utf8Bytes, List.mem_flatMap]
  constructor
  · rintro ⟨c, hc, h⟩
    rwa [← zero_mem_utf8EncodeChar.mp h]
  · exact fun h => ⟨_, h, zero_mem_utf8EncodeChar.mpr rfl⟩

/-- A character is scanned as its encoding. -/
lemma CharWritten.scan {c : Char} {x : List UInt8} (h : CharWritten c x) (r : List UInt8) :
    Scan isQuote (x ++ r) (String.utf8EncodeChar c) r := by
  have hscalar := char_toNat c
  cases h with
  | plain hq hbs => exact scan_plain (utf8EncodeChar_plain hq hbs) r
  | unicode hx =>
      obtain ⟨hlen, hx⟩ := jsonHex4_iff.mpr (.inl hx)
      have hscan : Scan isQuote _ _ r := .escape (.unicode hlen hx (by omega)) (.nil r)
      rwa [List.append_nil, jsonAppendUTF8, utf8Encode_char] at hscan
  | pair hc hl hm =>
      obtain ⟨hllen, hl⟩ := jsonHex4_iff.mpr (.inl hl)
      obtain ⟨hmlen, hm⟩ := jsonHex4_iff.mpr (.inl hm)
      have hscan : Scan isQuote _ _ r := .escape
        (.pair (r := r) hllen hl (by omega) hmlen hm (by omega)) (.nil r)
      rw [List.append_nil, jsonAppendUTF8, show 0x10000 +
        (0xD800 + (c.toNat - 0x10000) / 0x400 - 0xD800) * 1024 +
        (0xDC00 + (c.toNat - 0x10000) % 0x400 - 0xDC00) = c.toNat by omega, utf8Encode_char] at hscan
      simpa using hscan

lemma StringWritten.scan {cs : List Char} {w : List UInt8} (h : StringWritten cs w)
    (r : List UInt8) : Scan isQuote (w ++ r) (utf8Bytes cs) r := by
  induction h with
  | nil => exact .nil r
  | cons hc _ ih =>
      rw [List.append_assoc]
      exact (hc.scan _).trans ih

/-- The written string is stored up to its first NUL. -/
lemma StringWritten.exact_iff {cd : CDouble} {cs : List Char} {w : List UInt8}
    (h : StringWritten cs w) : StringExact cd cs w ↔ '\x00' ∉ cs := by
  have hquoted (r : List UInt8) : QuotedBody true (w ++ 0x22 :: r) (utf8Bytes cs) r :=
    .close (h.scan _)
  have hvalue (r : List UInt8) (d : ℕ) : jsonParseValue cd (.at (0x22 :: w ++ 0x22 :: r) d) =
      some (.at r d, some (jsonValueSetString (CString.ofBytes (utf8Bytes cs)))) := by
    have hstart : TokenStart (0x22 :: w ++ 0x22 :: r) :=
      tokenStart_cons (by decide) (by decide) _
    have hstring := jsonParseString_quoted (hquoted r) d
    rw [jsonParseValue, jsonSkipSpaces_token hstart]
    simp only [Option.bind_eq_bind, Option.bind_some, if_true]
    rw [List.cons_append, hstring]
    rfl
  constructor
  · intro hexact hzero
    obtain ⟨data, hdata, hrun⟩ := hexact.value [] 0
    rw [hvalue] at hrun
    exact data.2 (hdata ▸ zero_mem_utf8Bytes.mpr hzero)
  · intro hzero
    have hdata : (CString.ofBytes (utf8Bytes cs)).1 = utf8Bytes cs := by
      rw [CString.ofBytes_of_notMem (fun h => hzero (zero_mem_utf8Bytes.mp h))]
    refine ⟨fun r d => ⟨_, hdata, hvalue r d⟩, fun r o d hb => ⟨_, hdata, ?_⟩,
      fun t r hb => ⟨_, hdata, ?_⟩⟩
    · exact jsonParseName_of_token (.quoted (hquoted r)) hb d
    · exact jsonParse_eq_some_iff.mpr ⟨_, r, hb, .string (by decide) (hquoted r)⟩

/-! ### Refusing -/

/-- Where a string stands, a value begins. -/
lemma ReachesString.value_head {cd : CDouble} {k l : List UInt8} {d : ℕ}
    (h : ReachesString cd k (.value d l)) :
    TokenStart l ∧ l.head? ≠ some 0x5D := by
  cases h <;> exact ⟨tokenStart_cons (by decide) (by decide) _, by simp⟩

/-- What the grammar has at a start. -/
def JsonStart.Derivable (cd : CDouble) : JsonStart → Prop
  | .value d l => ∃ v r, Derives cd true (.value d l v r)
  | .members d l => ∃ es es' r, Derives cd true (.members d l es es' r)
  | .items d l => ∃ xs xs' r, Derives cd true (.items d l xs xs' r)

/-- The items after an opening bracket or a comma, when there is one. -/
lemma Derives.items_inv {cd : CDouble} {d : ℕ} {l p r : List UInt8} {xs xs' : List Json}
    (h : Derives cd true (.items d l xs xs' r)) (hp : Blank l p) (htok : TokenStart p)
    (hhead : p.head? ≠ some 0x5D) : ∃ v q, Derives cd true (.value d p v q) ∧
      ∀ k, Blank q (0x2C :: k) → Derives cd true (.items d k (jsonArrayAdd xs v) xs' r) := by
  cases h with
  | itemsCut =>
      cases hp
      exact absurd htok id
  | itemsClose hb =>
      have hclose : TokenStart (0x5D :: r) := tokenStart_cons (by decide) (by decide) r
      obtain rfl := hp.unique htok.stuck hb hclose.stuck
      exact absurd rfl hhead
  | itemsLast hp' hv hclose =>
      obtain rfl := hp.unique htok.stuck hp' hv.value_head.1.stuck
      exact ⟨_, _, hv, fun k hk =>
        absurd (hk.cons_unique (by decide) hclose (by decide)).1 (by decide)⟩
  | itemsMore hp' hv hcomma h =>
      obtain rfl := hp.unique htok.stuck hp' hv.value_head.1.stuck
      refine ⟨_, _, hv, fun k hk => ?_⟩
      obtain ⟨-, rfl⟩ := hk.cons_unique (by decide) hcomma (by decide)
      exact h

/-- The members after an opening brace or a comma, when there is one. -/
lemma Derives.members_inv {cd : CDouble} {d : ℕ} {l m r : List UInt8}
    {es es' : List (CString × Json)} (h : Derives cd true (.members d l es es' r))
    (hb : Blank l m) (htok : TokenStart m) (hhead : m.head? ≠ some 0x7D) :
    ∃ s n o p v q, NameToken true m s n ∧ Blank n (0x3A :: o) ∧ Blank o p ∧
      Derives cd true (.value d p v q) ∧ ∀ k, Blank q (0x2C :: k) →
        Derives cd true (.members d k (jsonObjectPut es (CString.ofBytes s) v) es' r) := by
  cases h with
  | membersCut =>
      cases hb
      exact absurd htok id
  | membersClose hclose =>
      have hend : TokenStart (0x7D :: r) := tokenStart_cons (by decide) (by decide) r
      obtain rfl := hb.unique htok.stuck hclose hend.stuck
      exact absurd rfl hhead
  | membersLast hb' hname hcolon hp hv hclose =>
      obtain rfl := hb.unique htok.stuck hb' hname.tokenStart.stuck
      exact ⟨_, _, _, _, _, _, hname, hcolon, hp, hv, fun k hk =>
        absurd (hk.cons_unique (by decide) hclose (by decide)).1 (by decide)⟩
  | membersMore hb' hname hcolon hp hv hcomma h =>
      obtain rfl := hb.unique htok.stuck hb' hname.tokenStart.stuck
      refine ⟨_, _, _, _, _, _, hname, hcolon, hp, hv, fun k hk => ?_⟩
      obtain ⟨-, rfl⟩ := hk.cons_unique (by decide) hcomma (by decide)
      exact h

/-- The value of a member, after its name and its colon. -/
lemma NameToken.value_unique {l s s' n n' o o' p p' : List UInt8} (hname : NameToken true l s n)
    (hcolon : Blank n (0x3A :: o)) (hp : Blank o p) (htok : TokenStart p)
    (hname' : NameToken true l s' n') (hcolon' : Blank n' (0x3A :: o')) (hp' : Blank o' p')
    (htok' : TokenStart p') : p = p' := by
  obtain rfl := hname.unique hname'
  obtain ⟨-, rfl⟩ := hcolon.cons_unique (by decide) hcolon' (by decide)
  exact hp.unique htok.stuck hp' htok'.stuck

/-- What has a string that is no quoted string of the grammar is not in the grammar. -/
lemma ReachesString.not_derivable {cd : CDouble} {k : List UInt8} {start : JsonStart}
    (hk : ∀ s r, ¬QuotedBody true k s r) (h : ReachesString cd k start) :
    ¬start.Derivable cd := by
  induction h with
  | string =>
      rintro ⟨v, r, h⟩
      cases h with
      | string _ hq => exact hk _ _ hq
      | literal _ _ hq => exact hq rfl
  | object _ ih =>
      rintro ⟨v, r, h⟩
      cases h with
      | literal _ _ _ ho => exact ho rfl
      | object _ h => exact ih ⟨_, _, _, h⟩
  | array _ ih =>
      rintro ⟨v, r, h⟩
      cases h with
      | literal _ _ _ _ ha => exact ha rfl
      | array _ h => exact ih ⟨_, _, _, h⟩
  | name hb =>
      rintro ⟨es, es', r, h⟩
      obtain ⟨s, n, o, p, v, q, hname, -⟩ :=
        h.members_inv hb (tokenStart_cons (by decide) (by decide) _) (by simp)
      cases hname with
      | quoted hq => exact hk _ _ hq
      | unquoted _ hq => exact hq rfl
  | member hb hname hcolon hp hreach ih =>
      rintro ⟨es, es', r, h⟩
      obtain ⟨s, n, o, p, v, q, hname', hcolon', hp', hv, -⟩ :=
        h.members_inv hb hname.tokenStart (hname.head_ne hcolon)
      obtain rfl := (hname.mono true).value_unique hcolon hp hreach.value_head.1 hname' hcolon' hp'
        hv.value_head.1
      exact ih ⟨_, _, hv⟩
  | members hb hname hcolon hp hv hcomma _ ih =>
      rintro ⟨es, es', r, h⟩
      obtain ⟨s, n, o, p, v, q, hname', hcolon', hp', hv', hmore⟩ :=
        h.members_inv hb hname.tokenStart (hname.head_ne hcolon)
      obtain rfl := (hname.mono true).value_unique hcolon hp hv.value_head.1 hname' hcolon' hp'
        hv'.value_head.1
      obtain ⟨-, rfl⟩ := (hv.mono true).unique hv'
      exact ih ⟨_, _, _, hmore _ hcomma⟩
  | item hp hreach ih =>
      rintro ⟨xs, xs', r, h⟩
      obtain ⟨v, q, hv, -⟩ := h.items_inv hp hreach.value_head.1 hreach.value_head.2
      exact ih ⟨_, _, hv⟩
  | items hp hv hcomma _ ih =>
      rintro ⟨xs, xs', r, h⟩
      obtain ⟨v, q, hv', hmore⟩ := h.items_inv hp hv.value_head.1 hv.value_head.2
      obtain ⟨-, rfl⟩ := (hv.mono true).unique hv'
      exact ih ⟨_, _, _, hmore _ hcomma⟩

/-- A string is refused when it cannot be read. -/
lemma stringRejected_iff {cd : CDouble} {k : List UInt8} :
    StringRejected cd k ↔ ¬StringPadded k := by
  have hstart : TokenStart (0x22 :: k) := tokenStart_cons (by decide) (by decide) k
  rw [stringPadded_iff]
  constructor
  · rintro h ⟨s, r, hq⟩
    obtain ⟨st, hrun⟩ := h.value 0 (by decide)
    rw [jsonParseValue, jsonSkipSpaces_token hstart] at hrun
    simp [jsonParseString_quoted hq] at hrun
  · intro h
    have hk : ∀ s r, ¬QuotedBody true k s r := fun s r hq => h ⟨s, r, hq⟩
    refine ⟨fun d hd => ?_, fun d hd => ?_, fun t m hb hreach => ?_⟩
    · obtain ⟨⟨st, res⟩, hrun, -⟩ := (jsonParseValueT_runs cd (q := 0x22 :: k) List.suffix_rfl
        hd).exists_some (jsonParseValueT_result cd _)
      cases res with
      | none => exact ⟨st, hrun⟩
      | some v =>
          obtain ⟨r, -, hv⟩ := jsonParseValue_sound hstart (by simp) (by simp) (n := 0) (by decide) hrun
          exact absurd ⟨v, r, hv⟩ (ReachesString.string.not_derivable hk)
    · obtain ⟨⟨st, res⟩, hrun, -⟩ := (jsonParseNameT_runs (q := 0x22 :: k) List.suffix_rfl
        hd).exists_some (jsonParseNameT_result _)
      cases res with
      | none => exact ⟨st, hrun⟩
      | some name =>
          obtain ⟨s, n, o, -, -, hname, -⟩ := jsonParseName_sound hstart hrun
          cases hname with
          | quoted hq => exact absurd hq (hk _ _)
          | unquoted _ hq => exact absurd rfl hq
    · obtain ⟨⟨st, res⟩, hrun, -⟩ := (jsonParseInternalT_runs cd t).exists_some
        (jsonParseInternalT_result cd t)
      cases res with
      | none => rw [jsonParse, hrun]; rfl
      | some v =>
          have hsome : jsonParse cd t = some (some v) := by rw [jsonParse, hrun]; rfl
          obtain ⟨m', r, hb', hv⟩ := jsonParse_eq_some_iff.mp hsome
          obtain rfl := hb.unique hreach.value_head.1.stuck hb' hv.value_head.1.stuck
          exact absurd ⟨v, r, hv⟩ (hreach.not_derivable hk)

/-- **Unicode escapes.** A written string is stored exactly when it has no `U+0000`. A string
with an escape that has no meaning is refused, wherever it stands, unless it can be read with
`FF` in the place of NULs; without NULs it is refused. -/
theorem jsonString_unicode_iff (cd : CDouble) :
    (∀ cs w, StringWritten cs w → (StringExact cd cs w ↔ '\x00' ∉ cs)) ∧
    (∀ k, StringMalformed k → (StringRejected cd k ↔ ¬StringPadded k)) ∧
    ∀ k, StringMalformed k → (0 : UInt8) ∉ k → StringRejected cd k :=
  ⟨fun _ _ h => h.exact_iff, fun _ _ => stringRejected_iff,
    fun _ h h0 => stringRejected_iff.mpr (h.not_padded h0)⟩

/-- A surrogate pair in mixed case and a plain character are stored; a low surrogate alone is
refused. -/
theorem jsonString_unicode_iff_pair :
    StringExact ⟨Unit, fun _ => none, fun _ => CString.ofBytes []⟩ ['😀', 'é']
      [0x5C, 0x75, 0x64, 0x38, 0x33, 0x44, 0x5C, 0x75, 0x44, 0x65, 0x30, 0x30, 0xC3, 0xA9] ∧
    StringRejected ⟨Unit, fun _ => none, fun _ => CString.ofBytes []⟩
      [0x5C, 0x75, 0x44, 0x43, 0x30, 0x30, 0x22] := by
  have h := jsonString_unicode_iff ⟨Unit, fun _ => none, fun _ => CString.ofBytes []⟩
  refine ⟨(h.1 _ _ ?_).mpr (by decide), h.2.2 _ ⟨_, .nil _, ?_⟩ (by decide)⟩
  · have hlow : Hex4 [0x44, 0x65, 0x30, 0x30] (0xDC00 + ('😀'.toNat - 0x10000) % 0x400) :=
      .of_eq (i := 13) (j := 14) (k := 0) (m := 0) rfl rfl rfl rfl (by decide)
    have hhigh : Hex4 [0x64, 0x38, 0x33, 0x44] (0xD800 + ('😀'.toNat - 0x10000) / 0x400) :=
      .of_eq (i := 13) (j := 8) (k := 3) (m := 13) rfl rfl rfl rfl (by decide)
    exact .cons (.pair (by decide) hhigh hlow) (.cons (.plain (by decide) (by decide)) .nil)
  · exact .low (x := [0x44, 0x43, 0x30, 0x30]) rfl (.digits rfl rfl rfl rfl) (by decide)

/-- An escaped `U+0000` cuts the string short. -/
theorem jsonString_unicode_nul :
    StringWritten ['a', '\x00', 'b'] [0x61, 0x5C, 0x75, 0x30, 0x30, 0x30, 0x30, 0x62] ∧
    (∃ data : CString, data.1 = [0x61] ∧
      jsonParse ⟨Unit, fun _ => none, fun _ => CString.ofBytes []⟩
        [0x22, 0x61, 0x5C, 0x75, 0x30, 0x30, 0x30, 0x30, 0x62, 0x22] =
          some (some (.value .string data))) ∧
    ¬StringExact ⟨Unit, fun _ => none, fun _ => CString.ofBytes []⟩ ['a', '\x00', 'b']
      [0x61, 0x5C, 0x75, 0x30, 0x30, 0x30, 0x30, 0x62] := by
  have hnul : CharWritten '\x00' [0x5C, 0x75, 0x30, 0x30, 0x30, 0x30] :=
    .unicode (l := [0x30, 0x30, 0x30, 0x30])
      (.of_eq (i := 0) (j := 0) (k := 0) (m := 0) rfl rfl rfl rfl rfl)
  have hw : StringWritten ['a', '\x00', 'b'] [0x61, 0x5C, 0x75, 0x30, 0x30, 0x30, 0x30, 0x62] :=
    .cons (.plain (by decide) (by decide)) (.cons hnul (.cons (.plain (by decide) (by decide)) .nil))
  refine ⟨hw, ⟨_, ?_, jsonParse_eq_some_iff.mpr
    ⟨_, [], .nil _, .string (by decide) (.close (hw.scan [0x22]))⟩⟩, ?_⟩
  · decide
  · rw [hw.exact_iff]
    decide

end LibCmutils
