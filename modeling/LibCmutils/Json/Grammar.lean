import LibCmutils.Json.Parser

/-!
The grammar of JSON texts (`src/nanojson.c`), with the extensions of the library.

A relation between two texts says what stands between them: the second is what is
left of the first.

* `Blank`: white space and comments; `TokenStart` is where they end. `Blank.unique`:
  they end at one place only.
* `Scan`, `QuotedBody`, `NameToken`: the characters of a string with their
  escapes, a quoted string, the name of a member. `Stop` is where an unquoted token ends.
* `Derives`: values, the items of an array and the members of an object, with what
  they mean. `Derives true` also has the arrays, objects and strings that the end of
  the text cuts short.
* `Derives.of_rest`: only what is left of such a value is empty.
-/

namespace LibCmutils

/-! ### White space and comments -/

/-- The rest of a line comment, up to its line end. -/
inductive LineBody : List UInt8 → List UInt8 → Prop
  | stop {l : List UInt8} : (∀ c ∈ l.head?, strchr jsnLineEnds c = true) → LineBody l l
  | char {c : UInt8} {l r : List UInt8} : strchr jsnLineEnds c = false → LineBody l r →
      LineBody (c :: l) r

/-- The rest of a block comment, through its first closing mark. -/
inductive BlockBody : List UInt8 → List UInt8 → Prop
  | close (l : List UInt8) : BlockBody (0x2A :: 0x2F :: l) l
  | char {c : UInt8} {l r : List UInt8} : jsonStartsWith [0x2A, 0x2F] (c :: l) = false →
      BlockBody l r → BlockBody (c :: l) r

/-- White space and comments. -/
inductive Blank : List UInt8 → List UInt8 → Prop
  | nil (l : List UInt8) : Blank l l
  | space {c : UInt8} {l r : List UInt8} : strchr jsnSpaces c = true → Blank l r → Blank (c :: l) r
  | line {l m r : List UInt8} : LineBody l m → Blank m r → Blank (0x2F :: 0x2F :: l) r
  | block {l m r : List UInt8} : BlockBody l m → Blank m r → Blank (0x2F :: 0x2A :: l) r

/-- A text that begins with a token. -/
def TokenStart : List UInt8 → Prop
  | [] => False
  | c :: l => strchr jsnSpaces c = false ∧ ¬(c = 0x2F ∧ (l.head? = some 0x2F ∨ l.head? = some 0x2A))

/-- A text that white space and closed comments do not go on in: its end, a token, or a
block comment that is not closed. -/
def Stuck (l : List UInt8) : Prop :=
  l = [] ∨ TokenStart l ∨ ∃ m, l = 0x2F :: 0x2A :: m ∧ ∀ r, ¬BlockBody m r

lemma LineBody.unique {l r r' : List UInt8} (h : LineBody l r) (h' : LineBody l r') : r = r' := by
  induction h with
  | stop hstop =>
      cases h' with
      | stop => rfl
      | char hc => simp [hc] at hstop
  | char hc _ ih =>
      cases h' with
      | stop hstop => simp [hc] at hstop
      | char _ h' => exact ih h'

lemma BlockBody.unique {l r r' : List UInt8} (h : BlockBody l r) (h' : BlockBody l r') : r = r' := by
  induction h with
  | close l =>
      cases h' with
      | close => rfl
      | char hc => simp [jsonStartsWith] at hc
  | char hc _ ih =>
      cases h' with
      | close => simp [jsonStartsWith] at hc
      | char _ h' => exact ih h'

lemma LineBody.length_le {l r : List UInt8} (h : LineBody l r) : r.length ≤ l.length := by
  induction h with
  | stop => exact le_rfl
  | char _ _ ih => exact ih.trans (by simp)

/-- A line comment ends at a line end or with the text. -/
lemma LineBody.head {l r : List UInt8} (h : LineBody l r) :
    ∀ c ∈ r.head?, strchr jsnLineEnds c = true := by
  induction h with
  | stop hstop => exact hstop
  | char _ _ ih => exact ih

lemma BlockBody.length_lt {l r : List UInt8} (h : BlockBody l r) : r.length < l.length := by
  induction h with
  | close l => simp
  | char _ _ ih => exact ih.trans (by simp)

lemma Blank.length_le {l r : List UInt8} (h : Blank l r) : r.length ≤ l.length := by
  induction h with
  | nil => exact le_rfl
  | space _ _ ih => exact ih.trans (by simp)
  | line hl _ ih =>
      have := hl.length_le
      simp only [List.length_cons]
      omega
  | block hb _ ih =>
      have := hb.length_lt
      simp only [List.length_cons]
      omega

lemma Blank.trans {l m r : List UInt8} (h : Blank l m) (h' : Blank m r) : Blank l r := by
  induction h with
  | nil => exact h'
  | space hc _ ih => exact .space hc (ih h')
  | line hl _ ih => exact .line hl (ih h')
  | block hb _ ih => exact .block hb (ih h')

lemma Stuck.eq_of_blank {l r : List UInt8} (hs : Stuck l) (h : Blank l r) : r = l := by
  cases h with
  | nil => rfl
  | space hc _ =>
      rcases hs with hs | hs | ⟨m, hm, -⟩
      · cases hs
      · rw [hs.1] at hc
        cases hc
      · rw [(List.cons.inj hm).1] at hc
        exact absurd hc (by decide)
  | line _ _ =>
      rcases hs with hs | hs | ⟨m, hm, -⟩
      · cases hs
      · exact absurd ⟨rfl, .inl rfl⟩ hs.2
      · exact absurd (List.cons.inj (List.cons.inj hm).2).1 (by decide)
  | block hb _ =>
      rcases hs with hs | hs | ⟨m, hm, hopen⟩
      · cases hs
      · exact absurd ⟨rfl, .inr rfl⟩ hs.2
      · cases hm
        exact absurd hb (hopen _)

/-- White space and comments end at one place. -/
lemma Blank.unique {l r r' : List UInt8} (h : Blank l r) (hr : Stuck r) (h' : Blank l r')
    (hr' : Stuck r') : r = r' := by
  induction h with
  | nil => exact (hr.eq_of_blank h').symm
  | space hc h ih =>
      cases h' with
      | nil => exact hr'.eq_of_blank (.space hc h)
      | space _ h' => exact ih hr h'
      | line => exact absurd hc (by decide)
      | block => exact absurd hc (by decide)
  | line hl h ih =>
      cases h' with
      | nil => exact hr'.eq_of_blank (.line hl h)
      | space hc => exact absurd hc (by decide)
      | line hl' h' =>
          cases hl.unique hl'
          exact ih hr h'
  | block hb h ih =>
      cases h' with
      | nil => exact hr'.eq_of_blank (.block hb h)
      | space hc => exact absurd hc (by decide)
      | block hb' h' =>
          cases hb.unique hb'
          exact ih hr h'

lemma TokenStart.stuck {l : List UInt8} (h : TokenStart l) : Stuck l := .inr (.inl h)

lemma TokenStart.ne_nil {l : List UInt8} (h : TokenStart l) : l ≠ [] := by
  rintro rfl
  exact h

/-- A byte that is neither a space nor a slash begins a token. -/
lemma tokenStart_cons {c : UInt8} (hc : strchr jsnSpaces c = false) (hs : c ≠ 0x2F)
    (l : List UInt8) : TokenStart (c :: l) :=
  ⟨hc, fun h => hs h.1⟩

/-! ### Strings -/

/-- An escape after its backslash, the bytes it stands for and the text after it. -/
inductive Escape : List UInt8 → List UInt8 → List UInt8 → Prop
  | byte {c : UInt8} (l : List UInt8) : c ≠ 0x75 → Escape (c :: l) [jsonEscapeByte c] l
  | unicode {l r : List UInt8} {cp : ℕ} : l.length = 4 → jsonHex4 l = some cp →
      ¬(0xD800 ≤ cp ∧ cp ≤ 0xDFFF) → Escape (0x75 :: l ++ r) (jsonAppendUTF8 cp) r
  | pair {l m r : List UInt8} {cp lo : ℕ} : l.length = 4 → jsonHex4 l = some cp →
      0xD800 ≤ cp ∧ cp ≤ 0xDBFF → m.length = 4 → jsonHex4 m = some lo →
      0xDC00 ≤ lo ∧ lo ≤ 0xDFFF →
      Escape (0x75 :: l ++ 0x5C :: 0x75 :: m ++ r)
        (jsonAppendUTF8 (0x10000 + (cp - 0xD800) * 1024 + (lo - 0xDC00))) r

/-- Characters and escapes, all of them passing a test unless escaped, and the bytes
they stand for. -/
inductive Scan (stop : UInt8 → Bool) : List UInt8 → List UInt8 → List UInt8 → Prop
  | nil (l : List UInt8) : Scan stop l [] l
  | char {c : UInt8} {l s r : List UInt8} : c ≠ 0x5C → stop c = false → Scan stop l s r →
      Scan stop (c :: l) (c :: s) r
  | escape {l m u s r : List UInt8} : Escape l u m → Scan stop m s r →
      Scan stop (0x5C :: l) (u ++ s) r

/-- Bytes that need no escape. -/
lemma scan_plain {stop : UInt8 → Bool} {x : List UInt8}
    (hx : ∀ c ∈ x, c ≠ 0x5C ∧ stop c = false) (r : List UInt8) : Scan stop (x ++ r) x r := by
  induction x with
  | nil => exact .nil r
  | cons c x ih =>
      obtain ⟨hbs, hstop⟩ := hx c (by simp)
      exact .char hbs hstop (ih fun e he => hx e (by simp [he]))

lemma Scan.trans {stop : UInt8 → Bool} {l m r s s' : List UInt8} (h : Scan stop l s m)
    (h' : Scan stop m s' r) : Scan stop l (s ++ s') r := by
  induction h with
  | nil => exact h'
  | char hc hstop _ ih => exact .char hc hstop (ih h')
  | escape he _ ih => rw [List.append_assoc]; exact .escape he (ih h')

/-- The byte that ends a quoted string. -/
def isQuote (c : UInt8) : Bool := c == 0x22

/-- A quoted string after its opening quote. With `cut` it may end with the text. -/
inductive QuotedBody (cut : Bool) (l s : List UInt8) : List UInt8 → Prop
  | close {r : List UInt8} : Scan isQuote l s (0x22 :: r) → QuotedBody cut l s r
  | cut : cut = true → Scan isQuote l s [] → QuotedBody cut l s []

/-- Where an unquoted token ends: at a delimiter or with the text. -/
def Stop (r : List UInt8) : Prop := ∀ c ∈ r.head?, strchr jsnDelims c = true

/-- An unquoted token. -/
def Unquoted (l s r : List UInt8) : Prop := Scan (strchr jsnDelims) l s r ∧ Stop r

/-- The name of a member. -/
inductive NameToken (cut : Bool) : List UInt8 → List UInt8 → List UInt8 → Prop
  | quoted {l s r : List UInt8} : QuotedBody cut l s r → NameToken cut (0x22 :: l) s r
  | unquoted {l s r : List UInt8} : TokenStart l → l.head? ≠ some 0x22 → Unquoted l s r →
      NameToken cut l s r

/-! ### Values -/

/-- What the text from `l` to `r` is, at a nesting depth. -/
inductive JsonJudgment
  | value (depth : ℕ) (l : List UInt8) (v : Json) (r : List UInt8)
  | members (depth : ℕ) (l : List UInt8) (es es' : List (CString × Json)) (r : List UInt8)
  | items (depth : ℕ) (l : List UInt8) (xs xs' : List Json) (r : List UInt8)

/-- The text a judgment leaves. -/
def JsonJudgment.rest : JsonJudgment → List UInt8
  | .value _ _ _ r => r
  | .members _ _ _ _ r => r
  | .items _ _ _ _ r => r

/-- The grammar: a value, the members of an object after its brace, the items of an
array after its bracket, both through the closing one. The lists before and after are
the members and items read so far. With `cut` the end of the text may stand for what is
missing. -/
inductive Derives (cd : CDouble) (cut : Bool) : JsonJudgment → Prop
  | string {d l s r} : d < 512 → QuotedBody cut l s r →
      Derives cd cut (.value d (0x22 :: l) (jsonValueSetString (CString.ofBytes s)) r)
  | literal {d l s v r} : d < 512 → TokenStart l → l.head? ≠ some 0x22 → l.head? ≠ some 0x7B →
      l.head? ≠ some 0x5B → Unquoted l s r → jsonParseConst cd s = some v →
      Derives cd cut (.value d l v r)
  | object {d l es r} : d < 512 → Derives cd cut (.members (d + 1) l [] es r) →
      Derives cd cut (.value d (0x7B :: l) (.object es) r)
  | array {d l xs r} : d < 512 → Derives cd cut (.items (d + 1) l [] xs r) →
      Derives cd cut (.value d (0x5B :: l) (.array xs) r)
  | membersCut {d es} : cut = true → Derives cd cut (.members d [] es es [])
  | membersClose {d l es r} : Blank l (0x7D :: r) → Derives cd cut (.members d l es es r)
  | membersLast {d l m s n o p v q es r} : Blank l m → NameToken cut m s n → Blank n (0x3A :: o) →
      Blank o p → Derives cd cut (.value d p v q) → Blank q (0x7D :: r) →
      Derives cd cut (.members d l es (jsonObjectPut es (CString.ofBytes s) v) r)
  | membersMore {d l m s n o p v q k es es' r} : Blank l m → NameToken cut m s n →
      Blank n (0x3A :: o) → Blank o p → Derives cd cut (.value d p v q) → Blank q (0x2C :: k) →
      Derives cd cut (.members d k (jsonObjectPut es (CString.ofBytes s) v) es' r) →
      Derives cd cut (.members d l es es' r)
  | itemsCut {d xs} : cut = true → Derives cd cut (.items d [] xs xs [])
  | itemsClose {d l xs r} : Blank l (0x5D :: r) → Derives cd cut (.items d l xs xs r)
  | itemsLast {d l p v q xs r} : Blank l p → Derives cd cut (.value d p v q) →
      Blank q (0x5D :: r) → Derives cd cut (.items d l xs (jsonArrayAdd xs v) r)
  | itemsMore {d l p v q k xs xs' r} : Blank l p → Derives cd cut (.value d p v q) →
      Blank q (0x2C :: k) → Derives cd cut (.items d k (jsonArrayAdd xs v) xs' r) →
      Derives cd cut (.items d l xs xs' r)

lemma Blank.ne_nil {l r : List UInt8} {c : UInt8} (h : Blank l (c :: r)) : l ≠ [] := by
  rintro rfl
  cases h

lemma QuotedBody.of_rest {cut : Bool} {l s r : List UInt8} (h : QuotedBody cut l s r)
    (hr : r ≠ []) : QuotedBody false l s r := by
  cases h with
  | close h => exact .close h
  | cut => exact absurd rfl hr

lemma NameToken.of_rest {cut : Bool} {l s r : List UInt8} (h : NameToken cut l s r)
    (hr : r ≠ []) : NameToken false l s r := by
  cases h with
  | quoted h => exact .quoted (h.of_rest hr)
  | unquoted hl hq h => exact .unquoted hl hq h

/-- A value with some text left is complete. -/
lemma Derives.of_rest {cd : CDouble} {cut : Bool} {j : JsonJudgment} (h : Derives cd cut j)
    (hr : j.rest ≠ []) : Derives cd false j := by
  induction h with
  | string hd hq => exact .string hd (hq.of_rest hr)
  | literal hd hl hq ho ha hu hc => exact .literal hd hl hq ho ha hu hc
  | object hd _ ih => exact .object hd (ih hr)
  | array hd _ ih => exact .array hd (ih hr)
  | membersCut => exact absurd rfl hr
  | membersClose hb => exact .membersClose hb
  | membersLast hb hn hcolon hv _ hclose ih =>
      exact .membersLast hb (hn.of_rest hcolon.ne_nil) hcolon hv (ih hclose.ne_nil) hclose
  | membersMore hb hn hcolon hv _ hcomma _ ihv ih =>
      exact .membersMore hb (hn.of_rest hcolon.ne_nil) hcolon hv (ihv hcomma.ne_nil) hcomma (ih hr)
  | itemsCut => exact absurd rfl hr
  | itemsClose hb => exact .itemsClose hb
  | itemsLast hb _ hclose ih => exact .itemsLast hb (ih hclose.ne_nil) hclose
  | itemsMore hb _ hcomma _ ihv ih => exact .itemsMore hb (ihv hcomma.ne_nil) hcomma (ih hr)

lemma QuotedBody.mono {l s r : List UInt8} (cut : Bool) (h : QuotedBody false l s r) :
    QuotedBody cut l s r := by
  cases h with
  | close h => exact .close h
  | cut hcut => cases hcut

lemma NameToken.mono {l s r : List UInt8} (cut : Bool) (h : NameToken false l s r) :
    NameToken cut l s r := by
  cases h with
  | quoted h => exact .quoted (h.mono cut)
  | unquoted hl hq h => exact .unquoted hl hq h

/-- Complete values are values. -/
lemma Derives.mono {cd : CDouble} {j : JsonJudgment} (cut : Bool) (h : Derives cd false j) :
    Derives cd cut j := by
  induction h with
  | string hd hq => exact .string hd (hq.mono cut)
  | literal hd hl hq ho ha hu hc => exact .literal hd hl hq ho ha hu hc
  | object hd _ ih => exact .object hd ih
  | array hd _ ih => exact .array hd ih
  | membersCut hcut => cases hcut
  | membersClose hb => exact .membersClose hb
  | membersLast hb hn hcolon hv _ hclose ih =>
      exact .membersLast hb (hn.mono cut) hcolon hv ih hclose
  | membersMore hb hn hcolon hv _ hcomma _ ihv ih =>
      exact .membersMore hb (hn.mono cut) hcolon hv ihv hcomma ih
  | itemsCut hcut => cases hcut
  | itemsClose hb => exact .itemsClose hb
  | itemsLast hb _ hclose ih => exact .itemsLast hb ih hclose
  | itemsMore hb _ hcomma _ ihv ih => exact .itemsMore hb ihv hcomma ih

end LibCmutils
