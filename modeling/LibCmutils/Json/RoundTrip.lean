import LibCmutils.Json.Descent

/-!
Printing and parsing JSON (`src/nanojson.c`).

* `scan_escape`: what the printer writes for the bytes of a string is scanned as those
  bytes.
* `jsonParseConst_numeral`: what a token that opens no constant is read as.
* `jsonParseConst_long`, `jsonParseConst_true`, `jsonParseConst_false`, `jsonParseConst_null`:
  printed literals, with white space after them, are read back.
* `JsonWellFormed.prints`: the text of a tree is a value of the grammar, that tree.
* `jsonParse_jsonToString`: the round trip.
-/

namespace LibCmutils

/-! ### Strings -/

set_option maxRecDepth 8000 in
/-- What the printer writes for a byte is the byte, a one-letter escape or a four-digit
escape. -/
lemma jsonEscapeChar_cases : ∀ c : UInt8, c ≠ 0 →
    (jsonEscapeChar c = [c] ∧ c ≠ 0x5C ∧ isQuote c = false) ∨
    (jsonEscapeChar c = [0x5C, (jsonEscapeChar c).getD 1 0] ∧ (jsonEscapeChar c).getD 1 0 ≠ 0x75 ∧
      jsonEscapeByte ((jsonEscapeChar c).getD 1 0) = c) ∨
    (jsonEscapeChar c = 0x5C :: 0x75 :: (jsonEscapeChar c).drop 2 ∧
      ((jsonEscapeChar c).drop 2).length = 4 ∧
      jsonHex4 ((jsonEscapeChar c).drop 2) = some c.toNat ∧ c.toNat < 0x20) := by
  decide

/-- The text of a string up to its closing quote. -/
lemma scan_escape {s : List UInt8} (hs : (0 : UInt8) ∉ s) (r : List UInt8) :
    Scan isQuote (s.flatMap jsonEscapeChar ++ r) s r := by
  induction s with
  | nil => exact .nil r
  | cons c s ih =>
      have hc : c ≠ 0 := by
        rintro rfl
        simp at hs
      have ih := ih fun h => hs (by simp [h])
      rw [List.flatMap_cons, List.append_assoc]
      rcases jsonEscapeChar_cases c hc with ⟨heq, hbs, hq⟩ | ⟨heq, hu, hbyte⟩ | ⟨heq, hlen, hex, hlt⟩
      · rw [heq]
        exact .char hbs hq ih
      · rw [heq]
        have := Scan.escape (.byte (s.flatMap jsonEscapeChar ++ r) hu) ih
        rwa [hbyte] at this
      · rw [heq]
        have hutf : jsonAppendUTF8 c.toNat = [c] := by
          rw [jsonAppendUTF8, utf8Encode, if_pos (by omega), UInt8.ofNat_toNat]
        have := Scan.escape (.unicode (r := s.flatMap jsonEscapeChar ++ r) hlen hex (by omega)) ih
        rwa [hutf] at this

/-- A printed string after its opening quote. -/
lemma quotedBody_print (data : CString) (r : List UInt8) :
    QuotedBody false (data.1.flatMap jsonEscapeChar ++ 0x22 :: r) data.1 r :=
  .close (scan_escape data.2 (0x22 :: r))

/-! ### Literals -/

/-- White space as the printer writes it. -/
def Pad (w : List UInt8) : Prop := ∀ c ∈ w, c = 0x20 ∨ c = 0x0A

/-- A byte of a literal. -/
def isPlain (c : UInt8) : Bool :=
  c != 0 && c != 0x5C && c != 0x2F && !strchr jsnDelims c && !strchr spaces c && !strchr jsnSpaces c

lemma isPlain_spec {c : UInt8} (h : isPlain c = true) : c ≠ 0 ∧ c ≠ 0x5C ∧ c ≠ 0x2F ∧
    strchr jsnDelims c = false ∧ strchr spaces c = false ∧ strchr jsnSpaces c = false := by
  simpa [isPlain, and_assoc] using h

lemma Pad.byte {w : List UInt8} (h : Pad w) {c : UInt8} (hc : c ∈ w) :
    c ≠ 0x5C ∧ strchr jsnDelims c = false ∧ strchr spaces c = true ∧ strchr jsnSpaces c = true := by
  rcases h c hc with rfl | rfl
  · decide
  · decide

lemma Pad.blank {w : List UInt8} (h : Pad w) (r : List UInt8) : Blank (w ++ r) r := by
  induction w with
  | nil => exact .nil r
  | cons c w ih =>
      exact .space (h.byte (by simp)).2.2.2 (ih fun e he => h e (by simp [he]))

/-- A literal with white space after it is one unquoted token. -/
lemma unquoted_plain {x w r : List UInt8} (hx : ∀ c ∈ x, isPlain c = true) (hw : Pad w)
    (hr : Stop r) : Unquoted (x ++ w ++ r) (x ++ w) r := by
  refine ⟨scan_plain (fun c hc => ?_) r, hr⟩
  rcases List.mem_append.mp hc with hc | hc
  · have := isPlain_spec (hx c hc)
    exact ⟨this.2.1, this.2.2.2.1⟩
  · exact ⟨(hw.byte hc).1, (hw.byte hc).2.1⟩

lemma selfTrim_plain {x w : List UInt8} (hx : ∀ c ∈ x, isPlain c = true) (hne : x ≠ [])
    (hw : Pad w) : stringSelfTrim (x ++ w) = x := by
  have hspace : ∀ c ∈ x, strchr spaces c = false := fun c hc => (isPlain_spec (hx c hc)).2.2.2.2.1
  have htrim : stringSelfTrim ([] ++ x ++ w) = x :=
    stringSelfTrim_pad (by simp) (fun c hc => (hw.byte hc).2.2.1)
      (fun c hc => hspace c (List.mem_of_mem_head? hc))
      (fun c hc => hspace c (List.mem_of_mem_getLast? hc)) hne
  rwa [List.nil_append] at htrim

variable {cd : CDouble}

lemma jsonParseConst_true {w : List UInt8} (hw : Pad w) :
    jsonParseConst cd (trueText ++ w) = some (jsonValueSetBoolean true) := by
  rw [jsonParseConst, selfTrim_plain (List.all_eq_true.mp rfl) (by decide) hw]
  rfl

lemma jsonParseConst_false {w : List UInt8} (hw : Pad w) :
    jsonParseConst cd (falseText ++ w) = some (jsonValueSetBoolean false) := by
  rw [jsonParseConst, selfTrim_plain (List.all_eq_true.mp rfl) (by decide) hw]
  rfl

lemma jsonParseConst_null {w : List UInt8} (hw : Pad w) :
    jsonParseConst cd (nullText ++ w) = some jsonValueSetNull := by
  rw [jsonParseConst, selfTrim_plain (List.all_eq_true.mp rfl) (by decide) hw]
  rfl

set_option maxRecDepth 8000 in
/-- A byte that opens no constant, in either case. -/
lemma tolower_numeral : ∀ c : UInt8, strchr [0x74, 0x54, 0x66, 0x46] c = false →
    strchr [0x6E, 0x4E] c = false → tolower c ≠ 0x74 ∧ tolower c ≠ 0x66 ∧ tolower c ≠ 0x6E := by
  decide

/-- A token whose first byte opens no constant goes to `strtod` or to `strtoll`. -/
lemma jsonParseConst_numeral {s t k : List UInt8} {c : UInt8} (hs : stringSelfTrim s = t)
    (ht : t = c :: k) (hzero : (0 : UInt8) ∉ t) (htf : strchr [0x74, 0x54, 0x66, 0x46] c = false)
    (hnull : strchr [0x6E, 0x4E] c = false) :
    jsonParseConst cd s = if 0x2E ∈ t then
        (cd.strtod ⟨t, hzero⟩).map fun x => jsonValueSetDouble (cd.print x)
      else (strtoll 10 t).map fun r => jsonValueSetLong r.1 := by
  obtain ⟨hT, hF, hN⟩ := tolower_numeral c htf hnull
  have hcase : ∀ (e : UInt8) (l : List UInt8) (hl : (0 : UInt8) ∉ e :: l), tolower c ≠ tolower e →
      strcasecmpEq ⟨t, hzero⟩ ⟨e :: l, hl⟩ = false := by
    intro e l hl he
    simp [strcasecmpEq, ht, he]
  have htrue : strcasecmpEq ⟨t, hzero⟩ (CString.ofBytes trueText) = false :=
    hcase 0x74 [0x72, 0x75, 0x65] (by decide) hT
  have hfalse : strcasecmpEq ⟨t, hzero⟩ (CString.ofBytes falseText) = false :=
    hcase 0x66 [0x61, 0x6C, 0x73, 0x65] (by decide) hF
  have hnullText : strcasecmpEq ⟨t, hzero⟩ (CString.ofBytes nullText) = false :=
    hcase 0x6E [0x75, 0x6C, 0x6C] (by decide) hN
  have hhead : t.headD 0 = c := by rw [ht]; rfl
  rw [jsonParseConst, hs]
  simp only [CString.ofBytes_of_notMem hzero, htrue, hfalse, hnullText, hhead, htf, hnull,
    Bool.and_false, Bool.false_eq_true, if_false]

set_option maxRecDepth 8000 in
lemma digit_plain : ∀ c : UInt8, (0x30 ≤ c ∧ c ≤ 0x39) ∨ c = 0x2D → isPlain c = true ∧
    c ≠ 0x2E ∧ strchr [0x74, 0x54, 0x66, 0x46] c = false ∧ strchr [0x6E, 0x4E] c = false := by
  decide

lemma jsonParseConst_long {n : ℤ} (hn : -2 ^ 63 ≤ n ∧ n < 2 ^ 63) {w : List UInt8} (hw : Pad w) :
    jsonParseConst cd (printInt n ++ w) = some (jsonValueSetLong n) := by
  obtain ⟨hne, hbytes⟩ := printInt_bytes n
  have hplain : ∀ c ∈ printInt n, isPlain c = true := fun c hc => (digit_plain c (hbytes c hc)).1
  have hzero := zero_notMem_printInt n
  have hdot : (0x2E : UInt8) ∉ printInt n := fun h => (digit_plain _ (hbytes _ h)).2.1 rfl
  have hclamp : clampInt64 n = n := by
    rw [clampInt64]
    omega
  obtain ⟨c, k, hck⟩ := List.exists_cons_of_ne_nil hne
  obtain ⟨-, -, htf, hnull⟩ := digit_plain c (hbytes c (by simp [hck]))
  rw [jsonParseConst_numeral (selfTrim_plain hplain hne hw) hck hzero htf hnull, if_neg hdot,
    strtoll, scanInt_printInt, Option.map_some, Option.map_some, hclamp]

/-! ### Trees -/

/-- The text of a tree, with white space and the end or a delimiter after it, is a value,
and white space is all it leaves before the delimiter. -/
def Prints (cd : CDouble) (pretty : Bool) (j : Json) : Prop :=
  ∀ (d : ℕ) (w r : List UInt8), d + j.height ≤ 512 → Pad w → Stop r →
    ∃ q, Derives cd false (.value d (jsonToStringInternal pretty d j ++ w ++ r) j q) ∧ Blank q r

/-- A literal is printed as one unquoted token. -/
lemma prints_literal {x : List UInt8} {v : Json} (hne : x ≠ []) (hx : ∀ c ∈ x, isPlain c = true)
    (hquote : x.head? ≠ some 0x22) (hconst : ∀ w, Pad w → jsonParseConst cd (x ++ w) = some v)
    {d : ℕ} {w r : List UInt8} (hd : d < 512) (hw : Pad w) (hr : Stop r) :
    ∃ q, Derives cd false (.value d (x ++ w ++ r) v q) ∧ Blank q r := by
  obtain ⟨c, s, rfl⟩ := List.exists_cons_of_ne_nil hne
  obtain ⟨-, -, hslash, hdelim, -, hspace⟩ := isPlain_spec (hx c (by simp))
  have hbrace : c ≠ 0x7B ∧ c ≠ 0x5B := by
    constructor
    · rintro rfl
      exact absurd hdelim (by decide)
    · rintro rfl
      exact absurd hdelim (by decide)
  refine ⟨r, .literal hd (tokenStart_cons hspace hslash _) (by simpa using hquote)
    (by simpa using hbrace.1) (by simpa using hbrace.2) (unquoted_plain hx hw hr) (hconst w hw),
    .nil r⟩

lemma jsonIndent_pad (d : ℕ) : Pad (jsonIndent d) := by
  intro c hc
  obtain ⟨l, hl, hcl⟩ := List.mem_flatten.mp hc
  rw [List.eq_of_mem_replicate hl] at hcl
  left
  simpa using hcl

/-- The line break before a member. -/
lemma jsonLine_pad (pretty : Bool) (d : ℕ) : Pad (if pretty then 0x0A :: jsonIndent d else []) := by
  cases pretty
  · simp [Pad]
  · intro c hc
    rcases List.mem_cons.mp hc with rfl | hc
    · exact .inr rfl
    · exact jsonIndent_pad _ c hc

/-- The items of an array that is not empty, from the first on. -/
lemma derives_items (pretty : Bool) (d : ℕ) (r : List UInt8) : ∀ (x : Json) (xs acc : List Json)
    (l : List UInt8), (∀ y ∈ x :: xs, Prints cd pretty y ∧ d + 1 + y.height ≤ 512) →
    Blank l (jsonToStringInternal pretty (d + 1) x ++ jsonItemsToString pretty d false xs
      ++ 0x5D :: r) →
    Derives cd false (.items (d + 1) l acc (acc ++ x :: xs) r)
  | x, [], acc, l, hprint, hl => by
      obtain ⟨hx, hh⟩ := hprint x (by simp)
      obtain ⟨q, hv, hq⟩ := hx (d + 1) [] (0x5D :: r) hh (by simp [Pad]) (by simp [Stop]; decide)
      have hl : Blank l (jsonToStringInternal pretty (d + 1) x ++ [] ++ 0x5D :: r) := by
        simpa [jsonItemsToString] using hl
      exact .itemsLast hl hv hq
  | x, y :: ys, acc, l, hprint, hl => by
      obtain ⟨hx, hh⟩ := hprint x (by simp)
      set rest := (if pretty then [0x20] else []) ++ (jsonToStringInternal pretty (d + 1) y
        ++ jsonItemsToString pretty d false ys ++ 0x5D :: r) with hrest
      have hpad : Pad (if pretty then [0x20] else []) := by cases pretty <;> simp [Pad]
      have hitems := derives_items pretty d r y ys (acc ++ [x]) rest
        (fun z hz => hprint z (List.mem_cons_of_mem x hz)) (hpad.blank _)
      obtain ⟨q, hv, hq⟩ := hx (d + 1) [] (0x2C :: rest) hh (by simp [Pad]) (by simp [Stop]; decide)
      have htext : jsonToStringInternal pretty (d + 1) x ++ jsonItemsToString pretty d false (y :: ys)
          ++ 0x5D :: r = jsonToStringInternal pretty (d + 1) x ++ [] ++ 0x2C :: rest := by
        rw [jsonItemsToString, hrest]
        cases pretty <;> simp
      rw [htext] at hl
      have := Derives.itemsMore hl hv hq hitems
      simpa using this

/-- The members of an object that is not empty, from the first on. -/
lemma derives_members (pretty : Bool) (d : ℕ) {pad : List UInt8} (hpad : Pad pad)
    (r : List UInt8) : ∀ (e : CString × Json) (es acc : List (CString × Json)) (l : List UInt8),
    (∀ e' ∈ e :: es, Prints cd pretty e'.2 ∧ d + 1 + e'.2.height ≤ 512) →
    ((acc ++ e :: es).map Prod.fst).Nodup →
    Blank l (jsonValueStringToStr e.1 ++ (if pretty then [0x3A, 0x20] else [0x3A]) ++
      jsonToStringInternal pretty (d + 1) e.2 ++ jsonMembersToString pretty d false es ++ pad
      ++ 0x7D :: r) →
    Derives cd false (.members (d + 1) l acc (acc ++ e :: es) r)
  | e, es, acc, l, hprint, hnodup, hl => by
      obtain ⟨hx, hh⟩ := hprint e (by simp)
      have hput : jsonObjectPut acc (CString.ofBytes e.1.1) e.2 = acc ++ [e] := by
        rw [CString.ofBytes_coe]
        refine jsonObjectPut_of_notMem (fun hmem => ?_) e.2
        rw [List.map_append, List.nodup_append] at hnodup
        exact hnodup.2.2 _ hmem _ (by simp) rfl
      have hcolon : ∀ t : List UInt8, Blank ((if pretty then [0x20] else []) ++ t) t := by
        intro t
        have hp : Pad (if pretty then [0x20] else []) := by cases pretty <;> simp [Pad]
        exact hp.blank t
      cases es with
      | nil =>
          obtain ⟨q, hv, hq⟩ := hx (d + 1) pad (0x7D :: r) hh hpad (by simp [Stop]; decide)
          have htext : jsonValueStringToStr e.1 ++ (if pretty then [0x3A, 0x20] else [0x3A]) ++
              jsonToStringInternal pretty (d + 1) e.2 ++ jsonMembersToString pretty d false []
              ++ pad ++ 0x7D :: r = 0x22 :: (e.1.1.flatMap jsonEscapeChar ++ 0x22 :: (0x3A ::
                ((if pretty then [0x20] else []) ++ (jsonToStringInternal pretty (d + 1) e.2
                  ++ pad ++ 0x7D :: r)))) := by
            rw [jsonMembersToString, jsonValueStringToStr]
            cases pretty <;> simp
          rw [htext] at hl
          have hlast : Derives cd false (.members (d + 1) l acc
              (jsonObjectPut acc (CString.ofBytes e.1.1) e.2) r) :=
            .membersLast hl (.quoted (quotedBody_print e.1 _)) (.nil _) (hcolon _) hv hq
          rwa [hput] at hlast
      | cons f fs =>
          set rest := (if pretty then 0x0A :: jsonIndent (d + 1) else []) ++
            (jsonValueStringToStr f.1 ++ (if pretty then [0x3A, 0x20] else [0x3A]) ++
            jsonToStringInternal pretty (d + 1) f.2 ++ jsonMembersToString pretty d false fs ++ pad
            ++ 0x7D :: r) with hrest
          have hmembers := derives_members pretty d hpad r f fs (acc ++ [e]) rest
            (fun z hz => hprint z (List.mem_cons_of_mem e hz)) (by simpa using hnodup)
            ((jsonLine_pad pretty (d + 1)).blank _)
          obtain ⟨q, hv, hq⟩ := hx (d + 1) [] (0x2C :: rest) hh (by simp [Pad])
            (by simp [Stop]; decide)
          have htext : jsonValueStringToStr e.1 ++ (if pretty then [0x3A, 0x20] else [0x3A]) ++
              jsonToStringInternal pretty (d + 1) e.2 ++ jsonMembersToString pretty d false (f :: fs)
              ++ pad ++ 0x7D :: r = 0x22 :: (e.1.1.flatMap jsonEscapeChar ++ 0x22 :: (0x3A ::
                ((if pretty then [0x20] else []) ++ (jsonToStringInternal pretty (d + 1) e.2
                  ++ [] ++ 0x2C :: rest)))) := by
            rw [jsonMembersToString, jsonValueStringToStr, hrest]
            cases pretty <;> simp
          rw [htext] at hl
          rw [← hput] at hmembers
          have hmore : Derives cd false (.members (d + 1) l acc
              (jsonObjectPut acc (CString.ofBytes e.1.1) e.2 ++ f :: fs) r) :=
            .membersMore hl (.quoted (quotedBody_print e.1 _)) (.nil _) (hcolon _) hv hq hmembers
          rwa [hput, List.append_assoc] at hmore

lemma prints_long {n : ℤ} (hn : -2 ^ 63 ≤ n ∧ n < 2 ^ 63) (pretty : Bool) :
    Prints cd pretty (jsonValueSetLong n) := by
  intro d w r hh hw hr
  obtain ⟨hne, hbytes⟩ := printInt_bytes n
  have hplain : ∀ c ∈ printInt n, isPlain c = true := fun c hc => (digit_plain c (hbytes c hc)).1
  have hzero := zero_notMem_printInt n
  have htext : jsonToStringInternal pretty d (jsonValueSetLong n) = printInt n := by
    rw [jsonValueSetLong, CString.ofBytes_of_notMem hzero]
    rfl
  have hquote : (printInt n).head? ≠ some 0x22 := fun hhead => by
    rcases hbytes _ (List.mem_of_mem_head? hhead) with ⟨h1, -⟩ | h1
    · exact absurd h1 (by decide)
    · exact absurd h1 (by decide)
  rw [htext]
  exact prints_literal hne hplain hquote (fun w hw => jsonParseConst_long hn hw)
    (by rw [jsonValueSetLong, Json.height] at hh; omega) hw hr

lemma prints_string (s : CString) (pretty : Bool) : Prints cd pretty (jsonValueSetString s) := by
  intro d w r hh hw hr
  have hd : d < 512 := by
    rw [jsonValueSetString, Json.height] at hh
    omega
  have htext : jsonToStringInternal pretty d (jsonValueSetString s) ++ w ++ r
      = 0x22 :: (s.1.flatMap jsonEscapeChar ++ 0x22 :: (w ++ r)) := by
    rw [jsonValueSetString, jsonToStringInternal, jsonValueToString, jsonValueStringToStr]
    simp
  have hv : Derives cd false (.value d _ (jsonValueSetString (CString.ofBytes s.1)) (w ++ r)) :=
    .string hd (quotedBody_print s (w ++ r))
  rw [CString.ofBytes_coe, ← htext] at hv
  exact ⟨w ++ r, hv, hw.blank r⟩

lemma prints_array {items : List Json} {pretty : Bool} (h : ∀ y ∈ items, Prints cd pretty y) :
    Prints cd pretty (.array items) := by
  intro d w r hh hw hr
  rw [Json.height] at hh
  refine ⟨w ++ r, ?_, hw.blank r⟩
  cases items with
  | nil => exact .array (by omega) (.itemsClose (.nil _))
  | cons x xs =>
      have hprint : ∀ y ∈ x :: xs, Prints cd pretty y ∧ d + 1 + y.height ≤ 512 := by
        intro y hy
        have := Json.itemsHeight_le_iff.mp le_rfl _ hy
        exact ⟨h y hy, by omega⟩
      have hitems := derives_items pretty d (w ++ r) x xs [] _ hprint (.nil _)
      have htext : jsonToStringInternal pretty d (.array (x :: xs)) ++ w ++ r
          = 0x5B :: (jsonToStringInternal pretty (d + 1) x
            ++ jsonItemsToString pretty d false xs ++ 0x5D :: (w ++ r)) := by
        rw [jsonToStringInternal, jsonItemsToString]
        simp
      rw [htext]
      exact .array (by omega) hitems

lemma prints_object {entries : List (CString × Json)} {pretty : Bool}
    (hnodup : (entries.map Prod.fst).Nodup) (h : ∀ e ∈ entries, Prints cd pretty e.2) :
    Prints cd pretty (.object entries) := by
  intro d w r hh hw hr
  rw [Json.height] at hh
  refine ⟨w ++ r, ?_, hw.blank r⟩
  cases entries with
  | nil =>
      have htext : jsonToStringInternal pretty d (.object []) ++ w ++ r
          = 0x7B :: 0x7D :: (w ++ r) := by
        cases pretty <;> simp [jsonToStringInternal, jsonMembersToString]
      rw [htext]
      exact .object (by omega) (.membersClose (.nil _))
  | cons e es =>
      have hprint : ∀ e' ∈ e :: es, Prints cd pretty e'.2 ∧ d + 1 + e'.2.height ≤ 512 := by
        intro e' he'
        have := Json.membersHeight_le_iff.mp le_rfl _ he'
        exact ⟨h e' he', by omega⟩
      have hmembers := derives_members pretty d (jsonLine_pad pretty d) (w ++ r) e es [] _ hprint
        hnodup ((jsonLine_pad pretty (d + 1)).blank _)
      have htext : jsonToStringInternal pretty d (.object (e :: es)) ++ w ++ r
          = 0x7B :: ((if pretty then 0x0A :: jsonIndent (d + 1) else []) ++
            (jsonValueStringToStr e.1 ++ (if pretty then [0x3A, 0x20] else [0x3A]) ++
            jsonToStringInternal pretty (d + 1) e.2 ++ jsonMembersToString pretty d false es ++
            (if pretty then 0x0A :: jsonIndent d else []) ++ 0x7D :: (w ++ r))) := by
        rw [jsonToStringInternal, jsonMembersToString]
        cases pretty <;> simp
      rw [htext]
      exact .object (by omega) hmembers

/-- **Printing.** The text of a tree is a value of the grammar, that tree. -/
theorem JsonWellFormed.prints (cd : CDouble) {j : Json} (h : JsonWellFormed j) (pretty : Bool) :
    Prints cd pretty j := by
  induction h with
  | long n hn => exact prints_long hn pretty
  | string s => exact prints_string s pretty
  | boolean b =>
      intro d w r hh hw hr
      have hd : d < 512 := by
        rw [jsonValueSetBoolean, Json.height] at hh
        omega
      cases b
      · exact prints_literal (x := falseText) (by decide) (List.all_eq_true.mp rfl) (by decide)
          (fun w hw => jsonParseConst_false hw) hd hw hr
      · exact prints_literal (x := trueText) (by decide) (List.all_eq_true.mp rfl) (by decide)
          (fun w hw => jsonParseConst_true hw) hd hw hr
  | null =>
      intro d w r hh hw hr
      have hd : d < 512 := by
        rw [jsonValueSetNull, Json.height] at hh
        omega
      exact prints_literal (x := nullText) (by decide) (List.all_eq_true.mp rfl) (by decide)
        (fun w hw => jsonParseConst_null hw) hd hw hr
  | array _ ih => exact prints_array ih
  | object hnodup _ ih => exact prints_object hnodup ih

end LibCmutils
