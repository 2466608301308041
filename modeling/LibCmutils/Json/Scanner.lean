import LibCmutils.Json.Grammar

/-!
The scanner of the JSON parser (`src/nanojson.c`) reads what the grammar says.

* `JsonParser.at`: a parser whose byte counter agrees with its cursor. Every function of
  the scanner keeps it so, and never reads behind the terminating NUL.
* `jsonSkipSpaces_spec`, `jsonSkipSpaces_blank`: it stops where white space and
  comments do.
* `jsonParseEscape_of_escape`, `jsonParseStringLoop_scan`, `jsonParseString_quoted`,
  `jsonParseString_unquoted`: escapes and strings of the grammar are read.
* `jsonParseEscape_sound`, `jsonParseStringLoop_sound`, `jsonParseString_sound`: what is read
  are those.
-/

namespace LibCmutils

/-- A parser at a place of the text, its byte counter in step. -/
def JsonParser.at (l : List UInt8) (d : ℕ) : JsonParser := ⟨l, l.length, d⟩

namespace JsonParser

@[simp] lemma at_curr (l : List UInt8) (d : ℕ) : (JsonParser.at l d).curr = l := rfl

@[simp] lemma at_remain (l : List UInt8) (d : ℕ) : (JsonParser.at l d).remain = l.length := rfl

@[simp] lemma at_depth (l : List UInt8) (d : ℕ) : (JsonParser.at l d).depth = d := rfl

@[simp] lemma deref_zero_nil (d : ℕ) : (JsonParser.at [] d).deref 0 = some 0 := rfl

@[simp] lemma deref_zero_cons (c : UInt8) (l : List UInt8) (d : ℕ) :
    (JsonParser.at (c :: l) d).deref 0 = some c := rfl

@[simp] lemma deref_one_cons (c : UInt8) (l : List UInt8) (d : ℕ) :
    (JsonParser.at (c :: l) d).deref 1 = some (l.head?.getD 0) := by
  cases l <;> rfl

end JsonParser

open JsonParser

/-- Consuming bytes that are there. -/
lemma jsonParseConsume_append (x l : List UInt8) (d : ℕ) :
    jsonParseConsume (JsonParser.at (x ++ l) d) x.length = some (JsonParser.at l d) := by
  have hcount : ¬((x.length : ℤ) + l.length < x.length) := by omega
  simp only [jsonParseConsume, JsonParser.at, List.length_append, Nat.cast_add, hcount, if_false,
    Int.toNat_natCast, List.drop_left]
  rw [if_pos (by omega)]
  simp

@[simp] lemma jsonParseConsume_one (c : UInt8) (l : List UInt8) (d : ℕ) :
    jsonParseConsume (JsonParser.at (c :: l) d) 1 = some (JsonParser.at l d) :=
  jsonParseConsume_append [c] l d

@[simp] lemma jsonParseConsume_two (a b : UInt8) (l : List UInt8) (d : ℕ) :
    jsonParseConsume (JsonParser.at (a :: b :: l) d) 2 = some (JsonParser.at l d) :=
  jsonParseConsume_append [a, b] l d

/-- Consuming more bytes than there are stops at the end. -/
lemma jsonParseConsume_over {l : List UInt8} {n : ℤ} (h : (l.length : ℤ) < n) (d : ℕ) :
    jsonParseConsume (JsonParser.at l d) n = some (JsonParser.at [] d) := by
  simp [jsonParseConsume, h, JsonParser.at]

/-! ### Spaces and comments -/

/-- Skipping the spaces at the cursor. -/
lemma jsonConsumeWhile_spaces (d : ℕ) : ∀ (l : List UInt8) (fuel : ℕ), l.length < fuel →
    ∃ m, jsonConsumeWhile (fun p => (p.deref 0).map (strchr jsnSpaces)) fuel (.at l d)
        = some (.at m d) ∧ Blank l m ∧ ∀ c ∈ m.head?, strchr jsnSpaces c = false
  | [], fuel + 1, _ => ⟨[], by simp [jsonConsumeWhile], .nil _, by simp⟩
  | c :: l, fuel + 1, hfuel => by
      cases hc : strchr jsnSpaces c with
      | true =>
          obtain ⟨m, hrun, hblank, hm⟩ := jsonConsumeWhile_spaces d l fuel (by simpa using hfuel)
          exact ⟨m, by simpa [jsonConsumeWhile, hc] using hrun, .space hc hblank, hm⟩
      | false => exact ⟨c :: l, by simp [jsonConsumeWhile, hc], .nil _, by simpa using hc⟩

/-- Skipping the rest of a line comment. -/
lemma jsonConsumeWhile_line (d : ℕ) : ∀ (l : List UInt8) (fuel : ℕ), l.length < fuel →
    ∃ m, jsonConsumeWhile (fun p => (p.deref 0).map fun c => !strchr jsnLineEnds c) fuel (.at l d)
        = some (.at m d) ∧ LineBody l m
  | [], fuel + 1, _ => ⟨[], by simp [jsonConsumeWhile], .stop (by simp)⟩
  | c :: l, fuel + 1, hfuel => by
      cases hc : strchr jsnLineEnds c with
      | true => exact ⟨c :: l, by simp [jsonConsumeWhile, hc], .stop (by simpa using hc)⟩
      | false =>
          obtain ⟨m, hrun, hline⟩ := jsonConsumeWhile_line d l fuel (by simpa using hfuel)
          exact ⟨m, by simpa [jsonConsumeWhile, hc] using hrun, .char hc hline⟩

/-- Skipping a block comment up to its closing mark, or the text when there is none. -/
lemma jsonConsumeWhile_block (d : ℕ) : ∀ (l : List UInt8) (fuel : ℕ), l.length < fuel →
    ∃ m, jsonConsumeWhile (fun p => some !jsonStartsWith [0x2A, 0x2F] p.curr) fuel (.at l d)
        = some (.at m d) ∧
      ((∃ r, m = 0x2A :: 0x2F :: r ∧ BlockBody l r) ∨ m = [] ∧ ∀ r, ¬BlockBody l r)
  | [], fuel + 1, _ => by
      refine ⟨[], by simp [jsonConsumeWhile], .inr ⟨rfl, fun r h => ?_⟩⟩
      cases h
  | c :: l, fuel + 1, hfuel => by
      cases hc : jsonStartsWith [0x2A, 0x2F] (c :: l) with
      | true =>
          obtain ⟨r, hr⟩ : ∃ r, c :: l = 0x2A :: 0x2F :: r := by
            cases l with
            | nil => simp [jsonStartsWith] at hc
            | cons e l =>
                simp only [jsonStartsWith, Bool.and_true, Bool.and_eq_true,
                  decide_eq_true_eq] at hc
                exact ⟨l, by rw [← hc.1, ← hc.2]⟩
          exact ⟨c :: l, by simp [jsonConsumeWhile, hc], .inl ⟨r, hr, hr ▸ .close r⟩⟩
      | false =>
          obtain ⟨m, hrun, hm⟩ := jsonConsumeWhile_block d l fuel (by simpa using hfuel)
          refine ⟨m, by simpa [jsonConsumeWhile, hc] using hrun, ?_⟩
          rcases hm with ⟨r, hr, hbody⟩ | ⟨hnil, hopen⟩
          · exact .inl ⟨r, hr, .char hc hbody⟩
          · refine .inr ⟨hnil, fun r h => ?_⟩
            cases h with
            | close => simp [jsonStartsWith] at hc
            | char _ h => exact hopen r h

/-- What one look for a comment does at a place that is no space. -/
lemma jsonSkipComment_spec (d : ℕ) {l : List UInt8}
    (hl : ∀ c ∈ l.head?, strchr jsnSpaces c = false) :
    (jsonSkipComment (.at l d) = some none ∧ (l = [] ∨ TokenStart l)) ∨
    (∃ m, jsonSkipComment (.at l d) = some (some (.at m d)) ∧ m.length < l.length ∧
      (Blank l m ∨ m = [] ∧ Stuck l ∧ ∃ k, l = 0x2F :: 0x2A :: k)) := by
  cases l with
  | nil => exact .inl ⟨by simp [jsonSkipComment], .inl rfl⟩
  | cons c l =>
      have hc : strchr jsnSpaces c = false := hl c (by simp)
      by_cases hslash : c = 0x2F
      · subst hslash
        by_cases hline : l.head? = some 0x2F
        · obtain ⟨l, rfl⟩ := List.head?_eq_some_iff.mp hline
          obtain ⟨m, hrun, hbody⟩ := jsonConsumeWhile_line d l (l.length + 1 + 1 + 1) (by omega)
          refine .inr ⟨m, ?_, ?_, .inl (.line hbody (.nil m))⟩
          · have hpos : (0 : ℤ) < ↑(l.length + 1 + 1) := by omega
            have hfuel : ((l.length : ℤ) + 1 + 1).toNat + 1 = l.length + 1 + 1 + 1 := by omega
            simp [jsonSkipComment, hfuel, hrun]
            omega
          · have := hbody.length_le
            simp only [List.length_cons]
            omega
        · by_cases hblock : l.head? = some 0x2A
          · obtain ⟨l, rfl⟩ := List.head?_eq_some_iff.mp hblock
            obtain ⟨m, hrun, hm⟩ := jsonConsumeWhile_block d l (l.length + 1 + 1 + 1) (by omega)
            have hfuel : ((l.length : ℤ) + 1 + 1).toNat + 1 = l.length + 1 + 1 + 1 := by omega
            rcases hm with ⟨r, rfl, hbody⟩ | ⟨rfl, hopen⟩
            · refine .inr ⟨r, ?_, ?_, .inl (.block hbody (.nil r))⟩
              · simp [jsonSkipComment, hfuel, hrun]
                rw [if_pos (by omega), if_pos (by omega)]
              · have := hbody.length_lt
                simp only [List.length_cons]
                omega
            · refine .inr ⟨[], ?_, by simp, .inr ⟨rfl, .inr (.inr ⟨l, rfl, hopen⟩), l, rfl⟩⟩
              simp [jsonSkipComment, hfuel, hrun]
              omega
          · have hhead1 : l.head?.getD 0 ≠ 0x2F := by
              cases l with
              | nil => decide
              | cons e l => simpa using hline
            have hhead2 : l.head?.getD 0 ≠ 0x2A := by
              cases l with
              | nil => decide
              | cons e l => simpa using hblock
            refine .inl ⟨?_, .inr ⟨hc, fun h => h.2.elim hline hblock⟩⟩
            simp [jsonSkipComment, hhead1, hhead2]
      · exact .inl ⟨by simp [jsonSkipComment, hslash], .inr (tokenStart_cons hc hslash l)⟩

lemma jsonSkipRounds_spec (d : ℕ) : ∀ (fuel : ℕ) (l : List UInt8), l.length < fuel →
    ∃ m r, jsonSkipRounds fuel (.at l d) = some (.at r d, !r.isEmpty) ∧ Blank l m ∧ Stuck m ∧
      (r = m ∧ (m = [] ∨ TokenStart m) ∨ r = [] ∧ ∃ k, m = 0x2F :: 0x2A :: k)
  | 0, _, h => by omega
  | fuel + 1, l, hfuel => by
      obtain ⟨k, hspaces, hblank, hk⟩ := jsonConsumeWhile_spaces d l (l.length + 1) (by omega)
      have hlen := hblank.length_le
      have hdef : jsonSkipRounds (fuel + 1) (.at l d) = (jsonSkipComment (.at k d)).bind fun r =>
          r.elim (some (JsonParser.at k d, decide (0 < (JsonParser.at k d).remain)))
            (jsonSkipRounds fuel) := by
        rw [jsonSkipRounds, at_remain, Int.toNat_natCast, hspaces]
        refine congrArg (Option.bind (jsonSkipComment (.at k d))) (funext fun r => ?_)
        cases r <;> rfl
      rw [hdef]
      rcases jsonSkipComment_spec d hk with ⟨hcom, htok⟩ | ⟨m, hcom, hlt, hm⟩
      · refine ⟨k, k, ?_, hblank, ?_, .inl ⟨rfl, htok⟩⟩
        · rw [hcom]
          cases k <;> simp
        · rcases htok with rfl | htok
          · exact .inl rfl
          · exact htok.stuck
      · rcases hm with hm | ⟨rfl, hstuck, hopen⟩
        · obtain ⟨m', r, hrun, hblank', hstuck, hr⟩ := jsonSkipRounds_spec d fuel m (by omega)
          refine ⟨m', r, ?_, hblank.trans (hm.trans hblank'), hstuck, hr⟩
          rw [hcom]
          exact hrun
        · obtain ⟨m', r, hrun, hblank', -, hr⟩ := jsonSkipRounds_spec d fuel [] (by
            simp only [List.length_nil]
            omega)
          have hm' : m' = [] := by cases hblank'; rfl
          obtain rfl : r = [] := by
            rcases hr with ⟨hr, -⟩ | ⟨hr, -⟩
            · rw [hr, hm']
            · exact hr
          refine ⟨k, [], ?_, hblank, hstuck, .inr ⟨rfl, hopen⟩⟩
          rw [hcom]
          exact hrun

/-- **Skipping spaces and comments** stops at a token or at the end of the text. -/
theorem jsonSkipSpaces_spec (l : List UInt8) (d : ℕ) :
    ∃ r, jsonSkipSpaces (.at l d) = some (.at r d, !r.isEmpty) ∧
      (r ≠ [] → Blank l r ∧ TokenStart r) := by
  obtain ⟨m, r, hrun, hblank, -, hr⟩ := jsonSkipRounds_spec d (l.length + 1) l (by omega)
  refine ⟨r, by rw [jsonSkipSpaces, at_remain, Int.toNat_natCast, hrun], fun hne => ?_⟩
  rcases hr with ⟨rfl, rfl | htok⟩ | ⟨rfl, -⟩
  · exact absurd rfl hne
  · exact ⟨hblank, htok⟩
  · exact absurd rfl hne

/-- Skipping spaces and comments before a token. -/
lemma jsonSkipSpaces_blank {l r : List UInt8} (h : Blank l r) (hr : TokenStart r) (d : ℕ) :
    jsonSkipSpaces (.at l d) = some (.at r d, true) := by
  obtain ⟨m, r', hrun, hblank, hstuck, hr'⟩ := jsonSkipRounds_spec d (l.length + 1) l (by omega)
  obtain rfl : m = r := hblank.unique hstuck h hr.stuck
  rw [jsonSkipSpaces, at_remain, Int.toNat_natCast, hrun]
  rcases hr' with ⟨rfl, -⟩ | ⟨-, k, rfl⟩
  · cases hm : r' with
    | nil => exact absurd hm hr.ne_nil
    | cons c l => rfl
  · exact absurd ⟨rfl, .inr rfl⟩ hr.2

lemma jsonSkipSpaces_token {r : List UInt8} (hr : TokenStart r) (d : ℕ) :
    jsonSkipSpaces (.at r d) = some (.at r d, true) :=
  jsonSkipSpaces_blank (.nil r) hr d

/-! ### Escapes -/

/-- Four digits are read from the first four bytes. -/
lemma jsonHex4_append {l : List UInt8} (hl : l.length = 4) (r : List UInt8) :
    jsonHex4 (l ++ r) = jsonHex4 l := by
  obtain ⟨a, b, c, e, rfl⟩ := List.length_eq_four.mp hl
  simp [jsonHex4, stringHexToBytes, hexPairsToBytes]

/-- The escape for one character of the basic plane. -/
lemma jsonParseUnicode_unicode {l : List UInt8} (hl : l.length = 4) {cp : ℕ}
    (hcp : jsonHex4 l = some cp) (hrange : ¬(0xD800 ≤ cp ∧ cp ≤ 0xDFFF)) (r sbuf : List UInt8)
    (d : ℕ) : ∃ x, jsonParseUnicode (.at (0x75 :: l ++ r) d) sbuf
      = some (.at (x :: r) d, some (sbuf ++ jsonAppendUTF8 cp)) := by
  obtain ⟨a, b, c, e, rfl⟩ := List.length_eq_four.mp hl
  have hex : jsonHex4 (a :: b :: c :: e :: r) = some cp := by
    rw [← hcp, ← jsonHex4_append hl r]
    rfl
  have hconsume : jsonParseConsume (.at (0x75 :: a :: b :: c :: e :: r) d) 4
      = some (.at (e :: r) d) := jsonParseConsume_append [0x75, a, b, c] (e :: r) d
  have hlong : ¬((0x75 :: a :: b :: c :: e :: r).length : ℤ) < 5 := by
    simp only [List.length_cons]
    omega
  have hhigh : ¬(0xD800 ≤ cp ∧ cp ≤ 0xDBFF) := by omega
  have hlow : ¬(0xDC00 ≤ cp ∧ cp ≤ 0xDFFF) := by omega
  refine ⟨e, ?_⟩
  simp only [jsonParseUnicode, List.cons_append, List.nil_append, at_remain, at_curr, hlong,
    if_false, List.drop_succ_cons, List.drop_zero, hex, Option.bind_eq_bind, hconsume,
    Option.bind_some, hhigh, hlow]

/-- The low surrogate after the last digit `e` of the high one. -/
lemma jsonParseLowSurrogate_low {m : List UInt8} (hm : m.length = 4) {lo : ℕ}
    (hlo : jsonHex4 m = some lo) (hlow : 0xDC00 ≤ lo ∧ lo ≤ 0xDFFF) (e : UInt8)
    (r sbuf : List UInt8) (cp d : ℕ) :
    ∃ x, jsonParseLowSurrogate (.at (e :: 0x5C :: 0x75 :: m ++ r) d) cp sbuf
      = some (.at (x :: r) d, some (sbuf ++
        jsonAppendUTF8 (0x10000 + (cp - 0xD800) * 1024 + (lo - 0xDC00)))) := by
  obtain ⟨a, b, c, f, rfl⟩ := List.length_eq_four.mp hm
  have hex : jsonHex4 (a :: b :: c :: f :: r) = some lo := by
    rw [← hlo, ← jsonHex4_append hm r]
    rfl
  have hconsume : jsonParseConsume (.at (e :: 0x5C :: 0x75 :: a :: b :: c :: f :: r) d) 6
      = some (.at (f :: r) d) := jsonParseConsume_append [e, 0x5C, 0x75, a, b, c] (f :: r) d
  have hlong : ¬((e :: 0x5C :: 0x75 :: a :: b :: c :: f :: r).length : ℤ) < 7 := by
    simp only [List.length_cons]
    omega
  have hone : (JsonParser.at (e :: 0x5C :: 0x75 :: a :: b :: c :: f :: r) d).deref 1 = some 0x5C :=
    rfl
  have htwo : (JsonParser.at (e :: 0x5C :: 0x75 :: a :: b :: c :: f :: r) d).deref 2 = some 0x75 :=
    rfl
  have hlow' : ¬(lo < 0xDC00 ∨ 0xDFFF < lo) := by omega
  refine ⟨f, ?_⟩
  simp only [jsonParseLowSurrogate, List.cons_append, List.nil_append, at_remain, hlong, if_false,
    hone, htwo, Option.bind_eq_bind, Option.bind_some, ne_eq, not_true_eq_false, or_self, at_curr,
    List.drop_succ_cons, List.drop_zero, hex, hlow', hconsume]

/-- The two escapes of a surrogate pair. -/
lemma jsonParseUnicode_pair {l m : List UInt8} (hl : l.length = 4) (hm : m.length = 4)
    {cp lo : ℕ} (hcp : jsonHex4 l = some cp) (hhigh : 0xD800 ≤ cp ∧ cp ≤ 0xDBFF)
    (hlo : jsonHex4 m = some lo) (hlow : 0xDC00 ≤ lo ∧ lo ≤ 0xDFFF) (r sbuf : List UInt8) (d : ℕ) :
    ∃ x, jsonParseUnicode (.at (0x75 :: l ++ 0x5C :: 0x75 :: m ++ r) d) sbuf
      = some (.at (x :: r) d, some (sbuf ++
        jsonAppendUTF8 (0x10000 + (cp - 0xD800) * 1024 + (lo - 0xDC00)))) := by
  obtain ⟨a, b, c, e, rfl⟩ := List.length_eq_four.mp hl
  obtain ⟨x, hx⟩ := jsonParseLowSurrogate_low hm hlo hlow e r sbuf cp d
  have hex : jsonHex4 (a :: b :: c :: e :: 0x5C :: 0x75 :: m ++ r) = some cp := by
    rw [← hcp, ← jsonHex4_append hl (0x5C :: 0x75 :: m ++ r)]
    rfl
  have hconsume : jsonParseConsume
      (.at (0x75 :: a :: b :: c :: e :: 0x5C :: 0x75 :: m ++ r) d) 4
      = some (.at (e :: 0x5C :: 0x75 :: m ++ r) d) :=
    jsonParseConsume_append [0x75, a, b, c] (e :: 0x5C :: 0x75 :: m ++ r) d
  have hlong : ¬((0x75 :: a :: b :: c :: e :: 0x5C :: 0x75 :: m ++ r).length : ℤ) < 5 := by
    simp only [List.cons_append, List.length_cons]
    omega
  have happ : 0x75 :: [a, b, c, e] ++ 0x5C :: 0x75 :: m ++ r
      = 0x75 :: a :: b :: c :: e :: 0x5C :: 0x75 :: m ++ r := by simp
  have hdrop : (0x75 :: a :: b :: c :: e :: 0x5C :: 0x75 :: m ++ r).drop 1
      = a :: b :: c :: e :: 0x5C :: 0x75 :: m ++ r := rfl
  refine ⟨x, ?_⟩
  rw [happ, jsonParseUnicode, at_remain, if_neg hlong, at_curr, hdrop, hconsume]
  simp only [hex, Option.bind_eq_bind, Option.bind_some, hhigh, and_self, if_true, hx]

/-- A low surrogate that is accepted is one of the grammar. -/
lemma jsonParseLowSurrogate_sound {e : UInt8} {l sbuf sbuf' : List UInt8} {cp d : ℕ}
    {st : JsonParser}
    (h : jsonParseLowSurrogate (.at (e :: l) d) cp sbuf = some (st, some sbuf')) :
    ∃ m r lo, l = 0x5C :: 0x75 :: m ++ r ∧ m.length = 4 ∧ jsonHex4 m = some lo ∧
      0xDC00 ≤ lo ∧ lo ≤ 0xDFFF := by
  by_cases hlong : ((e :: l).length : ℤ) < 7
  · simp only [jsonParseLowSurrogate, at_remain, hlong, if_true] at h
    simp at h
  · obtain ⟨f, g, m, r, rfl, hm⟩ : ∃ f g m r, l = f :: g :: m ++ r ∧ m.length = 4 := by
      match l, hlong with
      | [], h | [_], h | [_, _], h | [_, _, _], h | [_, _, _, _], h | [_, _, _, _, _], h => simp at h
      | f :: g :: a :: b :: c :: e :: r, _ => exact ⟨f, g, [a, b, c, e], r, rfl, rfl⟩
    have hone : (JsonParser.at (e :: (f :: g :: m ++ r)) d).deref 1 = some f := rfl
    have htwo : (JsonParser.at (e :: (f :: g :: m ++ r)) d).deref 2 = some g := rfl
    have hdrop : (e :: (f :: g :: m ++ r)).drop 3 = m ++ r := rfl
    rw [jsonParseLowSurrogate, at_remain, if_neg hlong, hone, htwo, at_curr, hdrop,
      jsonHex4_append hm] at h
    by_cases hesc : f ≠ 0x5C ∨ g ≠ 0x75
    · simp [hesc] at h
    · have hf : f = 0x5C ∧ g = 0x75 := by
        simpa only [not_or, ne_eq, not_not] using hesc
      cases hex : jsonHex4 m with
      | none => simp [hf, hex] at h
      | some lo =>
          by_cases hlow : lo < 0xDC00 ∨ 0xDFFF < lo
          · simp [hf, hex, hlow] at h
          · exact ⟨m, r, lo, by rw [hf.1, hf.2], hm, hex, by omega⟩

/-- A four-digit escape that is accepted is one of the grammar. -/
lemma jsonParseUnicode_sound {l sbuf sbuf' : List UInt8} {d : ℕ} {st : JsonParser}
    (h : jsonParseUnicode (.at (0x75 :: l) d) sbuf = some (st, some sbuf')) :
    ∃ u m, Escape (0x75 :: l) u m := by
  by_cases hlong : ((0x75 :: l).length : ℤ) < 5
  · simp only [jsonParseUnicode, at_remain, hlong, if_true] at h
    simp at h
  · obtain ⟨a, b, c, e, r, rfl⟩ : ∃ a b c e r, l = a :: b :: c :: e :: r := by
      match l, hlong with
      | [], h | [_], h | [_, _], h | [_, _, _], h => simp at h
      | a :: b :: c :: e :: r, _ => exact ⟨a, b, c, e, r, rfl⟩
    have hconsume : jsonParseConsume (.at (0x75 :: a :: b :: c :: e :: r) d) 4
        = some (.at (e :: r) d) := jsonParseConsume_append [0x75, a, b, c] (e :: r) d
    have happ : jsonHex4 (a :: b :: c :: e :: r) = jsonHex4 [a, b, c, e] :=
      jsonHex4_append (l := [a, b, c, e]) rfl r
    rw [jsonParseUnicode, at_remain, if_neg hlong, at_curr, List.drop_succ_cons, List.drop_zero,
      happ, hconsume] at h
    cases hex : jsonHex4 [a, b, c, e] with
    | none => simp [hex] at h
    | some cp =>
        simp only [hex, Option.bind_eq_bind, Option.bind_some] at h
        by_cases hhigh : 0xD800 ≤ cp ∧ cp ≤ 0xDBFF
        · rw [if_pos hhigh] at h
          obtain ⟨m, r, lo, rfl, hm, hlo, hlow⟩ := jsonParseLowSurrogate_sound h
          exact ⟨_, _, .pair (l := [a, b, c, e]) rfl hex hhigh hm hlo hlow⟩
        · rw [if_neg hhigh] at h
          by_cases hlow : 0xDC00 ≤ cp ∧ cp ≤ 0xDFFF
          · simp [hlow] at h
          · exact ⟨_, _, .unicode (l := [a, b, c, e]) rfl hex (by omega)⟩

/-- Parsing an escape of the grammar. -/
lemma jsonParseEscape_of_escape {l u m : List UInt8} (h : Escape l u m) (sbuf : List UInt8) (d : ℕ) :
    ∃ x, jsonParseEscape (.at (0x5C :: l) d) sbuf = some (.at (x :: m) d, some (sbuf ++ u)) := by
  have hstep : ∀ (c : UInt8) (k : List UInt8), jsonParseEscape (.at (0x5C :: c :: k) d) sbuf
      = if c = 0x75 then jsonParseUnicode (.at (c :: k) d) sbuf
        else some (.at (c :: k) d, some (sbuf ++ [jsonEscapeByte c])) := by
    intro c k
    have hpos : ¬((c :: k).length : ℤ) ≤ 0 := by
      simp only [List.length_cons]
      omega
    simp only [jsonParseEscape, jsonParseConsume_one, Option.bind_eq_bind, Option.bind_some,
      at_remain, hpos, if_false, deref_zero_cons]
  cases h with
  | @byte c _ hc => exact ⟨c, by rw [hstep, if_neg hc]⟩
  | unicode hl hcp hrange =>
      obtain ⟨x, hx⟩ := jsonParseUnicode_unicode hl hcp hrange m sbuf d
      exact ⟨x, by rw [List.cons_append, hstep, if_pos rfl, ← List.cons_append, hx]⟩
  | pair hl hcp hhigh hm hlo hlow =>
      obtain ⟨x, hx⟩ := jsonParseUnicode_pair hl hm hcp hhigh hlo hlow m sbuf d
      exact ⟨x, by rw [List.append_assoc, List.cons_append, hstep, if_pos rfl, ← List.cons_append,
        ← List.append_assoc, hx]⟩

/-- An escape that is accepted is one of the grammar. -/
lemma jsonParseEscape_sound {l sbuf sbuf' : List UInt8} {d : ℕ} {st : JsonParser}
    (h : jsonParseEscape (.at (0x5C :: l) d) sbuf = some (st, some sbuf')) :
    ∃ u m, Escape l u m := by
  rw [jsonParseEscape, jsonParseConsume_one, Option.bind_eq_bind, Option.bind_some] at h
  cases l with
  | nil => simp at h
  | cons c l =>
      by_cases hc : c = 0x75
      · subst hc
        have hpos : ¬((0x75 :: l).length : ℤ) ≤ 0 := by
          simp only [List.length_cons]
          omega
        rw [at_remain, if_neg hpos, deref_zero_cons, Option.bind_eq_bind, Option.bind_some,
          if_pos rfl] at h
        exact jsonParseUnicode_sound h
      · exact ⟨_, _, .byte l hc⟩

lemma Escape.unique {l u u' m m' : List UInt8} (h : Escape l u m) (h' : Escape l u' m') :
    u = u' ∧ m = m' := by
  obtain ⟨x, hx⟩ := jsonParseEscape_of_escape h [] 0
  obtain ⟨x', hx'⟩ := jsonParseEscape_of_escape h' [] 0
  have heq := hx.symm.trans hx'
  simp only [Option.some.injEq, Prod.mk.injEq] at heq
  exact ⟨by simpa using heq.2, (List.cons.inj (congrArg JsonParser.curr heq.1)).2⟩

/-- Scanning ends at one place only, where a stop byte or the end of the text is. -/
lemma Scan.unique {stop : UInt8 → Bool} (hbs : stop 0x5C = false) {l s s' r r' : List UInt8}
    (h : Scan stop l s r) (hr : ∀ c ∈ r.head?, stop c = true) (h' : Scan stop l s' r')
    (hr' : ∀ c ∈ r'.head?, stop c = true) : s = s' ∧ r = r' := by
  induction h generalizing s' with
  | nil l =>
      cases h' with
      | nil => exact ⟨rfl, rfl⟩
      | char _ hstop => simp [hstop] at hr
      | escape => simp [hbs] at hr
  | char hc hstop _ ih =>
      cases h' with
      | nil => simp [hstop] at hr'
      | char _ _ h' =>
          obtain ⟨rfl, rfl⟩ := ih hr h'
          exact ⟨rfl, rfl⟩
      | escape => exact absurd rfl hc
  | escape he _ ih =>
      cases h' with
      | nil => simp [hbs] at hr'
      | char hc => exact absurd rfl hc
      | escape he' h' =>
          obtain ⟨rfl, rfl⟩ := he.unique he'
          obtain ⟨rfl, rfl⟩ := ih hr h'
          exact ⟨rfl, rfl⟩

/-! ### Strings -/

/-- The byte that ends a quoted or an unquoted token. -/
def isStop (isstquot : Bool) : UInt8 → Bool := if isstquot then isQuote else strchr jsnDelims

/-- One round of the loop at a byte that is no backslash. -/
lemma jsonParseStringLoop_cons (q : Bool) {c : UInt8} (hc : c ≠ 0x5C) (fuel : ℕ)
    (l sbuf : List UInt8) (d : ℕ) :
    jsonParseStringLoop q (fuel + 1) (.at (c :: l) d) sbuf =
      if isStop q c then some (.at (if q then l else c :: l) d, some sbuf)
      else jsonParseStringLoop q fuel (.at l d) (sbuf ++ [c]) := by
  have hpos : (0 : ℤ) < (c :: l).length := by
    simp only [List.length_cons]
    omega
  rw [jsonParseStringLoop, at_remain, if_pos hpos, deref_zero_cons, Option.bind_eq_bind,
    Option.bind_some, if_neg hc, jsonParseConsume_one]
  cases q
  · simp [isStop]
  · simp [isStop, isQuote]

/-- The loop at a byte that is neither a backslash nor the end of the token. -/
lemma jsonParseStringLoop_char {q : Bool} {c : UInt8} (hc : c ≠ 0x5C) (hstop : isStop q c = false)
    (fuel : ℕ) (l sbuf : List UInt8) (d : ℕ) :
    jsonParseStringLoop q (fuel + 1) (.at (c :: l) d) sbuf
      = jsonParseStringLoop q fuel (.at l d) (sbuf ++ [c]) := by
  rw [jsonParseStringLoop_cons q hc, hstop, if_neg Bool.false_ne_true]

/-- The loop at the byte that ends the token. -/
lemma jsonParseStringLoop_stop {q : Bool} {c : UInt8} (hc : c ≠ 0x5C) (hstop : isStop q c = true)
    (fuel : ℕ) (l sbuf : List UInt8) (d : ℕ) :
    jsonParseStringLoop q (fuel + 1) (.at (c :: l) d) sbuf
      = some (.at (if q then l else c :: l) d, some sbuf) := by
  rw [jsonParseStringLoop_cons q hc, if_pos hstop]

/-- The loop at the end of the text. -/
lemma jsonParseStringLoop_nil (q : Bool) (fuel : ℕ) (sbuf : List UInt8) (d : ℕ) :
    jsonParseStringLoop q (fuel + 1) (.at [] d) sbuf = some (.at [] d, some sbuf) := by
  simp [jsonParseStringLoop]

lemma Escape.length_lt {l u m : List UInt8} (h : Escape l u m) : m.length < l.length := by
  cases h with
  | byte => simp
  | unicode => simp
  | pair => simp only [List.length_append, List.length_cons]; omega

lemma Scan.length_le {stop : UInt8 → Bool} {l s r : List UInt8} (h : Scan stop l s r) :
    r.length ≤ l.length := by
  induction h with
  | nil => exact le_rfl
  | char _ _ _ ih => exact ih.trans (by simp)
  | escape he _ ih =>
      have := he.length_lt
      simp only [List.length_cons]
      omega

/-- The loop goes over the characters and escapes of a token. -/
lemma jsonParseStringLoop_scan {q : Bool} {l s r : List UInt8} (h : Scan (isStop q) l s r) (d : ℕ) :
    ∀ (fuel : ℕ) (sbuf : List UInt8), l.length < fuel → ∃ fuel', r.length < fuel' + 1 ∧
      jsonParseStringLoop q fuel (.at l d) sbuf
        = jsonParseStringLoop q (fuel' + 1) (.at r d) (sbuf ++ s) := by
  induction h with
  | nil l =>
      intro fuel sbuf hfuel
      exact ⟨fuel - 1, by omega, by rw [List.append_nil, Nat.sub_add_cancel (by omega)]⟩
  | @char c l s r hc hstop _ ih =>
      intro fuel sbuf hfuel
      obtain ⟨fuel, rfl⟩ : ∃ n, fuel = n + 1 := ⟨fuel - 1, by omega⟩
      obtain ⟨fuel', hlt, hrun⟩ := ih fuel (sbuf ++ [c]) (by simpa using hfuel)
      refine ⟨fuel', hlt, ?_⟩
      rw [jsonParseStringLoop_char hc hstop, hrun, List.append_assoc]
      rfl
  | @escape l m u s r he _ ih =>
      intro fuel sbuf hfuel
      obtain ⟨fuel, rfl⟩ : ∃ n, fuel = n + 1 := ⟨fuel - 1, by omega⟩
      have hlen := he.length_lt
      rw [List.length_cons] at hfuel
      obtain ⟨x, hx⟩ := jsonParseEscape_of_escape he sbuf d
      obtain ⟨fuel', hlt, hrun⟩ := ih fuel (sbuf ++ u) (by omega)
      refine ⟨fuel', hlt, ?_⟩
      have hpos : (0 : ℤ) < (0x5C :: l).length := by
        simp only [List.length_cons]
        omega
      rw [jsonParseStringLoop, at_remain, if_pos hpos, deref_zero_cons]
      simp only [Option.bind_eq_bind, Option.bind_some, if_true, hx, jsonParseConsume_one, hrun,
        List.append_assoc]

/-- What the loop accepts is scanned to the end of the token or of the text. -/
lemma jsonParseStringLoop_sound (q : Bool) (d : ℕ) : ∀ (fuel : ℕ) (l sbuf : List UInt8)
    (st : JsonParser) (out : List UInt8),
    jsonParseStringLoop q fuel (.at l d) sbuf = some (st, some out) →
    ∃ s r, out = sbuf ++ s ∧ Scan (isStop q) l s r ∧
      (r = [] ∧ st = .at [] d ∨
        ∃ c k, r = c :: k ∧ isStop q c = true ∧ st = .at (if q then k else c :: k) d)
  | 0, _, _, _, _, h => by cases h
  | fuel + 1, [], sbuf, st, out, h => by
      rw [jsonParseStringLoop_nil] at h
      cases h
      exact ⟨[], [], by simp, .nil _, .inl ⟨rfl, rfl⟩⟩
  | fuel + 1, c :: l, sbuf, st, out, h => by
      by_cases hc : c = 0x5C
      · subst hc
        have hpos : (0 : ℤ) < (0x5C :: l).length := by
          simp only [List.length_cons]
          omega
        rw [jsonParseStringLoop, at_remain, if_pos hpos, deref_zero_cons, Option.bind_eq_bind,
          Option.bind_some, if_pos rfl] at h
        cases hesc : jsonParseEscape (.at (0x5C :: l) d) sbuf with
        | none => simp [hesc] at h
        | some res =>
            obtain ⟨st', res⟩ := res
            cases res with
            | none => simp [hesc] at h
            | some sbuf' =>
                obtain ⟨u, m, he⟩ := jsonParseEscape_sound hesc
                obtain ⟨x, hx⟩ := jsonParseEscape_of_escape he sbuf d
                rw [hx] at h
                simp only [Option.bind_eq_bind, Option.bind_some, jsonParseConsume_one] at h
                obtain ⟨s, r, rfl, hscan, hend⟩ := jsonParseStringLoop_sound q d fuel m _ st out h
                exact ⟨u ++ s, r, by rw [List.append_assoc], .escape he hscan, hend⟩
      · cases hstop : isStop q c with
        | true =>
            rw [jsonParseStringLoop_stop hc hstop] at h
            cases h
            exact ⟨[], c :: l, by simp, .nil _, .inr ⟨c, l, rfl, hstop, rfl⟩⟩
        | false =>
            rw [jsonParseStringLoop_char hc hstop] at h
            obtain ⟨s, r, rfl, hscan, hend⟩ := jsonParseStringLoop_sound q d fuel l _ st out h
            exact ⟨c :: s, r, by simp, .char hc hstop hscan, hend⟩

/-- A quoted string, from its opening quote. -/
lemma jsonParseString_quoted {l s r : List UInt8} (h : QuotedBody true l s r) (d : ℕ) :
    jsonParseString (.at (0x22 :: l) d) = some (.at r d, some (s, false)) := by
  have hstart : TokenStart (0x22 :: l) := tokenStart_cons (by decide) (by decide) l
  have hloop : jsonParseStringLoop true (l.length + 1) (.at l d) [] = some (.at r d, some s) := by
    cases h with
    | close h =>
        obtain ⟨fuel, -, hrun⟩ := jsonParseStringLoop_scan (q := true) h d (l.length + 1) []
          (by omega)
        rw [hrun, jsonParseStringLoop_stop (by decide) (by decide)]
        rfl
    | cut _ h =>
        obtain ⟨fuel, -, hrun⟩ := jsonParseStringLoop_scan (q := true) h d (l.length + 1) []
          (by omega)
        rw [hrun, jsonParseStringLoop_nil]
        rfl
  rw [jsonParseString, jsonSkipSpaces_token hstart]
  simp [hloop]

/-- An unquoted token. -/
lemma jsonParseString_unquoted {l s r : List UInt8} (hl : TokenStart l)
    (hq : l.head? ≠ some 0x22) (h : Unquoted l s r) (d : ℕ) :
    jsonParseString (.at l d) = some (.at r d, some (s, true)) := by
  obtain ⟨c, k, rfl⟩ := List.exists_cons_of_ne_nil hl.ne_nil
  have hc : c ≠ 0x22 := by simpa using hq
  have hloop : jsonParseStringLoop false ((c :: k).length + 1) (.at (c :: k) d) []
      = some (.at r d, some s) := by
    obtain ⟨fuel, -, hrun⟩ := jsonParseStringLoop_scan (q := false) h.1 d ((c :: k).length + 1) []
      (by omega)
    rw [hrun, List.nil_append]
    cases r with
    | nil => rw [jsonParseStringLoop_nil]
    | cons e r =>
        have he : strchr jsnDelims e = true := h.2 e (by simp)
        have hbs : e ≠ 0x5C := by
          rintro rfl
          exact absurd he (by decide)
        rw [jsonParseStringLoop_stop (q := false) hbs he]
        rfl
  rw [List.length_cons] at hloop
  rw [jsonParseString, jsonSkipSpaces_token hl]
  simp [hc, hloop]

/-- **Strings.** What is accepted at a token is a quoted string, cut short perhaps, or an
unquoted token. -/
theorem jsonParseString_sound {l s : List UInt8} {isconst : Bool} {d : ℕ} {st : JsonParser}
    (hl : TokenStart l) (h : jsonParseString (.at l d) = some (st, some (s, isconst))) :
    ∃ r, st = .at r d ∧
      ((isconst = false ∧ ∃ k, l = 0x22 :: k ∧ QuotedBody true k s r) ∨
        (isconst = true ∧ l.head? ≠ some 0x22 ∧ Unquoted l s r)) := by
  obtain ⟨c, k, rfl⟩ := List.exists_cons_of_ne_nil hl.ne_nil
  rw [jsonParseString, jsonSkipSpaces_token hl] at h
  by_cases hc : c = 0x22
  · subst hc
    cases hloop : jsonParseStringLoop true (k.length + 1) (.at k d) [] with
    | none => simp [hloop] at h
    | some res =>
        obtain ⟨st', res⟩ := res
        cases res with
        | none => simp [hloop] at h
        | some out =>
            simp [hloop] at h
            obtain ⟨rfl, rfl, rfl⟩ := h
            obtain ⟨s, r, rfl, hscan, hend⟩ := jsonParseStringLoop_sound true d _ _ _ _ _ hloop
            rcases hend with ⟨rfl, rfl⟩ | ⟨e, m, rfl, he, rfl⟩
            · exact ⟨[], rfl, .inl ⟨rfl, k, rfl, .cut rfl hscan⟩⟩
            · obtain rfl : e = 0x22 := by simpa [isStop, isQuote] using he
              exact ⟨m, rfl, .inl ⟨rfl, k, rfl, .close hscan⟩⟩
  · cases hloop : jsonParseStringLoop false (k.length + 1 + 1) (.at (c :: k) d) [] with
    | none => simp [hc, hloop] at h
    | some res =>
        obtain ⟨st', res⟩ := res
        cases res with
        | none => simp [hc, hloop] at h
        | some out =>
            simp [hc, hloop] at h
            obtain ⟨rfl, rfl, rfl⟩ := h
            obtain ⟨s, r, rfl, hscan, hend⟩ := jsonParseStringLoop_sound false d _ _ _ _ _ hloop
            rcases hend with ⟨rfl, rfl⟩ | ⟨e, m, rfl, he, rfl⟩
            · exact ⟨[], rfl, .inr ⟨rfl, by simpa using hc, hscan, by simp [Stop]⟩⟩
            · exact ⟨e :: m, rfl, .inr ⟨rfl, by simpa using hc, hscan, by simpa [Stop, isStop] using he⟩⟩

end LibCmutils
