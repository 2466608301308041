import LibCmutils.Json.Scanner

/-!
The recursive descent of the JSON parser (`src/nanojson.c`) accepts the grammar.

* `jsonParseClose`, `jsonParseNext`, `jsonParseName`, `jsonParseValue`: one lemma for what
  they do on a text of the grammar, and one for what they accept.
* `Derives.descends`: a text of the grammar is accepted, with as much fuel as
  `CMUTIL_JsonParseInternal` has.
* `descentSound`: what is accepted is a text of the grammar.
* `jsonParse_eq_some_iff`: `CMUTIL_JsonParse` accepts exactly the values of the grammar,
  those included that the end of the text cuts short, whatever comes after them.
  `Derives.unique`: a text has one value at most.
-/

namespace LibCmutils

open JsonParser

/-! ### The pieces of a round -/

/-- Bytes that are neither white space nor a slash. -/
lemma TokenStart.of_cons {l r : List UInt8} {c : UInt8} (h : TokenStart (c :: l)) (hs : c ≠ 0x2F) :
    TokenStart (c :: r) :=
  tokenStart_cons h.1 hs r

lemma jsonParseClose_close {c : UInt8} {l r : List UInt8} (hb : Blank l (c :: r))
    (hc : TokenStart (c :: r)) (d : ℕ) : jsonParseClose c (.at l d) = some (.at r d, some true) := by
  simp [jsonParseClose, jsonSkipSpaces_blank hb hc]

lemma jsonParseClose_other {c : UInt8} {l r : List UInt8} (hb : Blank l r) (hr : TokenStart r)
    (hne : r.head? ≠ some c) (d : ℕ) :
    jsonParseClose c (.at l d) = some (.at r d, some false) := by
  obtain ⟨e, r, rfl⟩ := List.exists_cons_of_ne_nil hr.ne_nil
  have he : e ≠ c := by simpa using hne
  simp [jsonParseClose, jsonSkipSpaces_blank hb hr, he]

lemma jsonParseClose_sound {c : UInt8} {l : List UInt8} {d : ℕ} {st : JsonParser} {b : Bool}
    (h : jsonParseClose c (.at l d) = some (st, some b)) :
    (b = true ∧ ∃ r, st = .at r d ∧ Blank l (c :: r)) ∨
      (b = false ∧ ∃ r, st = .at r d ∧ Blank l r ∧ TokenStart r ∧ r.head? ≠ some c) := by
  obtain ⟨r, hskip, hr⟩ := jsonSkipSpaces_spec l d
  rw [jsonParseClose, hskip] at h
  cases r with
  | nil => simp at h
  | cons e r =>
      obtain ⟨hb, htok⟩ := hr (by simp)
      by_cases he : e = c
      · subst he
        simp at h
        exact .inl ⟨h.2, r, h.1.symm, hb⟩
      · simp [he] at h
        exact .inr ⟨h.2, e :: r, h.1.symm, hb, htok, by simpa using he⟩

lemma jsonParseNext_close {c : UInt8} {l r : List UInt8} (hb : Blank l (c :: r))
    (hc : TokenStart (c :: r)) (d : ℕ) : jsonParseNext c (.at l d) = some (.at r d, some true) := by
  simp [jsonParseNext, jsonSkipSpaces_blank hb hc]

lemma jsonParseNext_comma {c : UInt8} (hc : c ≠ 0x2C) {l r : List UInt8} (hb : Blank l (0x2C :: r))
    (d : ℕ) : jsonParseNext c (.at l d) = some (.at r d, some false) := by
  have htok : TokenStart (0x2C :: r) := tokenStart_cons (by decide) (by decide) r
  simp [jsonParseNext, jsonSkipSpaces_blank hb htok, hc.symm]

lemma jsonParseNext_sound {c : UInt8} {l : List UInt8} {d : ℕ} {st : JsonParser} {b : Bool}
    (h : jsonParseNext c (.at l d) = some (st, some b)) :
    ∃ r, st = .at r d ∧ (b = true ∧ Blank l (c :: r) ∨ b = false ∧ Blank l (0x2C :: r)) := by
  obtain ⟨r, hskip, hr⟩ := jsonSkipSpaces_spec l d
  rw [jsonParseNext, hskip] at h
  cases r with
  | nil => simp at h
  | cons e r =>
      obtain ⟨hb, -⟩ := hr (by simp)
      by_cases he : e = c
      · subst he
        simp at h
        exact ⟨r, h.1.symm, .inl ⟨h.2, hb⟩⟩
      · by_cases hcomma : e = 0x2C
        · subst hcomma
          simp [he] at h
          exact ⟨r, h.1.symm, .inr ⟨h.2, hb⟩⟩
        · simp [he, hcomma] at h

lemma NameToken.tokenStart {cut : Bool} {l s r : List UInt8} (h : NameToken cut l s r) :
    TokenStart l := by
  cases h with
  | quoted => exact tokenStart_cons (by decide) (by decide) _
  | unquoted hl => exact hl

lemma jsonParseString_name {l s r : List UInt8} (h : NameToken true l s r) (d : ℕ) :
    ∃ isconst, jsonParseString (.at l d) = some (.at r d, some (s, isconst)) := by
  cases h with
  | quoted h => exact ⟨_, jsonParseString_quoted h d⟩
  | unquoted hl hq h => exact ⟨_, jsonParseString_unquoted hl hq h d⟩

lemma jsonParseName_of_token {l s n o : List UInt8} (h : NameToken true l s n)
    (hb : Blank n (0x3A :: o)) (d : ℕ) :
    jsonParseName (.at l d) = some (.at o d, some (CString.ofBytes s)) := by
  have htok : TokenStart (0x3A :: o) := tokenStart_cons (by decide) (by decide) o
  obtain ⟨isconst, hstring⟩ := jsonParseString_name h d
  simp [jsonParseName, hstring, jsonSkipSpaces_blank hb htok]

lemma jsonParseName_sound {l : List UInt8} (hl : TokenStart l) {d : ℕ} {st : JsonParser}
    {name : CString} (h : jsonParseName (.at l d) = some (st, some name)) :
    ∃ s n o, st = .at o d ∧ name = CString.ofBytes s ∧ NameToken true l s n ∧
      Blank n (0x3A :: o) := by
  cases hstring : jsonParseString (.at l d) with
  | none => simp [jsonParseName, hstring] at h
  | some res =>
      obtain ⟨st', res⟩ := res
      cases res with
      | none => simp [jsonParseName, hstring] at h
      | some res =>
          obtain ⟨s, isconst⟩ := res
          obtain ⟨n, rfl, hname⟩ := jsonParseString_sound hl hstring
          have htoken : NameToken true l s n := by
            rcases hname with ⟨-, k, rfl, hq⟩ | ⟨-, hq, hu⟩
            · exact .quoted hq
            · exact .unquoted hl hq hu
          obtain ⟨r, hskip, hr⟩ := jsonSkipSpaces_spec n d
          rw [jsonParseName, hstring, Option.bind_eq_bind, Option.bind_some] at h
          simp only [hskip, Option.bind_eq_bind, Option.bind_some] at h
          cases r with
          | nil => simp at h
          | cons e o =>
              obtain ⟨hb, -⟩ := hr (by simp)
              by_cases he : e = 0x3A
              · subst he
                simp at h
                exact ⟨s, n, o, h.1.symm, h.2.symm, htoken, hb⟩
              · simp [he] at h

lemma jsonParseValue_sound {cd : CDouble} {l : List UInt8} (hl : TokenStart l)
    (ho : l.head? ≠ some 0x7B) (ha : l.head? ≠ some 0x5B) {d n : ℕ} (hn : n < 512)
    {st : JsonParser} {v : Json} (h : jsonParseValue cd (.at l d) = some (st, some v)) :
    ∃ r, st = .at r d ∧ Derives cd true (.value n l v r) := by
  rw [jsonParseValue, jsonSkipSpaces_token hl, Option.bind_eq_bind, Option.bind_some] at h
  cases hstring : jsonParseString (.at l d) with
  | none => simp [hstring] at h
  | some res =>
      obtain ⟨st', res⟩ := res
      cases res with
      | none => simp [hstring] at h
      | some res =>
          obtain ⟨s, isconst⟩ := res
          obtain ⟨r, rfl, hname⟩ := jsonParseString_sound hl hstring
          rcases hname with ⟨rfl, k, rfl, hq⟩ | ⟨rfl, hq, hu⟩
          · simp [hstring] at h
            obtain ⟨rfl, rfl⟩ := h
            exact ⟨r, rfl, .string hn hq⟩
          · simp [hstring] at h
            obtain ⟨rfl, hconst⟩ := h
            exact ⟨r, rfl, .literal hn hl hq ho ha hu hconst⟩

/-! ### What is accepted -/

variable {cd : CDouble}

lemma jsonParseObject_brace (fuel : ℕ) (l : List UInt8) (d : ℕ) :
    jsonParseObject cd (fuel + 1) (.at (0x7B :: l) d) = jsonParseMembers cd fuel (.at l d) [] := by
  simp [jsonParseObject]

lemma jsonParseArray_bracket (fuel : ℕ) (l : List UInt8) (d : ℕ) :
    jsonParseArray cd (fuel + 1) (.at (0x5B :: l) d) = jsonParseItems cd fuel (.at l d) [] := by
  simp [jsonParseArray]

/-- The choice that `CMUTIL_JsonParseBase` makes by the first byte. -/
def jsonParseChoice (cd : CDouble) (fuel : ℕ) (c : UInt8) (pctx : JsonParser) :
    Option (JsonParser × Option Json) :=
  if c = 0x7B then jsonParseObject cd fuel pctx
  else if c = 0x5B then jsonParseArray cd fuel pctx
  else jsonParseValue cd pctx

/-- `CMUTIL_JsonParseBase` at a token. -/
lemma jsonParseBase_token {l k : List UInt8} {c : UInt8} {d : ℕ} (hd : d < 512)
    (hb : Blank l (c :: k)) (hc : TokenStart (c :: k)) (fuel : ℕ) :
    jsonParseBase cd (fuel + 1) (.at l d) = (jsonParseChoice cd fuel c (.at (c :: k) (d + 1))).map
      fun r => ({ r.1 with depth := r.1.depth - 1 }, r.2) := by
  have hskip : jsonSkipSpaces { JsonParser.at l d with depth := (JsonParser.at l d).depth + 1 }
      = some (.at (c :: k) (d + 1), true) := jsonSkipSpaces_blank hb hc (d + 1)
  have hdepth : ¬512 ≤ (JsonParser.at l d).depth := not_le.mpr hd
  rw [jsonParseBase, if_neg hdepth, hskip]
  simp only [Option.bind_eq_bind, Option.bind_some, if_true, deref_zero_cons]
  rw [Option.map_eq_bind]
  rfl

/-- What `CMUTIL_JsonParseBase` accepts begins with a token. -/
lemma jsonParseBase_inv {fuel : ℕ} {l : List UInt8} {d : ℕ} {st : JsonParser} {v : Json}
    (h : jsonParseBase cd (fuel + 1) (.at l d) = some (st, some v)) :
    d < 512 ∧ ∃ c k st', Blank l (c :: k) ∧ TokenStart (c :: k) ∧
      jsonParseChoice cd fuel c (.at (c :: k) (d + 1)) = some (st', some v) ∧
      st = { st' with depth := st'.depth - 1 } := by
  by_cases hd : 512 ≤ d
  · have hdepth : 512 ≤ (JsonParser.at l d).depth := hd
    rw [jsonParseBase, if_pos hdepth] at h
    cases h
  · obtain ⟨r, hskip, hr⟩ := jsonSkipSpaces_spec l (d + 1)
    cases r with
    | nil =>
        have hskip' : jsonSkipSpaces
            { JsonParser.at l d with depth := (JsonParser.at l d).depth + 1 }
            = some (.at [] (d + 1), false) := hskip
        have hdepth : ¬512 ≤ (JsonParser.at l d).depth := hd
        rw [jsonParseBase, if_neg hdepth, hskip'] at h
        cases h
    | cons c k =>
        obtain ⟨hb, htok⟩ := hr (by simp)
        rw [jsonParseBase_token (not_le.mp hd) hb htok] at h
        obtain ⟨⟨st', res⟩, hchoice, heq⟩ := Option.map_eq_some_iff.mp h
        obtain ⟨rfl, rfl⟩ := Prod.mk.inj heq
        exact ⟨not_le.mp hd, c, k, st', hb, htok, hchoice, rfl⟩

/-- The text, and what the descent has accepted of it with some fuel. -/
structure DescentSound (cd : CDouble) (fuel : ℕ) : Prop where
  base : ∀ {l d st v}, jsonParseBase cd fuel (.at l d) = some (st, some v) →
    ∃ m r, st = .at r d ∧ Blank l m ∧ Derives cd true (.value d m v r)
  members : ∀ {l d es st v}, jsonParseMembers cd fuel (.at l d) es = some (st, some v) →
    ∃ es' r, st = .at r d ∧ v = .object es' ∧ Derives cd true (.members d l es es' r)
  items : ∀ {l d xs st v}, jsonParseItems cd fuel (.at l d) xs = some (st, some v) →
    ∃ xs' r, st = .at r d ∧ v = .array xs' ∧ Derives cd true (.items d l xs xs' r)

lemma jsonParseBase_sound {fuel : ℕ} (ih : ∀ n ≤ fuel, DescentSound cd n) {l : List UInt8} {d : ℕ}
    {st : JsonParser} {v : Json} (h : jsonParseBase cd (fuel + 1) (.at l d) = some (st, some v)) :
    ∃ m r, st = .at r d ∧ Blank l m ∧ Derives cd true (.value d m v r) := by
  obtain ⟨hd, c, k, st', hb, htok, hchoice, rfl⟩ := jsonParseBase_inv h
  rw [jsonParseChoice] at hchoice
  split_ifs at hchoice with hobj harr
  · subst hobj
    cases fuel with
    | zero => cases hchoice
    | succ fuel =>
        rw [jsonParseObject_brace] at hchoice
        obtain ⟨es, r, rfl, rfl, hes⟩ := (ih fuel (by omega)).members hchoice
        exact ⟨_, r, rfl, hb, .object hd hes⟩
  · subst harr
    cases fuel with
    | zero => cases hchoice
    | succ fuel =>
        rw [jsonParseArray_bracket] at hchoice
        obtain ⟨xs, r, rfl, rfl, hxs⟩ := (ih fuel (by omega)).items hchoice
        exact ⟨_, r, rfl, hb, .array hd hxs⟩
  · obtain ⟨r, rfl, hv⟩ := jsonParseValue_sound htok (by simpa using hobj) (by simpa using harr) hd
      hchoice
    exact ⟨_, r, rfl, hb, hv⟩

lemma jsonParseMembers_sound {fuel : ℕ} (ih : DescentSound cd fuel) {l : List UInt8} {d : ℕ}
    {es : List (CString × Json)} {st : JsonParser} {v : Json}
    (h : jsonParseMembers cd (fuel + 1) (.at l d) es = some (st, some v)) :
    ∃ es' r, st = .at r d ∧ v = .object es' ∧ Derives cd true (.members d l es es' r) := by
  rw [jsonParseMembers] at h
  split_ifs at h with hpos
  · obtain ⟨⟨st₁, close⟩, hclose, h⟩ := Option.bind_eq_some_iff.mp h
    rcases close with _ | _ | _
    · cases h
    · obtain ⟨⟨st₂, name⟩, hname, h⟩ := Option.bind_eq_some_iff.mp h
      obtain ⟨hb, -⟩ | ⟨-, m, rfl, hb, htok, -⟩ := jsonParseClose_sound hclose
      · cases hb
      rcases name with _ | name
      · cases h
      obtain ⟨s, n, o, rfl, rfl, htoken, hcolon⟩ := jsonParseName_sound htok hname
      obtain ⟨⟨st₃, value⟩, hvalue, h⟩ := Option.bind_eq_some_iff.mp h
      rcases value with _ | value
      · cases h
      obtain ⟨p, q, rfl, hp, hv⟩ := ih.base hvalue
      obtain ⟨⟨st₄, next⟩, hnext, h⟩ := Option.bind_eq_some_iff.mp h
      rcases next with _ | _ | _
      · cases h
      · obtain ⟨k, rfl, ⟨hf, -⟩ | ⟨-, hcomma⟩⟩ := jsonParseNext_sound hnext
        · cases hf
        obtain ⟨es', r, rfl, rfl, hes⟩ := ih.members h
        exact ⟨es', r, rfl, rfl, .membersMore hb htoken hcolon hp hv hcomma hes⟩
      · obtain ⟨k, rfl, ⟨-, hclose⟩ | ⟨hf, -⟩⟩ := jsonParseNext_sound hnext
        · cases h
          exact ⟨_, k, rfl, rfl, .membersLast hb htoken hcolon hp hv hclose⟩
        · cases hf
    · cases h
      obtain ⟨-, r, rfl, hb⟩ | ⟨hf, -⟩ := jsonParseClose_sound hclose
      · exact ⟨es, r, rfl, rfl, .membersClose hb⟩
      · cases hf
  · cases h
    obtain rfl : l = [] := by simpa using hpos
    exact ⟨es, [], rfl, rfl, .membersCut rfl⟩

lemma jsonParseItems_sound {fuel : ℕ} (ih : DescentSound cd fuel) {l : List UInt8} {d : ℕ}
    {xs : List Json} {st : JsonParser} {v : Json}
    (h : jsonParseItems cd (fuel + 1) (.at l d) xs = some (st, some v)) :
    ∃ xs' r, st = .at r d ∧ v = .array xs' ∧ Derives cd true (.items d l xs xs' r) := by
  rw [jsonParseItems] at h
  split_ifs at h with hpos
  · obtain ⟨⟨st₁, close⟩, hclose, h⟩ := Option.bind_eq_some_iff.mp h
    rcases close with _ | _ | _
    · cases h
    · obtain ⟨⟨st₂, item⟩, hitem, h⟩ := Option.bind_eq_some_iff.mp h
      obtain ⟨hb, -⟩ | ⟨-, m, rfl, hb, htok, -⟩ := jsonParseClose_sound hclose
      · cases hb
      rcases item with _ | item
      · cases h
      obtain ⟨p, q, rfl, hp, hv⟩ := ih.base hitem
      obtain ⟨⟨st₃, next⟩, hnext, h⟩ := Option.bind_eq_some_iff.mp h
      rcases next with _ | _ | _
      · cases h
      · obtain ⟨k, rfl, ⟨hf, -⟩ | ⟨-, hcomma⟩⟩ := jsonParseNext_sound hnext
        · cases hf
        obtain ⟨xs', r, rfl, rfl, hxs⟩ := ih.items h
        exact ⟨xs', r, rfl, rfl, .itemsMore (hb.trans hp) hv hcomma hxs⟩
      · obtain ⟨k, rfl, ⟨-, hclose⟩ | ⟨hf, -⟩⟩ := jsonParseNext_sound hnext
        · cases h
          exact ⟨_, k, rfl, rfl, .itemsLast (hb.trans hp) hv hclose⟩
        · cases hf
    · cases h
      obtain ⟨-, r, rfl, hb⟩ | ⟨hf, -⟩ := jsonParseClose_sound hclose
      · exact ⟨xs, r, rfl, rfl, .itemsClose hb⟩
      · cases hf
  · cases h
    obtain rfl : l = [] := by simpa using hpos
    exact ⟨xs, [], rfl, rfl, .itemsCut rfl⟩

/-- **Soundness.** The descent accepts texts of the grammar only. -/
theorem descentSound (cd : CDouble) (fuel : ℕ) : DescentSound cd fuel := by
  induction fuel using Nat.strong_induction_on with
  | _ fuel ih =>
    cases fuel with
    | zero =>
        refine ⟨fun h => ?_, fun h => ?_, fun h => ?_⟩
        · cases h
        · cases h
        · cases h
    | succ fuel =>
        have hfuel := ih fuel (by omega)
        exact ⟨jsonParseBase_sound fun n hn => ih n (by omega), jsonParseMembers_sound hfuel,
          jsonParseItems_sound hfuel⟩

/-! ### What the grammar says is accepted -/

lemma jsonParseConst_nil (cd : CDouble) : jsonParseConst cd [] = none := rfl

/-- An unquoted token that begins with a delimiter is empty. -/
lemma Unquoted.of_delim {c : UInt8} {l s r : List UInt8} (h : Unquoted (c :: l) s r)
    (hc : strchr jsnDelims c = true) : s = [] ∧ r = c :: l := by
  obtain ⟨h, -⟩ := h
  cases h with
  | nil => exact ⟨rfl, rfl⟩
  | char _ hstop => rw [hc] at hstop; cases hstop
  | escape => exact absurd hc (by decide)

/-- A value does not begin with a closing bracket. -/
lemma Derives.value_head {cut : Bool} {d : ℕ} {l r : List UInt8} {v : Json}
    (h : Derives cd cut (.value d l v r)) : TokenStart l ∧ l.head? ≠ some 0x5D := by
  cases h with
  | string => exact ⟨tokenStart_cons (by decide) (by decide) _, by simp⟩
  | literal _ hl _ _ _ hu hconst =>
      refine ⟨hl, fun hhead => ?_⟩
      obtain ⟨k, rfl⟩ := List.head?_eq_some_iff.mp hhead
      obtain ⟨rfl, -⟩ := hu.of_delim (by decide)
      rw [jsonParseConst_nil] at hconst
      cases hconst
  | object => exact ⟨tokenStart_cons (by decide) (by decide) _, by simp⟩
  | array => exact ⟨tokenStart_cons (by decide) (by decide) _, by simp⟩

/-- A name does not begin with a closing brace. -/
lemma NameToken.head_ne {cut : Bool} {l s n o : List UInt8} (h : NameToken cut l s n)
    (hb : Blank n (0x3A :: o)) : l.head? ≠ some 0x7D := by
  intro hhead
  obtain ⟨k, rfl⟩ := List.head?_eq_some_iff.mp hhead
  cases h with
  | unquoted _ _ hu =>
      obtain ⟨-, rfl⟩ := hu.of_delim (by decide)
      cases hb with
      | space hc => exact absurd hc (by decide)

lemma QuotedBody.length_le {cut : Bool} {l s r : List UInt8} (h : QuotedBody cut l s r) :
    r.length ≤ l.length := by
  cases h with
  | close h =>
      have := h.length_le
      rw [List.length_cons] at this
      omega
  | cut => simp

lemma NameToken.length_le {cut : Bool} {l s r : List UInt8} (h : NameToken cut l s r) :
    r.length ≤ l.length := by
  cases h with
  | quoted h => exact h.length_le.trans (by simp)
  | unquoted _ _ h => exact h.1.length_le

/-- What the parser does with a text of the grammar. -/
def Descends (cd : CDouble) : JsonJudgment → Prop
  | .value d m v r => r.length < m.length ∧ ∀ l, Blank l m → ∀ fuel, 3 * m.length + 1 ≤ fuel →
      jsonParseBase cd fuel (.at l d) = some (.at r d, some v)
  | .members d l es es' r => r.length ≤ l.length ∧ ∀ fuel, 3 * l.length + 2 ≤ fuel →
      jsonParseMembers cd fuel (.at l d) es = some (.at r d, some (.object es'))
  | .items d l xs xs' r => r.length ≤ l.length ∧ ∀ fuel, 3 * l.length + 2 ≤ fuel →
      jsonParseItems cd fuel (.at l d) xs = some (.at r d, some (.array xs'))

lemma descends_string {d : ℕ} {l s r : List UInt8} (hd : d < 512) (h : QuotedBody true l s r) :
    Descends cd (.value d (0x22 :: l) (jsonValueSetString (CString.ofBytes s)) r) := by
  have hlen := h.length_le
  have htok : TokenStart (0x22 :: l) := tokenStart_cons (by decide) (by decide) l
  refine ⟨by rw [List.length_cons]; omega, fun k hb fuel hfuel => ?_⟩
  obtain ⟨fuel, rfl⟩ : ∃ n, fuel = n + 1 := ⟨fuel - 1, by omega⟩
  have hvalue : jsonParseValue cd (.at (0x22 :: l) (d + 1))
      = some (.at r (d + 1), some (jsonValueSetString (CString.ofBytes s))) := by
    rw [jsonParseValue, jsonSkipSpaces_token htok]
    simp [jsonParseString_quoted h]
  rw [jsonParseBase_token hd hb htok, jsonParseChoice, if_neg (by decide), if_neg (by decide),
    hvalue]
  rfl

lemma descends_literal {d : ℕ} {l s r : List UInt8} {v : Json} (hd : d < 512) (hl : TokenStart l)
    (hq : l.head? ≠ some 0x22) (ho : l.head? ≠ some 0x7B) (ha : l.head? ≠ some 0x5B)
    (h : Unquoted l s r) (hconst : jsonParseConst cd s = some v) :
    Descends cd (.value d l v r) := by
  obtain ⟨c, k, rfl⟩ := List.exists_cons_of_ne_nil hl.ne_nil
  have hlt : r.length < (c :: k).length := by
    obtain ⟨h, -⟩ := h
    cases h with
    | nil => rw [jsonParseConst_nil] at hconst; cases hconst
    | char _ _ h => exact Nat.lt_succ_of_le h.length_le
    | escape he h =>
        have := he.length_lt
        have := h.length_le
        rw [List.length_cons]
        omega
  refine ⟨hlt, fun k' hb fuel hfuel => ?_⟩
  obtain ⟨fuel, rfl⟩ : ∃ n, fuel = n + 1 := ⟨fuel - 1, by omega⟩
  have hvalue : jsonParseValue cd (.at (c :: k) (d + 1)) = some (.at r (d + 1), some v) := by
    rw [jsonParseValue, jsonSkipSpaces_token hl]
    simp [jsonParseString_unquoted hl hq h, hconst]
  rw [jsonParseBase_token hd hb hl, jsonParseChoice, if_neg (by simpa using ho),
    if_neg (by simpa using ha), hvalue]
  rfl

lemma descends_object {d : ℕ} {l : List UInt8} {es : List (CString × Json)} {r : List UInt8}
    (hd : d < 512) (h : Descends cd (.members (d + 1) l [] es r)) :
    Descends cd (.value d (0x7B :: l) (.object es) r) := by
  obtain ⟨hlen, hrun⟩ := h
  have htok : TokenStart (0x7B :: l) := tokenStart_cons (by decide) (by decide) l
  refine ⟨by rw [List.length_cons]; omega, fun k hb fuel hfuel => ?_⟩
  rw [List.length_cons] at hfuel
  obtain ⟨fuel, rfl⟩ : ∃ n, fuel = n + 1 + 1 := ⟨fuel - 2, by omega⟩
  rw [jsonParseBase_token hd hb htok, jsonParseChoice, if_pos rfl, jsonParseObject_brace,
    hrun fuel (by omega)]
  rfl

lemma descends_array {d : ℕ} {l : List UInt8} {xs : List Json} {r : List UInt8}
    (hd : d < 512) (h : Descends cd (.items (d + 1) l [] xs r)) :
    Descends cd (.value d (0x5B :: l) (.array xs) r) := by
  obtain ⟨hlen, hrun⟩ := h
  have htok : TokenStart (0x5B :: l) := tokenStart_cons (by decide) (by decide) l
  refine ⟨by rw [List.length_cons]; omega, fun k hb fuel hfuel => ?_⟩
  rw [List.length_cons] at hfuel
  obtain ⟨fuel, rfl⟩ : ∃ n, fuel = n + 1 + 1 := ⟨fuel - 2, by omega⟩
  rw [jsonParseBase_token hd hb htok, jsonParseChoice, if_neg (by decide), if_pos rfl,
    jsonParseArray_bracket, hrun fuel (by omega)]
  rfl

/-- The members loop after a value, by what follows the value. -/
def jsonMembersEnd (cd : CDouble) (fuel : ℕ) (es : List (CString × Json))
    (r : JsonParser × Option Bool) : Option (JsonParser × Option Json) :=
  match r.2 with
  | none => some (r.1, none)
  | some true => some (r.1, some (.object es))
  | some false => jsonParseMembers cd fuel r.1 es

/-- The items loop after an item, by what follows the item. -/
def jsonItemsEnd (cd : CDouble) (fuel : ℕ) (xs : List Json) (r : JsonParser × Option Bool) :
    Option (JsonParser × Option Json) :=
  match r.2 with
  | none => some (r.1, none)
  | some true => some (r.1, some (.array xs))
  | some false => jsonParseItems cd fuel r.1 xs

/-- The head of a round of the members loop, up to the value. -/
lemma jsonParseMembers_round {l m s n o p q : List UInt8} {v : Json} {d : ℕ} (hb : Blank l m)
    (hname : NameToken true m s n) (hcolon : Blank n (0x3A :: o)) (hp : Blank o p)
    (hv : Descends cd (.value d p v q)) {fuel : ℕ} (hfuel : 3 * p.length + 1 ≤ fuel)
    (es : List (CString × Json)) :
    jsonParseMembers cd (fuel + 1) (.at l d) es = (jsonParseNext 0x7D (.at q d)).bind
      (jsonMembersEnd cd fuel (jsonObjectPut es (CString.ofBytes s) v)) := by
  have hclose : jsonParseClose 0x7D (.at l d) = some (.at m d, some false) :=
    jsonParseClose_other hb hname.tokenStart (hname.head_ne hcolon) d
  have hpos : 0 < (JsonParser.at l d).remain := by
    have := hname.tokenStart.ne_nil
    have := hb.length_le
    have := List.length_pos_iff.mpr hname.tokenStart.ne_nil
    rw [at_remain]
    omega
  rw [jsonParseMembers, if_pos hpos, hclose]
  simp only [Option.bind_eq_bind, Option.bind_some, jsonParseName_of_token hname hcolon,
    hv.2 o hp fuel hfuel]
  rfl

/-- The head of a round of the items loop, up to the item. -/
lemma jsonParseItems_round {l p q : List UInt8} {v : Json} {d : ℕ} (hp : Blank l p)
    (htok : TokenStart p) (hhead : p.head? ≠ some 0x5D) (hv : Descends cd (.value d p v q))
    {fuel : ℕ} (hfuel : 3 * p.length + 1 ≤ fuel) (xs : List Json) :
    jsonParseItems cd (fuel + 1) (.at l d) xs = (jsonParseNext 0x5D (.at q d)).bind
      (jsonItemsEnd cd fuel (jsonArrayAdd xs v)) := by
  have hclose : jsonParseClose 0x5D (.at l d) = some (.at p d, some false) :=
    jsonParseClose_other hp htok hhead d
  have hpos : 0 < (JsonParser.at l d).remain := by
    have := hp.length_le
    have := List.length_pos_iff.mpr htok.ne_nil
    rw [at_remain]
    omega
  rw [jsonParseItems, if_pos hpos, hclose]
  simp only [Option.bind_eq_bind, Option.bind_some, hv.2 p (.nil p) fuel hfuel]
  rfl

/-- **Completeness.** The descent accepts the texts of the grammar. -/
theorem Derives.descends {j : JsonJudgment} (h : Derives cd true j) : Descends cd j := by
  induction h with
  | string hd hq => exact descends_string hd hq
  | literal hd hl hq ho ha hu hconst => exact descends_literal hd hl hq ho ha hu hconst
  | object hd _ ih => exact descends_object hd ih
  | array hd _ ih => exact descends_array hd ih
  | membersCut =>
      refine ⟨le_rfl, fun fuel hfuel => ?_⟩
      obtain ⟨fuel, rfl⟩ : ∃ n, fuel = n + 1 := ⟨fuel - 1, by omega⟩
      simp [jsonParseMembers]
  | @membersClose d l es r hb =>
      have hlen := hb.length_le
      rw [List.length_cons] at hlen
      have htok : TokenStart (0x7D :: r) := tokenStart_cons (by decide) (by decide) r
      refine ⟨by omega, fun fuel hfuel => ?_⟩
      obtain ⟨fuel, rfl⟩ : ∃ n, fuel = n + 1 := ⟨fuel - 1, by omega⟩
      have hpos : 0 < (JsonParser.at l d).remain := by
        rw [at_remain]
        omega
      rw [jsonParseMembers, if_pos hpos, jsonParseClose_close hb htok]
      rfl
  | @membersLast d l m s n o p v q es r hb hname hcolon hp _ hclose ih =>
      have hlen := hb.length_le.trans' (hname.length_le.trans' hcolon.length_le)
      have hlen' := hclose.length_le
      rw [List.length_cons] at hlen hlen'
      have hplen := hp.length_le
      have hqlen := ih.1
      have htok : TokenStart (0x7D :: r) := tokenStart_cons (by decide) (by decide) r
      refine ⟨by omega, fun fuel hfuel => ?_⟩
      obtain ⟨fuel, rfl⟩ : ∃ n, fuel = n + 1 := ⟨fuel - 1, by omega⟩
      rw [jsonParseMembers_round hb hname hcolon hp ih (by omega), jsonParseNext_close hclose htok]
      rfl
  | @membersMore d l m s n o p v q k es es' r hb hname hcolon hp _ hcomma _ ih ihmore =>
      have hlen := hb.length_le.trans' (hname.length_le.trans' hcolon.length_le)
      have hlen' := hcomma.length_le
      rw [List.length_cons] at hlen hlen'
      have hplen := hp.length_le
      have hqlen := ih.1
      have hrlen := ihmore.1
      refine ⟨by omega, fun fuel hfuel => ?_⟩
      obtain ⟨fuel, rfl⟩ : ∃ n, fuel = n + 1 := ⟨fuel - 1, by omega⟩
      rw [jsonParseMembers_round hb hname hcolon hp ih (by omega),
        jsonParseNext_comma (by decide) hcomma]
      exact ihmore.2 fuel (by omega)
  | itemsCut =>
      refine ⟨le_rfl, fun fuel hfuel => ?_⟩
      obtain ⟨fuel, rfl⟩ : ∃ n, fuel = n + 1 := ⟨fuel - 1, by omega⟩
      simp [jsonParseItems]
  | @itemsClose d l xs r hb =>
      have hlen := hb.length_le
      rw [List.length_cons] at hlen
      have htok : TokenStart (0x5D :: r) := tokenStart_cons (by decide) (by decide) r
      refine ⟨by omega, fun fuel hfuel => ?_⟩
      obtain ⟨fuel, rfl⟩ : ∃ n, fuel = n + 1 := ⟨fuel - 1, by omega⟩
      have hpos : 0 < (JsonParser.at l d).remain := by
        rw [at_remain]
        omega
      rw [jsonParseItems, if_pos hpos, jsonParseClose_close hb htok]
      rfl
  | @itemsLast d l p v q xs r hp hv hclose ih =>
      have hplen := hp.length_le
      have hlen := hclose.length_le
      rw [List.length_cons] at hlen
      have hqlen := ih.1
      obtain ⟨htok, hhead⟩ := hv.value_head
      have hend : TokenStart (0x5D :: r) := tokenStart_cons (by decide) (by decide) r
      refine ⟨by omega, fun fuel hfuel => ?_⟩
      obtain ⟨fuel, rfl⟩ : ∃ n, fuel = n + 1 := ⟨fuel - 1, by omega⟩
      rw [jsonParseItems_round hp htok hhead ih (by omega), jsonParseNext_close hclose hend]
      rfl
  | @itemsMore d l p v q k xs xs' r hp hv hcomma _ ih ihmore =>
      have hplen := hp.length_le
      have hlen := hcomma.length_le
      rw [List.length_cons] at hlen
      have hqlen := ih.1
      have hrlen := ihmore.1
      obtain ⟨htok, hhead⟩ := hv.value_head
      refine ⟨by omega, fun fuel hfuel => ?_⟩
      obtain ⟨fuel, rfl⟩ : ∃ n, fuel = n + 1 := ⟨fuel - 1, by omega⟩
      rw [jsonParseItems_round hp htok hhead ih (by omega), jsonParseNext_comma (by decide) hcomma]
      exact ihmore.2 fuel (by omega)

/-! ### The interface -/

/-- The final state and result of `CMUTIL_JsonParseInternal` on a text of the grammar. -/
lemma jsonParseInternal_of_derives {t m r : List UInt8} {v : Json} (hb : Blank t m)
    (h : Derives cd true (.value 0 m v r)) :
    jsonParseInternal cd t = some (.at r 0, some v) := by
  have hlen := hb.length_le
  exact h.descends.2 t hb _ (by omega)

/-- **Acceptance.** The parser accepts the values of the grammar, cut short perhaps, and
leaves what comes after them unread. -/
theorem jsonParse_eq_some_iff {t : List UInt8} {v : Json} :
    jsonParse cd t = some (some v) ↔
      ∃ m r, Blank t m ∧ Derives cd true (.value 0 m v r) := by
  constructor
  · intro h
    obtain ⟨⟨st, res⟩, hrun, heq⟩ := Option.map_eq_some_iff.mp h
    obtain rfl : res = some v := heq
    obtain ⟨m, r, -, hb, hv⟩ := (descentSound cd _).base hrun
    exact ⟨m, r, hb, hv⟩
  · rintro ⟨m, r, hb, hv⟩
    rw [jsonParse, jsonParseInternal_of_derives hb hv]
    rfl

/-- A text begins with one value at most. -/
lemma Derives.unique {d : ℕ} {m r r' : List UInt8} {v v' : Json}
    (h : Derives cd true (.value d m v r)) (h' : Derives cd true (.value d m v' r')) :
    v = v' ∧ r = r' := by
  have heq := (h.descends.2 m (.nil m) _ le_rfl).symm.trans (h'.descends.2 m (.nil m) _ le_rfl)
  simp only [Option.some.injEq, Prod.mk.injEq] at heq
  exact ⟨heq.2, congrArg JsonParser.curr heq.1⟩

end LibCmutils
