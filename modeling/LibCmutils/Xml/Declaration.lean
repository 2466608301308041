import LibCmutils.Xml.Header

/-!
XML declarations (`src/nanoxml.c`).

* `PseudoAttribute`, `XmlDecl`: a declaration with its white space and quotes. The values
  hold no quote, no space, no markup and no question mark, as version numbers, names of
  encodings, `yes` and `no` do.
* `HeaderHandled`: a header is read as it stands, with the encoding it declares, and makes no
  difference to the tree.
* `HeaderInStep`: the declarations that the loop of the header stays in step with. A round
  takes a token, two bytes, a token and one byte, and skips no space after a value: it sees
  an attribute only behind a gap whose length is a multiple of three, and the `?>` too.
* `xmlHeader_iff`: these are the headers that are handled. A text without a header is not
  parsed at all.
-/

namespace LibCmutils

/-! ### Declarations -/

/-- The names of pseudo-attributes. -/
inductive PseudoName
  | version
  | encoding
  | standalone
  deriving DecidableEq

/-- The letters of a name. -/
def PseudoName.text : PseudoName → List UInt8
  | .version => [0x76, 0x65, 0x72, 0x73, 0x69, 0x6F, 0x6E]
  | .encoding => [0x65, 0x6E, 0x63, 0x6F, 0x64, 0x69, 0x6E, 0x67]
  | .standalone => [0x73, 0x74, 0x61, 0x6E, 0x64, 0x61, 0x6C, 0x6F, 0x6E, 0x65]

/-- A pseudo-attribute, with the white space before it. -/
structure PseudoAttribute where
  gap : List UInt8
  name : PseudoName
  quote : UInt8
  value : List UInt8
  gap_space : ∀ c ∈ gap, xmlIsSpace c = true
  quote_eq : quote = 0x22 ∨ quote = 0x27
  value_ne : value ≠ []
  value_token : ∀ c ∈ value, xmlIsToken c = true ∧ c ≠ 0x3F

/-- A declaration. There is white space behind `xml`. -/
structure XmlDecl where
  attributes : List PseudoAttribute
  trail : List UInt8
  head_gap : ∀ a ∈ attributes.head?, a.gap ≠ []
  nodup : (attributes.map PseudoAttribute.name).Nodup
  trail_space : ∀ c ∈ trail, xmlIsSpace c = true

namespace PseudoAttribute

/-- From the name to the closing quote. -/
def body (a : PseudoAttribute) : List UInt8 :=
  a.name.text ++ [0x3D, a.quote] ++ a.value ++ [a.quote]

def text (a : PseudoAttribute) : List UInt8 := a.gap ++ a.body

lemma zero_notMem_value (a : PseudoAttribute) : (0 : UInt8) ∉ a.value :=
  fun h => absurd (a.value_token 0 h).1 (by decide)

/-- The value as the C string it is read into. -/
def cvalue (a : PseudoAttribute) : CString := ⟨a.value, a.zero_notMem_value⟩

end PseudoAttribute

/-- The text of the attributes, of the white space behind them, and of the end. -/
def declTail (trail : List UInt8) (attributes : List PseudoAttribute) : List UInt8 :=
  attributes.flatMap PseudoAttribute.text ++ trail ++ [0x3F, 0x3E]

/-- The text of a declaration. -/
def XmlDecl.text (h : XmlDecl) : List UInt8 :=
  [0x3C, 0x3F, 0x78, 0x6D, 0x6C] ++ declTail h.trail h.attributes

/-- The encoding that attributes declare. -/
def declaredEncoding (attributes : List PseudoAttribute) : Option CString :=
  (attributes.find? (·.name = .encoding)).map PseudoAttribute.cvalue

/-- The text of a header, which may be missing. -/
def headerText (h : Option XmlDecl) : List UInt8 := (h.map XmlDecl.text).getD []

/-- The encoding of a document with a header. -/
def headerEncoding (h : Option XmlDecl) : CString :=
  ((h.map XmlDecl.attributes).bind declaredEncoding).getD utf8Name

/-- The beginning of an element. -/
def ElementText (b : List UInt8) : Prop := ∃ c p, b = 0x3C :: c :: p ∧ c ≠ 0x3F

/-- A header is consumed as it stands, gives the charset it declares, and when this is
UTF-8 the tree is that of the text behind it. -/
def HeaderHandled (ic : Iconv) (h : Option XmlDecl) (b : List UInt8) : Prop :=
  ∃ encoding, xmlParseHeader (xmlParseInit (headerText h ++ b)) utf8Name
      = .ok (xmlParseInit b, encoding) ∧
    strcasecmpEq encoding (headerEncoding h) = true ∧
    (strcasecmpEq (headerEncoding h) utf8Name = true →
      xmlParseString ic (headerText h ++ b) = xmlParseRoot (xmlParseInit b))

/-- The attributes that the loop of the header stays in step with, the first of them
directly behind the space after `xml` or not. -/
def HeaderInStep (trail : List UInt8) : Bool → List PseudoAttribute → Prop
  | first, [] => if first then trail ≠ [] else trail.length % 3 = 0
  | first, a :: as =>
      if first = true ∨ a.gap.length % 3 = 0 then
        -- the attribute is seen, and an encoding ends the loop
        if a.name = .encoding then a.value.length < 20
        else a.value.length < 64 ∧ HeaderInStep trail false as
      else
        -- the attribute is passed over
        a.value.length < 65 ∧ (a.name = .encoding → strcasecmpEq a.cvalue utf8Name = true) ∧
          HeaderInStep trail false as

/-- The headers that are handled. -/
def HeaderReadable : Option XmlDecl → Prop
  | none => False
  | some h => HeaderInStep h.trail true h.attributes

/-! ### The rounds of the loop -/

set_option maxRecDepth 8000 in
lemma xmlIsToken_of_space : ∀ c : UInt8, xmlIsSpace c = true → xmlIsToken c = false := by
  decide

lemma PseudoName.text_token (n : PseudoName) : ∀ c ∈ n.text, xmlIsToken c = true ∧ c ≠ 0x3F := by
  have hall : n.text.all (fun c => xmlIsToken c && c != 0x3F) = true := by cases n <;> rfl
  intro c hc
  simpa using List.all_eq_true.mp hall c hc

lemma PseudoName.text_cons (n : PseudoName) : ∃ c t, n.text = c :: t ∧ t.length < 63 := by
  cases n <;> exact ⟨_, _, rfl, by decide⟩

lemma PseudoName.text_encoding (n : PseudoName) :
    CString.ofBytes n.text = encodingName ↔ n = .encoding := by
  cases n <;> decide

lemma PseudoAttribute.quote_token (a : PseudoAttribute) : xmlIsToken a.quote = false := by
  rcases a.quote_eq with h | h <;> rw [h] <;> rfl

lemma PseudoAttribute.body_append (a : PseudoAttribute) (rest : List UInt8) :
    a.body ++ rest = a.name.text ++ 0x3D :: a.quote :: (a.value ++ a.quote :: rest) := by
  simp [body]

variable {rest b trail : List UInt8} {e : CString}

/-- Three spaces are one round. -/
lemma xmlHeaderFrom_gap (p : List UInt8) (e : CString) : ∀ g : List UInt8,
    (∀ c ∈ g, xmlIsSpace c = true) →
    ∃ g', xmlHeaderFrom (g ++ p) e = xmlHeaderFrom (g' ++ p) e ∧ g'.length = g.length % 3 ∧
      ∀ c ∈ g', xmlIsSpace c = true
  | [], h => ⟨[], rfl, rfl, h⟩
  | [s], h => ⟨[s], rfl, rfl, h⟩
  | [s, s'], h => ⟨[s, s'], rfl, rfl, h⟩
  | s :: s' :: s'' :: g, h => by
      obtain ⟨g', hg', hlen, hspace⟩ := xmlHeaderFrom_gap p e g fun c hc => h c (by simp [hc])
      have hround : xmlHeaderFrom (s :: s' :: s'' :: (g ++ p)) e = xmlHeaderFrom (g ++ p) e := by
        rw [← List.nil_append (s'' :: (g ++ p)), xmlHeaderFrom_pass
          (xmlIsToken_of_space s (h s (by simp))) (by simp) (xmlIsToken_of_space s'' (h s'' (by simp)))]
        rfl
      refine ⟨g', hround.trans hg', ?_, hspace⟩
      simp only [List.length_cons]
      omega

/-- From the opening quote on, an attribute is passed over. -/
lemma xmlHeaderFrom_quote (a : PseudoAttribute) :
    xmlHeaderFrom (a.quote :: (a.value ++ a.quote :: rest)) e =
      if a.value.length < 65 then xmlHeaderFrom rest e else .error .failed := by
  obtain ⟨c, v, hv⟩ := List.exists_cons_of_ne_nil a.value_ne
  have htoken : ∀ x ∈ v, xmlIsToken x = true :=
    fun x hx => (a.value_token x (by rw [hv]; exact List.mem_cons_of_mem c hx)).1
  have hlen : (c :: v).length < 65 ↔ v.length < 64 := by rw [List.length_cons]; omega
  rw [hv, List.cons_append, xmlHeaderFrom_pass a.quote_token htoken a.quote_token]
  simp only [hlen]

/-- Behind one or two spaces an attribute is passed over. -/
lemma xmlHeaderFrom_unseen (a : PseudoAttribute) {g : List UInt8} (hlen : g.length % 3 ≠ 0)
    (hg : ∀ c ∈ g, xmlIsSpace c = true) : xmlHeaderFrom (g ++ (a.body ++ rest)) e =
      if a.value.length < 65 then xmlHeaderFrom rest e else .error .failed := by
  obtain ⟨g', hg', hlen', hspace⟩ := xmlHeaderFrom_gap (a.body ++ rest) e g hg
  obtain ⟨c, t, ht, htlen⟩ := a.name.text_cons
  have htoken : ∀ x ∈ c :: t, xmlIsToken x = true := fun x hx => (a.name.text_token x (by rwa [ht])).1
  rw [hg', a.body_append, ht, ← xmlHeaderFrom_quote a]
  match g', hlen', hspace with
  | [], h, _ => exact absurd h.symm hlen
  | [s], _, hs =>
      rw [List.singleton_append, List.cons_append, xmlHeaderFrom_pass
        (xmlIsToken_of_space s (hs s (by simp))) (fun x hx => htoken x (List.mem_cons_of_mem c hx))
        rfl, if_pos (by omega)]
  | [s, s'], _, hs =>
      rw [List.cons_append, List.singleton_append, xmlHeaderFrom_pass
        (xmlIsToken_of_space s (hs s (by simp))) htoken rfl, if_pos (by simp; omega)]
  | s :: s' :: s'' :: g'', h, _ =>
      simp only [List.length_cons] at h
      omega

/-- An attribute that is seen, other than the encoding. -/
lemma xmlHeaderFrom_seen (a : PseudoAttribute) (hname : a.name ≠ .encoding) :
    xmlHeaderFrom (a.body ++ rest) e =
      if a.value.length < 64 then xmlHeaderFrom rest e else .error .failed := by
  obtain ⟨c, t, ht, htlen⟩ := a.name.text_cons
  have hlen : a.name.text.length < 64 := by rw [ht, List.length_cons]; omega
  have hc : c ≠ 0x3F := (a.name.text_token c (by rw [ht]; simp)).2
  have hround : xmlHeaderRound (.at (a.body ++ rest) 0 none) e =
      if a.value.length < 64 then .ok (.at rest 0 none, e) else .error .failed := by
    rw [a.body_append]
    exact xmlHeaderRound_pass (fun x hx => (a.name.text_token x hx).1) hlen
      (fun h => hname (a.name.text_encoding.mp h)) rfl (fun x hx => (a.value_token x hx).1)
      a.quote_token
  rw [a.body_append, ht, List.cons_append] at hround ⊢
  split at hround
  · rename_i hv
    rw [xmlHeaderFrom_round hc hround, if_pos hv]
  · rename_i hv
    rw [xmlHeaderFrom_failed hc hround, if_neg hv]

/-- The encoding, when it is seen: the loop ends at the next question mark. -/
lemma xmlHeaderFrom_encoding (a : PseudoAttribute) (hname : a.name = .encoding)
    {u v : List UInt8} (hu : 0x3F ∉ u) : xmlHeaderFrom (a.body ++ (u ++ 0x3F :: v)) e =
      if a.value.length < 20 then .ok (.at (0x3F :: v) 0 none, a.cvalue) else .error .failed := by
  obtain ⟨c, t, ht, htlen⟩ := a.name.text_cons
  have hlen : a.name.text.length < 64 := by rw [ht, List.length_cons]; omega
  have hc : c ≠ 0x3F := (a.name.text_token c (by rw [ht]; simp)).2
  have hq : (0x3F : UInt8) ∉ a.quote :: u := by
    rcases a.quote_eq with h | h <;> simp [h, hu]
  have hvalue : CString.ofBytes a.value = a.cvalue :=
    CString.ofBytes_of_notMem a.zero_notMem_value
  have hentry : xmlHeaderEntry (.at (a.quote :: (u ++ 0x3F :: v)) 0 none)
      (CString.ofBytes a.name.text) (CString.ofBytes a.value) e =
      if a.value.length < 20 then .ok (.at (0x3F :: v) 0 none, a.cvalue) else .error .failed := by
    rw [xmlHeaderEntry, if_pos (a.name.text_encoding.mpr hname), ← List.cons_append]
    simp only [XmlParseCtx.at_pos, XmlParseCtx.at_remain, xmlFindChar_at hq, except_ok_bind,
      xmlSkipSub_at rfl, hvalue]
    by_cases h20 : a.value.length < 20
    · rw [if_pos h20, if_neg (by simpa [PseudoAttribute.cvalue] using h20)]
    · rw [if_neg h20, if_pos (by simpa [PseudoAttribute.cvalue] using h20)]
  have hround : xmlHeaderRound (.at (a.body ++ (u ++ 0x3F :: v)) 0 none) e =
      if a.value.length < 20 then .ok (.at (0x3F :: v) 0 none, a.cvalue) else .error .failed := by
    rw [a.body_append, xmlHeaderRound_split (fun x hx => (a.name.text_token x hx).1) hlen rfl
      (fun x hx => (a.value_token x hx).1) (by simpa using a.quote_token), hentry]
    by_cases h20 : a.value.length < 20
    · rw [if_pos (by omega)]
    · rw [if_neg h20, ite_self]
  rw [a.body_append, ht, List.cons_append] at hround ⊢
  by_cases h20 : a.value.length < 20
  · rw [if_pos h20] at hround
    rw [xmlHeaderFrom_round hc hround, xmlHeaderFrom_mark, if_pos h20]
  · rw [if_neg h20] at hround
    rw [xmlHeaderFrom_failed hc hround, if_neg h20]

/-! ### Declarations round by round -/

/-- The encoding after the attributes, `none` when the loop is out of step at the end. -/
def headerReads (trail : List UInt8) : Bool → List PseudoAttribute → CString → Option CString
  | first, [], e => if (if first then trail ≠ [] else trail.length % 3 = 0) then some e else none
  | first, a :: as, e =>
      if first = true ∨ a.gap.length % 3 = 0 then
        if a.name = .encoding then if a.value.length < 20 then some a.cvalue else none
        else if a.value.length < 64 then headerReads trail false as e else none
      else if a.value.length < 65 then headerReads trail false as e else none

/-- How the loop ends before a text `b`: at the end of the header with the encoding read,
or not before `b` at all. -/
def HeaderEnds (b : List UInt8) : Option CString → Except XmlFault (XmlParseCtx × CString) → Prop
  | some e, r => r = .ok (.at (0x3F :: 0x3E :: b) 0 none, e)
  | none, r => r = .error .failed ∨ ∃ q e, r = .ok (.at q 0 none, e) ∧ q.length ≤ b.length

lemma HeaderEnds.of_cases {r : Except XmlFault (XmlParseCtx × CString)}
    (h : (∃ q e, r = .ok (.at q 0 none, e) ∧ q.length ≤ b.length) ∨ r = .error .failed) :
    HeaderEnds b none r :=
  h.symm

/-- The `?>` is passed over when the white space before it is out of step. -/
lemma headerEnds_trail (b : List UInt8) (e : CString) (htrail : ∀ c ∈ trail, xmlIsSpace c = true) :
    HeaderEnds b (if trail.length % 3 = 0 then some e else none)
      (xmlHeaderFrom (trail ++ 0x3F :: 0x3E :: b) e) := by
  obtain ⟨g, hg, hlen, hspace⟩ := xmlHeaderFrom_gap (0x3F :: 0x3E :: b) e trail htrail
  rw [hg, ← hlen]
  match g, hlen, hspace with
  | [], _, _ => exact xmlHeaderFrom_mark (0x3E :: b) e
  | [s], _, hs =>
      have hpass : xmlHeaderFrom (s :: 0x3F :: 0x3E :: b) e = xmlHeaderFrom b e := by
        rw [← List.nil_append (0x3E :: b), xmlHeaderFrom_pass
          (xmlIsToken_of_space s (hs s (by simp))) (by simp) rfl]
        rfl
      rw [List.singleton_append, hpass]
      exact .of_cases (xmlHeaderFrom_cases b e)
  | [s, s'], _, hs =>
      have hpass : xmlHeaderFrom (s :: s' :: 0x3F :: 0x3E :: b) e = xmlHeaderFrom b e := by
        change xmlHeaderFrom (s :: s' :: ([0x3F] ++ 0x3E :: b)) e = _
        rw [xmlHeaderFrom_pass (xmlIsToken_of_space s (hs s (by simp)))
          (fun x hx => List.mem_singleton.mp hx ▸ rfl) rfl]
        rfl
      rw [List.cons_append, List.singleton_append, hpass]
      exact .of_cases (xmlHeaderFrom_cases b e)
  | s :: s' :: s'' :: g, h, _ =>
      simp only [List.length_cons] at h
      omega

lemma declTail_cons (trail : List UInt8) (a : PseudoAttribute) (as : List PseudoAttribute) :
    declTail trail (a :: as) = a.gap ++ (a.body ++ declTail trail as) := by
  simp [declTail, PseudoAttribute.text]

lemma declTail_nil (trail : List UInt8) : declTail trail [] = trail ++ [0x3F, 0x3E] := by
  simp [declTail]

lemma xmlIsSpace_mark (c : UInt8) (hc : xmlIsSpace c = true) : c ≠ 0x3F := by
  rintro rfl
  exact absurd hc (by decide)

/-- The first question mark of a declaration is that of its end. -/
lemma declTail_mark (htrail : ∀ c ∈ trail, xmlIsSpace c = true) (as : List PseudoAttribute) :
    ∃ u, declTail trail as = u ++ [0x3F, 0x3E] ∧ 0x3F ∉ u := by
  refine ⟨as.flatMap PseudoAttribute.text ++ trail, rfl, fun h => ?_⟩
  rcases List.mem_append.mp h with h | h
  · obtain ⟨a, -, ha⟩ := List.mem_flatMap.mp h
    rcases List.mem_append.mp ha with ha | ha
    · exact xmlIsSpace_mark _ (a.gap_space _ ha) rfl
    · simp only [PseudoAttribute.body, List.mem_append, List.mem_cons, List.not_mem_nil,
        or_false] at ha
      rcases ha with ((ha | ha | ha) | ha) | ha
      · exact (a.name.text_token _ ha).2 rfl
      · exact absurd ha (by decide)
      · rcases a.quote_eq with hq | hq <;> rw [hq] at ha <;> exact absurd ha (by decide)
      · exact (a.value_token _ ha).2 rfl
      · rcases a.quote_eq with hq | hq <;> rw [hq] at ha <;> exact absurd ha (by decide)
  · exact xmlIsSpace_mark _ (htrail _ h) rfl

/-- An attribute that is seen, and the rest of the declaration. -/
lemma headerEnds_seen (htrail : ∀ c ∈ trail, xmlIsSpace c = true) {a : PseudoAttribute}
    {as : List PseudoAttribute}
    (ih : HeaderEnds b (headerReads trail false as e) (xmlHeaderFrom (declTail trail as ++ b) e)) :
    HeaderEnds b
      (if a.name = .encoding then if a.value.length < 20 then some a.cvalue else none
        else if a.value.length < 64 then headerReads trail false as e else none)
      (xmlHeaderFrom (a.body ++ (declTail trail as ++ b)) e) := by
  by_cases hname : a.name = .encoding
  · obtain ⟨u, hu, hmark⟩ := declTail_mark htrail as
    have htext : declTail trail as ++ b = u ++ 0x3F :: (0x3E :: b) := by simp [hu]
    rw [if_pos hname, htext, xmlHeaderFrom_encoding a hname hmark]
    split
    · rfl
    · exact .inl rfl
  · rw [if_neg hname, xmlHeaderFrom_seen a hname]
    split
    · exact ih
    · exact .inl rfl

/-- The loop from the white space after a value on. -/
lemma headerEnds_declTail (htrail : ∀ c ∈ trail, xmlIsSpace c = true) :
    ∀ (as : List PseudoAttribute) (e : CString),
      HeaderEnds b (headerReads trail false as e) (xmlHeaderFrom (declTail trail as ++ b) e)
  | [], e => by
      rw [declTail_nil, List.append_assoc, headerReads]
      exact headerEnds_trail b e htrail
  | a :: as, e => by
      have ih := headerEnds_declTail htrail as e
      rw [declTail_cons, List.append_assoc, List.append_assoc, headerReads]
      by_cases hgap : a.gap.length % 3 = 0
      · obtain ⟨g, hg, hlen, -⟩ :=
          xmlHeaderFrom_gap (a.body ++ (declTail trail as ++ b)) e a.gap a.gap_space
        rw [hgap, List.length_eq_zero_iff] at hlen
        subst hlen
        rw [if_pos (.inr hgap), hg]
        exact headerEnds_seen htrail ih
      · rw [if_neg (by simpa using hgap), xmlHeaderFrom_unseen a hgap a.gap_space]
        split
        · exact ih
        · exact .inl rfl

/-! ### Whole headers -/

lemma declaredEncoding_cons_of_ne {a : PseudoAttribute} {as : List PseudoAttribute}
    (h : a.name ≠ .encoding) : declaredEncoding (a :: as) = declaredEncoding as := by
  simp [declaredEncoding, h]

lemma declaredEncoding_cons_of_eq {a : PseudoAttribute} {as : List PseudoAttribute}
    (h : a.name = .encoding) : declaredEncoding (a :: as) = some a.cvalue := by
  simp [declaredEncoding, h]

lemma declaredEncoding_eq_none {as : List PseudoAttribute}
    (h : PseudoName.encoding ∉ as.map PseudoAttribute.name) : declaredEncoding as = none := by
  rw [declaredEncoding, Option.map_eq_none_iff, List.find?_eq_none]
  intro a ha
  simpa using fun heq : a.name = .encoding => h (heq ▸ List.mem_map_of_mem ha)

/-- Without an encoding among them the attributes leave the encoding alone. -/
lemma headerReads_of_notMem {e' : CString} : ∀ {first : Bool} {as : List PseudoAttribute},
    PseudoName.encoding ∉ as.map PseudoAttribute.name →
    headerReads trail first as e = some e' → e' = e
  | first, [], _, h => by
      rw [headerReads] at h
      by_cases htrail : if first then trail ≠ [] else trail.length % 3 = 0
      · rw [if_pos htrail] at h
        exact (Option.some.inj h).symm
      · rw [if_neg htrail] at h
        cases h
  | first, a :: as, hmem, h => by
      rw [List.map_cons, List.mem_cons, not_or] at hmem
      rw [headerReads, if_neg (Ne.symm hmem.1)] at h
      split_ifs at h
      · exact headerReads_of_notMem hmem.2 h
      · exact headerReads_of_notMem hmem.2 h

/-- The loop stays in step exactly when it ends with the charset that is declared. -/
lemma headerInStep_iff : ∀ (first : Bool) (as : List PseudoAttribute),
    (as.map PseudoAttribute.name).Nodup →
    (HeaderInStep trail first as ↔ ∃ e, headerReads trail first as utf8Name = some e ∧
      strcasecmpEq e ((declaredEncoding as).getD utf8Name) = true)
  | first, [], _ => by
      rw [HeaderInStep, headerReads]
      by_cases htrail : if first then trail ≠ [] else trail.length % 3 = 0
      · rw [if_pos htrail]
        exact iff_of_true htrail ⟨utf8Name, rfl, strcasecmpEq_refl _⟩
      · rw [if_neg htrail]
        exact iff_of_false htrail (by simp)
  | first, a :: as, hnodup => by
      rw [List.map_cons, List.nodup_cons] at hnodup
      have ih := headerInStep_iff false as hnodup.2
      rw [HeaderInStep, headerReads]
      by_cases hseen : first = true ∨ a.gap.length % 3 = 0
      · rw [if_pos hseen, if_pos hseen]
        by_cases hname : a.name = .encoding
        · rw [if_pos hname, if_pos hname, declaredEncoding_cons_of_eq hname]
          by_cases hlen : a.value.length < 20
          · rw [if_pos hlen]
            exact iff_of_true hlen ⟨a.cvalue, rfl, strcasecmpEq_refl _⟩
          · rw [if_neg hlen]
            exact iff_of_false hlen (by simp)
        · rw [if_neg hname, if_neg hname, declaredEncoding_cons_of_ne hname, ih]
          by_cases hlen : a.value.length < 64
          · simp only [hlen, true_and, if_true]
          · simp [hlen]
      · rw [if_neg hseen, if_neg hseen]
        by_cases hlen : a.value.length < 65
        · simp only [hlen, true_and, if_true]
          by_cases hname : a.name = .encoding
          · rw [hname] at hnodup
            rw [ih, declaredEncoding_cons_of_eq hname, declaredEncoding_eq_none hnodup.1]
            simp only [hname, forall_const, Option.getD_none, Option.getD_some]
            constructor
            · rintro ⟨hutf, e, hread, he⟩
              refine ⟨e, hread, ?_⟩
              rw [strcasecmpEq_iff] at hutf he ⊢
              exact he.trans hutf.symm
            · rintro ⟨e, hread, he⟩
              obtain rfl := headerReads_of_notMem hnodup.1 hread
              refine ⟨?_, utf8Name, hread, strcasecmpEq_refl _⟩
              rw [strcasecmpEq_iff] at he ⊢
              exact he.symm
          · rw [ih, declaredEncoding_cons_of_ne hname]
            simp [hname]
        · simp [hlen]

lemma xmlIsSpace_of_token (c : UInt8) (hc : xmlIsToken c = true) : xmlIsSpace c = false := by
  by_contra hspace
  have hnot := xmlIsToken_of_space c (Bool.of_not_eq_false hspace)
  rw [hc] at hnot
  cases hnot

/-- The end of the header after its loop. -/
def headerFinish (r : XmlParseCtx × CString) : Except XmlFault (XmlParseCtx × CString) := do
  xmlRequire (0 < r.1.remain)
  let (ctx, _) ← xmlNextSub r.1 2
  .ok (ctx, r.2)

/-- The header up to its loop. -/
lemma xmlParseHeader_name {name r : List UInt8} (hname : ∀ c ∈ name, xmlIsToken c = true)
    (hne : name ≠ []) (hlen : name.length < 64) (hr : ∀ c ∈ r.head?, xmlIsToken c = false) :
    xmlParseHeader (xmlParseInit (0x3C :: 0x3F :: (name ++ r))) e =
      (xmlHeaderFrom (r.dropWhile xmlIsSpace) e >>= headerFinish) := by
  obtain ⟨c, t, rfl⟩ := List.exists_cons_of_ne_nil hne
  obtain ⟨htake, hdrop⟩ := span_append hname hr
  have hspace : (0x3C :: 0x3F :: (c :: t ++ r)).dropWhile xmlIsSpace
      = [0x3C, 0x3F] ++ (c :: t ++ r) := rfl
  have hspace' : (c :: t ++ r).dropWhile xmlIsSpace = c :: t ++ r := by
    rw [List.cons_append, List.dropWhile_cons_of_neg]
    simp [xmlIsSpace_of_token c (hname c (by simp))]
  have hinit : xmlParseInit (0x3C :: 0x3F :: (c :: t ++ r))
      = .at (0x3C :: 0x3F :: (c :: t ++ r)) 0 none := rfl
  rw [hinit, xmlParseHeader, xmlSkipSpaces_at, except_ok_bind, hspace, xmlNextSub_at (n := 2) rfl,
    except_ok_bind]
  simp only [if_true, xmlSkipSpaces_at, hspace', except_ok_bind,
    xmlNextToken_at (show 0 < 64 by decide), htake, hdrop, hlen, XmlParseCtx.at_remain,
    Int.toNat_natCast]
  rfl

lemma HeaderEnds.finish {e' : CString} {r : Except XmlFault (XmlParseCtx × CString)}
    (h : HeaderEnds b (some e') r) : (r >>= headerFinish) = .ok (xmlParseInit b, e') := by
  rw [HeaderEnds] at h
  rw [h, except_ok_bind, headerFinish, xmlRequire_cons, except_ok_bind]
  have hsub := xmlNextSub_at (u := [0x3F, 0x3E]) (n := 2) rfl b 0 none
  simp only [List.cons_append, List.nil_append] at hsub
  rw [hsub]
  rfl

lemma HeaderEnds.not_finish {e' : CString} {r : Except XmlFault (XmlParseCtx × CString)}
    (h : HeaderEnds b none r) : (r >>= headerFinish) ≠ .ok (xmlParseInit b, e') := by
  rcases h with rfl | ⟨q, e, rfl, hle⟩
  · rw [except_error_bind]
    exact fun h => by cases h
  · rw [except_ok_bind, headerFinish]
    cases q with
    | nil =>
        rw [xmlRequire_nil, except_error_bind]
        exact fun h => by cases h
    | cons c q =>
        rw [xmlRequire_cons, except_ok_bind]
        rcases xmlNextSub_cases 0 none (c :: q) 2 with ⟨t, s, ht, -, hlen⟩ | ⟨-, ht⟩
        · rw [ht, except_ok_bind]
          intro heq
          obtain rfl : t = b := congrArg (fun r => r.1.pos) (Except.ok.inj heq)
          omega
        · rw [ht, except_error_bind]
          exact fun h => by cases h

/-- `xml`. -/
def xmlName : List UInt8 := [0x78, 0x6D, 0x6C]

/-- The header of a declaration ends as its attributes say. -/
lemma xmlParseHeader_text (h : XmlDecl) (b : List UInt8) :
    ∃ r, xmlParseHeader (xmlParseInit (h.text ++ b)) utf8Name = (r >>= headerFinish) ∧
      HeaderEnds b (headerReads h.trail true h.attributes utf8Name) r := by
  have htext : h.text ++ b = 0x3C :: 0x3F :: (xmlName ++ (declTail h.trail h.attributes ++ b)) := rfl
  have hname : ∀ c ∈ xmlName, xmlIsToken c = true := by simp [xmlName]; decide
  rw [htext]
  cases hattr : h.attributes with
  | cons a as =>
      have hgap : ∀ c ∈ (declTail h.trail (a :: as) ++ b).head?, xmlIsToken c = false := by
        obtain ⟨c, t, ht⟩ := List.exists_cons_of_ne_nil (h.head_gap a (by simp [hattr]))
        have hc := xmlIsToken_of_space c (a.gap_space c (by simp [ht]))
        rw [declTail_cons, ht]
        simpa using hc
      have hdrop : (declTail h.trail (a :: as) ++ b).dropWhile xmlIsSpace
          = a.body ++ (declTail h.trail as ++ b) := by
        obtain ⟨c, t, ht, -⟩ := a.name.text_cons
        have hc := xmlIsSpace_of_token c (a.name.text_token c (by simp [ht])).1
        rw [declTail_cons, List.append_assoc, List.append_assoc]
        exact (span_append a.gap_space (by rw [a.body_append, ht]; simpa using hc)).2
      refine ⟨_, xmlParseHeader_name hname (by decide) (by decide) hgap, ?_⟩
      rw [hdrop, headerReads, if_pos (.inl rfl)]
      exact headerEnds_seen h.trail_space (headerEnds_declTail h.trail_space as utf8Name)
  | nil =>
      rw [declTail_nil, List.append_assoc, headerReads]
      by_cases htrail : h.trail = []
      · -- the question mark is taken for a part of the name
        have hmark : ∀ c ∈ xmlName ++ [0x3F], xmlIsToken c = true := by simp [xmlName]; decide
        have hrun := xmlParseHeader_name (e := utf8Name) (r := 0x3E :: b) hmark (by decide)
          (by decide) (by simp; rfl)
        rw [htrail, if_neg (by simp)]
        exact ⟨_, hrun, .of_cases (xmlHeaderFrom_lt (by decide))⟩
      · have hspace : ∀ c ∈ (h.trail ++ ([0x3F, 0x3E] ++ b)).head?, xmlIsToken c = false := by
          obtain ⟨c, t, ht⟩ := List.exists_cons_of_ne_nil htrail
          have hc := xmlIsToken_of_space c (h.trail_space c (by simp [ht]))
          rw [ht]
          simpa using hc
        have hdrop : (h.trail ++ ([0x3F, 0x3E] ++ b)).dropWhile xmlIsSpace = [0x3F, 0x3E] ++ b :=
          (span_append h.trail_space (by simp; rfl)).2
        refine ⟨_, xmlParseHeader_name hname (by decide) (by decide) hspace, ?_⟩
        rw [hdrop, if_pos (by simpa using htrail)]
        exact xmlHeaderFrom_mark (0x3E :: b) utf8Name

/-- Two bytes that do not begin a declaration. -/
lemma ofBytes_ne_mark {c : UInt8} (hc : c ≠ 0x3F) :
    CString.ofBytes [0x3C, c] ≠ CString.ofBytes [0x3C, 0x3F] := by
  intro h
  have hbytes := congrArg Subtype.val h
  simp only [CString.ofBytes, List.takeWhile_cons] at hbytes
  by_cases h0 : c = 0
  · simp [h0] at hbytes
  · simp [h0] at hbytes
    exact hc hbytes

/-- A text without a declaration has no header. -/
lemma xmlParseHeader_element (hb : ElementText b) :
    xmlParseHeader (xmlParseInit b) utf8Name = .error .failed := by
  obtain ⟨c, p, rfl, hc⟩ := hb
  have hspace : (0x3C :: c :: p).dropWhile xmlIsSpace = [0x3C, c] ++ p := rfl
  have hinit : xmlParseInit (0x3C :: c :: p) = .at (0x3C :: c :: p) 0 none := rfl
  rw [hinit, xmlParseHeader, xmlSkipSpaces_at, except_ok_bind, hspace, xmlNextSub_at (n := 2) rfl,
    except_ok_bind]
  exact if_neg (ofBytes_ne_mark hc)

/-! ### Two declarations -/

/-- `version="1.0"` behind one space. -/
def versionAttribute : PseudoAttribute where
  gap := [0x20]
  name := .version
  quote := 0x22
  value := [0x31, 0x2E, 0x30]
  gap_space := by simp only [List.forall_mem_singleton]; rfl
  quote_eq := .inl rfl
  value_ne := by simp
  value_token := by simp; decide

/-- `<?xml version="1.0"?>`. -/
def versionDecl : XmlDecl where
  attributes := [versionAttribute]
  trail := []
  head_gap := by simp [versionAttribute]
  nodup := by decide
  trail_space := by simp

/-- `encoding="EUC-KR"` behind one space. -/
def koreanAttribute : PseudoAttribute where
  gap := [0x20]
  name := .encoding
  quote := 0x22
  value := [0x45, 0x55, 0x43, 0x2D, 0x4B, 0x52]
  gap_space := by simp only [List.forall_mem_singleton]; rfl
  quote_eq := .inl rfl
  value_ne := by simp
  value_token := by simp; decide

/-- `<?xml version="1.0" encoding="EUC-KR"?>`. -/
def koreanDecl : XmlDecl where
  attributes := [versionAttribute, koreanAttribute]
  trail := []
  head_gap := by simp [versionAttribute]
  nodup := by decide
  trail_space := by simp

/-- `encoding="UTF-8"` behind one space. -/
def utf8Attribute : PseudoAttribute where
  gap := [0x20]
  name := .encoding
  quote := 0x22
  value := [0x55, 0x54, 0x46, 0x2D, 0x38]
  gap_space := by simp only [List.forall_mem_singleton]; rfl
  quote_eq := .inl rfl
  value_ne := by simp
  value_token := by simp; decide

/-- The declaration that the printer writes. -/
def printedDecl : XmlDecl where
  attributes := [versionAttribute, utf8Attribute]
  trail := []
  head_gap := by simp [versionAttribute]
  nodup := by decide
  trail_space := by simp

/-! ### The headers that are handled -/

/-- No conversion is made for a name of UTF-8. -/
lemma xmlCharset_utf8 (ic : Iconv) (h : strcasecmpEq e utf8Name = true) :
    xmlCharset ic e = none := by
  simp [xmlCharset, h]

/-- **Header handling.** A header is consumed as it stands, with the charset it declares,
exactly when there is one and the loop stays in step with its attributes. -/
theorem xmlHeader_iff (ic : Iconv) (h : Option XmlDecl) {b : List UInt8} (hb : ElementText b) :
    HeaderHandled ic h b ↔ HeaderReadable h := by
  cases h with
  | none =>
      refine iff_of_false ?_ id
      rintro ⟨e, he, -⟩
      rw [show headerText none ++ b = b from rfl, xmlParseHeader_element hb] at he
      cases he
  | some h =>
      obtain ⟨r, hr, hends⟩ := xmlParseHeader_text h b
      have htext : headerText (some h) ++ b = h.text ++ b := rfl
      rw [HeaderReadable, headerInStep_iff true h.attributes h.nodup, HeaderHandled, htext]
      constructor
      · rintro ⟨e, he, hcharset, -⟩
        rw [hr] at he
        cases hreads : headerReads h.trail true h.attributes utf8Name with
        | none =>
            rw [hreads] at hends
            exact absurd he hends.not_finish
        | some e' =>
            rw [hreads] at hends
            obtain rfl : e' = e := congrArg Prod.snd (Except.ok.inj (hends.finish.symm.trans he))
            exact ⟨e', rfl, hcharset⟩
      · rintro ⟨e, hreads, hcharset⟩
        rw [hreads] at hends
        have hheader := hr.trans hends.finish
        refine ⟨e, hheader, hcharset, fun hutf => ?_⟩
        have hnone : xmlCharset ic e = none := by
          refine xmlCharset_utf8 ic ?_
          rw [strcasecmpEq_iff] at hcharset hutf ⊢
          exact hcharset.trans hutf
        rw [xmlParseString, hheader, except_ok_bind]
        simp only [hnone]
        rfl

/-- `<a/>` behind `versionDecl`. -/
theorem xmlHeader_iff_version :
    HeaderHandled ⟨fun _ _ => none⟩ (some versionDecl) [0x3C, 0x61, 0x2F, 0x3E] :=
  (xmlHeader_iff _ _ ⟨0x61, _, rfl, by decide⟩).mpr
    (by simp [HeaderReadable, HeaderInStep, versionDecl, versionAttribute])

/-- `<a/>` behind `koreanDecl`: the encoding is missed. -/
theorem xmlHeader_encoding_missed :
    ¬∀ (ic : Iconv) (h : Option XmlDecl) (b : List UInt8), ElementText b → HeaderHandled ic h b := by
  intro hall
  obtain ⟨e, he, hcharset, -⟩ :=
    hall ⟨fun _ _ => none⟩ (some koreanDecl) [0x3C, 0x61, 0x2F, 0x3E] ⟨0x61, _, rfl, by decide⟩
  obtain ⟨r, hr, hends⟩ := xmlParseHeader_text koreanDecl [0x3C, 0x61, 0x2F, 0x3E]
  have hreads : headerReads koreanDecl.trail true koreanDecl.attributes utf8Name
      = some utf8Name := rfl
  rw [hreads] at hends
  have hrun := hr.trans hends.finish
  obtain rfl : utf8Name = e := congrArg Prod.snd (Except.ok.inj (hrun.symm.trans he))
  exact absurd hcharset (by decide)

end LibCmutils
