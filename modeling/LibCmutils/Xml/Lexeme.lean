import LibCmutils.Xml.Scanner

/-!
What `CMUTIL_XmlParseNode` reads at one place of the text (`src/nanoxml.c`).

* `XmlLexeme`: the items of the text, with the bytes behind them. Texts and `CDATA`
  sections stand inside a tag only.
* `EmptyNode`: the places where the parser makes a node without a name: a tag without a
  name, and texts and `CDATA` sections that are empty after unescaping and conversion.
* `xmlParseItem_lexeme`, `xmlParseItem_empty`, `xmlParseItem_cases`: an item is read where
  one stands, a node without a name is a `NULL` pointer used, and all else fails.
-/

namespace LibCmutils

/-- The nodes that an item puts onto the stack. -/
def XmlItem.opened : XmlItem → ℕ
  | .start _ _ => 1
  | _ => 0

/-- An item at a place that is no space, with `d` open tags, and the text behind it. -/
inductive XmlLexeme (cv : XmlCharset) (d : ℕ) : List UInt8 → XmlItem → List UInt8 → Prop
  | close {u rest : List UInt8} : 0x3E ∉ u →
      XmlLexeme cv d (0x3C :: 0x2F :: (u ++ 0x3E :: rest)) .close rest
  | ignored {c : UInt8} {u rest : List UInt8} : ¬cdataOpen <+: c :: (u ++ 0x3E :: rest) →
      0x3E ∉ u → XmlLexeme cv d (0x3C :: 0x21 :: c :: (u ++ 0x3E :: rest)) .ignored rest
  | cdata {u rest : List UInt8} : d ≠ 0 → IsFirst cdataClose u → xmlApplyCharset u cv ≠ [] →
      XmlLexeme cv d (0x3C :: 0x21 :: (cdataOpen ++ (u ++ cdataClose ++ rest)))
        (.leaf (.text (xmlApplyCharset u cv))) rest
  | text {c : UInt8} {u v rest : List UInt8} : d ≠ 0 → 0x3C ∉ c :: u → xmlIsSpace c = false →
      xmlUnescape [] (c :: u) cv = .ok v → v ≠ [] →
      XmlLexeme cv d (c :: u ++ 0x3C :: rest) (.leaf (.text v)) (0x3C :: rest)
  | start {c : UInt8} {p rest : List UInt8} {attributes : OrderedMap CString (List UInt8)} :
      xmlIsToken c = true → c ≠ 0x21 → ((c :: p).takeWhile xmlIsToken).length < 128 →
      xmlParseAttributes (.at ((c :: p).dropWhile xmlIsToken) (d + 1) cv)
        = .ok (.at rest (d + 1) cv, attributes) →
      XmlLexeme cv d (0x3C :: c :: p) (.start ((c :: p).takeWhile xmlIsToken) attributes) rest

/-- A place that is no space, with `d` open tags, where the next node gets no name. -/
inductive EmptyNode (cv : XmlCharset) (d : ℕ) : List UInt8 → Prop
  | tag {c : UInt8} (p : List UInt8) : xmlIsToken c = false → c ≠ 0x2F →
      EmptyNode cv d (0x3C :: c :: p)
  | cdata {u : List UInt8} (rest : List UInt8) : d ≠ 0 → IsFirst cdataClose u →
      xmlApplyCharset u cv = [] →
      EmptyNode cv d (0x3C :: 0x21 :: (cdataOpen ++ (u ++ cdataClose ++ rest)))
  | text {c : UInt8} {u : List UInt8} (rest : List UInt8) : d ≠ 0 → 0x3C ∉ c :: u →
      xmlIsSpace c = false → xmlUnescape [] (c :: u) cv = .ok [] →
      EmptyNode cv d (c :: u ++ 0x3C :: rest)

/-- Creating a node: the name must not be empty. -/
lemma xmlNodeCreateWithLen_eq (tagname : List UInt8) : xmlNodeCreateWithLen tagname =
    if tagname = [] then .error .nullDeref else .ok tagname := by
  cases tagname <;> simp [xmlNodeCreateWithLen, stringCreateInternal, xmlUse]

/-! ### The items one by one -/

variable (d : ℕ) (cv : XmlCharset)

lemma xmlParseClose_first {u : List UInt8} (hu : 0x3E ∉ u) (rest : List UInt8) :
    xmlParseClose (.at (u ++ 0x3E :: rest) d cv) = .ok (.at rest d cv, .close) := by
  simp only [xmlParseClose, XmlParseCtx.at_pos, XmlParseCtx.at_remain, xmlFindChar_at hu,
    except_ok_bind]
  rw [List.append_cons, xmlSkipSub_at (by simp), except_ok_bind]

lemma xmlParseClose_none {p : List UInt8} (hp : 0x3E ∉ p) :
    xmlParseClose (.at p d cv) = .error .failed := by
  simp only [xmlParseClose, XmlParseCtx.at_pos, XmlParseCtx.at_remain, xmlFindChar_none hp,
    except_ok_bind]

lemma xmlParseIgnored_first {u : List UInt8} (hu : 0x3E ∉ u) (c : UInt8) (rest : List UInt8) :
    xmlParseIgnored (.at (c :: (u ++ 0x3E :: rest)) d cv) = .ok (.at rest d cv, .ignored) := by
  have hpos : (1 : ℤ) < (c :: (u ++ 0x3E :: rest)).length := by simp; omega
  have hlen : ((c :: (u ++ 0x3E :: rest)).length : ℤ) - 1 = (u ++ 0x3E :: rest).length := by simp
  simp only [xmlParseIgnored, XmlParseCtx.at_pos, XmlParseCtx.at_remain, hpos, if_true,
    List.drop_one, List.tail_cons, hlen, xmlFindChar_at hu, except_ok_bind]
  rw [List.append_cons, ← List.cons_append, xmlSkipSub_at (by simp), except_ok_bind]

lemma xmlParseIgnored_none {p : List UInt8} (hp : 0x3E ∉ p.tail) :
    xmlParseIgnored (.at p d cv) = .error .failed := by
  cases p with
  | nil => simp [xmlParseIgnored]
  | cons c p =>
      have hlen : ((c :: p).length : ℤ) - 1 = p.length := by simp
      have hfind : xmlFindChar 0x3E p p.length = .ok none := xmlFindChar_none hp
      simp only [xmlParseIgnored, XmlParseCtx.at_pos, XmlParseCtx.at_remain, List.drop_one,
        List.tail_cons, hlen, hfind, ite_self, except_ok_bind]

lemma xmlParseCData_first {u : List UInt8} (hu : IsFirst cdataClose u) (rest : List UInt8) :
    xmlParseCData (.at (cdataOpen ++ (u ++ cdataClose ++ rest)) d cv) =
      if d = 0 then .error .failed
      else if xmlApplyCharset u cv = [] then .error .nullDeref
      else .ok (.at rest d cv, .leaf (.text (xmlApplyCharset u cv))) := by
  have hskip : xmlSkipSub (.at (u ++ cdataClose ++ rest) d cv) (u.length + 3)
      = .ok (.at rest d cv) := xmlSkipSub_at (by simp [cdataClose]) rest d cv
  have htake : (u ++ cdataClose ++ rest).take u.length = u := by
    rw [List.append_assoc, List.take_left]
  rw [xmlParseCData, xmlSkipSub_at (n := 7) rfl, except_ok_bind]
  simp only [XmlParseCtx.at_pos, XmlParseCtx.at_remain, xmlFindStr_first hu, except_ok_bind,
    XmlParseCtx.at_stack, stringCreateInternal, OfNat.ofNat_ne_zero, if_false, xmlUse,
    List.nil_append, htake, XmlParseCtx.at_cconv, xmlNodeCreateWithLen_eq, hskip]
  split_ifs <;> rfl

lemma xmlParseCData_none {p : List UInt8} (hp : ∀ u v, p ≠ u ++ cdataClose ++ v) :
    xmlParseCData (.at (cdataOpen ++ p) d cv) = .error .failed := by
  rw [xmlParseCData, xmlSkipSub_at (n := 7) rfl, except_ok_bind]
  simp only [XmlParseCtx.at_pos, XmlParseCtx.at_remain, xmlFindStr_none hp, except_ok_bind]

lemma xmlParseText_first {u : List UInt8} (hu : 0x3C ∉ u) (rest : List UInt8) :
    xmlParseText (.at (u ++ 0x3C :: rest) d cv) =
      (xmlUnescape [] u cv >>= fun afval =>
        if afval = [] then .error .nullDeref
        else .ok (.at (0x3C :: rest) d cv, .leaf (.text afval))) := by
  have hskip : xmlSkipSub (.at (u ++ 0x3C :: rest) d cv) u.length = .ok (.at (0x3C :: rest) d cv) :=
    xmlSkipSub_at rfl _ d cv
  simp only [xmlParseText, XmlParseCtx.at_pos, XmlParseCtx.at_remain, xmlFindChar_at hu,
    except_ok_bind, stringCreateInternal, OfNat.ofNat_ne_zero, if_false, xmlUse, List.nil_append,
    List.take_left, Nat.add_eq_zero_iff, one_ne_zero, and_false, XmlParseCtx.at_cconv,
    xmlNodeCreateWithLen_eq, hskip]
  rcases xmlUnescape_cases [] u cv with ⟨v, hv⟩ | hv
  · rw [hv, except_ok_bind, except_ok_bind]
    split_ifs <;> rfl
  · rw [hv, except_error_bind, except_error_bind]

lemma xmlParseStart_eq (p : List UInt8) : xmlParseStart (.at p d cv) =
    if (p.takeWhile xmlIsToken).length < 128 then
      if p.takeWhile xmlIsToken = [] then .error .nullDeref
      else (xmlParseAttributes (.at (p.dropWhile xmlIsToken) (d + 1) cv) >>= fun r =>
        .ok (r.1, .start (p.takeWhile xmlIsToken) r.2))
    else .error .failed := by
  simp only [xmlParseStart, xmlNextToken_at (show 0 < 128 by decide)]
  split
  · simp only [except_ok_bind, xmlNodeCreateWithLen_eq]
    split_ifs <;> rfl
  · rfl

/-! ### The choice of the item -/

variable {d cv} {p q : List UInt8} {c : UInt8}

lemma xmlParseItem_nil (h : p.dropWhile xmlIsSpace = []) :
    xmlParseItem (.at p d cv) = .error .failed := by
  simp only [xmlParseItem, xmlSkipSpaces_at, h, except_ok_bind, xmlRequire_nil, except_error_bind]

lemma xmlParseItem_text (h : p.dropWhile xmlIsSpace = c :: q) (hc : c ≠ 0x3C) :
    xmlParseItem (.at p d cv) =
      if d = 0 then .error .failed else xmlParseText (.at (c :: q) d cv) := by
  simp only [xmlParseItem, xmlSkipSpaces_at, h, except_ok_bind, xmlRequire_cons,
    XmlParseCtx.deref_cons, hc, if_false, XmlParseCtx.at_stack]
  rfl

lemma xmlParseItem_end (h : p.dropWhile xmlIsSpace = [0x3C]) :
    xmlParseItem (.at p d cv) = .error .failed := by
  simp only [xmlParseItem, xmlSkipSpaces_at, h, except_ok_bind, xmlRequire_cons,
    XmlParseCtx.deref_cons, if_true, xmlNextChar_cons, xmlRequire_nil, except_error_bind]

lemma xmlParseItem_markup (h : p.dropWhile xmlIsSpace = 0x3C :: c :: q) :
    xmlParseItem (.at p d cv) =
      if c = 0x2F then xmlParseClose (.at (c :: q) d cv)
      else if c = 0x21 then
        if cdataOpen <+: q then xmlParseCData (.at q d cv) else xmlParseIgnored (.at q d cv)
      else xmlParseStart (.at (c :: q) d cv) := by
  simp only [xmlParseItem, xmlSkipSpaces_at, h, except_ok_bind, xmlRequire_cons,
    XmlParseCtx.deref_cons, if_true, xmlNextChar_cons]
  simp only [XmlParseCtx.at_pos, XmlParseCtx.at_remain, xmlStartsWith_at, except_ok_bind,
    decide_eq_true_eq]

lemma xmlIsToken_slash : xmlIsToken 0x2F = false := rfl

lemma takeWhile_token_ne_nil (hc : xmlIsToken c = true) : (c :: q).takeWhile xmlIsToken ≠ [] := by
  simp [hc]

/-- An item is read. -/
lemma xmlParseItem_lexeme {item : XmlItem} {rest : List UInt8}
    (h : XmlLexeme cv d (p.dropWhile xmlIsSpace) item rest) :
    xmlParseItem (.at p d cv) = .ok (.at rest (d + item.opened) cv, item) := by
  generalize hq : p.dropWhile xmlIsSpace = q at h
  cases h with
  | close hu =>
      rw [xmlParseItem_markup hq, if_pos rfl, ← List.cons_append,
        xmlParseClose_first d cv (by simpa using hu)]
      rfl
  | ignored hprefix hu =>
      rw [xmlParseItem_markup hq, if_neg (by decide), if_pos rfl, if_neg hprefix,
        xmlParseIgnored_first d cv hu]
      rfl
  | cdata hd hu hne =>
      rw [xmlParseItem_markup hq, if_neg (by decide), if_pos rfl,
        if_pos (List.prefix_append ..), xmlParseCData_first d cv hu, if_neg hd, if_neg hne]
      rfl
  | text hd hu hc hv hne =>
      rw [List.cons_append] at hq
      rw [xmlParseItem_text hq (fun h => hu (by simp [h])), if_neg hd, ← List.cons_append,
        xmlParseText_first d cv hu, hv, except_ok_bind, if_neg hne]
      rfl
  | @start c p rest attributes hc hbang hlen hattr =>
      have hslash : c ≠ 0x2F := by
        rintro rfl
        rw [xmlIsToken_slash] at hc
        cases hc
      rw [xmlParseItem_markup hq, if_neg hslash, if_neg hbang, xmlParseStart_eq, if_pos hlen,
        if_neg (takeWhile_token_ne_nil hc), hattr]
      rfl

/-- A node without a name is a `NULL` pointer used. -/
lemma xmlParseItem_empty (h : EmptyNode cv d (p.dropWhile xmlIsSpace)) :
    xmlParseItem (.at p d cv) = .error .nullDeref := by
  generalize hq : p.dropWhile xmlIsSpace = q at h
  cases h with
  | @tag c p hc hslash =>
      have hbang : c ≠ 0x21 := by
        rintro rfl
        exact absurd hc (by decide)
      have hnil : (c :: p).takeWhile xmlIsToken = [] := by simp [hc]
      rw [xmlParseItem_markup hq, if_neg hslash, if_neg hbang, xmlParseStart_eq, hnil,
        if_pos (by decide), if_pos rfl]
  | cdata rest hd hu hnil =>
      rw [xmlParseItem_markup hq, if_neg (by decide), if_pos rfl,
        if_pos (List.prefix_append ..), xmlParseCData_first d cv hu, if_neg hd, if_pos hnil]
  | text rest hd hu hc hv =>
      rw [List.cons_append] at hq
      rw [xmlParseItem_text hq (fun h => hu (by simp [h])), if_neg hd, ← List.cons_append,
        xmlParseText_first d cv hu, hv, except_ok_bind, if_pos rfl]

lemma head_dropWhile_space (h : p.dropWhile xmlIsSpace = c :: q) : xmlIsSpace c = false := by
  have := List.head?_dropWhile_not xmlIsSpace p
  simpa [h] using this

/-- What the parser does behind a `<`. -/
lemma xmlParseItem_markup_cases (h : p.dropWhile xmlIsSpace = 0x3C :: c :: q) :
    (∃ item rest, XmlLexeme cv d (0x3C :: c :: q) item rest) ∨ EmptyNode cv d (0x3C :: c :: q) ∨
      xmlParseItem (.at p d cv) = .error .failed := by
  have hitem : xmlParseItem (.at p d cv) = _ := xmlParseItem_markup h
  by_cases hslash : c = 0x2F
  · subst hslash
    rw [if_pos rfl] at hitem
    by_cases hgt : 0x3E ∈ q
    · obtain ⟨u, rest, rfl, hu⟩ := split_at_first hgt
      exact .inl ⟨_, _, .close hu⟩
    · rw [xmlParseClose_none d cv (by simpa using hgt)] at hitem
      exact .inr (.inr hitem)
  by_cases hbang : c = 0x21
  · subst hbang
    rw [if_neg hslash, if_pos rfl] at hitem
    by_cases hcdata : cdataOpen <+: q
    · obtain ⟨q, rfl⟩ := hcdata
      rw [if_pos (List.prefix_append ..)] at hitem
      rcases exists_isFirst cdataClose q with ⟨u, v, rfl, hu⟩ | hnone
      · rw [xmlParseCData_first d cv hu] at hitem
        by_cases hd : d = 0
        · rw [if_pos hd] at hitem
          exact .inr (.inr hitem)
        · by_cases hnil : xmlApplyCharset u cv = []
          · exact .inr (.inl (.cdata v hd hu hnil))
          · exact .inl ⟨_, _, .cdata hd hu hnil⟩
      · rw [xmlParseCData_none d cv hnone] at hitem
        exact .inr (.inr hitem)
    · rw [if_neg hcdata] at hitem
      cases q with
      | nil =>
          rw [xmlParseIgnored_none d cv (by simp)] at hitem
          exact .inr (.inr hitem)
      | cons e q =>
          by_cases hgt : 0x3E ∈ q
          · obtain ⟨u, rest, rfl, hu⟩ := split_at_first hgt
            exact .inl ⟨_, _, .ignored hcdata hu⟩
          · rw [xmlParseIgnored_none d cv (p := e :: q) hgt] at hitem
            exact .inr (.inr hitem)
  · rw [if_neg hslash, if_neg hbang, xmlParseStart_eq] at hitem
    cases hc : xmlIsToken c with
    | false => exact .inr (.inl (.tag q hc hslash))
    | true =>
        by_cases hlen : ((c :: q).takeWhile xmlIsToken).length < 128
        · rw [if_pos hlen, if_neg (takeWhile_token_ne_nil hc)] at hitem
          rcases xmlParseAttributes_cases ((c :: q).dropWhile xmlIsToken) (d + 1) cv with
            ⟨e, rest, as, hattr, -⟩ | hattr
          · exact .inl ⟨_, _, .start hc hbang hlen hattr⟩
          · rw [hattr, except_error_bind] at hitem
            exact .inr (.inr hitem)
        · rw [if_neg hlen] at hitem
          exact .inr (.inr hitem)

/-- What the parser does at a place that is neither a space nor a `<`. -/
lemma xmlParseItem_text_cases (h : p.dropWhile xmlIsSpace = c :: q) (hc : c ≠ 0x3C) :
    (∃ item rest, XmlLexeme cv d (c :: q) item rest) ∨ EmptyNode cv d (c :: q) ∨
      xmlParseItem (.at p d cv) = .error .failed := by
  have hitem : xmlParseItem (.at p d cv) = _ := xmlParseItem_text h hc
  have hspace := head_dropWhile_space h
  by_cases hd : d = 0
  · rw [if_pos hd] at hitem
    exact .inr (.inr hitem)
  rw [if_neg hd] at hitem
  by_cases hlt : 0x3C ∈ q
  · obtain ⟨u, rest, rfl, hu⟩ := split_at_first hlt
    have hcu : 0x3C ∉ c :: u := by simp [hu, Ne.symm hc]
    rw [← List.cons_append, xmlParseText_first d cv hcu] at hitem
    rcases xmlUnescape_cases [] (c :: u) cv with ⟨v, hv⟩ | hv
    · by_cases hnil : v = []
      · subst hnil
        exact .inr (.inl (.text rest hd hcu hspace hv))
      · exact .inl ⟨_, _, .text hd hcu hspace hv hnil⟩
    · rw [hv, except_error_bind] at hitem
      exact .inr (.inr hitem)
  · have hfind : xmlFindChar 0x3C (c :: q) (c :: q).length = .ok none :=
      xmlFindChar_none (by simp [hlt, Ne.symm hc])
    simp only [xmlParseText, XmlParseCtx.at_pos, XmlParseCtx.at_remain, hfind,
      except_ok_bind] at hitem
    exact .inr (.inr hitem)

/-- What the parser does at a place of the text. -/
lemma xmlParseItem_cases (p : List UInt8) (d : ℕ) (cv : XmlCharset) :
    (∃ item rest, XmlLexeme cv d (p.dropWhile xmlIsSpace) item rest) ∨
      EmptyNode cv d (p.dropWhile xmlIsSpace) ∨ xmlParseItem (.at p d cv) = .error .failed := by
  cases hq : p.dropWhile xmlIsSpace with
  | nil => exact .inr (.inr (xmlParseItem_nil hq))
  | cons c q =>
      by_cases hc : c = 0x3C
      · subst hc
        cases q with
        | nil => exact .inr (.inr (xmlParseItem_end hq))
        | cons c q => exact xmlParseItem_markup_cases hq
      · exact xmlParseItem_text_cases hq hc

/-- The text behind an item is a proper part of the text before it. -/
lemma XmlLexeme.suffix {q : List UInt8} {item : XmlItem} {rest : List UInt8}
    (h : XmlLexeme cv d q item rest) : rest <:+ q ∧ rest.length < q.length := by
  cases h with
  | @close u rest hu =>
      exact ⟨⟨0x3C :: 0x2F :: (u ++ [0x3E]), by simp⟩, by simp; omega⟩
  | @ignored c u rest hprefix hu =>
      exact ⟨⟨0x3C :: 0x21 :: c :: (u ++ [0x3E]), by simp⟩, by simp; omega⟩
  | @cdata u rest hd hu hne =>
      exact ⟨⟨0x3C :: 0x21 :: (cdataOpen ++ (u ++ cdataClose)), by simp⟩, by simp; omega⟩
  | @text c u v rest hd hu hc hv hne =>
      exact ⟨List.suffix_append .., by simp⟩
  | @start c p rest attributes hc hbang hlen hattr =>
      rcases xmlParseAttributes_cases ((c :: p).dropWhile xmlIsToken) (d + 1) cv with
        ⟨e, q, as, hq, hsuffix⟩ | hq
      · rw [hattr] at hq
        obtain rfl : rest = e :: q := by
          have := congrArg (fun r => r.map fun x => x.1.pos) hq
          simpa [Except.map] using this
        have hrest : e :: q <:+ c :: p := hsuffix.trans (List.dropWhile_suffix _)
        exact ⟨hrest.trans (List.suffix_cons ..), Nat.lt_succ_of_le hrest.length_le⟩
      · rw [hattr] at hq
        cases hq

end LibCmutils
