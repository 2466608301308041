import LibCmutils.Xml.Parser

/-!
The scanner of the XML parser (`src/nanoxml.c`).

* `XmlParseCtx.at`: a context whose byte counter agrees with its cursor. Every function of
  the scanner keeps it so, and never reads behind the text.
* `xmlSkipSpaces_at`, `xmlNextSub_at`, `xmlNextToken_at`, `xmlFindChar_at`,
  `xmlStartsWith_at`, `xmlFindStr_first`, `xmlFindStr_none`: the pieces.
* `xmlUnescape_cases`, `xmlParseAttributes_cases`: a result, or a failure.
-/

namespace LibCmutils

/-- The conversion from the charset of a document. -/
abbrev XmlCharset := Option (List UInt8 → Option (List UInt8))

/-- A context at a place of the text, its byte counter in step. -/
def XmlParseCtx.at (p : List UInt8) (d : ℕ) (cv : XmlCharset) : XmlParseCtx :=
  ⟨p, p.length, d, cv⟩

namespace XmlParseCtx

variable (p : List UInt8) (d : ℕ) (cv : XmlCharset)

@[simp] lemma at_pos : (XmlParseCtx.at p d cv).pos = p := rfl

@[simp] lemma at_remain : (XmlParseCtx.at p d cv).remain = p.length := rfl

@[simp] lemma at_stack : (XmlParseCtx.at p d cv).stack = d := rfl

@[simp] lemma at_cconv : (XmlParseCtx.at p d cv).cconv = cv := rfl

@[simp] lemma deref_cons (c : UInt8) : (XmlParseCtx.at (c :: p) d cv).deref = .ok c := rfl

end XmlParseCtx

@[simp] lemma except_ok_bind {ε α β : Type} (x : α) (f : α → Except ε β) :
    ((.ok x : Except ε α) >>= f) = f x := rfl

@[simp] lemma except_error_bind {ε α β : Type} (e : ε) (f : α → Except ε β) :
    ((.error e : Except ε α) >>= f) = .error e := rfl

@[simp] lemma xmlRequire_true : xmlRequire true = .ok () := rfl

@[simp] lemma xmlRequire_false : xmlRequire false = .error .failed := rfl

@[simp] lemma xmlRequire_cons (c : UInt8) (p : List UInt8) (d : ℕ) (cv : XmlCharset) :
    xmlRequire (0 < (XmlParseCtx.at (c :: p) d cv).remain) = .ok () := by
  simp [xmlRequire]

@[simp] lemma xmlRequire_nil (d : ℕ) (cv : XmlCharset) :
    xmlRequire (0 < (XmlParseCtx.at [] d cv).remain) = .error .failed := by
  simp [xmlRequire]

/-! ### The cursor -/

lemma xmlSkipSpacesLoop_eq : ∀ p : List UInt8, xmlSkipSpacesLoop p p.length
    = .ok (p.dropWhile xmlIsSpace, (p.dropWhile xmlIsSpace).length)
  | [] => by simp [xmlSkipSpacesLoop]
  | c :: p => by
      have ih := xmlSkipSpacesLoop_eq p
      have hpos : (0 : ℤ) < (p.length : ℤ) + 1 := by omega
      by_cases hc : xmlIsSpace c = true
      · simp [xmlSkipSpacesLoop, hc, hpos, ih]
      · simp [xmlSkipSpacesLoop, hc]

@[simp] lemma xmlSkipSpaces_at (p : List UInt8) (d : ℕ) (cv : XmlCharset) :
    xmlSkipSpaces (.at p d cv) = .ok (.at (p.dropWhile xmlIsSpace) d cv) := by
  simp [xmlSkipSpaces, xmlSkipSpacesLoop_eq]
  rfl

/-- Passing bytes that are there. -/
lemma xmlNextSub_at {u : List UInt8} {n : ℕ} (hn : u.length = n) (p : List UInt8) (d : ℕ)
    (cv : XmlCharset) :
    xmlNextSub (.at (u ++ p) d cv) n = .ok (.at p d cv, CString.ofBytes u) := by
  subst hn
  have hnot : ¬((u.length : ℤ) + p.length < u.length) := by omega
  simp [xmlNextSub, hnot, XmlParseCtx.at]

lemma xmlNextSub_short {p : List UInt8} {n : ℕ} (h : p.length < n) (d : ℕ) (cv : XmlCharset) :
    xmlNextSub (.at p d cv) n = .error .failed := by
  simp [xmlNextSub, h]

lemma xmlSkipSub_at {u : List UInt8} {n : ℕ} (hn : u.length = n) (p : List UInt8) (d : ℕ)
    (cv : XmlCharset) : xmlSkipSub (.at (u ++ p) d cv) n = .ok (.at p d cv) := by
  have hnot : ¬((u.length : ℤ) + p.length < n) := by omega
  simp [xmlSkipSub, xmlNextSub_at hn, hnot]

lemma xmlSkipSub_short {p : List UInt8} {n : ℕ} (h : p.length < n) (d : ℕ) (cv : XmlCharset) :
    xmlSkipSub (.at p d cv) n = .ok (.at p d cv) := by
  simp [xmlSkipSub, h]

@[simp] lemma xmlNextChar_cons (c : UInt8) (p : List UInt8) (d : ℕ) (cv : XmlCharset) :
    xmlNextChar (.at (c :: p) d cv) = .ok (.at p d cv, c) := by
  simp only [xmlNextChar, xmlRequire_cons, XmlParseCtx.deref_cons, except_ok_bind]
  simp [XmlParseCtx.at]

@[simp] lemma xmlNextChar_nil (d : ℕ) (cv : XmlCharset) :
    xmlNextChar (.at [] d cv) = .error .failed := by
  simp only [xmlNextChar, xmlRequire_nil, except_error_bind]

lemma xmlNextTokenLoop_eq (n : ℕ) : ∀ p buf : List UInt8, buf.length < n →
    xmlNextTokenLoop n p p.length buf =
      if buf.length + (p.takeWhile xmlIsToken).length < n then
        .ok (p.dropWhile xmlIsToken, (p.dropWhile xmlIsToken).length,
          buf ++ p.takeWhile xmlIsToken)
      else .error .failed
  | [], buf, h => by simp [xmlNextTokenLoop, h]
  | c :: p, buf, h => by
      have hpos : (0 : ℤ) < (p.length : ℤ) + 1 := by omega
      by_cases hc : xmlIsToken c = true
      · by_cases hn : n ≤ buf.length + 1
        · have hnot : ¬(buf.length + ((p.takeWhile xmlIsToken).length + 1) < n) := by omega
          simp [xmlNextTokenLoop, hc, hpos, hn, hnot]
        · have ih := xmlNextTokenLoop_eq n p (buf ++ [c]) (by simp; omega)
          have hlen : (buf ++ [c]).length + (p.takeWhile xmlIsToken).length
              = buf.length + ((p.takeWhile xmlIsToken).length + 1) := by simp; omega
          rw [hlen] at ih
          simp [xmlNextTokenLoop, hc, hpos, hn, ih]
      · simp [xmlNextTokenLoop, hc, h]

lemma zero_notMem_takeWhile_token (p : List UInt8) : (0 : UInt8) ∉ p.takeWhile xmlIsToken :=
  fun h => absurd (List.mem_takeWhile_imp h) (by decide)

/-- A run of bytes with a property, up to a byte without it. -/
lemma span_append {f : UInt8 → Bool} {u rest : List UInt8} (hu : ∀ c ∈ u, f c = true)
    (hrest : ∀ c ∈ rest.head?, f c = false) :
    (u ++ rest).takeWhile f = u ∧ (u ++ rest).dropWhile f = rest := by
  have hnil : rest.takeWhile f = [] ∧ rest.dropWhile f = rest := by
    cases rest with
    | nil => simp
    | cons c rest => simp [hrest c (by simp)]
  rw [List.takeWhile_append_of_pos hu, List.dropWhile_append_of_pos hu, hnil.1, hnil.2,
    List.append_nil]
  exact ⟨rfl, rfl⟩

/-- The token at the cursor, when it fits. -/
lemma xmlNextToken_at {n : ℕ} (hn : 0 < n) (p : List UInt8) (d : ℕ) (cv : XmlCharset) :
    xmlNextToken n (.at p d cv) =
      if (p.takeWhile xmlIsToken).length < n then
        .ok (.at (p.dropWhile xmlIsToken) d cv,
          ⟨p.takeWhile xmlIsToken, zero_notMem_takeWhile_token p⟩)
      else .error .failed := by
  have hrun := xmlNextTokenLoop_eq n p [] (by simpa using hn)
  simp only [List.length_nil, Nat.zero_add, List.nil_append] at hrun
  simp only [xmlNextToken, XmlParseCtx.at_pos, XmlParseCtx.at_remain, hrun]
  split
  · simp [XmlParseCtx.at, CString.ofBytes_of_notMem (zero_notMem_takeWhile_token p)]
  · rfl

/-! ### Searching -/

/-- The first `c`, when there is one. -/
lemma xmlFindChar_at {c : UInt8} {u : List UInt8} (hu : c ∉ u) (v : List UInt8) :
    xmlFindChar c (u ++ c :: v) (u ++ c :: v).length = .ok (some u.length) := by
  induction u with
  | nil => simp [xmlFindChar]
  | cons b u ih =>
      have hb : b ≠ c := fun h => hu (by simp [h])
      have hpos : (0 : ℤ) < ((u ++ c :: v).length : ℤ) + 1 := by omega
      have ih := ih fun h => hu (by simp [h])
      simp only [List.cons_append, List.length_cons, Nat.cast_add, Nat.cast_one, xmlFindChar,
        hpos, if_true, hb, if_false, Int.add_sub_cancel, ih, except_ok_bind, Option.map_some]

lemma xmlFindChar_none {c : UInt8} : ∀ {p : List UInt8}, c ∉ p →
    xmlFindChar c p p.length = .ok none
  | [], _ => by simp [xmlFindChar]
  | b :: p, h => by
      have hb : b ≠ c := fun h' => h (by simp [h'])
      have hpos : (0 : ℤ) < (p.length : ℤ) + 1 := by omega
      have ih := xmlFindChar_none fun h' => h (List.mem_cons_of_mem b h')
      simp only [List.length_cons, Nat.cast_add, Nat.cast_one, xmlFindChar, hpos, if_true, hb,
        if_false, Int.add_sub_cancel, ih, except_ok_bind, Option.map_none]

/-- A byte of a text splits it at its first place. -/
lemma split_at_first {c : UInt8} : ∀ {p : List UInt8}, c ∈ p → ∃ u v, p = u ++ c :: v ∧ c ∉ u
  | b :: p, h => by
      by_cases hb : b = c
      · exact ⟨[], p, by simp [hb], by simp⟩
      · obtain ⟨u, v, rfl, hu⟩ :=
          split_at_first ((List.mem_cons.mp h).resolve_left (Ne.symm hb))
        exact ⟨b :: u, v, rfl, by simp [Ne.symm hb, hu]⟩

lemma xmlStartsWith_at (p b : List UInt8) :
    xmlStartsWith p p.length b = .ok (decide (b <+: p)) := by
  rw [xmlStartsWith]
  split
  · rename_i hlt
    have hnot : ¬b <+: p := fun h => by
      have := h.length_le
      omega
    simp [hnot]
  · rename_i hlt
    rw [if_neg (by omega)]
    simp [List.prefix_iff_eq_take, eq_comm]

/-- The bytes before the first place of a needle. -/
def IsFirst (needle u : List UInt8) : Prop := ∀ x y, u ++ needle = x ++ needle ++ y → y = []

lemma IsFirst.not_prefix {needle u : List UInt8} {b : UInt8} (h : IsFirst needle (b :: u))
    (v : List UInt8) : ¬needle <+: b :: (u ++ needle ++ v) := by
  rintro ⟨w, hw⟩
  have hw : needle ++ w = b :: u ++ needle ++ v := by simpa using hw
  have hle : needle.length ≤ (b :: u ++ needle).length := by
    rw [List.length_append]
    omega
  have htake : (b :: u ++ needle).take needle.length = needle := by
    calc (b :: u ++ needle).take needle.length
        = (b :: u ++ needle ++ v).take needle.length := (List.take_append_of_le_length hle).symm
      _ = needle := by rw [← hw, List.take_left]
  have hsplit : b :: u ++ needle = [] ++ needle ++ (b :: u ++ needle).drop needle.length := by
    rw [List.nil_append]
    nth_rewrite 2 [← htake]
    exact (List.take_append_drop ..).symm
  have hlen := congrArg List.length (h _ _ hsplit)
  simp only [List.length_drop, List.length_append, List.length_cons, List.length_nil] at hlen
  omega

lemma IsFirst.tail {needle u : List UInt8} {b : UInt8} (h : IsFirst needle (b :: u)) :
    IsFirst needle u := by
  intro x y hxy
  exact h (b :: x) y (by simp [hxy])

lemma xmlFindStr_first {needle : List UInt8} : ∀ {u : List UInt8}, IsFirst needle u →
    ∀ v : List UInt8, xmlFindStr needle (u ++ needle ++ v) (u ++ needle ++ v).length
      = .ok (some u.length)
  | [], _, v => by
      have hprefix : needle <+: needle ++ v := List.prefix_append ..
      rw [List.nil_append]
      cases hp : needle ++ v with
      | nil =>
          rw [hp] at hprefix
          simp only [xmlFindStr, xmlStartsWith_at, hprefix, decide_true, except_ok_bind, if_true]
          rfl
      | cons b s =>
          rw [hp] at hprefix
          simp only [xmlFindStr, xmlStartsWith_at, hprefix, decide_true, except_ok_bind, if_true]
          rfl
  | b :: u, h, v => by
      have ih := xmlFindStr_first h.tail v
      have hnot := h.not_prefix v
      have hlen : ¬(((b :: (u ++ needle ++ v)).length : ℤ) < needle.length) := by
        simp
        omega
      simp only [List.cons_append, xmlFindStr, xmlStartsWith_at, hnot, decide_false,
        except_ok_bind, Bool.false_eq_true, if_false, hlen]
      simp only [List.length_cons, Nat.cast_add, Nat.cast_one, Int.add_sub_cancel] at ih ⊢
      rw [ih]
      rfl

lemma xmlFindStr_none {needle : List UInt8} : ∀ {p : List UInt8},
    (∀ u v, p ≠ u ++ needle ++ v) → xmlFindStr needle p p.length = .ok none
  | [], h => by
      have hnot : ¬needle <+: [] := fun ⟨w, hw⟩ => h [] w (by simp [hw])
      simp only [xmlFindStr, xmlStartsWith_at, hnot, decide_false, except_ok_bind,
        Bool.false_eq_true, if_false]
  | b :: p, h => by
      have hnot : ¬needle <+: b :: p := fun ⟨w, hw⟩ => h [] w (by simp [hw])
      have ih := xmlFindStr_none fun (u v) (huv : p = u ++ needle ++ v) => h (b :: u) v (by simp [huv])
      simp only [xmlFindStr, xmlStartsWith_at, hnot, decide_false, except_ok_bind,
        Bool.false_eq_true, if_false]
      split
      · rfl
      · simp only [List.length_cons, Nat.cast_add, Nat.cast_one, Int.add_sub_cancel, ih,
          except_ok_bind, Option.map_none]

/-- The first place of a needle that a text holds. -/
lemma exists_isFirst (needle p : List UInt8) :
    (∃ u v, p = u ++ needle ++ v ∧ IsFirst needle u) ∨ ∀ u v, p ≠ u ++ needle ++ v := by
  by_cases hex : ∃ n u v, u.length = n ∧ p = u ++ needle ++ v
  · classical
    obtain ⟨u, v, hn, hp⟩ := Nat.find_spec hex
    refine .inl ⟨u, v, hp, fun x y hxy => ?_⟩
    have hle := Nat.find_min' hex ⟨x, y ++ v, rfl, by rw [hp, hxy]; simp⟩
    have hlen := congrArg List.length hxy
    simp only [List.length_append] at hlen
    exact List.length_eq_zero_iff.mp (by omega)
  · exact .inr fun u v hp => hex ⟨u.length, u, v, rfl, hp⟩

/-! ### Entities -/

lemma xmlReference_cases (keybuf : List UInt8) :
    (∃ v, xmlReference keybuf = .ok v) ∨ xmlReference keybuf = .error .failed := by
  unfold xmlReference
  split
  · split
    · split_ifs
      · exact .inr rfl
      · exact .inl ⟨_, rfl⟩
    · exact .inr rfl
  · split
    · exact .inl ⟨_, rfl⟩
    · exact .inr rfl

lemma xmlUnescapeLoop_cases : ∀ (fuel : ℕ) (p dest : List UInt8), p.length < fuel →
    (∃ v, xmlUnescapeLoop fuel p dest = .ok v) ∨ xmlUnescapeLoop fuel p dest = .error .failed
  | fuel + 1, p, dest, hfuel => by
      rw [xmlUnescapeLoop]
      split
      · exact .inl ⟨_, rfl⟩
      · rename_i before q hq
        have hqlen := strchrSplit_length hq
        split
        · exact .inr rfl
        · rename_i keybuf r hr
          have hrlen := strchrSplit_length hr
          split
          · rcases xmlReference_cases keybuf with ⟨v, hv⟩ | hv
            · rw [hv, except_ok_bind]
              exact xmlUnescapeLoop_cases fuel r _ (by simp only at hqlen hrlen; omega)
            · exact .inr (by rw [hv, except_error_bind])
          · exact .inr rfl

/-- Unescaping gives a result or fails. -/
lemma xmlUnescape_cases (dest src : List UInt8) (cv : XmlCharset) :
    (∃ v, xmlUnescape dest src cv = .ok v) ∨ xmlUnescape dest src cv = .error .failed := by
  rcases xmlUnescapeLoop_cases (src.length + 1) src dest (by omega) with ⟨v, hv⟩ | hv
  · exact .inl ⟨_, by rw [xmlUnescape, hv, except_ok_bind]⟩
  · exact .inr (by rw [xmlUnescape, hv, except_error_bind])

/-! ### Attributes -/

lemma xmlQuotedValue_cases (p : List UInt8) (d : ℕ) (cv : XmlCharset) :
    (∃ q v, xmlQuotedValue (.at p d cv) = .ok (.at q d cv, v) ∧ q <:+ p) ∨
      xmlQuotedValue (.at p d cv) = .error .failed := by
  cases p with
  | nil => exact .inr (by rw [xmlQuotedValue, xmlNextChar_nil, except_error_bind])
  | cons c p =>
      simp only [xmlQuotedValue, xmlNextChar_cons, except_ok_bind, XmlParseCtx.at_pos,
        XmlParseCtx.at_remain]
      by_cases hc : c ∈ p
      · obtain ⟨u, v, rfl, hu⟩ := split_at_first hc
        rw [xmlFindChar_at hu, except_ok_bind]
        by_cases hlen : 1024 ≤ u.length
        · exact .inr (by simp only [hlen, if_true])
        · simp only [hlen, if_false]
          rw [List.append_cons, xmlNextSub_at (by simp), except_ok_bind]
          exact .inl ⟨v, _, rfl, List.suffix_append (c :: (u ++ [c])) v⟩
      · exact .inr (by rw [xmlFindChar_none hc, except_ok_bind])

lemma xmlAttributeValue_cases (p : List UInt8) (d : ℕ) (cv : XmlCharset) :
    (∃ q v, xmlAttributeValue (.at p d cv) = .ok (.at q d cv, v) ∧ q <:+ p) ∨
      xmlAttributeValue (.at p d cv) = .error .failed := by
  have hsuffix := List.dropWhile_suffix xmlIsSpace (l := p)
  rw [xmlAttributeValue, xmlSkipSpaces_at, except_ok_bind]
  cases hp : p.dropWhile xmlIsSpace with
  | nil => exact .inr (by rw [xmlRequire_nil, except_error_bind])
  | cons c q =>
      rw [hp] at hsuffix
      rw [xmlRequire_cons, except_ok_bind, XmlParseCtx.deref_cons, except_ok_bind]
      split
      · rw [← List.singleton_append, xmlNextSub_at (n := 1) (u := [c]) rfl, except_ok_bind]
        simp only [xmlSkipSpaces_at, except_ok_bind]
        rcases xmlQuotedValue_cases (q.dropWhile xmlIsSpace) d cv with ⟨r, v, hr, hle⟩ | hr
        · exact .inl ⟨r, v, hr, (hle.trans (List.dropWhile_suffix _)).trans
            ((List.suffix_cons c q).trans hsuffix)⟩
        · exact .inr hr
      · exact .inl ⟨c :: q, _, rfl, hsuffix⟩

/-- An attribute is read, with progress, or its reading fails. -/
lemma xmlParseAttribute_cases (p : List UInt8) (d : ℕ) (cv : XmlCharset) :
    (∃ q k v, xmlParseAttribute (.at p d cv) = .ok (.at q d cv, k, v) ∧ q <:+ p ∧
      q.length < p.length) ∨ xmlParseAttribute (.at p d cv) = .error .failed := by
  simp only [xmlParseAttribute, xmlNextToken_at (show 0 < 1024 by decide), XmlParseCtx.at_pos]
  split
  · rw [except_ok_bind]
    rcases xmlAttributeValue_cases (p.dropWhile xmlIsToken) d cv with ⟨q, v, hq, hle⟩ | hq
    · have hsuffix : q.dropWhile xmlIsSpace <:+ p :=
        ((List.dropWhile_suffix _).trans hle).trans (List.dropWhile_suffix _)
      simp only [hq, except_ok_bind, stringCreateInternal, Nat.add_eq_zero_iff, one_ne_zero,
        and_false, if_false, xmlUse, XmlParseCtx.at_cconv, xmlSkipSpaces_at, XmlParseCtx.at_pos]
      rcases xmlUnescape_cases [] v.1 cv with ⟨w, hw⟩ | hw
      · simp only [hw, except_ok_bind]
        by_cases hprog : q.dropWhile xmlIsSpace = p
        · exact .inr (if_pos hprog)
        · refine .inl ⟨_, _, _, if_neg hprog, hsuffix, ?_⟩
          exact lt_of_le_of_ne hsuffix.length_le fun hlen => hprog (hsuffix.eq_of_length hlen)
      · exact .inr (by rw [hw, except_error_bind])
    · exact .inr (by rw [hq, except_error_bind])
  · exact .inr (except_error_bind _ _)

lemma xmlAttributesLoop_cases (d : ℕ) (cv : XmlCharset) :
    ∀ (fuel : ℕ) (p : List UInt8) (attributes : OrderedMap CString (List UInt8)),
      p.length < fuel →
      (∃ q as, xmlAttributesLoop fuel (.at p d cv) attributes = .ok (.at q d cv, as) ∧ q <:+ p) ∨
        xmlAttributesLoop fuel (.at p d cv) attributes = .error .failed
  | fuel + 1, [], attributes, _ => by
      exact .inl ⟨[], attributes, by simp [xmlAttributesLoop], List.suffix_rfl⟩
  | fuel + 1, c :: p, attributes, hfuel => by
      have hpos : (0 : ℤ) < (c :: p).length := by simp
      simp only [xmlAttributesLoop, XmlParseCtx.at_remain, hpos, if_true, XmlParseCtx.deref_cons,
        except_ok_bind]
      split
      · exact .inl ⟨c :: p, attributes, rfl, List.suffix_rfl⟩
      · rcases xmlParseAttribute_cases (c :: p) d cv with ⟨q, k, v, hq, hsuffix, hlt⟩ | hq
        · rw [hq, except_ok_bind]
          rcases xmlAttributesLoop_cases d cv fuel q (attributes.put k v) (by omega) with
            ⟨r, as, hr, hle⟩ | hr
          · exact .inl ⟨r, as, hr, hle.trans hsuffix⟩
          · exact .inr hr
        · exact .inr (by rw [hq, except_error_bind])

/-- The attributes are read up to a place in the text, or their reading fails. -/
lemma xmlParseAttributes_cases (p : List UInt8) (d : ℕ) (cv : XmlCharset) :
    (∃ c q as, xmlParseAttributes (.at p d cv) = .ok (.at (c :: q) d cv, as) ∧ c :: q <:+ p) ∨
      xmlParseAttributes (.at p d cv) = .error .failed := by
  simp only [xmlParseAttributes, xmlSkipSpaces_at, except_ok_bind, XmlParseCtx.at_remain,
    Int.toNat_natCast]
  rcases xmlAttributesLoop_cases d cv ((p.dropWhile xmlIsSpace).length + 1)
    (p.dropWhile xmlIsSpace) .empty (by omega) with ⟨q, as, hq, hsuffix⟩ | hq
  · simp only [hq, except_ok_bind]
    cases q with
    | nil => exact .inr (by rw [xmlRequire_nil, except_error_bind])
    | cons c q =>
        exact .inl ⟨c, q, as, by rw [xmlRequire_cons, except_ok_bind],
          hsuffix.trans (List.dropWhile_suffix _)⟩
  · exact .inr (by rw [hq, except_error_bind])

end LibCmutils
