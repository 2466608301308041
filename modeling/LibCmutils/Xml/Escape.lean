import LibCmutils.Xml.Scanner

/-!
Escaped text and printed attributes are read back (`src/nanoxml.c`).

* `xmlUnescape_escaped`: unescaping undoes escaping on text without a NUL.
* `XmlAttributeOk`: the attributes that the parser has room for.
* `xmlParseAttributes_build`: the printed attributes of a tag are read back in their order.
-/

namespace LibCmutils

/-! ### Escapes -/

/-- The escape of a byte is an entity that stands for it. -/
lemma xmlEscapeStr_spec : ∀ c : UInt8, ∀ q, xmlEscapeStr c = some q →
    ∃ keybuf, q = 0x26 :: (keybuf ++ [0x3B]) ∧ 0x3B ∉ keybuf ∧ (0 : UInt8) ∉ keybuf ∧
      keybuf.length + 1 < 20 ∧ xmlReference keybuf = .ok [c] := by
  intro c q h
  unfold xmlEscapeStr at h
  split_ifs at h with h1 h2 h3 h4 h5
  · obtain rfl := Option.some.inj h
    exact ⟨[0x71, 0x75, 0x6F, 0x74], rfl, by simp, by simp, by simp, by rw [h1]; rfl⟩
  · obtain rfl := Option.some.inj h
    exact ⟨[0x61, 0x6D, 0x70], rfl, by simp, by simp, by simp, by rw [h2]; rfl⟩
  · obtain rfl := Option.some.inj h
    exact ⟨[0x61, 0x70, 0x6F, 0x73], rfl, by simp, by simp, by simp, by rw [h3]; rfl⟩
  · obtain rfl := Option.some.inj h
    exact ⟨[0x6C, 0x74], rfl, by simp, by simp, by simp, by rw [h4]; rfl⟩
  · obtain rfl := Option.some.inj h
    exact ⟨[0x67, 0x74], rfl, by simp, by simp, by simp, by rw [h5]; rfl⟩

/-- Text that needs no escape. -/
lemma xmlEscape_plain {s : List UInt8} (h0 : (0 : UInt8) ∉ s)
    (hs : ∀ c ∈ s, xmlEscapeStr c = none) (rest : List UInt8) :
    xmlEscape (s ++ rest) = s ++ xmlEscape rest := by
  induction s with
  | nil => rfl
  | cons c s ih =>
      have hc0 : c ≠ 0 := fun h => h0 (by simp [h])
      rw [List.cons_append, xmlEscape, if_neg hc0, xmlEscapeByte, hs c (by simp),
        ih (fun h => h0 (by simp [h])) fun b hb => hs b (by simp [hb])]
      rfl

/-- The first byte that is escaped. -/
lemma exists_escaped (s : List UInt8) : (∀ c ∈ s, xmlEscapeStr c = none) ∨
    ∃ u c v q, s = u ++ c :: v ∧ (∀ b ∈ u, xmlEscapeStr b = none) ∧ xmlEscapeStr c = some q := by
  induction s with
  | nil => exact .inl (by simp)
  | cons c s ih =>
      cases hc : xmlEscapeStr c with
      | some q => exact .inr ⟨[], c, s, q, rfl, by simp, hc⟩
      | none =>
          rcases ih with hall | ⟨u, b, v, q, rfl, hu, hb⟩
          · exact .inl (by simpa [hc] using hall)
          · exact .inr ⟨c :: u, b, v, q, rfl, by simpa [hc] using hu, hb⟩

lemma xmlUnescapeLoop_xmlEscape : ∀ (fuel : ℕ) (s dest : List UInt8), (0 : UInt8) ∉ s →
    (xmlEscape s).length < fuel → xmlUnescapeLoop fuel (xmlEscape s) dest = .ok (dest ++ s)
  | fuel + 1, s, dest, h0, hfuel => by
      have hamp : ∀ u : List UInt8, (∀ b ∈ u, xmlEscapeStr b = none) → 0x26 ∉ u :=
        fun u hu h => absurd (hu 0x26 h) (by decide)
      rcases exists_escaped s with hplain | ⟨u, c, v, q, rfl, hu, hc⟩
      · have hs : xmlEscape s = s := by simpa [xmlEscape] using xmlEscape_plain h0 hplain []
        rw [hs, xmlUnescapeLoop, strchrSplit_none (hamp s hplain)]
        cases s with
        | nil => simp
        | cons b s =>
            have hb : b ≠ 0 := fun h => h0 (by simp [h])
            simp [hb]
      · have hu0 : (0 : UInt8) ∉ u := fun h => h0 (by simp [h])
        have hc0 : c ≠ 0 := fun h => h0 (by simp [h])
        have hv0 : (0 : UInt8) ∉ v := fun h => h0 (by simp [h])
        obtain ⟨keybuf, rfl, hsemi, hk0, hlen, href⟩ := xmlEscapeStr_spec c q hc
        have htext : xmlEscape (u ++ c :: v)
            = u ++ 0x26 :: (keybuf ++ 0x3B :: xmlEscape v) := by
          rw [xmlEscape_plain hu0 hu, xmlEscape, if_neg hc0, xmlEscapeByte, hc]
          simp
        have hv : (xmlEscape v).length < fuel := by
          rw [htext] at hfuel
          simp only [List.length_append, List.length_cons] at hfuel
          omega
        rw [htext, xmlUnescapeLoop, strchrSplit_append (hamp u hu) hu0]
        simp only [strchrSplit_append hsemi hk0, hlen, if_true, href, except_ok_bind]
        rw [xmlUnescapeLoop_xmlEscape fuel v _ hv0 hv]
        simp

/-- Unescaping undoes escaping. -/
lemma xmlUnescape_escaped (dest : List UInt8) {s : List UInt8} (h0 : (0 : UInt8) ∉ s) :
    xmlUnescape dest (xmlEscape s) none = .ok (dest ++ s) := by
  rw [xmlUnescape, xmlUnescapeLoop_xmlEscape _ s dest h0 (by omega), except_ok_bind]
  rfl

/-! ### Attributes -/

/-- An attribute that the parser has room for. -/
structure XmlAttributeOk (e : CString × List UInt8) : Prop where
  name_token : ∀ c ∈ e.1.1, xmlIsToken c = true
  name_length : e.1.1.length < 1024
  value_bytes : (0 : UInt8) ∉ e.2
  value_length : (xmlEscape e.2).length < 1024

/-- The text of an attribute, from its name on. -/
def xmlAttributeText (e : CString × List UInt8) : List UInt8 :=
  e.1.1 ++ 0x3D :: 0x22 :: (xmlEscape e.2 ++ [0x22])

set_option maxRecDepth 8000 in
lemma zero_notMem_xmlEscape : ∀ s, (0 : UInt8) ∉ xmlEscape s
  | [] => by simp [xmlEscape]
  | c :: s => by
      have hbyte : ∀ c : UInt8, c ≠ 0 → (xmlEscapeByte c).all (· != 0) = true := by decide
      rw [xmlEscape]
      split
      · simp
      · rename_i hc
        rw [List.mem_append]
        rintro (h | h)
        · exact absurd (List.all_eq_true.mp (hbyte c hc) 0 h) (by decide)
        · exact zero_notMem_xmlEscape s h

variable {e : CString × List UInt8} {rest : List UInt8} {c : UInt8} (d : ℕ)

set_option maxRecDepth 8000 in
/-- The first byte of an attribute is no space, and none that ends the tag. -/
lemma xmlAttributeText_head (he : XmlAttributeOk e) :
    ∃ c p, xmlAttributeText e = c :: p ∧ xmlIsSpace c = false ∧ strchr [0x2F, 0x3E] c = false := by
  have htoken : ∀ c : UInt8, xmlIsToken c = true →
      xmlIsSpace c = false ∧ strchr [0x2F, 0x3E] c = false := by decide
  cases hname : e.1.1 with
  | nil => exact ⟨0x3D, _, by rw [xmlAttributeText, hname]; rfl, rfl, rfl⟩
  | cons c p =>
      exact ⟨c, _, by rw [xmlAttributeText, hname]; rfl,
        htoken c (he.name_token c (by simp [hname]))⟩

lemma xmlQuotedValue_escaped (he : XmlAttributeOk e) :
    xmlQuotedValue (.at (0x22 :: (xmlEscape e.2 ++ 0x22 :: rest)) d none)
      = .ok (.at rest d none, ⟨xmlEscape e.2, zero_notMem_xmlEscape e.2⟩) := by
  have hquote : 0x22 ∉ xmlEscape e.2 := notMem_xmlEscape (by decide) e.2
  have hlen : ¬1024 ≤ (xmlEscape e.2).length := not_le.mpr he.value_length
  have hsub : xmlNextSub (.at (xmlEscape e.2 ++ 0x22 :: rest) d none) ((xmlEscape e.2).length + 1)
      = .ok (.at rest d none, CString.ofBytes (xmlEscape e.2 ++ [0x22])) := by
    rw [List.append_cons]
    exact xmlNextSub_at (by simp) rest d none
  simp only [xmlQuotedValue, xmlNextChar_cons, except_ok_bind, XmlParseCtx.at_pos,
    XmlParseCtx.at_remain, xmlFindChar_at hquote, hlen, if_false, List.take_left, hsub,
    CString.ofBytes_of_notMem (zero_notMem_xmlEscape e.2)]

lemma xmlAttributeValue_escaped (he : XmlAttributeOk e) :
    xmlAttributeValue (.at (0x3D :: 0x22 :: (xmlEscape e.2 ++ 0x22 :: rest)) d none)
      = .ok (.at rest d none, ⟨xmlEscape e.2, zero_notMem_xmlEscape e.2⟩) := by
  have hspace : (0x3D :: 0x22 :: (xmlEscape e.2 ++ 0x22 :: rest)).dropWhile xmlIsSpace
      = 0x3D :: 0x22 :: (xmlEscape e.2 ++ 0x22 :: rest) := rfl
  have hspace' : (0x22 :: (xmlEscape e.2 ++ 0x22 :: rest)).dropWhile xmlIsSpace
      = 0x22 :: (xmlEscape e.2 ++ 0x22 :: rest) := rfl
  have hsub := xmlNextSub_at (u := [0x3D]) (n := 1) rfl (0x22 :: (xmlEscape e.2 ++ 0x22 :: rest)) d
    none
  rw [List.singleton_append] at hsub
  simp only [xmlAttributeValue, xmlSkipSpaces_at, hspace, except_ok_bind, xmlRequire_cons,
    XmlParseCtx.deref_cons, if_true, hsub, hspace', xmlQuotedValue_escaped d he]

/-- A printed attribute is read back. -/
lemma xmlParseAttribute_text (he : XmlAttributeOk e) (rest : List UInt8) :
    xmlParseAttribute (.at (xmlAttributeText e ++ rest) d none)
      = .ok (.at (rest.dropWhile xmlIsSpace) d none, e.1, e.2) := by
  have htext : xmlAttributeText e ++ rest
      = e.1.1 ++ 0x3D :: 0x22 :: (xmlEscape e.2 ++ 0x22 :: rest) := by simp [xmlAttributeText]
  have hspan : (xmlAttributeText e ++ rest).takeWhile xmlIsToken = e.1.1 ∧
      (xmlAttributeText e ++ rest).dropWhile xmlIsToken
        = 0x3D :: 0x22 :: (xmlEscape e.2 ++ 0x22 :: rest) := by
    rw [htext]
    exact span_append he.name_token (by simp; rfl)
  have hprog : rest.dropWhile xmlIsSpace ≠ xmlAttributeText e ++ rest := by
    intro h
    have hle := (List.dropWhile_suffix xmlIsSpace (l := rest)).length_le
    rw [h, htext] at hle
    simp only [List.length_append, List.length_cons] at hle
    omega
  simp only [xmlParseAttribute, xmlNextToken_at (show 0 < 1024 by decide), hspan.1, hspan.2,
    he.name_length, if_true, except_ok_bind, xmlAttributeValue_escaped d he, stringCreateInternal,
    Nat.add_eq_zero_iff, one_ne_zero, and_false, if_false, xmlUse, XmlParseCtx.at_cconv,
    xmlUnescape_escaped [] he.value_bytes, xmlSkipSpaces_at, XmlParseCtx.at_pos, hprog,
    List.nil_append]

/-- The printed attributes, with the space before each. -/
def xmlAttributesText (es : List (CString × List UInt8)) : List UInt8 :=
  es.flatMap fun e => 0x20 :: xmlAttributeText e

lemma xmlAttributesText_cons (es : List (CString × List UInt8)) (rest : List UInt8) :
    xmlAttributesText (e :: es) ++ rest
      = 0x20 :: (xmlAttributeText e ++ (xmlAttributesText es ++ rest)) := by
  simp [xmlAttributesText]

lemma xmlAttributesLoop_text (hc : c = 0x2F ∨ c = 0x3E) (rest : List UInt8) :
    ∀ (es : List (CString × List UInt8)) (fuel : ℕ) (attributes : OrderedMap CString (List UInt8)),
      (∀ e ∈ es, XmlAttributeOk e) →
      ((xmlAttributesText es ++ c :: rest).dropWhile xmlIsSpace).length < fuel →
      xmlAttributesLoop fuel (.at ((xmlAttributesText es ++ c :: rest).dropWhile xmlIsSpace) d none)
        attributes = .ok (.at (c :: rest) d none, attributes.putAll es)
  | [], fuel + 1, attributes, _, _ => by
      have hspace : (xmlAttributesText [] ++ c :: rest).dropWhile xmlIsSpace = c :: rest := by
        rcases hc with rfl | rfl <;> rfl
      have hstop : strchr [0x2F, 0x3E] c = true := by rcases hc with rfl | rfl <;> rfl
      have hpos : (0 : ℤ) < (c :: rest).length := by simp
      simp only [hspace, xmlAttributesLoop, XmlParseCtx.at_remain, hpos, if_true,
        XmlParseCtx.deref_cons, except_ok_bind, hstop]
      rfl
  | e :: es, fuel + 1, attributes, hes, hfuel => by
      obtain ⟨b, p, htext, hspace, hstop⟩ := xmlAttributeText_head (hes e (by simp))
      have ih := xmlAttributesLoop_text hc rest es fuel (attributes.put e.1 e.2)
        fun e he => hes e (by simp [he])
      have hattr := xmlParseAttribute_text d (hes e (by simp)) (xmlAttributesText es ++ c :: rest)
      have hle := (List.dropWhile_suffix xmlIsSpace
        (l := xmlAttributesText es ++ c :: rest)).length_le
      have hdrop : (xmlAttributesText (e :: es) ++ c :: rest).dropWhile xmlIsSpace
          = b :: (p ++ (xmlAttributesText es ++ c :: rest)) := by
        rw [xmlAttributesText_cons, List.dropWhile_cons_of_pos (by rfl), htext, List.cons_append,
          List.dropWhile_cons_of_neg (by simp [hspace])]
      have hpos : (0 : ℤ) < (b :: (p ++ (xmlAttributesText es ++ c :: rest))).length := by
        rw [List.length_cons]
        omega
      rw [hdrop, List.length_cons, List.length_append] at hfuel
      rw [htext, List.cons_append] at hattr
      simp only [hdrop, xmlAttributesLoop, XmlParseCtx.at_remain, hpos, if_true,
        XmlParseCtx.deref_cons, except_ok_bind, hstop, Bool.false_eq_true, if_false, hattr]
      exact ih (by omega)

/-- The printed attributes of a tag are read back. -/
lemma xmlParseAttributes_build {attributes : OrderedMap CString (List UInt8)}
    (hes : ∀ e ∈ attributes.entries, XmlAttributeOk e) (hc : c = 0x2F ∨ c = 0x3E) :
    xmlParseAttributes (.at (xmlBuildAttribute attributes ++ c :: rest) d none)
      = .ok (.at (c :: rest) d none, attributes) := by
  have htext : xmlBuildAttribute attributes = xmlAttributesText attributes.entries := by
    simp [xmlBuildAttribute, xmlAttributesText, xmlAttributeText]
  have hrun := xmlAttributesLoop_text d hc rest attributes.entries
    (((xmlAttributesText attributes.entries ++ c :: rest).dropWhile xmlIsSpace).length + 1) .empty
    hes (by omega)
  rw [OrderedMap.putAll_empty] at hrun
  simp only [htext, xmlParseAttributes, xmlSkipSpaces_at, except_ok_bind, XmlParseCtx.at_remain,
    Int.toNat_natCast, hrun]
  simp [xmlRequire]

end LibCmutils
