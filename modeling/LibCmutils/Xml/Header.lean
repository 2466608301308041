import LibCmutils.Xml.Scanner

/-!
The XML declaration (`src/nanoxml.c`).

* `xmlParseHeader_cases`: the header ends at a place of the text, or fails.
* `PseudoAttribute`, `XmlDecl`: a declaration with its quotes and white space.
* `HeaderInStep`: the declarations that the loop of the header stays in step with. It takes
  a token, two bytes, a token and one byte a round, and skips no space after a value, so it
  sees an attribute only after a gap whose length is a multiple of three.
* `xmlHeader_iff`: these are the headers that are read as they stand.
-/

namespace LibCmutils

/-! ### The header ends -/

section Cases

variable (d : ℕ) (cv : XmlCharset)

lemma xmlSkipSub_cases (p : List UInt8) (n : ℕ) :
    ∃ q, xmlSkipSub (.at p d cv) n = .ok (.at q d cv) ∧ q <:+ p := by
  by_cases h : p.length < n
  · exact ⟨p, xmlSkipSub_short h d cv, List.suffix_rfl⟩
  · have hlen : (p.take n).length = n := by simp; omega
    have hskip := xmlSkipSub_at hlen (p.drop n) d cv
    rw [List.take_append_drop] at hskip
    exact ⟨p.drop n, hskip, List.drop_suffix n p⟩

lemma xmlNextSub_cases (p : List UInt8) (n : ℕ) :
    (∃ q s, xmlNextSub (.at p d cv) n = .ok (.at q d cv, s) ∧ q <:+ p ∧ q.length + n = p.length) ∨
      p.length < n ∧ xmlNextSub (.at p d cv) n = .error .failed := by
  by_cases h : p.length < n
  · exact .inr ⟨h, xmlNextSub_short h d cv⟩
  · have hlen : (p.take n).length = n := by simp; omega
    have hsub := xmlNextSub_at hlen (p.drop n) d cv
    rw [List.take_append_drop] at hsub
    exact .inl ⟨p.drop n, _, hsub, List.drop_suffix n p, by simp; omega⟩

lemma xmlHeaderEntry_cases (p : List UInt8) (name value e : CString) :
    (∃ q e', xmlHeaderEntry (.at p d cv) name value e = .ok (.at q d cv, e') ∧ q <:+ p) ∨
      xmlHeaderEntry (.at p d cv) name value e = .error .failed := by
  rw [xmlHeaderEntry]
  split
  · by_cases hmark : 0x3F ∈ p
    · obtain ⟨u, v, rfl, hu⟩ := split_at_first hmark
      simp only [XmlParseCtx.at_pos, XmlParseCtx.at_remain, xmlFindChar_at hu, except_ok_bind]
      split
      · exact .inr rfl
      · rw [xmlSkipSub_at rfl, except_ok_bind]
        exact .inl ⟨_, _, rfl, List.suffix_append ..⟩
    · simp only [XmlParseCtx.at_pos, XmlParseCtx.at_remain, xmlFindChar_none hmark,
        except_ok_bind]
      exact .inr trivial
  · obtain ⟨q, hq, hsuffix⟩ := xmlSkipSub_cases d cv p 1
    rw [hq, except_ok_bind]
    exact .inl ⟨q, e, rfl, hsuffix⟩

/-- A round makes progress or fails. -/
lemma xmlHeaderRound_cases (p : List UInt8) (e : CString) :
    (∃ q e', xmlHeaderRound (.at p d cv) e = .ok (.at q d cv, e') ∧ q <:+ p ∧
      q.length < p.length) ∨ xmlHeaderRound (.at p d cv) e = .error .failed := by
  simp only [xmlHeaderRound, xmlNextToken_at (show 0 < 64 by decide)]
  split
  · have htoken := List.dropWhile_suffix xmlIsToken (l := p)
    rcases xmlNextSub_cases d cv (p.dropWhile xmlIsToken) 2 with ⟨q, s, hq, hsuffix, hlen⟩ | ⟨-, hq⟩
    · simp only [hq, except_ok_bind, xmlNextToken_at (show 0 < 64 by decide)]
      split
      · rw [except_ok_bind]
        rcases xmlHeaderEntry_cases d cv (q.dropWhile xmlIsToken) _ _ e with ⟨r, e', hr, hle⟩ | hr
        · have hrest : r <:+ q := hle.trans (List.dropWhile_suffix _)
          have h1 := hrest.length_le
          have h2 := htoken.length_le
          exact .inl ⟨r, e', hr, hrest.trans (hsuffix.trans htoken), by omega⟩
        · exact .inr hr
      · exact .inr (except_error_bind _ _)
    · simp only [hq, except_ok_bind, except_error_bind]
      exact .inr trivial
  · exact .inr (except_error_bind _ _)

lemma xmlHeaderLoop_cases : ∀ (fuel : ℕ) (p : List UInt8) (e : CString), p.length < fuel →
    (∃ q e', xmlHeaderLoop fuel (.at p d cv) e = .ok (.at q d cv, e') ∧ q <:+ p) ∨
      xmlHeaderLoop fuel (.at p d cv) e = .error .failed
  | fuel + 1, [], e, _ => .inl ⟨[], e, by simp [xmlHeaderLoop], List.suffix_rfl⟩
  | fuel + 1, c :: p, e, hfuel => by
      have hpos : (0 : ℤ) < (c :: p).length := by simp
      simp only [xmlHeaderLoop, XmlParseCtx.at_remain, hpos, if_true, XmlParseCtx.deref_cons,
        except_ok_bind]
      split
      · exact .inl ⟨c :: p, e, rfl, List.suffix_rfl⟩
      · rcases xmlHeaderRound_cases d cv (c :: p) e with ⟨q, e', hq, hsuffix, hlt⟩ | hq
        · rw [hq, except_ok_bind]
          rcases xmlHeaderLoop_cases fuel q e' (by omega) with ⟨r, e'', hr, hle⟩ | hr
          · exact .inl ⟨r, e'', hr, hle.trans hsuffix⟩
          · exact .inr hr
        · exact .inr (by rw [hq, except_error_bind])

/-- The fuel makes no difference. -/
lemma xmlHeaderLoop_fuel : ∀ (fuel fuel' : ℕ) (p : List UInt8) (e : CString), p.length < fuel →
    p.length < fuel' →
    xmlHeaderLoop fuel (.at p d cv) e = xmlHeaderLoop fuel' (.at p d cv) e
  | fuel + 1, fuel' + 1, [], e, _, _ => by simp [xmlHeaderLoop]
  | fuel + 1, fuel' + 1, c :: p, e, h, h' => by
      have hpos : (0 : ℤ) < (c :: p).length := by simp
      simp only [xmlHeaderLoop, XmlParseCtx.at_remain, hpos, if_true, XmlParseCtx.deref_cons,
        except_ok_bind]
      split
      · rfl
      · rcases xmlHeaderRound_cases d cv (c :: p) e with ⟨q, e', hq, -, hlt⟩ | hq
        · rw [hq, except_ok_bind, except_ok_bind]
          exact xmlHeaderLoop_fuel fuel fuel' q e' (by omega) (by omega)
        · rw [hq, except_error_bind, except_error_bind]

/-- The header ends at a place of the text or fails. -/
lemma xmlParseHeader_cases (p : List UInt8) (e : CString) :
    (∃ q e', xmlParseHeader (.at p d cv) e = .ok (.at q d cv, e') ∧ q <:+ p) ∨
      xmlParseHeader (.at p d cv) e = .error .failed := by
  have hspace := List.dropWhile_suffix xmlIsSpace (l := p)
  simp only [xmlParseHeader, xmlSkipSpaces_at, except_ok_bind]
  rcases xmlNextSub_cases d cv (p.dropWhile xmlIsSpace) 2 with ⟨q, s, hq, hsuffix, -⟩ | ⟨-, hq⟩
  · simp only [hq, except_ok_bind]
    split
    · simp only [xmlSkipSpaces_at, except_ok_bind, xmlNextToken_at (show 0 < 64 by decide)]
      split
      · simp only [except_ok_bind, xmlSkipSpaces_at, XmlParseCtx.at_remain, Int.toNat_natCast]
        generalize hr : ((q.dropWhile xmlIsSpace).dropWhile xmlIsToken).dropWhile xmlIsSpace = r
        have hrsuffix : r <:+ p := by
          rw [← hr]
          exact (List.dropWhile_suffix _).trans ((List.dropWhile_suffix _).trans
            ((List.dropWhile_suffix _).trans (hsuffix.trans hspace)))
        rcases xmlHeaderLoop_cases d cv (r.length + 1) r e (by omega) with ⟨t, e', ht, hle⟩ | ht
        · rw [ht, except_ok_bind]
          cases t with
          | nil => exact .inr (by rw [xmlRequire_nil, except_error_bind])
          | cons c t =>
              rw [xmlRequire_cons, except_ok_bind]
              rcases xmlNextSub_cases d cv (c :: t) 2 with ⟨u, s', hu, hule, -⟩ | ⟨-, hu⟩
              · rw [hu, except_ok_bind]
                exact .inl ⟨u, e', rfl, hule.trans (hle.trans hrsuffix)⟩
              · exact .inr (by rw [hu, except_error_bind])
        · exact .inr (by rw [ht, except_error_bind])
      · exact .inr (except_error_bind _ _)
    · exact .inr rfl
  · simp only [hq, except_error_bind]
    exact .inr trivial

end Cases

/-! ### Rounds -/

/-- The loop of the header with fuel enough. -/
def xmlHeaderFrom (p : List UInt8) (e : CString) : Except XmlFault (XmlParseCtx × CString) :=
  xmlHeaderLoop (p.length + 1) (.at p 0 none) e

variable {p q : List UInt8} {c : UInt8} {e e' : CString}

lemma xmlHeaderFrom_mark (p : List UInt8) (e : CString) :
    xmlHeaderFrom (0x3F :: p) e = .ok (.at (0x3F :: p) 0 none, e) := by
  have hpos : (0 : ℤ) < (0x3F :: p).length := by simp
  simp only [xmlHeaderFrom, xmlHeaderLoop, XmlParseCtx.at_remain, hpos, if_true,
    XmlParseCtx.deref_cons, except_ok_bind]

lemma xmlHeaderFrom_cons (hc : c ≠ 0x3F) : xmlHeaderFrom (c :: p) e =
    (xmlHeaderRound (.at (c :: p) 0 none) e >>= fun r =>
      xmlHeaderLoop (p.length + 1) r.1 r.2) := by
  have hpos : (0 : ℤ) < (c :: p).length := by simp
  rw [xmlHeaderFrom, xmlHeaderLoop]
  simp only [XmlParseCtx.at_remain, hpos, if_true, XmlParseCtx.deref_cons, except_ok_bind, hc,
    if_false]
  rfl

lemma xmlHeaderFrom_round (hc : c ≠ 0x3F)
    (h : xmlHeaderRound (.at (c :: p) 0 none) e = .ok (.at q 0 none, e')) :
    xmlHeaderFrom (c :: p) e = xmlHeaderFrom q e' := by
  have hlt : q.length < (c :: p).length := by
    rcases xmlHeaderRound_cases 0 none (c :: p) e with ⟨q', e'', hq, -, hlt⟩ | hq
    · have hpair := Except.ok.inj (h.symm.trans hq)
      obtain rfl : q = q' := congrArg (fun r => r.1.pos) hpair
      exact hlt
    · rw [h] at hq
      cases hq
  rw [xmlHeaderFrom_cons hc, h, except_ok_bind]
  exact xmlHeaderLoop_fuel 0 none _ _ q e' hlt (by omega)

lemma xmlHeaderFrom_failed (hc : c ≠ 0x3F)
    (h : xmlHeaderRound (.at (c :: p) 0 none) e = .error .failed) :
    xmlHeaderFrom (c :: p) e = .error .failed := by
  rw [xmlHeaderFrom_cons hc, h, except_error_bind]

/-- The loop ends at a place of the text or fails. -/
lemma xmlHeaderFrom_cases (p : List UInt8) (e : CString) :
    (∃ q e', xmlHeaderFrom p e = .ok (.at q 0 none, e') ∧ q.length ≤ p.length) ∨
      xmlHeaderFrom p e = .error .failed := by
  rcases xmlHeaderLoop_cases 0 none (p.length + 1) p e (by omega) with ⟨q, e', hq, hle⟩ | hq
  · exact .inl ⟨q, e', hq, hle.length_le⟩
  · exact .inr hq

/-- A round behind which the loop is further on. -/
lemma xmlHeaderFrom_lt (hc : c ≠ 0x3F) :
    (∃ q e', xmlHeaderFrom (c :: p) e = .ok (.at q 0 none, e') ∧ q.length ≤ p.length) ∨
      xmlHeaderFrom (c :: p) e = .error .failed := by
  rcases xmlHeaderRound_cases 0 none (c :: p) e with ⟨q, e', hq, -, hlt⟩ | hq
  · rw [xmlHeaderFrom_round hc hq]
    rcases xmlHeaderFrom_cases q e' with ⟨r, e'', hr, hle⟩ | hr
    · rw [List.length_cons] at hlt
      exact .inl ⟨r, e'', hr, by omega⟩
    · exact .inr hr
  · exact .inr (xmlHeaderFrom_failed hc hq)

/-- A round takes a token, two bytes and a token. -/
lemma xmlHeaderRound_split {name value rest : List UInt8} {a b : UInt8}
    (hname : ∀ c ∈ name, xmlIsToken c = true) (hlen : name.length < 64)
    (ha : xmlIsToken a = false) (hvalue : ∀ c ∈ value, xmlIsToken c = true)
    (hrest : ∀ c ∈ rest.head?, xmlIsToken c = false) :
    xmlHeaderRound (.at (name ++ a :: b :: (value ++ rest)) 0 none) e =
      if value.length < 64 then
        xmlHeaderEntry (.at rest 0 none) (CString.ofBytes name) (CString.ofBytes value) e
      else .error .failed := by
  have hspan : (name ++ a :: b :: (value ++ rest)).takeWhile xmlIsToken = name ∧
      (name ++ a :: b :: (value ++ rest)).dropWhile xmlIsToken = a :: b :: (value ++ rest) :=
    span_append hname (by simpa using ha)
  obtain ⟨htake, hdrop⟩ := hspan
  obtain ⟨htake', hdrop'⟩ := span_append hvalue hrest
  have hsub := xmlNextSub_at (u := [a, b]) (n := 2) rfl (value ++ rest) 0 none
  have hn0 : (0 : UInt8) ∉ name := fun h => absurd (hname 0 h) (by decide)
  have hv0 : (0 : UInt8) ∉ value := fun h => absurd (hvalue 0 h) (by decide)
  simp only [List.cons_append, List.nil_append] at hsub
  simp only [xmlHeaderRound, xmlNextToken_at (show 0 < 64 by decide), htake, hdrop, hlen, if_true,
    except_ok_bind, hsub, htake', hdrop', CString.ofBytes_of_notMem hn0,
    CString.ofBytes_of_notMem hv0]
  split <;> rfl

/-- A round that passes over all it takes, and one byte. -/
lemma xmlHeaderRound_pass {name value rest : List UInt8} {a b x : UInt8}
    (hname : ∀ c ∈ name, xmlIsToken c = true) (hlen : name.length < 64)
    (hne : CString.ofBytes name ≠ encodingName) (ha : xmlIsToken a = false)
    (hvalue : ∀ c ∈ value, xmlIsToken c = true) (hx : xmlIsToken x = false) :
    xmlHeaderRound (.at (name ++ a :: b :: (value ++ x :: rest)) 0 none) e =
      if value.length < 64 then .ok (.at rest 0 none, e) else .error .failed := by
  have hskip := xmlSkipSub_at (u := [x]) (n := 1) rfl rest 0 none
  rw [List.singleton_append] at hskip
  rw [xmlHeaderRound_split hname hlen ha hvalue (by simpa using hx), xmlHeaderEntry, if_neg hne,
    hskip]
  rfl

/-- A round that takes no token first. -/
lemma xmlHeaderFrom_pass {value rest : List UInt8} {a b x : UInt8} (ha : xmlIsToken a = false)
    (hvalue : ∀ c ∈ value, xmlIsToken c = true) (hx : xmlIsToken x = false) :
    xmlHeaderFrom (a :: b :: (value ++ x :: rest)) e =
      if value.length < 64 then xmlHeaderFrom rest e else .error .failed := by
  have hmark : a ≠ 0x3F := by
    rintro rfl
    exact absurd ha (by decide)
  have hround : xmlHeaderRound (.at (a :: b :: (value ++ x :: rest)) 0 none) e =
      if value.length < 64 then .ok (.at rest 0 none, e) else .error .failed := by
    rw [← List.nil_append (a :: b :: (value ++ x :: rest))]
    exact xmlHeaderRound_pass (by simp) (by decide) (by decide) ha hvalue hx
  split at hround
  · rename_i hlen
    rw [xmlHeaderFrom_round hmark hround, if_pos hlen]
  · rename_i hlen
    rw [xmlHeaderFrom_failed hmark hround, if_neg hlen]

end LibCmutils
