import LibCmutils.Xml.Lexeme
import LibCmutils.Xml.Header

/-!
How far the XML parser looks ahead (`src/nanoxml.c`).

What is read up to a place of the text depends on the bytes before the place and on the
byte at it alone. So the text behind the place can be exchanged for one that begins with the
same byte.

* `xmlParseAttributes_ahead`, `xmlParseHeader_ahead`: attributes and the declaration.
* `XmlLexeme.ahead`: the items. End tags and what is ignored do not need the byte either.
-/

namespace LibCmutils

variable {p q : List UInt8} {d : ℕ} {cv : XmlCharset}

/-! ### Runs of bytes -/

lemma head?_append_congr {α : Type} (x : List α) {q q' : List α} (h : q'.head? = q.head?) :
    (x ++ q').head? = (x ++ q).head? := by
  rw [List.head?_append, List.head?_append, h]

/-- A run of bytes ends at the same place when what follows it begins with the same byte. -/
lemma span_ahead (f : UInt8 → Bool) (p : List UInt8) {q : List UInt8}
    (h : q.head? = (p.dropWhile f).head?) :
    (p.takeWhile f ++ q).takeWhile f = p.takeWhile f ∧ (p.takeWhile f ++ q).dropWhile f = q := by
  refine span_append (fun c hc => List.mem_takeWhile_imp hc) fun c hc => ?_
  rw [h] at hc
  have hnot := List.head?_dropWhile_not f p
  rw [Option.mem_def.mp hc] at hnot
  simpa using hnot

lemma head?_takeWhile_append {f : UInt8 → Bool} {p q : List UInt8}
    (h : q.head? = (p.dropWhile f).head?) : (p.takeWhile f ++ q).head? = p.head? := by
  rw [head?_append_congr _ h, List.takeWhile_append_dropWhile]

lemma ne_nil_of_head? {c : UInt8} (h : q.head? = some c) : ∃ r, q = c :: r := by
  cases q with
  | nil => cases h
  | cons e r =>
      obtain rfl := Option.some.inj h
      exact ⟨r, rfl⟩

/-- A loop of rounds up to a byte that stops it, when a round makes progress and looks one
byte ahead. -/
lemma loop_ahead {σ : Type}
    {loop : ℕ → XmlParseCtx → σ → Except XmlFault (XmlParseCtx × σ)}
    (round : XmlParseCtx → σ → Except XmlFault (XmlParseCtx × σ)) (stop : UInt8 → Bool)
    (hzero : ∀ ctx a, loop 0 ctx a = .error .fuel)
    (hnil : ∀ fuel a, loop (fuel + 1) (.at [] d cv) a = .ok (.at [] d cv, a))
    (hstop : ∀ c q fuel a, stop c = true →
      loop (fuel + 1) (.at (c :: q) d cv) a = .ok (.at (c :: q) d cv, a))
    (hround : ∀ c q fuel a, stop c = false → loop (fuel + 1) (.at (c :: q) d cv) a =
      (round (.at (c :: q) d cv) a >>= fun r => loop fuel r.1 r.2))
    (hcases : ∀ p a, (∃ q a', round (.at p d cv) a = .ok (.at q d cv, a') ∧
      q.length < p.length) ∨ round (.at p d cv) a = .error .failed)
    (hahead : ∀ p q a a', round (.at p d cv) a = .ok (.at q d cv, a') →
      ∃ x, p = x ++ q ∧ ∀ q', q'.head? = q.head? →
        round (.at (x ++ q') d cv) a = .ok (.at q' d cv, a')) {c : UInt8} :
    ∀ (fuel : ℕ) (p : List UInt8) (a a' : σ),
      loop fuel (.at p d cv) a = .ok (.at (c :: q) d cv, a') →
      ∃ x, p = x ++ c :: q ∧ ∀ r fuel', (x ++ c :: r).length < fuel' →
        loop fuel' (.at (x ++ c :: r) d cv) a = .ok (.at (c :: r) d cv, a')
  | 0, p, a, a', h => by
      rw [hzero] at h
      cases h
  | fuel + 1, [], a, a', h => by
      rw [hnil] at h
      have hend : [] = c :: q := congrArg (fun r => r.1.pos) (Except.ok.inj h)
      cases hend
  | fuel + 1, e :: p, a, a', h => by
      cases he : stop e with
      | true =>
          rw [hstop e p fuel a he] at h
          have hpair := Except.ok.inj h
          obtain ⟨rfl, rfl⟩ := List.cons.inj (congrArg (fun r => r.1.pos) hpair)
          obtain rfl : a = a' := congrArg Prod.snd hpair
          refine ⟨[], rfl, fun r fuel' hfuel => ?_⟩
          obtain ⟨f, rfl⟩ : ∃ f, fuel' = f + 1 := ⟨fuel' - 1, by omega⟩
          exact hstop e r f a he
      | false =>
          rw [hround e p fuel a he] at h
          rcases hcases (e :: p) a with ⟨m, b, hm, hlt⟩ | hfailed
          · rw [hm, except_ok_bind] at h
            obtain ⟨x, hx, hloop⟩ :=
              loop_ahead round stop hzero hnil hstop hround hcases hahead fuel m b a' h
            obtain ⟨y, hy, hnext⟩ := hahead _ _ _ _ hm
            cases y with
            | nil =>
                rw [← hy.trans (List.nil_append m)] at hlt
                omega
            | cons e' y =>
                obtain ⟨rfl, -⟩ := List.cons.inj hy
                refine ⟨e :: y ++ x, by rw [hy, hx, List.append_assoc], fun r fuel' hfuel => ?_⟩
                obtain ⟨f, rfl⟩ : ∃ f, fuel' = f + 1 := ⟨fuel' - 1, by omega⟩
                have hhead : (x ++ c :: r).head? = m.head? := by
                  rw [hx]
                  exact head?_append_congr x rfl
                have hnext := hnext _ hhead
                simp only [List.append_assoc, List.cons_append, List.length_cons,
                  List.length_append] at hnext hfuel ⊢
                rw [hround e _ f a he, hnext, except_ok_bind]
                exact hloop r f (by simp only [List.length_append, List.length_cons]; omega)
          · rw [hfailed, except_error_bind] at h
            cases h

/-! ### Attributes -/

/-- A round of the loop over the attributes. -/
def xmlPutAttribute (ctx : XmlParseCtx) (attributes : OrderedMap CString (List UInt8)) :
    Except XmlFault (XmlParseCtx × OrderedMap CString (List UInt8)) := do
  let (ctx, attname, afval) ← xmlParseAttribute ctx
  .ok (ctx, attributes.put attname afval)

lemma xmlQuotedValue_at {c : UInt8} {u : List UInt8} (hu : c ∉ u) (hlen : u.length < 1024)
    (v : List UInt8) (d : ℕ) (cv : XmlCharset) :
    xmlQuotedValue (.at (c :: (u ++ c :: v)) d cv) = .ok (.at v d cv, CString.ofBytes u) := by
  have hnext := xmlNextSub_at (u := u ++ [c]) (n := u.length + 1) (by simp) v d cv
  rw [← List.append_cons] at hnext
  simp only [xmlQuotedValue, xmlNextChar_cons, except_ok_bind, XmlParseCtx.at_pos,
    XmlParseCtx.at_remain, xmlFindChar_at hu, if_neg (Nat.not_le.mpr hlen), List.take_left, hnext]

lemma xmlQuotedValue_ahead {v : CString}
    (h : xmlQuotedValue (.at p d cv) = .ok (.at q d cv, v)) :
    ∃ x, p = x ++ q ∧ ∀ q', xmlQuotedValue (.at (x ++ q') d cv) = .ok (.at q' d cv, v) := by
  cases p with
  | nil =>
      rw [xmlQuotedValue, xmlNextChar_nil, except_error_bind] at h
      cases h
  | cons c p =>
      by_cases hc : c ∈ p
      · obtain ⟨u, r, rfl, hu⟩ := split_at_first hc
        by_cases hlen : u.length < 1024
        · rw [xmlQuotedValue_at hu hlen] at h
          have hpair := Except.ok.inj h
          obtain rfl : r = q := congrArg (fun r => r.1.pos) hpair
          obtain rfl : CString.ofBytes u = v := congrArg Prod.snd hpair
          refine ⟨c :: (u ++ [c]), by simp, fun q' => ?_⟩
          rw [List.cons_append, List.append_assoc, List.singleton_append]
          exact xmlQuotedValue_at hu hlen q' d cv
        · simp only [xmlQuotedValue, xmlNextChar_cons, except_ok_bind, XmlParseCtx.at_pos,
            XmlParseCtx.at_remain, xmlFindChar_at hu, if_pos (Nat.not_lt.mp hlen)] at h
          cases h
      · simp only [xmlQuotedValue, xmlNextChar_cons, except_ok_bind, XmlParseCtx.at_pos,
          XmlParseCtx.at_remain, xmlFindChar_none hc] at h
        cases h

/-- The value of an attribute, at the byte behind the white space. -/
lemma xmlAttributeValue_at {c : UInt8} {q : List UInt8} (hp : p.dropWhile xmlIsSpace = c :: q) :
    xmlAttributeValue (.at p d cv) =
      if c = 0x3D then xmlQuotedValue (.at (q.dropWhile xmlIsSpace) d cv)
      else .ok (.at (c :: q) d cv, attributeTrue) := by
  have hnext := xmlNextSub_at (u := [c]) (n := 1) rfl q d cv
  rw [List.singleton_append] at hnext
  rw [xmlAttributeValue, xmlSkipSpaces_at, except_ok_bind, hp, xmlRequire_cons, except_ok_bind,
    XmlParseCtx.deref_cons, except_ok_bind, hnext, except_ok_bind]
  simp only [xmlSkipSpaces_at, except_ok_bind]

lemma xmlAttributeValue_ahead {v : CString}
    (h : xmlAttributeValue (.at p d cv) = .ok (.at q d cv, v)) :
    ∃ x, p = x ++ q ∧ ∀ q', q'.head? = q.head? →
      xmlAttributeValue (.at (x ++ q') d cv) = .ok (.at q' d cv, v) := by
  have hsplit := List.takeWhile_append_dropWhile (p := xmlIsSpace) (l := p)
  cases hp : p.dropWhile xmlIsSpace with
  | nil =>
      rw [xmlAttributeValue, xmlSkipSpaces_at, except_ok_bind, hp, xmlRequire_nil,
        except_error_bind] at h
      cases h
  | cons c r =>
      rw [xmlAttributeValue_at hp] at h
      by_cases hc : c = 0x3D
      · rw [if_pos hc] at h
        obtain ⟨x, hx, hahead⟩ := xmlQuotedValue_ahead h
        have hr := List.takeWhile_append_dropWhile (p := xmlIsSpace) (l := r)
        refine ⟨p.takeWhile xmlIsSpace ++ c :: (r.takeWhile xmlIsSpace ++ x), ?_, fun q' hq' => ?_⟩
        · rw [List.append_assoc, List.cons_append, List.append_assoc, ← hx, hr, ← hp, hsplit]
        · have hspan := (span_ahead xmlIsSpace p (q := c :: (r.takeWhile xmlIsSpace ++ (x ++ q')))
            (by rw [hp]; rfl)).2
          have hspan' := (span_ahead xmlIsSpace r (q := x ++ q')
            (by rw [hx]; exact head?_append_congr x hq')).2
          rw [List.append_assoc, List.cons_append, List.append_assoc, xmlAttributeValue_at hspan,
            if_pos hc, hspan', hahead]
      · rw [if_neg hc] at h
        have hpair := Except.ok.inj h
        obtain rfl : c :: r = q := congrArg (fun r => r.1.pos) hpair
        obtain rfl : attributeTrue = v := congrArg Prod.snd hpair
        refine ⟨p.takeWhile xmlIsSpace, by rw [← hp, hsplit], fun q' hq' => ?_⟩
        obtain ⟨r', rfl⟩ := ne_nil_of_head? hq'
        have hspan := (span_ahead xmlIsSpace p (q := c :: r') (by rw [hp]; rfl)).2
        rw [xmlAttributeValue_at hspan, if_neg hc]

/-- An attribute, at the byte behind its name. -/
lemma xmlParseAttribute_at (p : List UInt8) (d : ℕ) (cv : XmlCharset) :
    xmlParseAttribute (.at p d cv) =
      if (p.takeWhile xmlIsToken).length < 1024 then
        (xmlAttributeValue (.at (p.dropWhile xmlIsToken) d cv) >>= fun r =>
          xmlUnescape [] r.2.1 cv >>= fun afval =>
            xmlSkipSpaces r.1 >>= fun ctx =>
              if ctx.pos = p then .error .failed
              else .ok (ctx, ⟨p.takeWhile xmlIsToken, zero_notMem_takeWhile_token p⟩, afval))
      else .error .failed := by
  simp only [xmlParseAttribute, xmlNextToken_at (show 0 < 1024 by decide), XmlParseCtx.at_pos]
  split
  · simp only [except_ok_bind]
    rcases xmlAttributeValue_cases (p.dropWhile xmlIsToken) d cv with ⟨q, v, hq, -⟩ | hq
    · simp only [hq, except_ok_bind, stringCreateInternal, Nat.add_eq_zero_iff, one_ne_zero,
        and_false, if_false, xmlUse, XmlParseCtx.at_cconv]
      rfl
    · simp only [hq, except_error_bind]
  · exact except_error_bind _ _

lemma xmlParseAttribute_ahead {k : CString} {v : List UInt8}
    (h : xmlParseAttribute (.at p d cv) = .ok (.at q d cv, k, v)) :
    ∃ x, p = x ++ q ∧ ∀ q', q'.head? = q.head? →
      xmlParseAttribute (.at (x ++ q') d cv) = .ok (.at q' d cv, k, v) := by
  rw [xmlParseAttribute_at] at h
  split at h
  case isFalse => cases h
  case isTrue hlen =>
    rcases xmlAttributeValue_cases (p.dropWhile xmlIsToken) d cv with ⟨r, u, hr, -⟩ | hr
    · rw [hr, except_ok_bind] at h
      rcases xmlUnescape_cases [] u.1 cv with ⟨w, hw⟩ | hw
      · simp only [hw, except_ok_bind, xmlSkipSpaces_at, XmlParseCtx.at_pos] at h
        by_cases hprog : r.dropWhile xmlIsSpace = p
        · cases (if_pos hprog).symm.trans h
        · have hpair := Except.ok.inj ((if_neg hprog).symm.trans h)
          obtain rfl : r.dropWhile xmlIsSpace = q := congrArg (fun r => r.1.pos) hpair
          obtain rfl : _ = k := congrArg (fun r => r.2.1) hpair
          obtain rfl : w = v := congrArg (fun r => r.2.2) hpair
          obtain ⟨x, hx, hahead⟩ := xmlAttributeValue_ahead hr
          have hsplit := List.takeWhile_append_dropWhile (p := xmlIsToken) (l := p)
          have hspaces := List.takeWhile_append_dropWhile (p := xmlIsSpace) (l := r)
          have hp : p = p.takeWhile xmlIsToken ++ (x ++ r.takeWhile xmlIsSpace)
              ++ r.dropWhile xmlIsSpace := by
            rw [List.append_assoc, List.append_assoc, hspaces, ← hx, hsplit]
          refine ⟨p.takeWhile xmlIsToken ++ (x ++ r.takeWhile xmlIsSpace), hp, fun q' hq' => ?_⟩
          have hrest := head?_takeWhile_append hq'
          obtain ⟨htake, hdrop⟩ := span_ahead xmlIsToken p
            (q := x ++ (r.takeWhile xmlIsSpace ++ q')) (by rw [hx, head?_append_congr x hrest])
          have hne : q' ≠ p.takeWhile xmlIsToken ++ (x ++ (r.takeWhile xmlIsSpace ++ q')) := by
            intro heq
            have hlen := congrArg List.length heq
            have hlen' := congrArg List.length hp
            simp only [List.length_append] at hlen hlen'
            refine hprog (List.IsSuffix.eq_of_length ⟨_, hp.symm⟩ (by omega))
          rw [List.append_assoc, List.append_assoc, xmlParseAttribute_at]
          simp only [htake, hdrop, if_pos hlen, hahead _ hrest, except_ok_bind, hw,
            xmlSkipSpaces_at, (span_ahead xmlIsSpace r hq').2, XmlParseCtx.at_pos]
          exact if_neg hne
      · rw [hw, except_error_bind] at h
        cases h
    · rw [hr, except_error_bind] at h
      cases h

lemma xmlParseAttribute_put_ahead {attributes as : OrderedMap CString (List UInt8)}
    (h : xmlPutAttribute (.at p d cv) attributes = .ok (.at q d cv, as)) :
    ∃ x, p = x ++ q ∧ ∀ q', q'.head? = q.head? →
      xmlPutAttribute (.at (x ++ q') d cv) attributes = .ok (.at q' d cv, as) := by
  rcases xmlParseAttribute_cases p d cv with ⟨m, k, v, hm, -⟩ | hfailed
  · rw [xmlPutAttribute, hm, except_ok_bind] at h
    have hpair := Except.ok.inj h
    obtain rfl : m = q := congrArg (fun r => r.1.pos) hpair
    obtain rfl : attributes.put k v = as := congrArg Prod.snd hpair
    obtain ⟨x, hx, hround⟩ := xmlParseAttribute_ahead hm
    refine ⟨x, hx, fun q' hq' => ?_⟩
    rw [xmlPutAttribute, hround q' hq', except_ok_bind]
  · rw [xmlPutAttribute, hfailed, except_error_bind] at h
    cases h

lemma xmlAttributesLoop_ahead {c : UInt8} {fuel : ℕ}
    {attributes as : OrderedMap CString (List UInt8)}
    (h : xmlAttributesLoop fuel (.at p d cv) attributes = .ok (.at (c :: q) d cv, as)) :
    ∃ x, p = x ++ c :: q ∧ ∀ r fuel', (x ++ c :: r).length < fuel' →
      xmlAttributesLoop fuel' (.at (x ++ c :: r) d cv) attributes = .ok (.at (c :: r) d cv, as) := by
  refine loop_ahead xmlPutAttribute (strchr [0x2F, 0x3E]) (fun _ _ => rfl)
    (fun fuel a => ?_) (fun e p fuel a he => ?_) (fun e p fuel a he => ?_) (fun p a => ?_)
    (fun _ _ _ _ => xmlParseAttribute_put_ahead) fuel p attributes as h
  · simp [xmlAttributesLoop]
  · have hpos : (0 : ℤ) < (e :: p).length := by simp
    simp only [xmlAttributesLoop, XmlParseCtx.at_remain, hpos, if_true, XmlParseCtx.deref_cons,
      except_ok_bind, he]
  · have hpos : (0 : ℤ) < (e :: p).length := by simp
    simp only [xmlAttributesLoop, XmlParseCtx.at_remain, hpos, if_true, XmlParseCtx.deref_cons,
      except_ok_bind, he, Bool.false_eq_true, if_false, xmlPutAttribute]
    cases xmlParseAttribute (.at (e :: p) d cv) <;> rfl
  · rcases xmlParseAttribute_cases p d cv with ⟨m, k, v, hm, -, hlt⟩ | hfailed
    · exact .inl ⟨m, _, by rw [xmlPutAttribute, hm, except_ok_bind], hlt⟩
    · exact .inr (by rw [xmlPutAttribute, hfailed, except_error_bind])

/-- **Attributes** are read from the bytes up to the one behind them. -/
theorem xmlParseAttributes_ahead {c : UInt8} {as : OrderedMap CString (List UInt8)}
    (h : xmlParseAttributes (.at p d cv) = .ok (.at (c :: q) d cv, as)) :
    ∃ x, p = x ++ c :: q ∧ ∀ r,
      xmlParseAttributes (.at (x ++ c :: r) d cv) = .ok (.at (c :: r) d cv, as) := by
  simp only [xmlParseAttributes, xmlSkipSpaces_at, except_ok_bind, XmlParseCtx.at_remain,
    Int.toNat_natCast] at h ⊢
  rcases xmlAttributesLoop_cases d cv ((p.dropWhile xmlIsSpace).length + 1)
    (p.dropWhile xmlIsSpace) .empty (by omega) with ⟨m, as', hm, -⟩ | hm
  · simp only [hm, except_ok_bind] at h
    cases m with
    | nil =>
        rw [xmlRequire_nil, except_error_bind] at h
        cases h
    | cons e m =>
        rw [xmlRequire_cons, except_ok_bind] at h
        have hpair := Except.ok.inj h
        obtain ⟨rfl, rfl⟩ := List.cons.inj (congrArg (fun r => r.1.pos) hpair)
        obtain rfl : as' = as := congrArg Prod.snd hpair
        obtain ⟨x, hx, hloop⟩ := xmlAttributesLoop_ahead hm
        have hsplit := List.takeWhile_append_dropWhile (p := xmlIsSpace) (l := p)
        refine ⟨p.takeWhile xmlIsSpace ++ x, by rw [List.append_assoc, ← hx, hsplit], fun r => ?_⟩
        have hspan := (span_ahead xmlIsSpace p (q := x ++ e :: r)
          (by rw [hx]; exact head?_append_congr x rfl)).2
        simp only [List.append_assoc, hspan, hloop r _ (Nat.lt_succ_self _), except_ok_bind,
          xmlRequire_cons]
  · simp only [hm, except_error_bind] at h
    cases h

/-! ### Items -/

/-- What begins a text up to a byte that it does not hold begins the part before the byte. -/
lemma prefix_of_prefix_append {a x y : List UInt8} {b : UInt8} (h : a <+: x ++ b :: y)
    (hb : b ∉ a) : a <+: x := by
  induction x generalizing a with
  | nil =>
      cases a with
      | nil => exact List.prefix_rfl
      | cons e a =>
          rw [List.nil_append, List.cons_prefix_cons] at h
          exact absurd (List.mem_cons.mpr (.inl h.1.symm)) hb
  | cons e x ih =>
      cases a with
      | nil => exact List.nil_prefix
      | cons e' a =>
          rw [List.cons_append, List.cons_prefix_cons] at h
          rw [List.cons_prefix_cons]
          exact ⟨h.1, ih h.2 fun hmem => hb (List.mem_cons_of_mem _ hmem)⟩

lemma cdataOpen_prefix_append {b : UInt8} (hb : b ∉ cdataOpen) (x y y' : List UInt8) :
    cdataOpen <+: x ++ b :: y ↔ cdataOpen <+: x ++ b :: y' :=
  ⟨fun h => (prefix_of_prefix_append h hb).trans (List.prefix_append ..),
    fun h => (prefix_of_prefix_append h hb).trans (List.prefix_append ..)⟩

/-- **An item** is read from its bytes and, but for an end tag and what is ignored, from the
byte behind it. -/
theorem XmlLexeme.ahead {item : XmlItem} {rest : List UInt8} (h : XmlLexeme cv d p item rest) :
    ∃ y, p = y ++ rest ∧ ∀ rest', item = .ignored ∨ item = .close ∨ rest'.head? = rest.head? →
      XmlLexeme cv d (y ++ rest') item rest' := by
  cases h with
  | @close u rest hu =>
      refine ⟨0x3C :: 0x2F :: (u ++ [0x3E]), by simp, fun rest' _ => ?_⟩
      have hlex : XmlLexeme cv d (0x3C :: 0x2F :: (u ++ 0x3E :: rest')) .close rest' := .close hu
      rwa [List.append_cons] at hlex
  | @ignored c u rest hprefix hu =>
      refine ⟨0x3C :: 0x21 :: c :: (u ++ [0x3E]), by simp, fun rest' _ => ?_⟩
      have hprefix' : ¬cdataOpen <+: c :: (u ++ 0x3E :: rest') := fun h =>
        hprefix ((cdataOpen_prefix_append (by decide) (c :: u) rest' rest).mp h)
      have hlex : XmlLexeme cv d _ .ignored rest' := .ignored hprefix' hu
      rwa [List.append_cons] at hlex
  | @cdata u rest hd hu hne =>
      refine ⟨0x3C :: 0x21 :: (cdataOpen ++ (u ++ cdataClose)), by simp, fun rest' _ => ?_⟩
      have hlex : XmlLexeme cv d _ _ rest' := .cdata hd hu hne
      rwa [← List.append_assoc] at hlex
  | @text c u v rest hd hu hc hv hne =>
      refine ⟨c :: u, rfl, fun rest' hhead => ?_⟩
      obtain ⟨r, rfl⟩ := ne_nil_of_head? (by simpa using hhead)
      exact .text hd hu hc hv hne
  | @start c p rest attributes hc hbang hlen hattr =>
      rcases xmlParseAttributes_cases ((c :: p).dropWhile xmlIsToken) (d + 1) cv with
        ⟨e, q, as, hq, -⟩ | hq
      · obtain rfl : rest = e :: q :=
          congrArg (fun r => r.1.pos) (Except.ok.inj (hattr.symm.trans hq))
        obtain ⟨x, hx, hahead⟩ := xmlParseAttributes_ahead hattr
        have hsplit := List.takeWhile_append_dropWhile (p := xmlIsToken) (l := c :: p)
        refine ⟨0x3C :: ((c :: p).takeWhile xmlIsToken ++ x), ?_, fun rest' hhead => ?_⟩
        · rw [List.cons_append, List.append_assoc, ← hx, hsplit]
        · obtain ⟨r, rfl⟩ := ne_nil_of_head? (by simpa using hhead)
          obtain ⟨htake, hdrop⟩ := span_ahead xmlIsToken (c :: p) (q := x ++ e :: r)
            (by rw [hx]; exact head?_append_congr x rfl)
          have hcons : (c :: p).takeWhile xmlIsToken = c :: p.takeWhile xmlIsToken := by
            rw [List.takeWhile_cons, if_pos hc]
          rw [hcons, List.cons_append] at htake hdrop
          have hlex : XmlLexeme cv d (0x3C :: c :: (p.takeWhile xmlIsToken ++ (x ++ e :: r)))
              (.start _ attributes) (e :: r) :=
            .start hc hbang (by rw [htake, ← hcons]; exact hlen) (by rw [hdrop]; exact hahead r)
          rw [htake] at hlex
          rw [hcons, List.cons_append, List.cons_append, List.cons_append, List.append_assoc]
          exact hlex
      · rw [hattr] at hq
        cases hq

/-! ### The declaration -/

lemma xmlSkipSub_ahead (h : xmlSkipSub (.at p d cv) 1 = .ok (.at q d cv)) :
    ∃ x, p = x ++ q ∧ ∀ q', q'.head? = q.head? →
      xmlSkipSub (.at (x ++ q') d cv) 1 = .ok (.at q' d cv) := by
  cases p with
  | nil =>
      rw [xmlSkipSub_short (by decide)] at h
      obtain rfl : [] = q := congrArg XmlParseCtx.pos (Except.ok.inj h)
      refine ⟨[], rfl, fun q' hq' => ?_⟩
      obtain rfl : q' = [] := List.head?_eq_none_iff.mp hq'
      exact xmlSkipSub_short (by decide) d cv
  | cons b p =>
      rw [← List.singleton_append, xmlSkipSub_at (n := 1) rfl] at h
      obtain rfl : p = q := congrArg XmlParseCtx.pos (Except.ok.inj h)
      exact ⟨[b], rfl, fun q' _ => xmlSkipSub_at rfl q' d cv⟩

lemma xmlHeaderEntry_ahead {name value e e' : CString}
    (h : xmlHeaderEntry (.at p d cv) name value e = .ok (.at q d cv, e')) :
    ∃ x, p = x ++ q ∧ ∀ q', q'.head? = q.head? →
      xmlHeaderEntry (.at (x ++ q') d cv) name value e = .ok (.at q' d cv, e') := by
  by_cases hname : name = encodingName
  · rw [xmlHeaderEntry, if_pos hname] at h
    by_cases hmark : 0x3F ∈ p
    · obtain ⟨u, v, rfl, hu⟩ := split_at_first hmark
      simp only [XmlParseCtx.at_pos, XmlParseCtx.at_remain, xmlFindChar_at hu, except_ok_bind,
        xmlSkipSub_at rfl] at h
      by_cases hlen : 20 ≤ value.1.length
      · rw [if_pos hlen] at h
        cases h
      · rw [if_neg hlen] at h
        have hpair := Except.ok.inj h
        obtain rfl : 0x3F :: v = q := congrArg (fun r => r.1.pos) hpair
        obtain rfl : value = e' := congrArg Prod.snd hpair
        refine ⟨u, rfl, fun q' hq' => ?_⟩
        obtain ⟨r, rfl⟩ := ne_nil_of_head? hq'
        simp only [xmlHeaderEntry, if_pos hname, XmlParseCtx.at_pos, XmlParseCtx.at_remain,
          xmlFindChar_at hu, except_ok_bind, if_neg hlen, xmlSkipSub_at rfl]
    · simp only [XmlParseCtx.at_pos, XmlParseCtx.at_remain, xmlFindChar_none hmark,
        except_ok_bind] at h
      cases h
  · rw [xmlHeaderEntry, if_neg hname] at h
    obtain ⟨m, hm, -⟩ := xmlSkipSub_cases d cv p 1
    rw [hm, except_ok_bind] at h
    have hpair := Except.ok.inj h
    obtain rfl : m = q := congrArg (fun r => r.1.pos) hpair
    obtain rfl : e = e' := congrArg Prod.snd hpair
    obtain ⟨x, hx, hskip⟩ := xmlSkipSub_ahead hm
    refine ⟨x, hx, fun q' hq' => ?_⟩
    rw [xmlHeaderEntry, if_neg hname, hskip q' hq', except_ok_bind]

lemma xmlHeaderRound_ahead {e e' : CString}
    (h : xmlHeaderRound (.at p d cv) e = .ok (.at q d cv, e')) :
    ∃ x, p = x ++ q ∧ ∀ q', q'.head? = q.head? →
      xmlHeaderRound (.at (x ++ q') d cv) e = .ok (.at q' d cv, e') := by
  simp only [xmlHeaderRound, xmlNextToken_at (show 0 < 64 by decide)] at h ⊢
  split at h
  case isFalse => cases h
  case isTrue hlen =>
    rw [except_ok_bind] at h
    by_cases hshort : (p.dropWhile xmlIsToken).length < 2
    · simp only [xmlNextSub_short hshort, except_error_bind] at h
      cases h
    · obtain ⟨u, m, hm, hu⟩ : ∃ u m, p.dropWhile xmlIsToken = u ++ m ∧ u.length = 2 :=
        ⟨_, _, (List.take_append_drop 2 _).symm, by simp; omega⟩
      obtain ⟨a, b, rfl⟩ := List.length_eq_two.mp hu
      have hsub := fun r => xmlNextSub_at hu r d cv
      simp only [hm, hsub, except_ok_bind, xmlNextToken_at (show 0 < 64 by decide)] at h
      split at h
      case isFalse => cases h
      case isTrue hlen' =>
        rw [except_ok_bind] at h
        obtain ⟨x, hx, hentry⟩ := xmlHeaderEntry_ahead h
        have hsplit := List.takeWhile_append_dropWhile (p := xmlIsToken) (l := p)
        have hsplit' := List.takeWhile_append_dropWhile (p := xmlIsToken) (l := m)
        refine ⟨p.takeWhile xmlIsToken ++ ([a, b] ++ (m.takeWhile xmlIsToken ++ x)), ?_,
          fun q' hq' => ?_⟩
        · rw [List.append_assoc, List.append_assoc, List.append_assoc, ← hx, hsplit', ← hm, hsplit]
        · obtain ⟨htake, hdrop⟩ := span_ahead xmlIsToken p
            (q := [a, b] ++ (m.takeWhile xmlIsToken ++ (x ++ q'))) (by rw [hm]; rfl)
          obtain ⟨htake', hdrop'⟩ := span_ahead xmlIsToken m (q := x ++ q')
            (by rw [hx]; exact head?_append_congr x hq')
          rw [List.append_assoc, List.append_assoc, List.append_assoc]
          simp only [htake, hdrop, if_pos hlen, except_ok_bind, hsub,
            xmlNextToken_at (show 0 < 64 by decide), htake', hdrop', if_pos hlen']
          exact hentry q' hq'

lemma xmlHeaderLoop_ahead {c : UInt8} {fuel : ℕ} {e e' : CString}
    (h : xmlHeaderLoop fuel (.at p d cv) e = .ok (.at (c :: q) d cv, e')) :
    ∃ x, p = x ++ c :: q ∧ ∀ r fuel', (x ++ c :: r).length < fuel' →
      xmlHeaderLoop fuel' (.at (x ++ c :: r) d cv) e = .ok (.at (c :: r) d cv, e') := by
  refine loop_ahead xmlHeaderRound (fun b => b = 0x3F) (fun _ _ => rfl)
    (fun fuel a => ?_) (fun b p fuel a hb => ?_) (fun b p fuel a hb => ?_) (fun p a => ?_)
    (fun _ _ _ _ => xmlHeaderRound_ahead) fuel p e e' h
  · simp [xmlHeaderLoop]
  · have hpos : (0 : ℤ) < (b :: p).length := by simp
    simp only [xmlHeaderLoop, XmlParseCtx.at_remain, hpos, if_true, XmlParseCtx.deref_cons,
      except_ok_bind, if_pos (of_decide_eq_true hb)]
  · have hpos : (0 : ℤ) < (b :: p).length := by simp
    simp only [xmlHeaderLoop, XmlParseCtx.at_remain, hpos, if_true, XmlParseCtx.deref_cons,
      except_ok_bind, of_decide_eq_false hb, if_false]
  · rcases xmlHeaderRound_cases d cv p a with ⟨q, a', hq, -, hlt⟩ | hfailed
    · exact .inl ⟨q, a', hq, hlt⟩
    · exact .inr hfailed

/-- **The declaration** is read from its own bytes. -/
theorem xmlParseHeader_ahead {e e' : CString}
    (h : xmlParseHeader (.at p d cv) e = .ok (.at q d cv, e')) :
    ∃ x, p = x ++ q ∧ ∀ q', xmlParseHeader (.at (x ++ q') d cv) e = .ok (.at q' d cv, e') := by
  simp only [xmlParseHeader, xmlSkipSpaces_at, except_ok_bind] at h ⊢
  by_cases hshort : (p.dropWhile xmlIsSpace).length < 2
  · simp only [xmlNextSub_short hshort, except_error_bind] at h
    cases h
  obtain ⟨u, m, hm, hu⟩ : ∃ u m, p.dropWhile xmlIsSpace = u ++ m ∧ u.length = 2 :=
    ⟨_, _, (List.take_append_drop 2 _).symm, by simp; omega⟩
  obtain ⟨a, b, rfl⟩ := List.length_eq_two.mp hu
  have hsub : ∀ r, xmlNextSub (.at (a :: b :: r) d cv) 2 = .ok (.at r d cv, _) :=
    fun r => xmlNextSub_at hu r d cv
  rw [List.cons_append, List.cons_append, List.nil_append] at hm
  simp only [hm, hsub, except_ok_bind] at h ⊢
  split at h
  case isFalse => cases h
  case isTrue hmark =>
  simp only [xmlSkipSpaces_at, except_ok_bind, xmlNextToken_at (show 0 < 64 by decide)] at h
  split at h
  case isFalse => cases h
  case isTrue hlen =>
  simp only [except_ok_bind, xmlSkipSpaces_at, XmlParseCtx.at_remain, Int.toNat_natCast] at h
  generalize hn : m.dropWhile xmlIsSpace = n at h hlen
  generalize hk : (n.dropWhile xmlIsToken).dropWhile xmlIsSpace = k at h
  rcases xmlHeaderLoop_cases d cv (k.length + 1) k e (by omega) with ⟨t, e'', ht, -⟩ | ht
  · rw [ht, except_ok_bind] at h
    cases t with
    | nil =>
        rw [xmlRequire_nil, except_error_bind] at h
        cases h
    | cons c t =>
        rw [xmlRequire_cons, except_ok_bind] at h
        cases t with
        | nil =>
            rw [xmlNextSub_short (by simp)] at h
            cases h
        | cons c' t =>
            have hend : ∀ r, xmlNextSub (.at (c :: c' :: r) d cv) 2 = .ok (.at r d cv, _) :=
              fun r => xmlNextSub_at (u := [c, c']) rfl r d cv
            rw [hend, except_ok_bind] at h
            have hpair := Except.ok.inj h
            obtain rfl : t = q := congrArg (fun r => r.1.pos) hpair
            obtain rfl : e'' = e' := congrArg Prod.snd hpair
            obtain ⟨x, hx, hloop⟩ := xmlHeaderLoop_ahead ht
            subst hn hk
            refine ⟨p.takeWhile xmlIsSpace ++ ([a, b] ++ (m.takeWhile xmlIsSpace ++
              ((m.dropWhile xmlIsSpace).takeWhile xmlIsToken ++
              (((m.dropWhile xmlIsSpace).dropWhile xmlIsToken).takeWhile xmlIsSpace ++
              (x ++ [c, c']))))), ?_, fun q' => ?_⟩
            · have hm' := List.takeWhile_append_dropWhile (p := xmlIsSpace) (l := p)
              rw [hm] at hm'
              simp only [List.append_assoc, List.cons_append, List.nil_append]
              rw [← hx, List.takeWhile_append_dropWhile, List.takeWhile_append_dropWhile,
                List.takeWhile_append_dropWhile, hm']
            · have h3 : (x ++ c :: c' :: q').head? = (List.dropWhile xmlIsSpace
                  ((m.dropWhile xmlIsSpace).dropWhile xmlIsToken)).head? := by
                rw [hx]
                exact head?_append_congr x rfl
              have h2 := head?_takeWhile_append h3
              have h1 := head?_takeWhile_append h2
              have hspan := (span_ahead xmlIsSpace p (q := a :: b :: (m.takeWhile xmlIsSpace ++
                ((m.dropWhile xmlIsSpace).takeWhile xmlIsToken ++
                (((m.dropWhile xmlIsSpace).dropWhile xmlIsToken).takeWhile xmlIsSpace ++
                (x ++ c :: c' :: q'))))) (by rw [hm]; rfl)).2
              obtain ⟨htake, hdrop⟩ := span_ahead xmlIsToken (m.dropWhile xmlIsSpace) h2
              simp only [List.append_assoc, List.cons_append, List.nil_append]
              simp only [hspan, hsub, except_ok_bind, if_pos hmark, (span_ahead xmlIsSpace m h1).2,
                htake, if_pos hlen, hdrop, (span_ahead xmlIsSpace _ h3).2,
                hloop _ _ (Nat.lt_succ_self _), hend, Int.toNat_natCast, xmlSkipSpaces_at,
                xmlNextToken_at (show 0 < 64 by decide), XmlParseCtx.at_remain]
              exact congrArg (· >>= fun _ => .ok (XmlParseCtx.at q' d cv, e''))
                (xmlRequire_cons c (c' :: q') d cv)
  · rw [ht, except_error_bind] at h
    cases h

end LibCmutils
