import LibCmutils.Xml.Declaration
import LibCmutils.Xml.Escape
import LibCmutils.Xml.Robust

/-!
Printing and parsing XML trees (`src/nanoxml.c`).

* `XmlPrintable`: the trees whose names and attributes the parser has room for, and whose
  texts neither begin nor end with white space.
* `XmlPlain`: the trees without texts whose tags have names that do not begin with `!`.
* `xmlParseNode_print`: plain trees come back as they were.
* `SpacedMarkup`: a printed text has white space before every `<`, so a text node that is
  read from it ends with white space.
* `xmlRoundTrip_iff`: exactly the plain trees come back. A text comes back with the line end
  and the indentation of the next line at its end.
-/

namespace LibCmutils

/-! ### Trees -/

/-- A text node. -/
def XmlNode.isText : XmlNode → Bool
  | .text _ => true
  | .tag _ _ _ => false

/-- A tree of tags and texts with a nesting depth of at most `n`. -/
inductive XmlPrintable : ℕ → XmlNode → Prop
  | text {n : ℕ} {name : List UInt8} : name ≠ [] → (∀ c ∈ name.head?, xmlIsSpace c = false) →
      (∀ c ∈ name.getLast?, xmlIsSpace c = false) → XmlPrintable n (.text name)
  | tag {n : ℕ} {name : List UInt8} {attributes : OrderedMap CString (List UInt8)}
      {children : List XmlNode} : (∀ c ∈ name, xmlIsToken c = true) → name.length < 128 →
      (∀ e ∈ attributes.entries, XmlAttributeOk e) → (∀ child ∈ children, XmlPrintable n child) →
      children.IsChain (fun a b => ¬(a.isText = true ∧ b.isText = true)) →
      XmlPrintable (n + 1) (.tag name attributes children)

/-- The name of a tag that is read as a tag. -/
def TagName (name : List UInt8) : Prop := name ≠ [] ∧ name.head? ≠ some 0x21

/-- A tree without texts whose tags are read as tags. -/
inductive XmlPlain : XmlNode → Prop
  | tag {name : List UInt8} {attributes : OrderedMap CString (List UInt8)}
      {children : List XmlNode} : TagName name → (∀ child ∈ children, XmlPlain child) →
      XmlPlain (.tag name attributes children)

/-! ### Plain trees come back -/

variable {beutify : Bool} {d : ℕ} {name rest : List UInt8} {attributes : OrderedMap CString (List UInt8)}

/-- A printed start tag. -/
lemma XmlLexeme.of_print {c : UInt8} (hname : TagName name) (htoken : ∀ c ∈ name, xmlIsToken c = true)
    (hlen : name.length < 128) (hattr : ∀ e ∈ attributes.entries, XmlAttributeOk e)
    (hc : c = 0x2F ∨ c = 0x3E) :
    XmlLexeme none d (0x3C :: (name ++ (xmlBuildAttribute attributes ++ c :: rest)))
      (.start name attributes) (c :: rest) := by
  obtain ⟨b, t, rfl⟩ := List.exists_cons_of_ne_nil hname.1
  have hhead : ∀ x ∈ (xmlBuildAttribute attributes ++ c :: rest).head?, xmlIsToken x = false := by
    unfold xmlBuildAttribute
    cases attributes.entries with
    | nil => rcases hc with rfl | rfl <;> simp <;> rfl
    | cons e es => simp; rfl
  have hspan := span_append htoken hhead
  have hstart : XmlLexeme none d (0x3C :: b :: (t ++ (xmlBuildAttribute attributes ++ c :: rest)))
      (.start ((b :: (t ++ (xmlBuildAttribute attributes ++ c :: rest))).takeWhile xmlIsToken)
        attributes) (c :: rest) := by
    refine .start (htoken b (by simp)) (fun h => hname.2 (by simp [h])) ?_ ?_
    · rwa [← List.cons_append, hspan.1]
    · rw [← List.cons_append, hspan.2]
      exact xmlParseAttributes_build (d + 1) hattr hc
  rwa [← List.cons_append, hspan.1] at hstart

/-- A tag without children. -/
lemma xmlParseNext_empty_tag {p : List UInt8} {cv : XmlCharset} (fuel : ℕ)
    (hlex : XmlLexeme cv d (p.dropWhile xmlIsSpace) (.start name attributes)
      (0x2F :: 0x3E :: rest)) :
    xmlParseNext (fuel + 1) (.at p d cv) = .ok (.at rest d cv, some (.tag name attributes [])) := by
  have hitem : xmlParseItem (.at p d cv)
      = .ok (.at (0x2F :: 0x3E :: rest) (d + 1) cv, .start name attributes) :=
    xmlParseItem_lexeme hlex
  have hskip := xmlSkipSub_at (u := [0x2F, 0x3E]) (n := 2) rfl rest (d + 1) cv
  have hprefix : [0x2F, 0x3E] <+: 0x2F :: 0x3E :: rest := ⟨rest, rfl⟩
  simp only [List.cons_append, List.nil_append] at hskip
  simp only [xmlParseNext, hitem, except_ok_bind, XmlParseCtx.at_pos, XmlParseCtx.at_remain,
    xmlStartsWith_at, hprefix, decide_true, if_true, hskip]
  rfl

/-- A tag with children. -/
lemma xmlParseNext_open_tag {p r : List UInt8} {cv : XmlCharset} {fuel : ℕ}
    {children : List XmlNode}
    (hlex : XmlLexeme cv d (p.dropWhile xmlIsSpace) (.start name attributes) (0x3E :: rest))
    (hrun : xmlParseChildren fuel (.at rest (d + 1) cv) [] = .ok (.at r (d + 1) cv, children)) :
    xmlParseNext (fuel + 1) (.at p d cv)
      = .ok (.at r d cv, some (.tag name attributes children)) := by
  have hitem : xmlParseItem (.at p d cv)
      = .ok (.at (0x3E :: rest) (d + 1) cv, .start name attributes) := xmlParseItem_lexeme hlex
  have hskip := xmlSkipSub_at (u := [0x3E]) (n := 1) rfl rest (d + 1) cv
  have hprefix : ¬[0x2F, 0x3E] <+: 0x3E :: rest := by
    rintro ⟨t, ht⟩
    exact absurd (List.cons.inj ht).1 (by decide)
  simp only [List.cons_append, List.nil_append] at hskip
  simp only [xmlParseNext, hitem, except_ok_bind, XmlParseCtx.at_pos, XmlParseCtx.at_remain,
    xmlStartsWith_at, hprefix, decide_false, Bool.false_eq_true, if_false, XmlParseCtx.deref_cons,
    if_true, hskip, hrun]
  rfl

/-- The end tag of a node. -/
def xmlEndTag (depth : ℕ) (name : List UInt8) : List UInt8 :=
  List.replicate depth 0x09 ++ 0x3C :: 0x2F :: (name ++ [0x3E])

/-- A text that `CMUTIL_XmlParseNode` reads as a given node, whatever stands before and
behind it. -/
def ReadsAs (d : ℕ) (text : List UInt8) (node : XmlNode) : Prop :=
  text ≠ [] ∧ ∀ ws rest fuel, (∀ c ∈ ws, xmlIsSpace c = true) → 3 * (ws ++ (text ++ rest)).length + 2 ≤ fuel →
    xmlParseNode fuel (.at (ws ++ (text ++ rest)) d none) = .ok (.at rest d none, some node)

lemma xmlIsSpace_lineEnd : ∀ c ∈ xmlLineEnd, xmlIsSpace c = true := by
  intro c hc
  have hall : xmlLineEnd.all xmlIsSpace = true := rfl
  exact List.all_eq_true.mp hall c hc

lemma xmlIsSpace_indent (depth : ℕ) : ∀ c ∈ xmlIndent depth, xmlIsSpace c = true := by
  intro c hc
  obtain ⟨l, hl, hcl⟩ := List.mem_flatten.mp hc
  obtain rfl := List.eq_of_mem_replicate hl
  have hall : ([0x20, 0x20, 0x20, 0x20] : List UInt8).all xmlIsSpace = true := rfl
  exact List.all_eq_true.mp hall c hcl

lemma dropWhile_space {ws p : List UInt8} {c : UInt8} (hws : ∀ c ∈ ws, xmlIsSpace c = true)
    (hc : xmlIsSpace c = false) : (ws ++ c :: p).dropWhile xmlIsSpace = c :: p :=
  (span_append hws (by simpa using hc)).2

/-- The children of a node and its end tag. -/
lemma readsAs_children (depth k : ℕ) (hd : d < 256) (htoken : ∀ c ∈ name, xmlIsToken c = true) :
    ∀ (children : List XmlNode) (ws : List UInt8) (acc : List XmlNode) (fuel : ℕ),
      (∀ child ∈ children, ReadsAs d (xmlToDocumentPrivate beutify child k) child) →
      (∀ c ∈ ws, xmlIsSpace c = true) →
      3 * (ws ++ (xmlChildrenToDocument beutify children k ++ (xmlEndTag depth name ++ rest))).length
        + 3 ≤ fuel →
      xmlParseChildren fuel (.at (ws ++ (xmlChildrenToDocument beutify children k ++
        (xmlEndTag depth name ++ rest))) d none) acc = .ok (.at rest d none, acc ++ children)
  | [], ws, acc, fuel, _, hws, hfuel => by
      obtain ⟨fuel, rfl⟩ : ∃ f, fuel = f + 3 := ⟨fuel - 3, by omega⟩
      have hname : 0x3E ∉ name := fun h => absurd (htoken _ h) (by decide)
      have htext : ws ++ (xmlChildrenToDocument beutify [] k ++ (xmlEndTag depth name ++ rest))
          = ws ++ List.replicate depth 0x09 ++ 0x3C :: 0x2F :: (name ++ 0x3E :: rest) := by
        simp [xmlChildrenToDocument, xmlEndTag]
      have hspace : ∀ c ∈ ws ++ List.replicate depth 0x09, xmlIsSpace c = true := by
        intro c hc
        rcases List.mem_append.mp hc with hc | hc
        · exact hws c hc
        · rw [List.eq_of_mem_replicate hc]
          rfl
      have hlex : XmlLexeme none d ((ws ++ List.replicate depth 0x09 ++
          0x3C :: 0x2F :: (name ++ 0x3E :: rest)).dropWhile xmlIsSpace) .close rest := by
        rw [dropWhile_space hspace rfl]
        exact .close hname
      have hnot : ¬256 ≤ d := by omega
      rw [htext, xmlParseChildren, xmlParseNode, XmlParseCtx.at_stack, if_neg hnot, xmlParseNext,
        xmlParseItem_lexeme hlex, List.append_nil]
      rfl
  | child :: children, ws, acc, fuel, hchildren, hws, hfuel => by
      obtain ⟨fuel, rfl⟩ : ∃ f, fuel = f + 1 := ⟨fuel - 1, by omega⟩
      have htext : ws ++ (xmlChildrenToDocument beutify (child :: children) k ++
          (xmlEndTag depth name ++ rest)) = ws ++ (xmlToDocumentPrivate beutify child k ++
          (xmlLineEnd ++ (xmlChildrenToDocument beutify children k ++
            (xmlEndTag depth name ++ rest)))) := by
        simp [xmlChildrenToDocument]
      rw [htext] at hfuel ⊢
      have hchild := (hchildren child (by simp)).2 ws (xmlLineEnd ++
        (xmlChildrenToDocument beutify children k ++ (xmlEndTag depth name ++ rest))) fuel hws
        (by omega)
      have hrest := readsAs_children depth k hd htoken children xmlLineEnd (acc ++ [child]) fuel
        (fun c hc => hchildren c (by simp [hc])) xmlIsSpace_lineEnd ?_
      · rw [xmlParseChildren, hchild, except_ok_bind]
        simpa using hrest
      · have hpos := List.length_pos_of_ne_nil (hchildren child (by simp)).1
        simp only [List.length_append] at hfuel ⊢
        omega

/-- **Plain trees come back.** -/
theorem xmlParseNode_print (beutify : Bool) {n : ℕ} {t : XmlNode} (hprint : XmlPrintable n t) (hplain : XmlPlain t) :
    ∀ d k, d + n < 256 → ReadsAs d (xmlToDocumentPrivate beutify t k) t := by
  induction hprint with
  | text => cases hplain
  | @tag n name attributes children htoken hlen hattr _ _ ih =>
      intro d k hd
      cases hplain with
      | tag hname hchildren =>
          refine ⟨by cases children <;> simp [xmlToDocumentPrivate], fun ws rest fuel hws hfuel => ?_⟩
          obtain ⟨fuel, rfl⟩ : ∃ f, fuel = f + 2 := ⟨fuel - 2, by omega⟩
          have hnot : ¬256 ≤ d := by omega
          have hspace : ∀ c ∈ ws ++ xmlIndent k, xmlIsSpace c = true := by
            intro c hc
            rcases List.mem_append.mp hc with hc | hc
            · exact hws c hc
            · exact xmlIsSpace_indent k c hc
          rw [xmlParseNode, XmlParseCtx.at_stack, if_neg hnot]
          cases children with
          | nil =>
              have htext : ws ++ (xmlToDocumentPrivate beutify (.tag name attributes []) k ++ rest)
                  = ws ++ xmlIndent k ++ 0x3C :: (name ++ (xmlBuildAttribute attributes ++
                    0x2F :: 0x3E :: rest)) := by
                simp [xmlToDocumentPrivate]
              have hlex : XmlLexeme none d (0x3C :: (name ++ (xmlBuildAttribute attributes ++
                  0x2F :: 0x3E :: rest))) (.start name attributes) (0x2F :: 0x3E :: rest) :=
                .of_print hname htoken hlen hattr (.inl rfl)
              rw [htext]
              rw [← dropWhile_space hspace rfl] at hlex
              exact xmlParseNext_empty_tag fuel hlex
          | cons child children =>
              have htext : ws ++ (xmlToDocumentPrivate beutify
                    (.tag name attributes (child :: children)) k ++ rest)
                  = ws ++ xmlIndent k ++ 0x3C :: (name ++ (xmlBuildAttribute attributes ++
                    0x3E :: (xmlLineEnd ++ (xmlChildrenToDocument beutify (child :: children) (k + 1)
                      ++ (xmlEndTag k name ++ rest))))) := by
                simp [xmlToDocumentPrivate, xmlEndTag]
              rw [htext] at hfuel ⊢
              generalize hbody : xmlLineEnd ++ (xmlChildrenToDocument beutify (child :: children)
                (k + 1) ++ (xmlEndTag k name ++ rest)) = body at hfuel ⊢
              have hlex : XmlLexeme none d (0x3C :: (name ++ (xmlBuildAttribute attributes ++
                  0x3E :: body))) (.start name attributes) (0x3E :: body) :=
                .of_print hname htoken hlen hattr (.inr rfl)
              rw [← dropWhile_space hspace rfl] at hlex
              refine xmlParseNext_open_tag hlex ?_
              rw [← hbody] at hfuel ⊢
              refine readsAs_children k (k + 1) (by omega) htoken (child :: children) xmlLineEnd [] fuel
                (fun c hc => ih c hc (hchildren c hc) (d + 1) (k + 1) (by omega)) xmlIsSpace_lineEnd ?_
              simp only [List.length_append, List.length_cons] at hfuel ⊢
              omega

/-! ### The markup of a printed text -/

/-- What stands next to a `<`: white space before it, and no `!` behind it. -/
def MarkupStep (a b : UInt8) : Prop := (b = 0x3C → xmlIsSpace a = true) ∧ (a = 0x3C → b ≠ 0x21)

/-- Text that may stand behind a line end. -/
structure SpacedMarkup (p : List UInt8) : Prop where
  chain : (0x0A :: p).IsChain MarkupStep
  last : ∀ c ∈ (0x0A :: p).getLast?, c ≠ 0x3C
  bytes : (0 : UInt8) ∉ p

lemma isChain_of_notMem : ∀ {l : List UInt8}, 0x3C ∉ l → l.IsChain MarkupStep
  | [], _ => .nil
  | [_], _ => .singleton _
  | a :: b :: l, h => by
      have ha : a ≠ 0x3C := fun h' => h (by simp [h'])
      have hb : b ≠ 0x3C := fun h' => h (by simp [h'])
      exact List.isChain_cons_cons.mpr ⟨⟨fun h' => absurd h' hb, fun h' => absurd h' ha⟩,
        isChain_of_notMem fun h' => h (List.mem_cons_of_mem a h')⟩

/-- Text without markup. -/
lemma SpacedMarkup.of_notMem {p : List UInt8} (h : 0x3C ∉ p) (h0 : (0 : UInt8) ∉ p) :
    SpacedMarkup p where
  chain := isChain_of_notMem (by simpa using h)
  last c hc := by
    rintro rfl
    have hmem := List.mem_of_getLast? hc
    simp [h] at hmem
  bytes := h0

/-- A tag behind white space. -/
lemma SpacedMarkup.of_tag {ws q : List UInt8} {c : UInt8} (hws : ∀ c ∈ ws, xmlIsSpace c = true)
    (hc : c ≠ 0x21) (hq : 0x3C ∉ c :: q) (h0 : (0 : UInt8) ∉ c :: q) :
    SpacedMarkup (ws ++ 0x3C :: c :: q) where
  chain := by
    have hspace : ∀ b ∈ 0x0A :: ws, xmlIsSpace b = true := by
      intro b hb
      rcases List.mem_cons.mp hb with rfl | hb
      · rfl
      · exact hws b hb
    have hlt : 0x3C ∉ 0x0A :: ws := fun h => absurd (hspace _ h) (by decide)
    rw [← List.cons_append, List.isChain_append]
    refine ⟨isChain_of_notMem hlt, List.isChain_cons_cons.mpr ⟨⟨fun h => ?_, fun _ => hc⟩,
      isChain_of_notMem hq⟩, fun a ha b hb => ⟨fun _ => hspace a (List.mem_of_getLast? ha),
        fun h => ?_⟩⟩
    · exact absurd (by simp [h]) hq
    · exact absurd (h ▸ List.mem_of_getLast? ha) hlt
  last b hb := by
    have hlast : (0x0A :: (ws ++ 0x3C :: c :: q)).getLast? = (c :: q).getLast? := by
      rw [← List.cons_append, List.append_cons, List.getLast?_append_of_ne_nil _ (by simp)]
    rw [hlast] at hb
    rintro rfl
    exact hq (List.mem_of_getLast? hb)
  bytes h := by
    rcases List.mem_append.mp h with h | h
    · exact absurd (hws 0 h) (by decide)
    · rcases List.mem_cons.mp h with h | h
      · exact absurd h (by decide)
      · exact h0 h

/-- Two lines. -/
lemma SpacedMarkup.append {p q : List UInt8} (hp : SpacedMarkup p) (hq : SpacedMarkup q) :
    SpacedMarkup (p ++ (xmlLineEnd ++ q)) where
  chain := by
    rw [← List.cons_append, List.isChain_append]
    refine ⟨hp.chain, List.isChain_cons_cons.mpr ⟨⟨by decide, by decide⟩, hq.chain⟩, ?_⟩
    intro a ha b hb
    obtain rfl : b = 0x0D := by simpa [xmlLineEnd, eq_comm] using hb
    exact ⟨fun h => absurd h (by decide), fun h => absurd h (hp.last a ha)⟩
  last c hc := by
    refine hq.last c ?_
    rwa [xmlLineEnd, List.cons_append, List.cons_append, List.nil_append, ← List.cons_append,
      List.append_cons, List.getLast?_append_of_ne_nil _ (by simp)] at hc
  bytes h := by
    rcases List.mem_append.mp h with h | h
    · exact hp.bytes h
    · rcases List.mem_append.mp h with h | h
      · exact absurd h (by decide)
      · exact hq.bytes h

/-- A tree whose tags are read as tags. -/
inductive XmlNamed : XmlNode → Prop
  | text {name : List UInt8} : XmlNamed (.text name)
  | tag {name : List UInt8} {attributes : OrderedMap CString (List UInt8)}
      {children : List XmlNode} : TagName name → (∀ child ∈ children, XmlNamed child) →
      XmlNamed (.tag name attributes children)

lemma notMem_token {b : UInt8} (hb : xmlIsToken b = false) (h : ∀ c ∈ name, xmlIsToken c = true) :
    b ∉ name := by
  intro hmem
  rw [h b hmem] at hb
  cases hb

/-- Printed attributes hold no markup and no NUL. -/
lemma notMem_xmlBuildAttribute {b : UInt8} (hb : b = 0x3C ∨ b = 0)
    (hattr : ∀ e ∈ attributes.entries, XmlAttributeOk e) : b ∉ xmlBuildAttribute attributes := by
  intro h
  obtain ⟨e, he, hmem⟩ := List.mem_flatMap.mp h
  have hname : b ∉ e.1.1 :=
    notMem_token (by rcases hb with rfl | rfl <;> rfl) (hattr e he).name_token
  have hvalue : b ∉ xmlEscape e.2 := by
    rcases hb with rfl | rfl
    · exact notMem_xmlEscape (by decide) e.2
    · exact zero_notMem_xmlEscape e.2
  rcases hb with rfl | rfl <;> simp [hname, hvalue] at hmem

/-- A start tag behind white space. -/
lemma spaced_tag {ws tail : List UInt8} (hws : ∀ c ∈ ws, xmlIsSpace c = true) (hname : TagName name)
    (htoken : ∀ c ∈ name, xmlIsToken c = true)
    (hattr : ∀ e ∈ attributes.entries, XmlAttributeOk e)
    (htail : ∀ b : UInt8, b = 0x3C ∨ b = 0 → b ∉ tail) :
    SpacedMarkup (ws ++ 0x3C :: (name ++ xmlBuildAttribute attributes ++ tail)) := by
  have hbytes : ∀ b : UInt8, b = 0x3C ∨ b = 0 → b ∉ name ++ xmlBuildAttribute attributes ++ tail := by
    intro b hb h
    have hb' : xmlIsToken b = false := by rcases hb with rfl | rfl <;> rfl
    rcases List.mem_append.mp h with h | h
    · exact (List.mem_append.mp h).elim (notMem_token hb' htoken) (notMem_xmlBuildAttribute hb hattr)
    · exact htail b hb h
  obtain ⟨c, t, rfl⟩ := List.exists_cons_of_ne_nil hname.1
  exact .of_tag hws (fun h => hname.2 (by simp [h])) (hbytes 0x3C (.inl rfl)) (hbytes 0 (.inr rfl))

lemma spaced_endTag (k : ℕ) (htoken : ∀ c ∈ name, xmlIsToken c = true) :
    SpacedMarkup (xmlEndTag k name) := by
  have h1 := notMem_token (by rfl : xmlIsToken 0x3C = false) htoken
  have h2 := notMem_token (by rfl : xmlIsToken 0 = false) htoken
  refine .of_tag (fun c hc => ?_) (by decide) (by simp [h1]) (by simp [h2])
  rw [List.eq_of_mem_replicate hc]
  rfl

lemma spaced_children {k : ℕ} {p : List UInt8} (hp : SpacedMarkup p) :
    ∀ {children : List XmlNode},
      (∀ child ∈ children, SpacedMarkup (xmlToDocumentPrivate beutify child k)) →
      SpacedMarkup (xmlChildrenToDocument beutify children k ++ p)
  | [], _ => hp
  | child :: children, h => by
      have hrest := spaced_children hp fun c hc => h c (List.mem_cons_of_mem child hc)
      have happ := (h child (by simp)).append hrest
      simpa [xmlChildrenToDocument] using happ

set_option maxRecDepth 8000 in
/-- The text of a tree has white space before every `<`. -/
lemma spaced_print (beutify : Bool) {n : ℕ} {t : XmlNode} (hprint : XmlPrintable n t) :
    ∀ k, XmlNamed t → SpacedMarkup (xmlToDocumentPrivate beutify t k) := by
  induction hprint with
  | @text n name _ _ _ =>
      intro k _
      have hindent := xmlIsSpace_indent k
      refine .of_notMem (fun h => ?_) fun h => ?_
      · rcases List.mem_append.mp h with h | h
        · exact absurd (hindent _ h) (by decide)
        · exact notMem_xmlEscape (by decide) name h
      · rcases List.mem_append.mp h with h | h
        · exact absurd (hindent _ h) (by decide)
        · exact zero_notMem_xmlEscape name h
  | @tag n name attributes children htoken hlen hattr _ _ ih =>
      intro k hnamed
      cases hnamed with
      | tag hname hchildren =>
          cases children with
          | nil =>
              have htag := spaced_tag (xmlIsSpace_indent k) hname htoken hattr
                (show ∀ b : UInt8, b = 0x3C ∨ b = 0 → b ∉ [0x2F, 0x3E] by decide)
              simpa [xmlToDocumentPrivate] using htag
          | cons child children =>
              have htag := spaced_tag (xmlIsSpace_indent k) hname htoken hattr
                (show ∀ b : UInt8, b = 0x3C ∨ b = 0 → b ∉ [0x3E] by decide)
              have hbody := spaced_children (spaced_endTag k htoken)
                fun c hc => ih c hc (k + 1) (hchildren c hc)
              have happ := htag.append hbody
              simpa [xmlToDocumentPrivate, xmlEndTag] using happ

/-! ### Texts end with white space -/

/-- Unescaping keeps a last byte that ends no entity. -/
lemma getLast?_xmlUnescapeLoop {b : UInt8} (hb : b ≠ 0x3B) :
    ∀ (fuel : ℕ) (p dest v : List UInt8), (0 : UInt8) ∉ p → p.getLast? = some b →
      xmlUnescapeLoop fuel p dest = .ok v → v.getLast? = some b
  | fuel + 1, p, dest, v, h0, hlast, hrun => by
      rw [xmlUnescapeLoop] at hrun
      split at hrun
      · have hne : p ≠ [] := by
          rintro rfl
          cases hlast
        obtain ⟨c, t, rfl⟩ := List.exists_cons_of_ne_nil hne
        have hc : c ≠ 0 := fun h => h0 (by simp [h])
        rw [List.headD_cons, if_neg hc] at hrun
        rw [← Except.ok.inj hrun, List.getLast?_append_of_ne_nil _ hne, hlast]
      · rename_i before q hq
        have hp := strchrSplit_eq hq
        split at hrun
        · cases hrun
        · rename_i keybuf r hr
          have hqr := strchrSplit_eq hr
          split at hrun
          · rcases xmlReference_cases keybuf with ⟨w, hw⟩ | hw
            · rw [hw, except_ok_bind] at hrun
              have hne : r ≠ [] := by
                rintro rfl
                rw [hp, hqr, List.append_cons, ← List.append_assoc,
                  List.getLast?_append_of_ne_nil _ (by simp)] at hlast
                exact hb (by simpa [eq_comm] using hlast)
              refine getLast?_xmlUnescapeLoop hb fuel r _ v (fun h => h0 ?_) ?_ hrun
              · rw [hp, hqr]
                simp [h]
              · rw [hp, hqr, List.append_cons, ← List.append_assoc, List.append_cons,
                  List.getLast?_append_of_ne_nil _ hne] at hlast
                exact hlast
            · rw [hw, except_error_bind] at hrun
              cases hrun
          · cases hrun

/-- A text that is read from spaced markup ends with white space. -/
lemma getLast?_created {p : List UInt8} (hchain : p.IsChain MarkupStep) (h0 : (0 : UInt8) ∉ p)
    {s : XmlPlace} (hs : s.1 <:+ p) (h : XmlCreated none s (.text name)) :
    ∃ c ∈ name.getLast?, xmlIsSpace c = true := by
  cases h with
  | @text _ q e rest hwalk hlex =>
      have hsuffix : q.dropWhile xmlIsSpace <:+ p :=
        (List.dropWhile_suffix _).trans (hwalk.suffix.trans hs)
      generalize q.dropWhile xmlIsSpace = q at hlex hsuffix
      have hqchain : q.IsChain MarkupStep := hchain.suffix hsuffix
      have hq0 : (0 : UInt8) ∉ q := fun h => h0 (hsuffix.mem h)
      cases hlex with
      | cdata _ _ _ => exact absurd rfl ((List.isChain_cons_cons.mp hqchain).1.2 rfl)
      | @text c u v rest _ _ _ hv _ =>
          have hne : c :: u ≠ [] := by simp
          obtain ⟨b, hb⟩ : ∃ b, (c :: u).getLast? = some b := ⟨_, List.getLast?_eq_some_getLast hne⟩
          have hspace : xmlIsSpace b = true :=
            ((List.isChain_append.mp hqchain).2.2 b hb 0x3C (by simp)).1 rfl
          refine ⟨b, ?_, hspace⟩
          rw [xmlUnescape] at hv
          rcases xmlUnescapeLoop_cases ((c :: u).length + 1) (c :: u) [] (by omega) with
            ⟨w, hw⟩ | hw
          · rw [hw, except_ok_bind] at hv
            obtain rfl : w = name := Except.ok.inj hv
            refine getLast?_xmlUnescapeLoop ?_ _ _ _ w (fun h => hq0 ?_) hb hw
            · rintro rfl
              exact absurd hspace (by decide)
            · exact List.mem_append_left _ h
          · rw [hw, except_error_bind] at hv
            cases hv

/-! ### The round trip -/

lemma XmlCreated.named {cv : XmlCharset} {s : XmlPlace} {t : XmlNode} (h : XmlCreated cv s t) :
    XmlNamed t := by
  induction h with
  | text _ _ => exact .text
  | @tag name attributes children q d rest hwalk hlex _ ih =>
      refine .tag ?_ ih
      generalize q.dropWhile xmlIsSpace = q at hlex
      cases hlex with
      | @start c p rest attributes hc hbang _ _ =>
          rw [TagName, List.takeWhile_cons_of_pos hc]
          exact ⟨by simp, by simpa using hbang⟩

/-- A tree that is created from its own print has no texts. -/
lemma XmlCreated.plain {n : ℕ} {t : XmlNode} {p : List UInt8} {s : XmlPlace}
    (hchain : p.IsChain MarkupStep) (h0 : (0 : UInt8) ∉ p) (hs : s.1 <:+ p)
    (h : XmlCreated none s t) (hprint : XmlPrintable n t) : XmlPlain t := by
  induction h generalizing n with
  | @text name q d rest hwalk hlex =>
      obtain ⟨c, hc, hspace⟩ := getLast?_created hchain h0 hs (.text hwalk hlex)
      cases hprint with
      | text _ _ hlast =>
          rw [hlast c hc] at hspace
          cases hspace
  | @tag name attributes children q d rest hwalk hlex hchildren ih =>
      have hnamed : XmlNamed (.tag name attributes children) :=
        XmlCreated.named (.tag hwalk hlex hchildren)
      cases hprint with
      | tag _ _ _ hprints _ =>
          cases hnamed with
          | tag hname _ => exact .tag hname fun c hc => ih c hc (hprints c hc)

/-- The parser gets to the root. -/
lemma xmlParseString_print (ic : Iconv) (t : XmlNode) :
    xmlParseString ic (xmlToDocument t beutify)
      = xmlParseRoot (.at (xmlLineEnd ++ xmlToDocumentPrivate beutify t 0) 0 none) := by
  have htext : xmlToDocument t beutify
      = printedDecl.text ++ (xmlLineEnd ++ xmlToDocumentPrivate beutify t 0) := by
    rw [xmlToDocument, List.append_assoc]
    rfl
  obtain ⟨r, hr, hends⟩ :=
    xmlParseHeader_text printedDecl (xmlLineEnd ++ xmlToDocumentPrivate beutify t 0)
  have hreads : headerReads printedDecl.trail true printedDecl.attributes utf8Name
      = some utf8Name := rfl
  rw [hreads] at hends
  have hnone : xmlCharset ic utf8Name = none := xmlCharset_utf8 ic (strcasecmpEq_refl _)
  rw [xmlParseString, htext, hr.trans hends.finish, except_ok_bind]
  simp only [hnone]
  rfl

/-- A tree that comes back is plain. -/
lemma plain_of_roundTrip {ic : Iconv} {n : ℕ} {t : XmlNode} (hprint : XmlPrintable n t)
    (h : xmlParseString ic (xmlToDocument t beutify) = .ok t) : XmlPlain t := by
  have hrun := xmlParseRoot_run none (xmlLineEnd ++ xmlToDocumentPrivate beutify t 0)
  rw [← xmlParseString_print ic t, h] at hrun
  cases hrun with
  | node _ hcreated =>
      have hspaced := spaced_print beutify hprint 0 hcreated.named
      have hchain : (xmlLineEnd ++ xmlToDocumentPrivate beutify t 0).IsChain MarkupStep :=
        List.isChain_cons_cons.mpr ⟨⟨fun h => absurd h (by decide), fun h => absurd h (by decide)⟩,
          hspaced.chain⟩
      have h0 : (0 : UInt8) ∉ xmlLineEnd ++ xmlToDocumentPrivate beutify t 0 := by
        simpa [xmlLineEnd] using hspaced.bytes
      exact hcreated.plain hchain h0 List.suffix_rfl hprint

/-- A tag with a name of one letter, no attributes and at most one child. -/
lemma XmlPrintable.of_letter {n : ℕ} {c : UInt8} (child : Option XmlNode) (hc : xmlIsToken c = true)
    (hchild : ∀ t ∈ child, XmlPrintable n t) :
    XmlPrintable (n + 1) (.tag [c] .empty child.toList) := by
  refine .tag (by simpa using hc) (by simp) (by simp [OrderedMap.empty]) (by simpa using hchild) ?_
  cases child <;> simp

end LibCmutils
