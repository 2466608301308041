import LibCmutils.Xml.ToJson

/-!
The tree that `CMUTIL_XmlToJson` leaves (`src/nanoxml.c`, `src/strings.c`).

* `TrimStays`: a text with nothing to cut. `strTrimBlock_self` says that `CMUTIL_StrTrim` leaves
  its block as it is.
* `XmlNode.Unpadded`: the texts that are trimmed are such texts. `xmlToJsonInternal_self` says
  that the conversion leaves the whole tree, `unpadded_of_node_eq` that it does so for no other.

The main result is `xmlToJson_readOnly_iff`.
-/

namespace LibCmutils

/-! ### Texts with nothing to cut -/

/-- A text that is read as a whole and has no white space at its ends, or one whose length is
read as zero and that has none in front. -/
def TrimStays (l : List UInt8) : Prop :=
  toInt l.length = l.length ∧ trimSpaces l = l ∨
    toInt l.length = 0 ∧ ∀ c ∈ l.head?, isSpaceByte c = false

lemma dropWhile_eq_self_iff_head (l : List UInt8) :
    l.dropWhile isSpaceByte = l ↔ ∀ c ∈ l.head?, isSpaceByte c = false := by
  cases l with
  | nil => simp
  | cons c l => simp [List.dropWhile_eq_self_iff]

lemma trimStays_iff (l : List UInt8) : TrimStays l ↔ trimAt l (toInt l.length) = some l := by
  have hle := toInt_le l.length
  rw [TrimStays, trimAt, ← dropWhile_eq_self_iff_head]
  rcases lt_trichotomy (toInt l.length) 0 with hneg | hzero | hpos
  · simp only [hneg.ne, hneg, if_true, if_false, false_and, or_false, reduceCtorEq, iff_false]
    omega
  · simp only [hzero, if_true, true_and, Option.some.injEq, or_iff_right_iff_imp]
    rintro ⟨hlen, -⟩
    rw [List.eq_nil_of_length_eq_zero (by omega : l.length = 0)]
    rfl
  · simp only [hpos.ne', hpos.not_gt, if_false, false_and, or_false, Option.some.injEq]
    constructor
    · rintro ⟨hlen, htrim⟩
      rw [hlen, Int.toNat_natCast, List.take_length, htrim]
    · intro htrim
      have hsub := (trimSpaces_sublist (l.take (toInt l.length).toNat)).length_le
      rw [htrim, List.length_take] at hsub
      have hlen : toInt l.length = l.length := by omega
      rw [hlen, Int.toNat_natCast, List.take_length] at htrim
      exact ⟨hlen, htrim⟩

/-- A text that is moved to its own place stays. -/
lemma strMoveLoop_self (rest : List UInt8) : ∀ (t done : List UInt8) (fuel : ℕ),
    (0 : UInt8) ∉ t → t.length < fuel →
    strMoveLoop fuel (done ++ (t ++ 0 :: rest)) done.length done.length =
      some (done ++ (t ++ 0 :: rest))
  | [], done, fuel + 1, _, _ => by
      rw [strMoveLoop, List.nil_append, List.getElem?_append_right le_rfl, Nat.sub_self]
      simp
  | c :: t, done, fuel + 1, h0, hfuel => by
      have hc : c ≠ 0 := fun h => h0 (by simp [h])
      have ih := strMoveLoop_self rest t (done ++ [c]) fuel (fun h => h0 (List.mem_cons_of_mem c h))
        (by rw [List.length_cons] at hfuel; omega)
      rw [strMoveLoop, List.getElem?_append_right le_rfl, Nat.sub_self]
      simpa [hc] using ih

lemma strLTrimBlock_self {l : List UInt8} (h0 : (0 : UInt8) ∉ l)
    (hhead : ∀ c ∈ l.head?, isSpaceByte c = false) (rest : List UInt8) :
    strLTrimBlock (l ++ 0 :: rest) = some (l ++ 0 :: rest) := by
  have hnone : (l.takeWhile skippedLeft).length = 0 := by
    cases l with
    | nil => rfl
    | cons c l =>
        have hc : c ≠ 0 := fun h => h0 (by simp [h])
        have hspace : isSpaceByte c = false := hhead c rfl
        rw [List.takeWhile_cons_of_neg (by simp [skippedLeft, strchr_spaces hc, hspace])]
        rfl
  have hmove := strMoveLoop_self rest l [] ((l ++ 0 :: rest).length + 1) h0
    (by rw [List.length_append]; omega)
  rw [strLTrimBlock, strLTrimLoop_eq, hnone]
  exact hmove

/-- The right trim leaves a text that does not end with white space. -/
lemma strRTrim_self {l : List UInt8} (h0 : (0 : UInt8) ∉ l)
    (hlast : ∀ c ∈ l.getLast?, isSpaceByte c = false) : strRTrim l = l := by
  rcases List.eq_nil_or_concat l with rfl | ⟨m, c, rfl⟩
  · rfl
  · rw [List.concat_eq_append] at h0 hlast ⊢
    have hc : c ≠ 0 := fun h => h0 (by simp [h])
    cases m with
    | nil => rfl
    | cons d m =>
        have hspace := hlast c (Option.mem_def.mpr List.getLast?_concat)
        rw [strRTrim_concat (by simp), strchr_spaces hc, hspace, if_neg (by simp)]

lemma strRTrimFrom_self {l : List UInt8} (hne : l ≠ []) (hright : strRTrim l = l)
    (rest : List UInt8) : strRTrimFrom (l ++ 0 :: rest) l.length = some (l ++ 0 :: rest) := by
  have hpos := List.length_pos_of_ne_nil hne
  obtain ⟨rest', hwrite, -, hsame⟩ := blockWrite_nul (List.prefix_refl l) rest
  rw [strRTrimFrom, if_neg (by omega), if_neg (by omega), Int.toNat_natCast,
    strRTrimLoop_eq hne (0 :: rest), hright, Option.bind_eq_bind, Option.bind_some,
    Nat.sub_add_cancel hpos, hwrite, hsame rfl]

/-- `CMUTIL_StrTrim` leaves the block of such a text as it is. -/
lemma strTrimBlock_self {l : List UInt8} (h0 : (0 : UInt8) ∉ l) (h : TrimStays l)
    (rest : List UInt8) : strTrimBlock (l ++ 0 :: rest) = some (l ++ 0 :: rest) := by
  have hright : strRTrimFrom (l ++ 0 :: rest) (toInt l.length) = some (l ++ 0 :: rest) ∧
      ∀ c ∈ l.head?, isSpaceByte c = false := by
    rcases h with ⟨hlen, htrim⟩ | ⟨hzero, hhead⟩
    · have htrimmed := trimmed_trimSpaces l
      rw [htrim] at htrimmed
      refine ⟨?_, htrimmed.head⟩
      rw [hlen]
      by_cases hne : l = []
      · rw [hne]
        rfl
      · exact strRTrimFrom_self hne (strRTrim_self h0 htrimmed.last) rest
    · refine ⟨?_, hhead⟩
      rw [strRTrimFrom, if_pos hzero]
  rw [strTrimBlock, strRTrimBlock_eq h0, hright.1, Option.bind_eq_bind, Option.bind_some,
    strLTrimBlock_self h0 hright.2]

/-! ### Trees -/

namespace XmlNode

mutual

/-- The texts that are trimmed have nothing to cut. -/
def Unpadded : XmlNode → Prop
  | .text _ => True
  | .tag _ _ children =>
      match onlyText children with
      | some only => TrimStays only.1
      | none => FirstUnpadded (children.length % 2 ^ 32) children

/-- The same of the first `ccnt` nodes. -/
def FirstUnpadded (ccnt : ℕ) : List XmlNode → Prop
  | [] => True
  | child :: children => ccnt = 0 ∨ child.Unpadded ∧ FirstUnpadded (ccnt - 1) children

end

end XmlNode

section Trees

variable {s s' : StringInternal} {text : CString}

/-- A text with nothing to cut is left as it is. -/
lemma xmlTrimText_self (h : s.Holds s.content) (hstays : TrimStays (CString.ofBytes s.content).1) :
    ∃ text, xmlTrimText s = some (s, text) := by
  obtain ⟨rest, hdata⟩ := data_split h
  have htrim := strTrimBlock_self (CString.ofBytes s.content).2 hstays rest
  have htext : cStringAt s.data 0 = some (CString.ofBytes s.content).1 := by
    rw [hdata]
    exact cStringAt_append [] (CString.ofBytes s.content).2 rest
  rw [← hdata] at htrim
  refine ⟨CString.ofBytes (CString.ofBytes s.content).1, ?_⟩
  rw [xmlTrimText, htrim, Option.bind_eq_bind, Option.bind_some, htext]
  rfl

/-- A text that holds the same bytes as before had nothing to cut. -/
lemma trimStays_of_content_eq (h : s.Holds s.content) (hrun : xmlTrimText s = some (s', text))
    (h' : s'.Holds s'.content) (heq : s'.content = s.content) :
    TrimStays (CString.ofBytes s.content).1 := by
  obtain ⟨rest, hdata⟩ := data_split h
  obtain ⟨data, htrim, hrun⟩ := Option.bind_eq_some_iff.mp hrun
  obtain ⟨left, htext, hpair⟩ := Option.bind_eq_some_iff.mp hrun
  obtain ⟨rfl, -⟩ := Prod.mk.inj (Option.some.inj hpair)
  have hleft : left = (CString.ofBytes s.content).1 := by
    rw [← heq, ← ofBytes_data h']
    exact cStringAt_zero htext
  rw [trimStays_iff, ← strTrimBlock_eq (CString.ofBytes s.content).2 rest, ← hdata, htrim,
    Option.bind_some, htext, hleft]

mutual

/-- The conversion leaves such a tree as it is. -/
lemma xmlToJsonInternal_self : ∀ (t : XmlNodeInternal) (parent : OrderedMap CString Json),
    t.WellFormed → t.node.Unpadded → ∃ parent', xmlToJsonInternal t parent = some (t, parent')
  | .text tagname, parent, _, _ => ⟨_, rfl⟩
  | .tag tagname attributes children, parent, h, hpad => by
      rw [XmlNodeInternal.node, XmlNode.Unpadded, XmlNode.onlyText_nodes] at hpad
      rw [xmlToJsonInternal]
      cases honly : XmlNodeInternal.onlyText children with
      | some child =>
          obtain rfl := XmlNodeInternal.onlyText_eq_some.mp honly
          obtain ⟨text, htext⟩ := xmlTrimText_self (s := child) h.2.1 hpad
          simp [htext]
      | none =>
          rw [honly, XmlNodeInternal.nodes_eq, List.length_map, ← XmlNodeInternal.nodes_eq] at hpad
          obtain ⟨res, hres⟩ := xmlChildrenToJson_self (children.length % 2 ^ 32) children
            (xmlJsonAttributes attributes) h.2 hpad
          refine ⟨xmlJsonAdd parent (CString.ofBytes tagname.data) (.object res.entries), ?_⟩
          simp only [hres, Option.map_some]

lemma xmlChildrenToJson_self : ∀ (ccnt : ℕ) (children : List XmlNodeInternal)
    (res : OrderedMap CString Json), XmlNodeInternal.AllWellFormed children →
    XmlNode.FirstUnpadded ccnt (XmlNodeInternal.nodes children) →
    ∃ res', xmlChildrenToJson ccnt children res = some (children, res')
  | ccnt, [], res, _, _ => ⟨res, rfl⟩
  | ccnt, child :: children, res, h, hpad => by
      rw [xmlChildrenToJson]
      rcases hpad with hzero | ⟨hchild, hrest⟩
      · exact ⟨res, if_pos hzero⟩
      · by_cases hzero : ccnt = 0
        · exact ⟨res, if_pos hzero⟩
        · obtain ⟨res₁, h₁⟩ := xmlToJsonInternal_self child res h.1 hchild
          obtain ⟨res₂, h₂⟩ := xmlChildrenToJson_self (ccnt - 1) children res₁ h.2 hrest
          refine ⟨res₂, ?_⟩
          rw [if_neg hzero, h₁, Option.bind_some, h₂]
          rfl

end

mutual

/-- A tree that holds the same bytes as before had no text with something to cut. -/
lemma unpadded_of_node_eq : ∀ (t : XmlNodeInternal) {t' : XmlNodeInternal}
    {parent parent' : OrderedMap CString Json}, t.WellFormed →
    xmlToJsonInternal t parent = some (t', parent') → t'.WellFormed → t'.node = t.node →
    t.node.Unpadded
  | .text tagname, _, _, _, _, _, _, _ => trivial
  | .tag tagname attributes children, t', parent, parent', h, hrun, h', heq => by
      rw [XmlNodeInternal.node, XmlNode.Unpadded, XmlNode.onlyText_nodes]
      rw [xmlToJsonInternal] at hrun
      cases honly : XmlNodeInternal.onlyText children with
      | some child =>
          obtain rfl := XmlNodeInternal.onlyText_eq_some.mp honly
          simp only [honly] at hrun
          obtain ⟨⟨s', text⟩, htext, hpair⟩ := Option.map_eq_some_iff.mp hrun
          obtain ⟨rfl, -⟩ := Prod.mk.inj hpair
          simp only [XmlNodeInternal.node, XmlNodeInternal.nodes, XmlNode.tag.injEq,
            List.cons.injEq, XmlNode.text.injEq, and_true, true_and] at heq
          exact trimStays_of_content_eq h.2.1 htext h'.2.1 heq
      | none =>
          simp only [honly] at hrun
          obtain ⟨⟨children', res⟩, hloop, hpair⟩ := Option.map_eq_some_iff.mp hrun
          obtain ⟨rfl, -⟩ := Prod.mk.inj hpair
          simp only [XmlNodeInternal.node, XmlNode.tag.injEq, true_and] at heq
          have hfirst := firstUnpadded_of_nodes_eq (children.length % 2 ^ 32) children h.2 hloop
            h'.2 heq
          simpa [XmlNodeInternal.nodes_eq] using hfirst

lemma firstUnpadded_of_nodes_eq : ∀ (ccnt : ℕ) (children : List XmlNodeInternal)
    {children' : List XmlNodeInternal} {res res' : OrderedMap CString Json},
    XmlNodeInternal.AllWellFormed children →
    xmlChildrenToJson ccnt children res = some (children', res') →
    XmlNodeInternal.AllWellFormed children' →
    XmlNodeInternal.nodes children' = XmlNodeInternal.nodes children →
    XmlNode.FirstUnpadded ccnt (XmlNodeInternal.nodes children)
  | _, [], _, _, _, _, _, _, _ => trivial
  | ccnt, child :: children, children', res, res', h, hrun, h', heq => by
      rw [xmlChildrenToJson] at hrun
      by_cases hzero : ccnt = 0
      · exact .inl hzero
      · rw [if_neg hzero] at hrun
        obtain ⟨⟨child', res₁⟩, h₁, hrest⟩ := Option.bind_eq_some_iff.mp hrun
        obtain ⟨⟨rest', res₂⟩, h₂, hpair⟩ := Option.map_eq_some_iff.mp hrest
        obtain ⟨rfl, -⟩ := Prod.mk.inj hpair
        obtain ⟨hchild, hnodes⟩ := List.cons.inj heq
        exact .inr ⟨unpadded_of_node_eq child h.1 h₁ h'.1 hchild,
          firstUnpadded_of_nodes_eq (ccnt - 1) children h.2 h₂ h'.2 hnodes⟩

end

end Trees

/-- **A read-only conversion.** The names, texts and attributes of the tree are the same after
the conversion, its document is the same, and a second conversion gives the same JSON, exactly
when each text that is the only child of an element has nothing to cut. -/
theorem xmlToJson_readOnly_iff {t : XmlNodeInternal} (h : t.WellFormed) :
    (∃ t' json, xmlToJson t = some (t', json) ∧ t'.WellFormed ∧ t'.node = t.node ∧
      (∀ beutify, xmlToDocument t'.node beutify = xmlToDocument t.node beutify) ∧
      ∃ t'', xmlToJson t' = some (t'', json)) ↔ t.node.Unpadded := by
  constructor
  · rintro ⟨t', json, hrun, h', heq, -, -⟩
    obtain ⟨⟨_, parent⟩, hinternal, hpair⟩ := Option.map_eq_some_iff.mp hrun
    obtain ⟨rfl, -⟩ := Prod.mk.inj hpair
    exact unpadded_of_node_eq t h hinternal h' heq
  · intro hpad
    obtain ⟨parent, hinternal⟩ := xmlToJsonInternal_self t .empty h hpad
    have hrun : xmlToJson t = some (t, .object parent.entries) := by
      rw [xmlToJson, hinternal]
      rfl
    exact ⟨t, _, hrun, h, rfl, fun _ => rfl, t, hrun⟩

/-- `<a>` with the text `text`, in a block. -/
def xmlTextOnly (text : StringInternal) : XmlNodeInternal :=
  .tag xmlNameA OrderedMap.empty [.text text]

/-- A text without white space at its ends. -/
theorem xmlToJson_readOnly_a : ∃ t' json,
    xmlToJson (xmlTextOnly xmlNameA) = some (t', json) ∧ t'.WellFormed ∧
      t'.node = (xmlTextOnly xmlNameA).node ∧
      (∀ beutify, xmlToDocument t'.node beutify =
        xmlToDocument (xmlTextOnly xmlNameA).node beutify) ∧
      ∃ t'', xmlToJson t' = some (t'', json) := by
  refine (xmlToJson_readOnly_iff ?_).mpr ?_
  · exact And.intro xmlNameA_holds (And.intro xmlNameA_holds trivial)
  · exact Or.inl ⟨by decide, by decide⟩

/-- A text with a space in front is changed, and the document with it. -/
theorem xmlToJson_readOnly_fails : ∃ t t' json, t.WellFormed ∧ xmlToJson t = some (t', json) ∧
    t'.node ≠ t.node ∧ (∀ beutify, xmlToDocument t'.node beutify ≠ xmlToDocument t.node beutify) ∧
    ¬ ∃ t' json, xmlToJson t = some (t', json) ∧ t'.WellFormed ∧ t'.node = t.node ∧
      (∀ beutify, xmlToDocument t'.node beutify = xmlToDocument t.node beutify) ∧
      ∃ t'', xmlToJson t' = some (t'', json) := by
  have hrun : xmlToJson (xmlTextOnly ⟨[0x20, 0x61, 0], 3, 2⟩) =
      some (xmlTextOnly ⟨[0x61, 0, 0], 3, 2⟩, .object [(CString.ofBytes [0x61],
        jsonValueSetString (CString.ofBytes [0x61]))]) := rfl
  have hdoc : ∀ beutify, xmlToDocument (xmlTextOnly ⟨[0x61, 0, 0], 3, 2⟩).node beutify ≠
      xmlToDocument (xmlTextOnly ⟨[0x20, 0x61, 0], 3, 2⟩).node beutify := by
    decide
  refine ⟨_, _, _, ?_, hrun, fun heq => hdoc true (heq ▸ rfl), hdoc, ?_⟩
  · have htext : (⟨[0x20, 0x61, 0], 3, 2⟩ : StringInternal).Holds [0x20, 0x61] :=
      .of_split ⟨[], rfl⟩ rfl rfl
    exact And.intro xmlNameA_holds (And.intro htext trivial)
  · rintro ⟨t', json, h, -, -, hsame, -⟩
    rw [hrun] at h
    obtain ⟨rfl, -⟩ := Prod.mk.inj (Option.some.inj h)
    exact hdoc true (hsame true)

end LibCmutils
