import LibCmutils.Xml.Robust

/-!
How the tags of an accepted text nest (`src/nanoxml.c`).

* `XmlNextItem`: the next item that is not ignored, and the text from where it stands.
* `XmlContent`: the nodes between two places of the text with the same number of open tags,
  and for every element written with a start tag and an end tag the names of the two. The
  end tag of an element stands behind its content.
* `XmlDocument`: a text with a header and an element behind it.
* `xmlParse_reads`, `XmlContent.children`: what the recursive descent reads is content, and
  content is read.

The main result is `xmlParseString_nested`. The name of an end tag is not compared with
anything.
-/

namespace LibCmutils

/-- The names in the start tag and in the end tag of an element. -/
structure XmlTagPair where
  startName : List UInt8
  endName : List UInt8
  deriving DecidableEq

/-- The name in the end tag that a text begins with. -/
def xmlEndName (s : List UInt8) : List UInt8 := (s.drop 2).takeWhile xmlIsToken

/-- The item that follows at a place, past what is ignored, and the text it begins. -/
inductive XmlNextItem (cv : XmlCharset) (d : ℕ) :
    List UInt8 → List UInt8 → XmlItem → List UInt8 → Prop
  | here {p : List UInt8} {item : XmlItem} {rest : List UInt8} :
      XmlLexeme cv d (p.dropWhile xmlIsSpace) item rest →
      XmlNextItem cv d p (p.dropWhile xmlIsSpace) item rest
  | skip {p q s : List UInt8} {item : XmlItem} {rest : List UInt8} :
      XmlLexeme cv d (p.dropWhile xmlIsSpace) .ignored q → XmlNextItem cv d q s item rest →
      XmlNextItem cv d p s item rest

/-- The nodes from one place to another with `d` open tags, and the tags of the elements
among them and inside them. -/
inductive XmlContent (cv : XmlCharset) :
    ℕ → List UInt8 → List XmlNode → List XmlTagPair → List UInt8 → Prop
  | nil {d : ℕ} {p : List UInt8} : XmlContent cv d p [] [] p
  | leaf {d : ℕ} {p s q r : List UInt8} {node : XmlNode} {nodes : List XmlNode}
      {tags : List XmlTagPair} : d < 256 → XmlNextItem cv d p s (.leaf node) q →
      XmlContent cv d q nodes tags r → XmlContent cv d p (node :: nodes) tags r
  | empty {d : ℕ} {p s q r name : List UInt8} {attributes : OrderedMap CString (List UInt8)}
      {nodes : List XmlNode} {tags : List XmlTagPair} : d < 256 →
      XmlNextItem cv d p s (.start name attributes) (0x2F :: 0x3E :: q) →
      XmlContent cv d q nodes tags r →
      XmlContent cv d p (.tag name attributes [] :: nodes) tags r
  | element {d : ℕ} {p s q q' s' q'' r name : List UInt8}
      {attributes : OrderedMap CString (List UInt8)} {children nodes : List XmlNode}
      {inner tags : List XmlTagPair} : d + 1 < 256 →
      XmlNextItem cv d p s (.start name attributes) (0x3E :: q) →
      XmlContent cv (d + 1) q children inner q' → XmlNextItem cv (d + 1) q' s' .close q'' →
      XmlContent cv d q'' nodes tags r →
      XmlContent cv d p (.tag name attributes children :: nodes)
        (⟨name, xmlEndName s'⟩ :: inner ++ tags) r

/-- A text with a header, behind it an element, and the tags in it. -/
def XmlDocument (ic : Iconv) (xmlstr : List UInt8) (node : XmlNode) (tags : List XmlTagPair) : Prop :=
  ∃ p encoding q, xmlParseHeader (xmlParseInit xmlstr) utf8Name = .ok (.at p 0 none, encoding) ∧
    XmlContent (xmlCharset ic encoding) 0 p [node] tags q

variable {cv : XmlCharset} {d : ℕ} {p q r rest s : List UInt8} {item : XmlItem}

/-! ### What is read is content -/

lemma XmlContent.append {nodes nodes' : List XmlNode} {tags tags' : List XmlTagPair}
    (h : XmlContent cv d p nodes tags q) (h' : XmlContent cv d q nodes' tags' r) :
    XmlContent cv d p (nodes ++ nodes') (tags ++ tags') r := by
  induction h with
  | nil => exact h'
  | leaf hd hitem _ ih => exact .leaf hd hitem (ih h')
  | empty hd hitem _ ih => exact .empty hd hitem (ih h')
  | element hd hitem hchildren hclose _ _ ih =>
      rw [List.append_assoc]
      exact .element hd hitem hchildren hclose (ih h')

/-- What a call of `CMUTIL_XmlParseNode` reads: an end tag, or one node. -/
inductive XmlNodeRead (cv : XmlCharset) (d : ℕ) (p : List UInt8) :
    XmlParseCtx × Option XmlNode → Prop
  | close {s rest : List UInt8} : XmlNextItem cv d p s .close rest →
      XmlNodeRead cv d p (.at rest d cv, none)
  | node {n : XmlNode} {tags : List XmlTagPair} {rest : List UInt8} :
      XmlContent cv d p [n] tags rest → XmlNodeRead cv d p (.at rest d cv, some n)

/-- What the loop over the children reads: nodes, and an end tag. -/
inductive XmlChildrenRead (cv : XmlCharset) (d : ℕ) (p : List UInt8) (acc : List XmlNode) :
    XmlParseCtx × List XmlNode → Prop
  | close {q s rest : List UInt8} {children : List XmlNode} {tags : List XmlTagPair} :
      XmlContent cv d p children tags q → XmlNextItem cv d q s .close rest →
      XmlChildrenRead cv d p acc (.at rest d cv, acc ++ children)

/-- What is ignored first, then a call. -/
lemma XmlNodeRead.skip {res : XmlParseCtx × Option XmlNode}
    (hskip : XmlLexeme cv d (p.dropWhile xmlIsSpace) .ignored q) (h : XmlNodeRead cv d q res) :
    XmlNodeRead cv d p res := by
  cases h with
  | close hitem => exact .close (.skip hskip hitem)
  | node hcontent =>
      cases hcontent with
      | leaf hd hitem hrest => exact .node (.leaf hd (.skip hskip hitem) hrest)
      | empty hd hitem hrest => exact .node (.empty hd (.skip hskip hitem) hrest)
      | element hd hitem hchildren hclose hrest =>
          exact .node (.element hd (.skip hskip hitem) hchildren hclose hrest)

/-- A tag: it is empty, or its children are read. -/
lemma xmlParseNext_reads {fuel : ℕ} {name : List UInt8}
    {attributes : OrderedMap CString (List UInt8)} {res : XmlParseCtx × Option XmlNode}
    (hd : d < 256)
    (hlex : XmlLexeme cv d (p.dropWhile xmlIsSpace) (.start name attributes) rest)
    (hchildren : ∀ q res, xmlParseChildren fuel (.at q (d + 1) cv) [] = .ok res →
      d + 1 < 256 ∧ XmlChildrenRead cv (d + 1) q [] res)
    (hrun : xmlParseNext (fuel + 1) (.at p d cv) = .ok res) : XmlNodeRead cv d p res := by
  obtain ⟨c, rest, rfl⟩ := hlex.start_rest
  have hitem : xmlParseItem (.at p d cv) = .ok (.at (c :: rest) (d + 1) cv, .start name attributes) :=
    xmlParseItem_lexeme hlex
  simp only [xmlParseNext, hitem, except_ok_bind, XmlParseCtx.at_pos, XmlParseCtx.at_remain,
    xmlStartsWith_at, decide_eq_true_eq, XmlParseCtx.deref_cons] at hrun
  by_cases hempty : [0x2F, 0x3E] <+: c :: rest
  · obtain ⟨q, hq⟩ := hempty
    rw [← hq] at hlex
    rw [if_pos ⟨q, hq⟩, ← hq, xmlSkipSub_at (n := 2) rfl, except_ok_bind] at hrun
    obtain rfl := Except.ok.inj hrun
    exact .node (.empty hd (.here hlex) .nil)
  · rw [if_neg hempty] at hrun
    by_cases hc : c = 0x3E
    · subst hc
      rw [if_pos rfl, ← List.singleton_append, xmlSkipSub_at (n := 1) rfl, except_ok_bind] at hrun
      cases hread : xmlParseChildren fuel (.at rest (d + 1) cv) [] with
      | error e =>
          rw [hread] at hrun
          cases hrun
      | ok r =>
          rw [hread] at hrun
          obtain ⟨hd', hr⟩ := hchildren rest r hread
          cases hr with
          | close hcontent hclose =>
              obtain rfl := Except.ok.inj hrun
              exact .node (.element hd' (.here hlex) hcontent hclose .nil)
    · rw [if_neg hc] at hrun
      cases hrun

/-- **The parser reads content.** -/
theorem xmlParse_reads (cv : XmlCharset) : ∀ fuel : ℕ,
    (∀ p d res, xmlParseNode fuel (.at p d cv) = .ok res → d < 256 ∧ XmlNodeRead cv d p res) ∧
    (∀ p d res, d < 256 → xmlParseNext fuel (.at p d cv) = .ok res → XmlNodeRead cv d p res) ∧
    (∀ p d acc res, xmlParseChildren fuel (.at p d cv) acc = .ok res →
      d < 256 ∧ XmlChildrenRead cv d p acc res)
  | 0 => by
      refine ⟨fun p d res hrun => ?_, fun p d res _ hrun => ?_, fun p d acc res hrun => ?_⟩
      · cases hrun
      · cases hrun
      · cases hrun
  | fuel + 1 => by
      obtain ⟨ihnode, ihnext, ihchildren⟩ := xmlParse_reads cv fuel
      refine ⟨fun p d res hrun => ?_, fun p d res hd hrun => ?_, fun p d acc res hrun => ?_⟩
      · rw [xmlParseNode, XmlParseCtx.at_stack] at hrun
        split at hrun
        · cases hrun
        · exact ⟨by omega, ihnext p d res (by omega) hrun⟩
      · rcases xmlParseItem_cases p d cv with ⟨item, rest, hlex⟩ | hempty | hfailed
        · have hitem := xmlParseItem_lexeme hlex
          cases item with
          | ignored =>
              rw [xmlParseNext, hitem, except_ok_bind] at hrun
              exact (ihnext rest d res hd hrun).skip hlex
          | close =>
              rw [xmlParseNext, hitem, except_ok_bind] at hrun
              obtain rfl := Except.ok.inj hrun
              exact .close (.here hlex)
          | leaf n =>
              rw [xmlParseNext, hitem, except_ok_bind] at hrun
              obtain rfl := Except.ok.inj hrun
              exact .node (.leaf hd (.here hlex) .nil)
          | start name attributes =>
              exact xmlParseNext_reads hd hlex (fun q res => ihchildren q (d + 1) [] res) hrun
        · rw [xmlParseNext, xmlParseItem_empty hempty] at hrun
          cases hrun
        · rw [xmlParseNext, hfailed] at hrun
          cases hrun
      · rw [xmlParseChildren] at hrun
        cases hnode : xmlParseNode fuel (.at p d cv) with
        | error e =>
            rw [hnode] at hrun
            cases hrun
        | ok r =>
            rw [hnode] at hrun
            obtain ⟨hd, hr⟩ := ihnode p d r hnode
            cases hr with
            | close hitem =>
                obtain rfl := Except.ok.inj hrun
                have hread : XmlChildrenRead cv d p acc (_, acc ++ []) := .close .nil hitem
                rw [List.append_nil] at hread
                exact ⟨hd, hread⟩
            | @node n tags rest hn =>
                obtain ⟨-, hr⟩ := ihchildren rest d (acc ++ [n]) res hrun
                cases hr with
                | close hcontent hclose =>
                    rw [List.append_assoc]
                    exact ⟨hd, .close (hn.append hcontent) hclose⟩

/-! ### Content is read -/

/-- A call at a place reads one node, up to another place. -/
def ReadsNode (cv : XmlCharset) (d : ℕ) (p : List UInt8) (n : XmlNode) (q : List UInt8) : Prop :=
  ∀ fuel, 3 * p.length + 2 ≤ fuel →
    xmlParseNode fuel (.at p d cv) = .ok (.at q d cv, some n)

/-- The loop over the children reads nodes, up to a place where an end tag follows. -/
def ReadsChildren (cv : XmlCharset) (d : ℕ) (p : List UInt8) (nodes : List XmlNode)
    (q : List UInt8) : Prop :=
  ∀ s rest, XmlNextItem cv d q s .close rest → ∀ fuel acc, 3 * p.length + 3 ≤ fuel →
    xmlParseChildren fuel (.at p d cv) acc = .ok (.at rest d cv, acc ++ nodes)

/-- What is ignored takes one call for each item. -/
lemma XmlNextItem.next (h : XmlNextItem cv d p s item rest) :
    ∃ p' k, XmlLexeme cv d (p'.dropWhile xmlIsSpace) item rest ∧ k + p'.length ≤ p.length ∧
      rest.length < p'.length ∧
      ∀ fuel, xmlParseNext (fuel + k) (.at p d cv) = xmlParseNext fuel (.at p' d cv) := by
  induction h with
  | @here p item rest hlex =>
      exact ⟨p, 0, hlex, by omega, hlex.suffix.2.trans_le (List.dropWhile_suffix _).length_le,
        fun fuel => rfl⟩
  | @skip p q s item rest hlex _ ih =>
      obtain ⟨p', k, hlex', hle, hlt, hnext⟩ := ih
      have hq : q.length < p.length := hlex.suffix.2.trans_le (List.dropWhile_suffix _).length_le
      refine ⟨p', k + 1, hlex', by omega, hlt, fun fuel => ?_⟩
      rw [← hnext fuel, ← add_assoc, xmlParseNext, xmlParseItem_lexeme hlex, except_ok_bind]
      rfl

lemma ReadsNode.leaf {n : XmlNode} (hd : d < 256) (h : XmlNextItem cv d p s (.leaf n) q) :
    ReadsNode cv d p n q := by
  intro fuel hfuel
  obtain ⟨p', k, hlex, hle, hlt, hnext⟩ := h.next
  obtain ⟨f, rfl⟩ : ∃ f, fuel = f + 1 + k + 1 := ⟨fuel - k - 2, by omega⟩
  rw [xmlParseNode, XmlParseCtx.at_stack, if_neg (by omega), hnext, xmlParseNext,
    xmlParseItem_lexeme hlex, except_ok_bind]
  rfl

lemma ReadsNode.empty {name : List UInt8} {attributes : OrderedMap CString (List UInt8)}
    (hd : d < 256) (h : XmlNextItem cv d p s (.start name attributes) (0x2F :: 0x3E :: q)) :
    ReadsNode cv d p (.tag name attributes []) q := by
  intro fuel hfuel
  obtain ⟨p', k, hlex, hle, hlt, hnext⟩ := h.next
  obtain ⟨f, rfl⟩ : ∃ f, fuel = f + 1 + k + 1 := ⟨fuel - k - 2, by omega⟩
  have hitem : xmlParseItem (.at p' d cv)
      = .ok (.at ([0x2F, 0x3E] ++ q) (d + 1) cv, .start name attributes) := xmlParseItem_lexeme hlex
  rw [xmlParseNode, XmlParseCtx.at_stack, if_neg (by omega), hnext]
  simp only [xmlParseNext, hitem, except_ok_bind, XmlParseCtx.at_pos, XmlParseCtx.at_remain,
    xmlStartsWith_at, decide_eq_true_eq, List.prefix_append, if_true]
  rw [xmlSkipSub_at (n := 2) rfl]
  rfl

lemma ReadsNode.element {name q' s' q'' : List UInt8}
    {attributes : OrderedMap CString (List UInt8)} {children : List XmlNode} (hd : d + 1 < 256)
    (h : XmlNextItem cv d p s (.start name attributes) (0x3E :: q))
    (hchildren : ReadsChildren cv (d + 1) q children q')
    (hclose : XmlNextItem cv (d + 1) q' s' .close q'') :
    ReadsNode cv d p (.tag name attributes children) q'' := by
  intro fuel hfuel
  obtain ⟨p', k, hlex, hle, hlt, hnext⟩ := h.next
  rw [List.length_cons] at hlt
  obtain ⟨f, rfl⟩ : ∃ f, fuel = f + 1 + k + 1 := ⟨fuel - k - 2, by omega⟩
  have hitem : xmlParseItem (.at p' d cv)
      = .ok (.at (0x3E :: q) (d + 1) cv, .start name attributes) := xmlParseItem_lexeme hlex
  have hempty : ¬[0x2F, 0x3E] <+: 0x3E :: q := by
    rintro ⟨t, ht⟩
    exact absurd (List.cons.inj ht).1 (by decide)
  rw [xmlParseNode, XmlParseCtx.at_stack, if_neg (by omega), hnext]
  simp only [xmlParseNext, hitem, except_ok_bind, XmlParseCtx.at_pos, XmlParseCtx.at_remain,
    xmlStartsWith_at, decide_eq_true_eq, if_neg hempty, XmlParseCtx.deref_cons, if_true]
  rw [← List.singleton_append, xmlSkipSub_at (n := 1) rfl, except_ok_bind,
    hchildren s' q'' hclose f [] (by omega)]
  rfl

/-- The end tag ends the loop. -/
lemma ReadsChildren.nil (hd : d < 256) : ReadsChildren cv d p [] p := by
  intro s rest hclose fuel acc hfuel
  obtain ⟨p', k, hlex, hle, hlt, hnext⟩ := hclose.next
  obtain ⟨f, rfl⟩ : ∃ f, fuel = f + 1 + k + 1 + 1 := ⟨fuel - k - 3, by omega⟩
  rw [xmlParseChildren, xmlParseNode, XmlParseCtx.at_stack, if_neg (by omega), hnext, xmlParseNext,
    xmlParseItem_lexeme hlex, except_ok_bind, List.append_nil]
  rfl

/-- A node first, then the loop. -/
lemma ReadsChildren.cons {n : XmlNode} {nodes : List XmlNode} (hn : ReadsNode cv d p n q)
    (hlt : q.length < p.length) (h : ReadsChildren cv d q nodes r) :
    ReadsChildren cv d p (n :: nodes) r := by
  intro s rest hclose fuel acc hfuel
  obtain ⟨f, rfl⟩ : ∃ f, fuel = f + 1 := ⟨fuel - 1, by omega⟩
  rw [xmlParseChildren, hn f (by omega), except_ok_bind]
  have hrest := h s rest hclose f (acc ++ [n]) (by omega)
  rwa [List.append_assoc] at hrest

lemma XmlNextItem.lt (h : XmlNextItem cv d p s item rest) : rest.length < p.length := by
  obtain ⟨p', k, -, hle, hlt, -⟩ := h.next
  omega

lemma XmlContent.le {nodes : List XmlNode} {tags : List XmlTagPair}
    (h : XmlContent cv d p nodes tags q) : q.length ≤ p.length := by
  induction h with
  | nil => exact le_rfl
  | leaf _ hitem _ ih =>
      have := hitem.lt
      omega
  | empty _ hitem _ ih =>
      have := hitem.lt
      simp only [List.length_cons] at this
      omega
  | element _ hitem _ hclose _ ihchildren ih =>
      have hlt := hitem.lt
      have := hclose.lt
      simp only [List.length_cons] at hlt
      omega

/-- **Content is read.** -/
theorem XmlContent.children {nodes : List XmlNode} {tags : List XmlTagPair} (hd : d < 256)
    (h : XmlContent cv d p nodes tags q) : ReadsChildren cv d p nodes q := by
  induction h with
  | nil => exact .nil hd
  | leaf _ hitem _ ih => exact .cons (.leaf hd hitem) hitem.lt (ih hd)
  | empty _ hitem _ ih =>
      have hlt := hitem.lt
      simp only [List.length_cons] at hlt
      exact .cons (.empty hd hitem) (by omega) (ih hd)
  | element hd' hitem hinner hclose _ ihchildren ih =>
      have hlt := hitem.lt
      have hle := hinner.le
      have hlt' := hclose.lt
      simp only [List.length_cons] at hlt
      exact .cons (.element hd' hitem (ihchildren hd') hclose) (by omega) (ih hd)

/-- A node that is content on its own is read. -/
lemma XmlContent.reads_root {n : XmlNode} {tags : List XmlTagPair}
    (h : XmlContent cv d p [n] tags q) : ∃ r, ReadsNode cv d p n r := by
  cases h with
  | leaf hd hitem _ => exact ⟨_, .leaf hd hitem⟩
  | empty hd hitem _ => exact ⟨_, .empty hd hitem⟩
  | element hd hitem hinner hclose _ => exact ⟨_, .element hd hitem (hinner.children hd) hclose⟩

/-- The root is read exactly if an element stands behind the header. -/
lemma xmlParseRoot_ok_iff {n : XmlNode} :
    xmlParseRoot (.at p 0 cv) = .ok n ↔ ∃ tags q, XmlContent cv 0 p [n] tags q := by
  rw [xmlParseRoot, XmlParseCtx.at_remain, Int.toNat_natCast]
  constructor
  · intro hrun
    cases hnode : xmlParseNode (3 * p.length + 3) (.at p 0 cv) with
    | error e =>
        rw [hnode] at hrun
        cases hrun
    | ok r =>
        rw [hnode, except_ok_bind] at hrun
        obtain ⟨-, hr⟩ := (xmlParse_reads cv _).1 p 0 r hnode
        cases hr with
        | close _ => cases hrun
        | node hcontent =>
            obtain rfl := Except.ok.inj hrun
            exact ⟨_, _, hcontent⟩
  · rintro ⟨tags, q, h⟩
    obtain ⟨r, hr⟩ := h.reads_root
    rw [hr _ (by omega)]
    rfl

lemma XmlDocument.accepted {ic : Iconv} {xmlstr : List UInt8} {node : XmlNode}
    {tags : List XmlTagPair} (h : XmlDocument ic xmlstr node tags) :
    xmlParseString ic xmlstr = .ok node := by
  obtain ⟨p, e, q, hheader, hcontent⟩ := h
  rw [xmlParseString, hheader, except_ok_bind]
  exact xmlParseRoot_ok_iff.mpr ⟨tags, q, hcontent⟩

/-- **Nesting.** A text is accepted, with a tree, exactly if behind its header the tags nest:
every element of the tree that is not written as an empty tag has an end tag of its own behind
its content. What name stands in the end tag does not matter. -/
theorem xmlParseString_nested (ic : Iconv) (xmlstr : List UInt8) (node : XmlNode) :
    xmlParseString ic xmlstr = .ok node ↔ ∃ tags, XmlDocument ic xmlstr node tags := by
  constructor
  · intro hrun
    rcases xmlParseString_header ic xmlstr with ⟨p, e, hheader, -, hroot⟩ | ⟨-, hfailed⟩
    · rw [hroot] at hrun
      obtain ⟨tags, q, hcontent⟩ := xmlParseRoot_ok_iff.mp hrun
      exact ⟨tags, p, e, q, hheader, hcontent⟩
    · rw [hfailed] at hrun
      cases hrun
  · rintro ⟨tags, h⟩
    exact h.accepted

/-- `<?xml ?><a></b>` is accepted: the end tag of the element `a` has the name `b`. -/
theorem xmlParseString_endName : ¬∀ (ic : Iconv) (xmlstr : List UInt8) (node : XmlNode)
    (tags : List XmlTagPair), xmlParseString ic xmlstr = .ok node →
      XmlDocument ic xmlstr node tags → ∀ pair ∈ tags, pair.endName = pair.startName := by
  intro hall
  have hstart : XmlLexeme none 0 [0x3C, 0x61, 0x3E, 0x3C, 0x2F, 0x62, 0x3E] (.start [0x61] .empty)
      [0x3E, 0x3C, 0x2F, 0x62, 0x3E] := .start rfl (by decide) (by decide) rfl
  have hclose : XmlLexeme none 1 [0x3C, 0x2F, 0x62, 0x3E] .close [] :=
    .close (u := [0x62]) (by decide)
  have hitem : XmlNextItem none 0 [0x3C, 0x61, 0x3E, 0x3C, 0x2F, 0x62, 0x3E]
      [0x3C, 0x61, 0x3E, 0x3C, 0x2F, 0x62, 0x3E] (.start [0x61] .empty)
      [0x3E, 0x3C, 0x2F, 0x62, 0x3E] := .here hstart
  have hend : XmlNextItem none 1 [0x3C, 0x2F, 0x62, 0x3E] [0x3C, 0x2F, 0x62, 0x3E] .close [] :=
    .here hclose
  have hcontent : XmlContent none 0 [0x3C, 0x61, 0x3E, 0x3C, 0x2F, 0x62, 0x3E]
      [.tag [0x61] .empty []] [⟨[0x61], [0x62]⟩] [] :=
    .element (by decide) hitem .nil hend .nil
  have hdoc : XmlDocument ⟨fun _ _ => none⟩
      [0x3C, 0x3F, 0x78, 0x6D, 0x6C, 0x20, 0x3F, 0x3E, 0x3C, 0x61, 0x3E, 0x3C, 0x2F, 0x62, 0x3E]
      (.tag [0x61] .empty []) [⟨[0x61], [0x62]⟩] :=
    ⟨[0x3C, 0x61, 0x3E, 0x3C, 0x2F, 0x62, 0x3E], utf8Name, [], rfl, hcontent⟩
  have hname := hall _ _ _ _ hdoc.accepted hdoc _ (List.mem_singleton_self _)
  exact absurd hname (by decide)

end LibCmutils
