import LibCmutils.Xml.Lookahead
import LibCmutils.Xml.StackRun

/-!
Comments in XML documents (`src/nanoxml.c`).

* `xmlComment`, `XmlCommentContent`: a comment, and what may stand in it.
* `XmlGap`, `XmlDocumentGap`: the points of a document between two nodes, before the root
  element or before an end tag, that are next to no text node.
* `XmlCommentIgnored`: a comment leaves the tree of every document as it is, wherever it is
  put.
* `XmlSkipped`: the contents that the search for one `>` passes over.

The main result is `xmlComment_ignored_iff`: `CMUTIL_XmlParseNode` looks for `]]>` at the end
of a `CDATA` section, but at the end of a comment only for the first `>`. What stands behind
it in the comment is read as part of the document.
-/

namespace LibCmutils

/-- The content of a comment: no two hyphens side by side, and none at the end. -/
def XmlCommentContent (c : List UInt8) : Prop := ¬[0x2D, 0x2D] <:+: c ∧ c.getLast? ≠ some 0x2D

/-- `<!--c-->`. -/
def xmlComment (c : List UInt8) : List UInt8 :=
  0x3C :: 0x21 :: 0x2D :: 0x2D :: (c ++ [0x2D, 0x2D, 0x3E])

/-- Reading from a place with `d` open tags comes to the point before `s`, with no text
node at its sides. -/
inductive XmlGap (cv : XmlCharset) (s : List UInt8) : ℕ → List UInt8 → Prop
  | here {d : ℕ} : (∀ node rest, ¬XmlLexeme cv d (s.dropWhile xmlIsSpace) (.leaf node) rest) →
      XmlGap cv s d s
  | space {d : ℕ} {c : UInt8} {p : List UInt8} : xmlIsSpace c = true → XmlGap cv s d p →
      XmlGap cv s d (c :: p)
  | item {d e : ℕ} {p q rest : List UInt8} {item : XmlItem} : XmlLexeme cv d p item rest →
      item.next d rest = some (q, e) → ((∃ node, item = .leaf node) → q ≠ s) → XmlGap cv s e q →
      XmlGap cv s d p

/-- A point of a document, before the rest `s` of its text. -/
def XmlDocumentGap (ic : Iconv) (xmlstr s : List UInt8) : Prop :=
  ∃ p encoding, xmlParseHeader (xmlParseInit xmlstr) utf8Name = .ok (.at p 0 none, encoding) ∧
    XmlGap (xmlCharset ic encoding) s 0 p

/-- The comment with the content `c` changes the tree of no accepted document. -/
def XmlCommentIgnored (c : List UInt8) : Prop :=
  ∀ (ic : Iconv) (pre s : List UInt8) (node : XmlNode), XmlDocumentGap ic (pre ++ s) s →
    xmlParseString ic (pre ++ s) = .ok node →
    xmlParseString ic (pre ++ xmlComment c ++ s) = .ok node

/-- There is no `>`, or behind the first one stands, past white space, another `<!` that does
not open a `CDATA` section, and the bytes behind its next byte are again such a content. -/
inductive XmlSkipped : List UInt8 → Prop
  | last {u : List UInt8} : 0x3E ∉ u → XmlSkipped u
  | again {u w c : List UInt8} : 0x3E ∉ u → (∀ b ∈ w, xmlIsSpace b = true) →
      ¬cdataOpen <+: c → XmlSkipped c.tail → XmlSkipped (u ++ 0x3E :: (w ++ 0x3C :: 0x21 :: c))

variable {cv : XmlCharset} {d : ℕ} {c p q r rest s : List UInt8} {item : XmlItem} {n : XmlNode}
  {stack stack' : List XmlOpenTag}

/-! ### Inserting at a point -/

lemma XmlNode.attach_more {node : XmlNode} (h : node.attach q stack = .more stack' r) :
    q = r ∧ stack.length = stack'.length ∧ ∀ q', node.attach q' stack = .more stack' q' := by
  cases stack with
  | nil => cases h
  | cons f stack =>
      obtain ⟨rfl, rfl⟩ := XmlOutcome.more.inj h
      exact ⟨rfl, rfl, fun q' => rfl⟩

lemma XmlNode.attach_done {node : XmlNode} (h : node.attach q stack = .done n) : stack = [] := by
  cases stack with
  | nil => rfl
  | cons f stack => cases h

/-- The machine and the walk go on at the same place. -/
lemma XmlItem.next_of_more (h : item.run stack rest = .more stack' q) :
    item.next stack.length rest = some (q, stack'.length) := by
  cases item with
  | ignored =>
      obtain ⟨rfl, rfl⟩ := XmlOutcome.more.inj h
      rfl
  | leaf node =>
      cases stack with
      | nil => cases h
      | cons f stack =>
          obtain ⟨rfl, rfl⟩ := XmlOutcome.more.inj h
          rfl
  | close =>
      match stack, h with
      | f :: g :: stack, h =>
          obtain ⟨rfl, rfl⟩ := XmlOutcome.more.inj h
          simp [XmlItem.next]
  | start name attributes =>
      simp only [XmlItem.run] at h
      split at h
      · cases stack with
        | nil => cases h
        | cons f stack =>
            obtain ⟨rfl, rfl⟩ := XmlOutcome.more.inj h
            rfl
      · obtain ⟨rfl, rfl⟩ := XmlOutcome.more.inj h
        rfl
      · cases h

lemma XmlItem.next_of_done (h : item.run stack rest = .done n) :
    item.next stack.length rest = none := by
  cases item with
  | ignored => cases h
  | leaf node =>
      cases stack with
      | nil => cases h
      | cons f stack => cases h
  | close =>
      match stack, h with
      | [f], h => rfl
  | start name attributes =>
      simp only [XmlItem.run] at h
      split at h
      · obtain rfl := XmlNode.attach_done h
        rfl
      · cases h
      · cases h

/-- An item can be read in front of another text, which a text node ties to its first
byte. -/
lemma XmlLexeme.replace (hlex : XmlLexeme cv d p item rest)
    (hrun : item.run stack rest = .more stack' q) : ∃ y, p = y ++ q ∧ ∀ q',
      ((∃ node, item = .leaf node) → q'.head? = q.head?) →
      ∃ rest', XmlLexeme cv d (y ++ q') item rest' ∧ item.run stack rest' = .more stack' q' := by
  obtain ⟨y, hy, hahead⟩ := hlex.ahead
  cases item with
  | ignored =>
      obtain ⟨rfl, rfl⟩ := XmlOutcome.more.inj hrun
      exact ⟨y, hy, fun q' _ => ⟨q', hahead q' (.inl rfl), rfl⟩⟩
  | leaf node =>
      cases stack with
      | nil => cases hrun
      | cons f stack =>
          obtain ⟨rfl, rfl⟩ := XmlOutcome.more.inj hrun
          exact ⟨y, hy, fun q' hq' => ⟨q', hahead q' (.inr (.inr (hq' ⟨node, rfl⟩))), rfl⟩⟩
  | close =>
      cases stack with
      | nil => cases hrun
      | cons f stack =>
          obtain ⟨rfl, -, hattach⟩ := XmlNode.attach_more hrun
          exact ⟨y, hy, fun q' _ => ⟨q', hahead q' (.inr (.inl rfl)), hattach q'⟩⟩
  | start name attributes =>
      simp only [XmlItem.run] at hrun
      split at hrun
      · obtain ⟨rfl, -, hattach⟩ := XmlNode.attach_more hrun
        refine ⟨y ++ [0x2F, 0x3E], by simp [hy], fun q' _ => ⟨0x2F :: 0x3E :: q', ?_, hattach q'⟩⟩
        rw [List.append_assoc]
        exact hahead _ (.inr (.inr rfl))
      · obtain ⟨rfl, rfl⟩ := XmlOutcome.more.inj hrun
        refine ⟨y ++ [0x3E], by simp [hy], fun q' _ => ⟨0x3E :: q', ?_, rfl⟩⟩
        rw [List.append_assoc]
        exact hahead _ (.inr (.inr rfl))
      · cases hrun

lemma XmlRun.not_space {b : UInt8} (hb : xmlIsSpace b = true) (h : XmlRun cv stack (b :: p) n) :
    XmlRun cv stack p n := by
  cases h with
  | space _ hrun => exact hrun
  | step _ hlex _ _ => exact absurd (hlex.not_space.symm.trans hb) (by decide)
  | stop _ hlex _ => exact absurd (hlex.not_space.symm.trans hb) (by decide)

/-- **Inserting.** What a run can pass over before `s` can be inserted at a point before `s`. -/
theorem XmlGap.insert {d : ℕ} (hgap : XmlGap cv s d p) {stack : List XmlOpenTag}
    (hd : stack.length = d) (hrun : XmlRun cv stack p n) : ∃ x, p = x ++ s ∧ ∀ w,
      (∀ stack n, XmlRun cv stack s n → XmlRun cv stack (w ++ s) n) →
      XmlRun cv stack (x ++ w ++ s) n := by
  induction hgap generalizing stack with
  | here _ => exact ⟨[], rfl, fun w hw => hw stack n hrun⟩
  | @space d b p hb _ ih =>
      obtain ⟨x, rfl, hinsert⟩ := ih hd (hrun.not_space hb)
      exact ⟨b :: x, rfl, fun w hw => .space hb (hinsert w hw)⟩
  | @item d e p q rest item hlex hnext hleaf _ ih =>
      subst hd
      cases hrun with
      | space hb _ => exact absurd (hlex.not_space.symm.trans hb) (by decide)
      | stop _ hlex' hdone =>
          obtain ⟨rfl, rfl⟩ := hlex.eq_of hlex'
          rw [XmlItem.next_of_done hdone] at hnext
          cases hnext
      | @step _ stack' _ q' _ _ _ hdepth hlex' hmore hrest =>
          obtain ⟨rfl, rfl⟩ := hlex.eq_of hlex'
          rw [XmlItem.next_of_more hmore] at hnext
          obtain ⟨rfl, rfl⟩ := Prod.mk.inj (Option.some.inj hnext)
          obtain ⟨x, hx, hinsert⟩ := ih rfl hrest
          obtain ⟨y, hy, hreplace⟩ := hlex.replace hmore
          refine ⟨y ++ x, by rw [hy, hx, List.append_assoc], fun w hw => ?_⟩
          have hhead : (∃ node, item = .leaf node) → (x ++ w ++ s).head? = q'.head? := by
            intro hnode
            cases x with
            | nil => exact absurd hx (hleaf hnode)
            | cons a x => rw [hx]; rfl
          obtain ⟨rest', hlex'', hmore'⟩ := hreplace _ hhead
          rw [List.append_assoc y x w, List.append_assoc y]
          exact .step hdepth hlex'' hmore' (hinsert w hw)

/-! ### Contents that are passed over -/

/-- A part from `<!` to the first `>`. -/
lemma XmlRun.ignored {b : UInt8} {u : List UInt8} (hcdata : ¬cdataOpen <+: b :: u) (hu : 0x3E ∉ u)
    (h : XmlRun cv stack s n) : XmlRun cv stack (0x3C :: 0x21 :: b :: (u ++ 0x3E :: s)) n := by
  have hprefix' : ¬cdataOpen <+: b :: (u ++ 0x3E :: s) := fun h =>
    hcdata (prefix_of_prefix_append (x := b :: u) h (by decide))
  exact .step h.depth (.ignored hprefix' hu) rfl h

lemma XmlRun.spaces {w : List UInt8} (hw : ∀ b ∈ w, xmlIsSpace b = true)
    (h : XmlRun cv stack p n) : XmlRun cv stack (w ++ p) n := by
  induction w with
  | nil => exact h
  | cons b w ih => exact .space (hw b (by simp)) (ih fun e he => hw e (by simp [he]))

lemma XmlSkipped.cons {b : UInt8} (hb : b ≠ 0x3E) (h : XmlSkipped c) : XmlSkipped (b :: c) := by
  cases h with
  | last hu => exact .last (by simp [hu, Ne.symm hb])
  | @again u w c hu hw hprefix htail =>
      exact .again (u := b :: u) (by simp [hu, Ne.symm hb]) hw hprefix htail

lemma XmlSkipped.of_cons {b : UInt8} (hb : b ≠ 0x3E) (h : XmlSkipped (b :: c)) : XmlSkipped c := by
  generalize hq : b :: c = q at h
  cases h with
  | last hu =>
      subst hq
      exact .last fun h => hu (List.mem_cons_of_mem b h)
  | @again u w c' hu hw hprefix htail =>
      cases u with
      | nil => exact absurd (List.cons.inj hq).1 hb
      | cons e u =>
          obtain ⟨-, rfl⟩ := List.cons.inj hq
          exact .again (fun h => hu (List.mem_cons_of_mem e h)) hw hprefix htail

/-- The parts of a content, with the hyphens and the `>` behind it. -/
lemma XmlSkipped.run {t : List UInt8} (ht : 0x3E ∉ t) (h : XmlSkipped c)
    (hrun : XmlRun cv stack s n) : ∀ {b : UInt8}, ¬cdataOpen <+: b :: c →
    XmlRun cv stack (0x3C :: 0x21 :: b :: (c ++ 0x2D :: (t ++ 0x3E :: s))) n := by
  have hhyphen : ∀ {x y : List UInt8}, cdataOpen <+: x ++ 0x2D :: y → cdataOpen <+: x :=
    fun h => prefix_of_prefix_append h (by decide)
  induction h with
  | @last u hu =>
      intro b hprefix
      have hu' : 0x3E ∉ u ++ 0x2D :: t := by simp [hu, ht]
      have hfront : ¬cdataOpen <+: b :: (u ++ 0x2D :: t) := fun h =>
        hprefix (hhyphen (x := b :: u) h)
      have hrun' := XmlRun.ignored hfront hu' hrun
      rwa [List.append_assoc, List.cons_append] at hrun'
  | @again u w c hu hw hprefix' _ ih =>
      intro b hprefix
      have hfront : ¬cdataOpen <+: b :: u := fun h =>
        hprefix (h.trans (List.prefix_append (b :: u) _))
      simp only [List.append_assoc, List.cons_append]
      refine .ignored hfront hu (.spaces hw ?_)
      cases c with
      | nil => exact .ignored (fun h => hprefix' (hhyphen (x := []) h)) ht hrun
      | cons e c => exact ih hprefix'

/-- The comment is passed over. -/
lemma XmlSkipped.comment (h : XmlSkipped c) (hrun : XmlRun cv stack s n) :
    XmlRun cv stack (xmlComment c ++ s) n := by
  have hrun' := (h.cons (b := 0x2D) (by decide)).run (t := [0x2D]) (by decide) hrun (b := 0x2D)
    (by rintro ⟨t, ht⟩; exact absurd (List.cons.inj ht).1 (by decide))
  simpa [xmlComment] using hrun'

lemma XmlSkipped.ignored (h : XmlSkipped c) : XmlCommentIgnored c := by
  rintro ic pre s node ⟨p, encoding, hheader, hgap⟩ haccepted
  obtain ⟨p', encoding', hheader', hrun⟩ := (xmlParseString_run ic _ node).mp haccepted
  have hpair := Except.ok.inj (hheader.symm.trans hheader')
  obtain rfl : p = p' := congrArg (fun r => r.1.pos) hpair
  obtain rfl : encoding = encoding' := congrArg Prod.snd hpair
  obtain ⟨x, rfl, hinsert⟩ := hgap.insert rfl hrun
  obtain ⟨y, hy, hahead⟩ := xmlParseHeader_ahead hheader
  have hpre : pre = y ++ x := by
    rw [← List.append_assoc] at hy
    exact List.append_cancel_right hy
  refine (xmlParseString_run ic _ node).mpr ⟨x ++ xmlComment c ++ s, encoding, ?_,
    hinsert _ fun _ _ hrun => h.comment hrun⟩
  rw [hpre, List.append_assoc y, List.append_assoc y]
  exact hahead _

/-! ### Contents that are not -/

lemma XmlRun.drop_spaces {w : List UInt8} (hw : ∀ b ∈ w, xmlIsSpace b = true)
    (h : XmlRun cv stack (w ++ p) n) : XmlRun cv stack p n := by
  induction w with
  | nil => exact h
  | cons b w ih => exact ih (fun e he => hw e (by simp [he])) (h.not_space (hw b (by simp)))

/-- A run at a place that is no space reads an item there. -/
lemma XmlRun.first {b : UInt8} (hb : xmlIsSpace b = false) (h : XmlRun cv stack (b :: p) n) :
    ∃ item rest, XmlLexeme cv stack.length (b :: p) item rest ∧
      ((∃ stack' q, item.run stack rest = .more stack' q ∧ XmlRun cv stack' q n) ∨
        item.run stack rest = .done n) := by
  cases h with
  | space hb' _ => exact absurd (hb'.symm.trans hb) (by decide)
  | step _ hlex hmore hrest => exact ⟨_, _, hlex, .inl ⟨_, _, hmore, hrest⟩⟩
  | stop _ hlex hdone => exact ⟨_, _, hlex, .inr hdone⟩

/-- Outside of all tags only markup is read. -/
lemma XmlRun.first_markup {b : UInt8} (hb : xmlIsSpace b = false) (h : XmlRun cv [] (b :: p) n) :
    b = 0x3C := by
  obtain ⟨item, rest, hlex, -⟩ := h.first hb
  generalize hq : b :: p = q at hlex
  cases hlex with
  | close _ => exact (List.cons.inj hq).1
  | ignored _ _ => exact (List.cons.inj hq).1
  | cdata _ _ _ => exact (List.cons.inj hq).1
  | text hd _ _ _ _ => exact absurd rfl hd
  | start _ _ _ _ => exact (List.cons.inj hq).1

/-- A `CDATA` section is not read there. -/
lemma XmlRun.not_cdata (h : XmlRun cv [] (0x3C :: 0x21 :: p) n) : ¬cdataOpen <+: p := by
  obtain ⟨item, rest, hlex, -⟩ := h.first rfl
  generalize hq : 0x3C :: 0x21 :: p = q at hlex
  cases hlex with
  | close _ => exact absurd (List.cons.inj (List.cons.inj hq).2).1 (by decide)
  | ignored hprefix _ =>
      rw [(List.cons.inj (List.cons.inj hq).2).2]
      exact hprefix
  | cdata hd _ _ => exact absurd rfl hd
  | text hd _ _ _ _ => exact absurd rfl hd
  | start _ hbang _ _ => exact absurd (List.cons.inj (List.cons.inj hq).2).1.symm hbang

/-- What is ignored, and the run behind it. -/
lemma XmlRun.of_ignored {b : UInt8} {u : List UInt8} (hu : 0x3E ∉ u)
    (h : XmlRun cv [] (0x3C :: 0x21 :: b :: (u ++ 0x3E :: r)) n) : XmlRun cv [] r n := by
  have hlex : XmlLexeme cv 0 _ .ignored r := .ignored h.not_cdata hu
  obtain ⟨item, rest, hlex', hmore | hdone⟩ := h.first rfl
  · obtain ⟨stack', q, hmore, hrest⟩ := hmore
    obtain ⟨rfl, rfl⟩ := hlex.eq_of hlex'
    obtain ⟨rfl, rfl⟩ := XmlOutcome.more.inj hmore
    exact hrest
  · obtain ⟨rfl, rfl⟩ := hlex.eq_of hlex'
    cases hdone

/-- The name of the outermost open tag. -/
def rootName (stack : List XmlOpenTag) : Option (List UInt8) := stack.getLast?.map (·.name)

lemma rootName_add (f : XmlOpenTag) (nodes : List XmlNode) (stack : List XmlOpenTag) :
    rootName (f.add nodes :: stack) = rootName (f :: stack) := by
  cases stack with
  | nil => rfl
  | cons g stack => simp [rootName]

lemma rootName_attach {node : XmlNode} (h : node.attach q stack = .more stack' r) :
    rootName stack' = rootName stack := by
  cases stack with
  | nil => cases h
  | cons f stack =>
      obtain ⟨rfl, rfl⟩ := XmlOutcome.more.inj h
      exact rootName_add f _ stack

/-- The outermost open tag stays until it is done. -/
lemma rootName_more {name : List UInt8} (hname : rootName stack = some name)
    (h : item.run stack rest = .more stack' q) : rootName stack' = some name := by
  rw [← hname]
  cases item with
  | ignored =>
      obtain ⟨rfl, rfl⟩ := XmlOutcome.more.inj h
      rfl
  | leaf node =>
      cases stack with
      | nil => cases h
      | cons f stack => exact rootName_attach (q := rest) h
  | close =>
      match stack, h with
      | f :: g :: stack, h =>
          obtain ⟨rfl, rfl⟩ := XmlOutcome.more.inj h
          rw [rootName_add]
          simp [rootName]
  | start name' attributes =>
      simp only [XmlItem.run] at h
      split at h
      · exact rootName_attach h
      · obtain ⟨rfl, rfl⟩ := XmlOutcome.more.inj h
        cases stack with
        | nil => cases hname
        | cons f stack => simp [rootName]
      · cases h

lemma rootName_done {name : List UInt8} (hname : rootName stack = some name)
    (h : item.run stack rest = .done n) : ∃ attributes children, n = .tag name attributes children := by
  cases item with
  | ignored => cases h
  | leaf node =>
      cases stack with
      | nil => cases h
      | cons f stack => cases h
  | close =>
      match stack, h with
      | [f], h =>
          obtain rfl := XmlOutcome.done.inj h
          obtain rfl := Option.some.inj hname
          exact ⟨_, _, rfl⟩
  | start name' attributes =>
      simp only [XmlItem.run] at h
      split at h
      · obtain rfl := XmlNode.attach_done h
        cases hname
      · cases h
      · cases h

/-- The outermost open tag becomes the root. -/
lemma XmlRun.root {name : List UInt8} (h : XmlRun cv stack p n)
    (hname : rootName stack = some name) : ∃ attributes children, n = .tag name attributes children := by
  induction h with
  | space _ _ ih => exact ih hname
  | step _ _ hmore _ ih => exact ih (rootName_more hname hmore)
  | stop _ _ hdone => exact rootName_done hname hdone

lemma takeWhile_token_append (x r : List UInt8) :
    (x ++ 0x3E :: r).takeWhile xmlIsToken = x.takeWhile xmlIsToken := by
  induction x with
  | nil => rfl
  | cons c x ih => rw [List.cons_append, List.takeWhile_cons, List.takeWhile_cons, ih]

/-- A tag outside of all tags is the root. -/
lemma XmlRun.root_of_markup {b : UInt8} {u : List UInt8} (hb : b ≠ 0x21)
    (h : XmlRun cv [] (0x3C :: b :: (u ++ 0x3E :: r)) n) :
    ∃ attributes children, n = .tag ((b :: u).takeWhile xmlIsToken) attributes children := by
  obtain ⟨item, rest, hlex, hout⟩ := h.first rfl
  generalize hq : 0x3C :: b :: (u ++ 0x3E :: r) = q at hlex
  cases hlex with
  | close _ =>
      rcases hout with ⟨stack', q, hmore, -⟩ | hdone
      · cases hmore
      · cases hdone
  | ignored _ _ => exact absurd (List.cons.inj (List.cons.inj hq).2).1 hb
  | cdata hd _ _ => exact absurd rfl hd
  | text hd _ _ _ _ => exact absurd rfl hd
  | start _ _ _ _ =>
      have htake := takeWhile_token_append (b :: u) r
      rw [List.cons_append, (List.cons.inj hq).2] at htake
      rw [← htake]
      rcases hout with ⟨stack', q, hmore, hrest⟩ | hdone
      · simp only [XmlItem.run] at hmore
        split at hmore
        · cases hmore
        · obtain ⟨rfl, rfl⟩ := XmlOutcome.more.inj hmore
          exact hrest.root rfl
        · cases hmore
      · simp only [XmlItem.run] at hdone
        split at hdone
        · obtain rfl := XmlOutcome.done.inj hdone
          exact ⟨_, _, rfl⟩
        · cases hdone
        · cases hdone

/-- Runs through one tag outside of all tags give roots of one name. -/
lemma XmlRun.same_root {b : UInt8} {u t t' k k' : List UInt8} (hb : b ≠ 0x21)
    {as as' : OrderedMap CString (List UInt8)} {cs cs' : List XmlNode}
    (h : XmlRun cv [] (0x3C :: b :: (u ++ 0x3E :: t)) (.tag k as cs))
    (h' : XmlRun cv [] (0x3C :: b :: (u ++ 0x3E :: t')) (.tag k' as' cs')) : k = k' := by
  obtain ⟨_, _, hn⟩ := h.root_of_markup hb
  obtain ⟨_, _, hn'⟩ := h'.root_of_markup hb
  rw [(XmlNode.tag.inj hn).1, (XmlNode.tag.inj hn').1]

/-- A content is passed over when runs to roots of different names go through it. -/
lemma XmlSkipped.of_runs {k k' : List UInt8} (hk : k ≠ k') : ∀ (m : ℕ) {b : UInt8}
    {c t t' : List UInt8} {as as' : OrderedMap CString (List UInt8)} {cs cs' : List XmlNode},
    c.length < m →
    XmlRun cv [] (0x3C :: 0x21 :: b :: (c ++ 0x2D :: 0x2D :: 0x3E :: t)) (.tag k as cs) →
    XmlRun cv [] (0x3C :: 0x21 :: b :: (c ++ 0x2D :: 0x2D :: 0x3E :: t')) (.tag k' as' cs') →
    XmlSkipped c
  | m + 1, b, c, t, t', as, as', cs, cs', hm, h, h' => by
      by_cases hc : 0x3E ∈ c
      · obtain ⟨u, v, rfl, hu⟩ := split_at_first hc
        rw [List.append_assoc, List.cons_append] at h h'
        have hsplit := List.takeWhile_append_dropWhile (p := xmlIsSpace) (l := v)
        have hspaces : ∀ e ∈ v.takeWhile xmlIsSpace, xmlIsSpace e = true :=
          fun e he => List.mem_takeWhile_imp he
        have hrest := h.of_ignored hu
        have hrest' := h'.of_ignored hu
        rw [← hsplit, List.append_assoc] at hrest hrest'
        replace hrest := hrest.drop_spaces hspaces
        replace hrest' := hrest'.drop_spaces hspaces
        cases hv : v.dropWhile xmlIsSpace with
        | nil =>
            rw [hv] at hrest
            exact absurd (hrest.first_markup rfl) (by decide)
        | cons e v' =>
            rw [hv] at hrest hrest' hsplit
            obtain rfl := hrest.first_markup (head_dropWhile_space hv)
            cases v' with
            | nil => exact absurd (hrest.same_root (b := 0x2D) (u := [0x2D]) (by decide) hrest') hk
            | cons y c =>
                by_cases hy : y = 0x21
                · subst hy
                  have hprefix : ¬cdataOpen <+: c := fun h =>
                    hrest.not_cdata (h.trans (List.prefix_append ..))
                  have htail : XmlSkipped c.tail := by
                    cases c with
                    | nil => exact .last List.not_mem_nil
                    | cons b' c =>
                        have hlen := congrArg List.length hsplit
                        simp only [List.length_append, List.length_cons] at hlen hm
                        exact of_runs hk m (by simp only [List.tail_cons]; omega) hrest hrest'
                  rw [← hsplit]
                  exact .again hu hspaces hprefix htail
                · have hhyphens : ∀ r, 0x3C :: y :: c ++ 0x2D :: 0x2D :: 0x3E :: r
                      = 0x3C :: y :: (c ++ [0x2D, 0x2D] ++ 0x3E :: r) := by simp
                  rw [hhyphens] at hrest hrest'
                  exact absurd (hrest.same_root hy hrest') hk
      · exact .last hc

/-- `<?xml ?>`. -/
def xmlBareHeader : List UInt8 := [0x3C, 0x3F, 0x78, 0x6D, 0x6C, 0x20, 0x3F, 0x3E]

lemma xmlParseHeader_bare (p : List UInt8) :
    xmlParseHeader (xmlParseInit (xmlBareHeader ++ p)) utf8Name = .ok (.at p 0 none, utf8Name) := by
  have hnil : xmlParseHeader (.at xmlBareHeader 0 none) utf8Name = .ok (.at [] 0 none, utf8Name) :=
    rfl
  obtain ⟨x, hx, hahead⟩ := xmlParseHeader_ahead hnil
  rw [List.append_nil] at hx
  rw [hx]
  exact hahead p

/-- `<k/>`. -/
def xmlEmptyTag (k : UInt8) : List UInt8 := [0x3C, k, 0x2F, 0x3E]

lemma XmlLexeme.emptyTag {k : UInt8} (hk : xmlIsToken k = true) (hbang : k ≠ 0x21) :
    XmlLexeme none 0 (xmlEmptyTag k) (.start [k] .empty) [0x2F, 0x3E] := by
  have htake : [k, 0x2F, 0x3E].takeWhile xmlIsToken = [k] := by
    rw [List.takeWhile_cons, if_pos hk]
    rfl
  have hdrop : [k, 0x2F, 0x3E].dropWhile xmlIsToken = [0x2F, 0x3E] := by
    rw [List.dropWhile_cons, if_pos hk]
    rfl
  have hlex : XmlLexeme none 0 (xmlEmptyTag k) (.start ([k, 0x2F, 0x3E].takeWhile xmlIsToken) .empty)
      [0x2F, 0x3E] := .start hk hbang (by rw [htake, List.length_singleton]; decide)
      (by rw [hdrop]; rfl)
  rwa [htake] at hlex

/-- A comment before the root of the document `<?xml ?><k/>`. -/
lemma XmlCommentIgnored.run (h : XmlCommentIgnored c) {k : UInt8} (hk : xmlIsToken k = true)
    (hbang : k ≠ 0x21) : XmlRun none [] (xmlComment c ++ xmlEmptyTag k) (.tag [k] .empty []) := by
  have hlex := XmlLexeme.emptyTag hk hbang
  have hgap : XmlDocumentGap ⟨fun _ _ => none⟩ (xmlBareHeader ++ xmlEmptyTag k) (xmlEmptyTag k) :=
    ⟨_, _, xmlParseHeader_bare _, .here fun _ _ hleaf => absurd rfl hleaf.leaf_open.1⟩
  have haccepted : xmlParseString ⟨fun _ _ => none⟩ (xmlBareHeader ++ xmlEmptyTag k)
      = .ok (.tag [k] .empty []) :=
    (xmlParseString_run _ _ _).mpr
      ⟨_, _, xmlParseHeader_bare _, .stop (by decide) hlex rfl⟩
  obtain ⟨p, encoding, hheader, hrun⟩ :=
    (xmlParseString_run _ _ _).mp (h _ _ _ _ hgap haccepted)
  rw [List.append_assoc] at hheader
  have hpair := Except.ok.inj ((xmlParseHeader_bare _).symm.trans hheader)
  obtain rfl : _ = p := congrArg (fun r => r.1.pos) hpair
  obtain rfl : utf8Name = encoding := congrArg Prod.snd hpair
  exact hrun

lemma xmlComment_append (c t : List UInt8) : xmlComment c ++ t
    = 0x3C :: 0x21 :: 0x2D :: (0x2D :: c ++ 0x2D :: 0x2D :: 0x3E :: t) := by
  simp [xmlComment]

lemma XmlCommentIgnored.skipped (h : XmlCommentIgnored c) : XmlSkipped c := by
  have hrun := h.run (k := 0x61) rfl (by decide)
  have hrun' := h.run (k := 0x62) rfl (by decide)
  rw [xmlComment_append] at hrun hrun'
  have hne : [(0x61 : UInt8)] ≠ [0x62] := by decide
  exact .of_cons (by decide) (.of_runs hne _ (Nat.lt_succ_self _) hrun hrun')

/-- **Comments.** A comment is ignored everywhere exactly if its content is passed over by
searches for one `>`. A content without `>` is. -/
theorem xmlComment_ignored_iff (c : List UInt8) : XmlCommentIgnored c ↔ XmlSkipped c :=
  ⟨XmlCommentIgnored.skipped, XmlSkipped.ignored⟩

/-- In `<?xml ?><a></a>` the comment `<!-- > -->` before the end tag becomes the text `-->`. -/
theorem xmlComment_ignored_fails : ¬∀ c, XmlCommentContent c → XmlCommentIgnored c := by
  intro hall
  have hcontent : XmlCommentContent [0x20, 0x3E, 0x20] := ⟨by decide, by decide⟩
  have hstart : XmlLexeme none 0 [0x3C, 0x61, 0x3E, 0x3C, 0x2F, 0x61, 0x3E] (.start [0x61] .empty)
      [0x3E, 0x3C, 0x2F, 0x61, 0x3E] := .start rfl (by decide) (by decide) rfl
  have hclose : XmlLexeme none 1 [0x3C, 0x2F, 0x61, 0x3E] .close [] :=
    .close (u := [0x61]) (by decide)
  have hgap : XmlDocumentGap ⟨fun _ _ => none⟩
      (xmlBareHeader ++ [0x3C, 0x61, 0x3E] ++ [0x3C, 0x2F, 0x61, 0x3E]) [0x3C, 0x2F, 0x61, 0x3E] := by
    refine ⟨_, _, xmlParseHeader_bare _, .item hstart rfl ?_ (.here fun node rest hleaf => ?_)⟩
    · rintro ⟨node, hnode⟩
      cases hnode
    · cases (hclose.eq_of hleaf).1
  have haccepted : xmlParseString ⟨fun _ _ => none⟩
      (xmlBareHeader ++ [0x3C, 0x61, 0x3E] ++ [0x3C, 0x2F, 0x61, 0x3E])
      = .ok (.tag [0x61] .empty []) := by
    refine (xmlParseString_run _ _ _).mpr ⟨_, _, xmlParseHeader_bare _, ?_⟩
    exact .step (by decide) hstart rfl (.stop (by decide) hclose rfl)
  have htext : xmlParseString ⟨fun _ _ => none⟩ (xmlBareHeader ++ [0x3C, 0x61, 0x3E]
      ++ xmlComment [0x20, 0x3E, 0x20] ++ [0x3C, 0x2F, 0x61, 0x3E])
      = .ok (.tag [0x61] .empty [.text [0x2D, 0x2D, 0x3E]]) := by
    have hstart' : XmlLexeme none 0 (0x3C :: 0x61 :: 0x3E :: 0x3C :: 0x21 :: 0x2D ::
        ([0x2D, 0x20] ++ 0x3E :: 0x20 :: ([0x2D, 0x2D, 0x3E] ++ [0x3C, 0x2F, 0x61, 0x3E])))
        (.start [0x61] .empty) (0x3E :: 0x3C :: 0x21 :: 0x2D ::
        ([0x2D, 0x20] ++ 0x3E :: 0x20 :: ([0x2D, 0x2D, 0x3E] ++ [0x3C, 0x2F, 0x61, 0x3E]))) :=
      .start rfl (by decide) (by decide) rfl
    have hend : XmlLexeme none 1 ([0x2D, 0x2D, 0x3E] ++ [0x3C, 0x2F, 0x61, 0x3E])
        (.leaf (.text [0x2D, 0x2D, 0x3E])) [0x3C, 0x2F, 0x61, 0x3E] :=
      .text (by decide) (by decide) rfl rfl (by decide)
    refine (xmlParseString_run _ _ _).mpr ⟨_, _, xmlParseHeader_bare _, ?_⟩
    refine .step (by decide) hstart' rfl (.ignored (by decide) (by decide) ?_)
    refine .space rfl (.step (by decide) hend rfl ?_)
    exact .stop (by decide) hclose rfl
  have hkept := hall _ hcontent _ _ _ _ hgap haccepted
  have hnodes := (XmlNode.tag.inj (Except.ok.inj (hkept.symm.trans htext))).2.2
  cases hnodes

end LibCmutils
