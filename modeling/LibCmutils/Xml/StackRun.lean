import LibCmutils.Xml.Nesting

/-!
The XML parser as a machine with a stack of open tags (`src/nanoxml.c`).

* `XmlOpenTag`: a node on the stack of the program, with the children it has got so far.
* `XmlItem.run`: what an item does to the stack.
* `XmlRun`: the run from a place of the text to the finished root.
* `XmlFinishes`: the stack with the content that closes its tags one after the other.
* `xmlRun_iff`: the runs are the content of `XmlContent`.

The main result is `xmlParseString_run`: the recursive descent and the machine make the
same tree. A run is a sequence of steps and no tree, so that it can be cut at any place.
-/

namespace LibCmutils

/-- A node on the stack. -/
structure XmlOpenTag where
  name : List UInt8
  attributes : OrderedMap CString (List UInt8)
  children : List XmlNode

namespace XmlOpenTag

def node (f : XmlOpenTag) : XmlNode := .tag f.name f.attributes f.children

/-- The node with more children. -/
def add (f : XmlOpenTag) (nodes : List XmlNode) : XmlOpenTag :=
  { f with children := f.children ++ nodes }

@[simp] lemma add_nil (f : XmlOpenTag) : f.add [] = f := by simp [add]

@[simp] lemma add_add (f : XmlOpenTag) (nodes nodes' : List XmlNode) :
    (f.add nodes).add nodes' = f.add (nodes ++ nodes') := by simp [add]

end XmlOpenTag

/-- What follows an item: the stack and the text behind it, or the finished root. -/
inductive XmlOutcome
  | more (stack : List XmlOpenTag) (rest : List UInt8)
  | done (node : XmlNode)
  | stuck

/-- A node goes to the children of the innermost open tag. The root has no parent. -/
def XmlNode.attach (rest : List UInt8) (node : XmlNode) : List XmlOpenTag → XmlOutcome
  | [] => .done node
  | f :: stack => .more (f.add [node] :: stack) rest

/-- What an item does to the stack, with the text behind it. -/
def XmlItem.run (stack : List XmlOpenTag) (rest : List UInt8) : XmlItem → XmlOutcome
  | .ignored => .more stack rest
  | .leaf node =>
      match stack with
      | [] => .stuck
      | _ :: _ => node.attach rest stack
  | .close =>
      match stack with
      | [] => .stuck
      | f :: stack => f.node.attach rest stack
  | .start name attributes =>
      match rest with
      | 0x2F :: 0x3E :: rest => (XmlNode.tag name attributes []).attach rest stack
      | 0x3E :: rest => .more (⟨name, attributes, []⟩ :: stack) rest
      | _ => .stuck

/-- The run from a place of the text on, with open tags, to the root. -/
inductive XmlRun (cv : XmlCharset) : List XmlOpenTag → List UInt8 → XmlNode → Prop
  | space {stack : List XmlOpenTag} {c : UInt8} {p : List UInt8} {n : XmlNode} :
      xmlIsSpace c = true → XmlRun cv stack p n → XmlRun cv stack (c :: p) n
  | step {stack stack' : List XmlOpenTag} {p q rest : List UInt8} {item : XmlItem} {n : XmlNode} :
      stack.length < 256 → XmlLexeme cv stack.length p item rest →
      item.run stack rest = .more stack' q → XmlRun cv stack' q n → XmlRun cv stack p n
  | stop {stack : List XmlOpenTag} {p rest : List UInt8} {item : XmlItem} {n : XmlNode} :
      stack.length < 256 → XmlLexeme cv stack.length p item rest →
      item.run stack rest = .done n → XmlRun cv stack p n

variable {cv : XmlCharset} {d : ℕ} {p q r rest s : List UInt8} {item : XmlItem} {n : XmlNode}
  {stack : List XmlOpenTag} {f : XmlOpenTag}

/-! ### Places that are no spaces -/

lemma XmlLexeme.not_space {c : UInt8} (h : XmlLexeme cv d (c :: p) item rest) :
    xmlIsSpace c = false := by
  generalize hq : c :: p = q at h
  cases h with
  | close _ =>
      obtain ⟨rfl, -⟩ := List.cons.inj hq
      rfl
  | ignored _ _ =>
      obtain ⟨rfl, -⟩ := List.cons.inj hq
      rfl
  | cdata _ _ _ =>
      obtain ⟨rfl, -⟩ := List.cons.inj hq
      rfl
  | text _ _ hc _ _ =>
      obtain ⟨rfl, -⟩ := List.cons.inj hq
      exact hc
  | start _ _ _ _ =>
      obtain ⟨rfl, -⟩ := List.cons.inj hq
      rfl

lemma XmlLexeme.dropWhile_eq (h : XmlLexeme cv d p item rest) : p.dropWhile xmlIsSpace = p := by
  cases p with
  | nil => rfl
  | cons c p => rw [List.dropWhile_cons, h.not_space]; rfl

/-- The item at a place is determined by the text. -/
lemma XmlLexeme.eq_of {item' : XmlItem} {rest' : List UInt8} (h : XmlLexeme cv d p item rest)
    (h' : XmlLexeme cv d p item' rest') : item = item' ∧ rest = rest' := by
  have hp := h.dropWhile_eq
  rw [← hp] at h h'
  exact h.unique h'

lemma XmlRun.depth (h : XmlRun cv stack p n) : stack.length < 256 := by
  induction h with
  | space _ _ ih => exact ih
  | step hd _ _ _ _ => exact hd
  | stop hd _ _ => exact hd

lemma XmlRun.of_dropWhile (h : XmlRun cv stack (p.dropWhile xmlIsSpace) n) :
    XmlRun cv stack p n := by
  induction p with
  | nil => exact h
  | cons c p ih =>
      rw [List.dropWhile_cons] at h
      split at h
      case isTrue hc => exact .space hc (ih h)
      case isFalse => exact h

/-! ### Content is run through -/

lemma XmlNextItem.lexeme (h : XmlNextItem cv d p s item rest) : XmlLexeme cv d s item rest := by
  induction h with
  | here hlex => exact hlex
  | skip _ _ ih => exact ih

/-- What is ignored leaves the stack. -/
lemma XmlNextItem.run (h : XmlNextItem cv d p s item rest) (hd : stack.length = d)
    (hrun : XmlRun cv stack s n) : XmlRun cv stack p n := by
  subst hd
  induction h with
  | here _ => exact hrun.of_dropWhile
  | skip hlex _ ih => exact XmlRun.of_dropWhile (.step hrun.depth hlex rfl (ih hrun))

lemma XmlNextItem.of_lexeme (h : XmlLexeme cv d p item rest) : XmlNextItem cv d p p item rest := by
  have hp := h.dropWhile_eq
  rw [← hp] at h
  have hitem := XmlNextItem.here h
  rwa [hp] at hitem

/-- Content is run through: its nodes go to the innermost open tag. -/
lemma XmlContent.run {nodes : List XmlNode} {tags : List XmlTagPair}
    (h : XmlContent cv d p nodes tags q) :
    ∀ {f : XmlOpenTag} {stack : List XmlOpenTag}, (f :: stack).length = d →
      XmlRun cv (f.add nodes :: stack) q n → XmlRun cv (f :: stack) p n := by
  induction h generalizing n with
  | nil =>
      intro f stack _ hrun
      rwa [XmlOpenTag.add_nil] at hrun
  | @leaf d p s q r node nodes tags hd hitem _ ih =>
      rintro f stack rfl hrun
      refine hitem.run rfl (.step hd hitem.lexeme rfl (ih rfl ?_))
      rwa [XmlOpenTag.add_add]
  | empty hd hitem _ ih =>
      rintro f stack rfl hrun
      refine hitem.run rfl (.step hd hitem.lexeme rfl (ih rfl ?_))
      rwa [XmlOpenTag.add_add]
  | element hd hitem _ hclose _ ihchildren ih =>
      rintro f stack rfl hrun
      refine hitem.run rfl (.step (by omega) hitem.lexeme rfl (ihchildren rfl ?_))
      refine hclose.run rfl (.step hd hclose.lexeme rfl (ih rfl ?_))
      rwa [XmlOpenTag.add_add]

/-- The root is run through. -/
lemma XmlContent.run_root {tags : List XmlTagPair} (h : XmlContent cv 0 p [n] tags q) :
    XmlRun cv [] p n := by
  cases h with
  | leaf _ hitem _ => exact absurd rfl hitem.lexeme.leaf_open.1
  | empty hd hitem _ =>
      exact hitem.run rfl (.stop hd hitem.lexeme rfl)
  | element hd hitem hchildren hclose _ =>
      refine hitem.run rfl (.step (by simp) hitem.lexeme rfl (hchildren.run rfl ?_))
      exact hclose.run rfl (.stop hd hclose.lexeme rfl)

/-! ### A run is content -/

/-- Nodes up to the end tag of the innermost open tag, and the text behind it. -/
def XmlCloses (cv : XmlCharset) (d : ℕ) (p : List UInt8) (children : List XmlNode)
    (rest : List UInt8) : Prop :=
  ∃ tags q s, XmlContent cv d p children tags q ∧ XmlNextItem cv d q s .close rest

/-- The open tags are closed one after the other, up to the root. -/
inductive XmlFinishes (cv : XmlCharset) : List XmlOpenTag → List UInt8 → XmlNode → Prop
  | root {p q : List UInt8} {n : XmlNode} {tags : List XmlTagPair} :
      XmlContent cv 0 p [n] tags q → XmlFinishes cv [] p n
  | last {f : XmlOpenTag} {p rest : List UInt8} {children : List XmlNode} :
      XmlCloses cv 1 p children rest → XmlFinishes cv [f] p (f.add children).node
  | more {f g : XmlOpenTag} {stack : List XmlOpenTag} {p rest : List UInt8}
      {children : List XmlNode} {n : XmlNode} :
      XmlCloses cv (stack.length + 2) p children rest →
      XmlFinishes cv (g.add [(f.add children).node] :: stack) rest n →
      XmlFinishes cv (f :: g :: stack) p n

/-- The same items follow at both places. -/
def SameNext (cv : XmlCharset) (d : ℕ) (p q : List UInt8) : Prop :=
  ∀ s item rest, XmlNextItem cv d q s item rest → XmlNextItem cv d p s item rest

lemma SameNext.of_ignored (h : XmlLexeme cv d p .ignored q) : SameNext cv d p q := by
  intro s item rest hitem
  rw [← h.dropWhile_eq] at h
  exact .skip h hitem

lemma SameNext.of_space {c : UInt8} (hc : xmlIsSpace c = true) : SameNext cv d (c :: p) p := by
  intro s item rest hitem
  have hdrop : (c :: p).dropWhile xmlIsSpace = p.dropWhile xmlIsSpace := by
    rw [List.dropWhile_cons, if_pos hc]
  cases hitem with
  | here hlex =>
      rw [← hdrop] at hlex ⊢
      exact .here hlex
  | skip hlex hitem =>
      rw [← hdrop] at hlex
      exact .skip hlex hitem

lemma SameNext.content {nodes : List XmlNode} {tags : List XmlTagPair} (hsame : SameNext cv d p q)
    (h : XmlContent cv d q (n :: nodes) tags r) : XmlContent cv d p (n :: nodes) tags r := by
  cases h with
  | leaf hd hitem hrest => exact .leaf hd (hsame _ _ _ hitem) hrest
  | empty hd hitem hrest => exact .empty hd (hsame _ _ _ hitem) hrest
  | element hd hitem hchildren hclose hrest =>
      exact .element hd (hsame _ _ _ hitem) hchildren hclose hrest

lemma SameNext.closes {children : List XmlNode} (hsame : SameNext cv d p q)
    (h : XmlCloses cv d q children rest) : XmlCloses cv d p children rest := by
  obtain ⟨tags, r, s, hcontent, hclose⟩ := h
  cases children with
  | nil =>
      cases hcontent
      exact ⟨[], p, s, .nil, hsame _ _ _ hclose⟩
  | cons n nodes => exact ⟨tags, r, s, hsame.content hcontent, hclose⟩

lemma SameNext.finishes (hsame : SameNext cv stack.length p q) (h : XmlFinishes cv stack q n) :
    XmlFinishes cv stack p n := by
  cases h with
  | root hcontent => exact .root (hsame.content hcontent)
  | last hcloses => exact .last (hsame.closes hcloses)
  | more hcloses hrest => exact .more (hsame.closes hcloses) hrest

/-- A node before the content. -/
def PrependsNode (cv : XmlCharset) (d : ℕ) (p : List UInt8) (n : XmlNode) (q : List UInt8) : Prop :=
  ∀ nodes tags r, XmlContent cv d q nodes tags r → ∃ tags', XmlContent cv d p (n :: nodes) tags' r

lemma PrependsNode.closes {children : List XmlNode} (hn : PrependsNode cv d p n q)
    (h : XmlCloses cv d q children rest) : XmlCloses cv d p (n :: children) rest := by
  obtain ⟨tags, r, s, hcontent, hclose⟩ := h
  obtain ⟨tags', hcontent'⟩ := hn children tags r hcontent
  exact ⟨tags', r, s, hcontent', hclose⟩

lemma PrependsNode.finishes {node : XmlNode} (hn : PrependsNode cv (stack.length + 1) p node q)
    (h : XmlFinishes cv (f.add [node] :: stack) q n) : XmlFinishes cv (f :: stack) p n := by
  cases h with
  | last hcloses =>
      rw [XmlOpenTag.add_add]
      exact .last (hn.closes hcloses)
  | more hcloses hrest =>
      rw [XmlOpenTag.add_add] at hrest
      exact .more (hn.closes hcloses) hrest

/-- A node that is read and followed by the rest of a run. -/
lemma PrependsNode.attach {node : XmlNode} {stack' : List XmlOpenTag}
    (hn : PrependsNode cv stack.length p node q) (hrun : node.attach q stack = .more stack' r)
    (h : XmlFinishes cv stack' r n) : XmlFinishes cv stack p n := by
  cases stack with
  | nil => cases hrun
  | cons f stack =>
      obtain ⟨rfl, rfl⟩ := XmlOutcome.more.inj hrun
      exact hn.finishes h

/-- A node that is read as the root. -/
lemma PrependsNode.root {node : XmlNode} (hn : PrependsNode cv stack.length p node q)
    (hrun : node.attach q stack = .done n) : XmlFinishes cv stack p n := by
  cases stack with
  | nil =>
      obtain rfl := XmlOutcome.done.inj hrun
      obtain ⟨tags, hcontent⟩ := hn [] [] q .nil
      exact .root hcontent
  | cons f stack => cases hrun

lemma PrependsNode.leaf (hd : d < 256) (h : XmlLexeme cv d p (.leaf n) rest) :
    PrependsNode cv d p n rest :=
  fun _ tags _ hcontent => ⟨tags, .leaf hd (.of_lexeme h) hcontent⟩

lemma PrependsNode.empty {name : List UInt8} {attributes : OrderedMap CString (List UInt8)}
    (hd : d < 256) (h : XmlLexeme cv d p (.start name attributes) (0x2F :: 0x3E :: rest)) :
    PrependsNode cv d p (.tag name attributes []) rest :=
  fun _ tags _ hcontent => ⟨tags, .empty hd (.of_lexeme h) hcontent⟩

lemma PrependsNode.element {name : List UInt8} {attributes : OrderedMap CString (List UInt8)}
    {children : List XmlNode} (hd : d + 1 < 256)
    (h : XmlLexeme cv d p (.start name attributes) (0x3E :: q))
    (hcloses : XmlCloses cv (d + 1) q children rest) :
    PrependsNode cv d p (.tag name attributes children) rest := by
  obtain ⟨tags, r, s, hinner, hclose⟩ := hcloses
  exact fun _ _ _ hcontent => ⟨_, .element hd (.of_lexeme h) hinner hclose hcontent⟩

/-- A start tag, with the content of its element behind it. -/
lemma XmlFinishes.start {name : List UInt8} {attributes : OrderedMap CString (List UInt8)}
    (hd : stack.length + 1 < 256)
    (hlex : XmlLexeme cv stack.length p (.start name attributes) (0x3E :: q))
    (h : XmlFinishes cv (⟨name, attributes, []⟩ :: stack) q n) : XmlFinishes cv stack p n := by
  cases h with
  | last hcloses =>
      obtain ⟨tags, hcontent⟩ := PrependsNode.element hd hlex hcloses [] [] _ .nil
      exact .root hcontent
  | more hcloses hrest => exact (PrependsNode.element hd hlex hcloses).finishes hrest

/-- An end tag: the innermost open tag is done. -/
lemma XmlCloses.nil (h : XmlLexeme cv d p .close rest) : XmlCloses cv d p [] rest :=
  ⟨[], p, p, .nil, .of_lexeme h⟩

lemma XmlFinishes.step {stack' : List XmlOpenTag} (hd : stack.length < 256)
    (hd' : stack'.length < 256) (hlex : XmlLexeme cv stack.length p item rest)
    (hrun : item.run stack rest = .more stack' q) (h : XmlFinishes cv stack' q n) :
    XmlFinishes cv stack p n := by
  cases item with
  | ignored =>
      obtain ⟨rfl, rfl⟩ := XmlOutcome.more.inj hrun
      exact (SameNext.of_ignored hlex).finishes h
  | leaf node =>
      cases stack with
      | nil => cases hrun
      | cons f stack => exact (PrependsNode.leaf hd hlex).attach hrun h
  | close =>
      match stack, hrun with
      | f :: g :: stack, hrun =>
          obtain ⟨rfl, rfl⟩ := XmlOutcome.more.inj hrun
          rw [← f.add_nil] at h
          exact .more (.nil hlex) h
  | start name attributes =>
      simp only [XmlItem.run] at hrun
      split at hrun
      · exact (PrependsNode.empty hd hlex).attach hrun h
      · obtain ⟨rfl, rfl⟩ := XmlOutcome.more.inj hrun
        exact .start hd' hlex h
      · cases hrun

lemma XmlFinishes.stop (hd : stack.length < 256) (hlex : XmlLexeme cv stack.length p item rest)
    (hrun : item.run stack rest = .done n) : XmlFinishes cv stack p n := by
  cases item with
  | ignored => cases hrun
  | leaf node =>
      cases stack with
      | nil => cases hrun
      | cons f stack => cases hrun
  | close =>
      match stack, hrun with
      | [f], hrun =>
          obtain rfl := XmlOutcome.done.inj hrun
          have h := XmlFinishes.last (f := f) (.nil hlex)
          rwa [f.add_nil] at h
  | start name attributes =>
      simp only [XmlItem.run] at hrun
      split at hrun
      · exact (PrependsNode.empty hd hlex).root hrun
      · cases hrun
      · cases hrun

/-- A run closes its open tags. -/
lemma XmlRun.finishes (h : XmlRun cv stack p n) : XmlFinishes cv stack p n := by
  induction h with
  | space hc _ ih => exact (SameNext.of_space hc).finishes ih
  | step hd hlex hrun hrest ih => exact .step hd hrest.depth hlex hrun ih
  | stop hd hlex hrun => exact .stop hd hlex hrun

/-- **Runs are content.** -/
theorem xmlRun_iff : XmlRun cv [] p n ↔ ∃ tags q, XmlContent cv 0 p [n] tags q := by
  constructor
  · intro h
    cases h.finishes with
    | root hcontent => exact ⟨_, _, hcontent⟩
  · rintro ⟨tags, q, hcontent⟩
    exact hcontent.run_root

/-- **The machine.** A text is accepted, with a tree, exactly if behind its header a run with
no open tag ends with the tree. -/
theorem xmlParseString_run (ic : Iconv) (xmlstr : List UInt8) (node : XmlNode) :
    xmlParseString ic xmlstr = .ok node ↔ ∃ p encoding,
      xmlParseHeader (xmlParseInit xmlstr) utf8Name = .ok (.at p 0 none, encoding) ∧
        XmlRun (xmlCharset ic encoding) [] p node := by
  rw [xmlParseString_nested]
  constructor
  · rintro ⟨tags, p, encoding, q, hheader, hcontent⟩
    exact ⟨p, encoding, hheader, hcontent.run_root⟩
  · rintro ⟨p, encoding, hheader, hrun⟩
    obtain ⟨tags, q, hcontent⟩ := xmlRun_iff.mp hrun
    exact ⟨tags, p, encoding, q, hheader, hcontent⟩

end LibCmutils
