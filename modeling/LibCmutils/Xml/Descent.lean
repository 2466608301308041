import LibCmutils.Xml.Lexeme
import Mathlib.Logic.Relation

/-!
The walk of the XML parser through its text (`src/nanoxml.c`).

* `XmlPlace`, `XmlStep`: a place of the text with the number of open tags, and the next
  place, one item further on. There is at most one.
* `EmptyPlace`, `DeadPlace`: the places where the walk ends: at a node without a name, or
  with the result of the parser.
* `XmlCreated`: a tree whose nodes all come from items on a walk.
* `xmlParse_runs`: the recursive descent follows the walk. It reads no byte behind the
  text and has fuel enough, it uses a `NULL` pointer only where the walk ends at an empty
  place, and its tree is created on the walk.
-/

namespace LibCmutils

/-- A place of the text: the bytes from there on, and the number of open tags. -/
abbrev XmlPlace := List UInt8 × ℕ

/-- The place behind an item, when the parser calls `CMUTIL_XmlParseNode` there. The root
ends the document. -/
def XmlItem.next (d : ℕ) (rest : List UInt8) : XmlItem → Option XmlPlace
  | .ignored => some (rest, d)
  | .leaf _ => some (rest, d)
  | .close => if 1 < d then some (rest, d - 1) else none
  | .start _ _ =>
      match rest with
      | 0x2F :: 0x3E :: rest => if d = 0 then none else some (rest, d)
      | 0x3E :: rest => some (rest, d + 1)
      | _ => none

/-- One item further on. -/
inductive XmlStep (cv : XmlCharset) : XmlPlace → XmlPlace → Prop
  | item {p : List UInt8} {d : ℕ} {item : XmlItem} {rest : List UInt8} {t : XmlPlace} : d < 256 →
      XmlLexeme cv d (p.dropWhile xmlIsSpace) item rest → item.next d rest = some t →
      XmlStep cv (p, d) t

/-- The walk. -/
abbrev XmlWalk (cv : XmlCharset) : XmlPlace → XmlPlace → Prop := Relation.ReflTransGen (XmlStep cv)

/-- A place where the next node gets no name. -/
def EmptyPlace (cv : XmlCharset) (s : XmlPlace) : Prop :=
  s.2 < 256 ∧ EmptyNode cv s.2 (s.1.dropWhile xmlIsSpace)

/-- A place where the walk ends otherwise. -/
def DeadPlace (cv : XmlCharset) (s : XmlPlace) : Prop := ¬EmptyPlace cv s ∧ ∀ t, ¬XmlStep cv s t

/-- The walk from a place ends, and not at a node without a name. -/
def Halts (cv : XmlCharset) (s : XmlPlace) : Prop := ∃ t, XmlWalk cv s t ∧ DeadPlace cv t

/-- A tree whose nodes come from items on the walk from a place. -/
inductive XmlCreated (cv : XmlCharset) (s : XmlPlace) : XmlNode → Prop
  | text {name : List UInt8} {q : List UInt8} {d : ℕ} {rest : List UInt8} : XmlWalk cv s (q, d) →
      XmlLexeme cv d (q.dropWhile xmlIsSpace) (.leaf (.text name)) rest → XmlCreated cv s (.text name)
  | tag {name : List UInt8} {attributes : OrderedMap CString (List UInt8)}
      {children : List XmlNode} {q : List UInt8} {d : ℕ} {rest : List UInt8} :
      XmlWalk cv s (q, d) →
      XmlLexeme cv d (q.dropWhile xmlIsSpace) (.start name attributes) rest →
      (∀ child ∈ children, XmlCreated cv s child) →
      XmlCreated cv s (.tag name attributes children)

variable {cv : XmlCharset} {p q rest : List UInt8} {d : ℕ} {s t : XmlPlace} {item : XmlItem}

/-! ### The walk is determined by the text -/

lemma XmlLexeme.unique {item' : XmlItem} {rest' : List UInt8}
    (h : XmlLexeme cv d (p.dropWhile xmlIsSpace) item rest)
    (h' : XmlLexeme cv d (p.dropWhile xmlIsSpace) item' rest') : item = item' ∧ rest = rest' := by
  have heq := (xmlParseItem_lexeme h).symm.trans (xmlParseItem_lexeme h')
  have hpair := Except.ok.inj heq
  exact ⟨congrArg Prod.snd hpair, congrArg (fun r => r.1.pos) hpair⟩

lemma XmlLexeme.not_empty (h : XmlLexeme cv d (p.dropWhile xmlIsSpace) item rest) :
    ¬EmptyNode cv d (p.dropWhile xmlIsSpace) := by
  intro hempty
  have heq := (xmlParseItem_lexeme h).symm.trans (xmlParseItem_empty hempty)
  cases heq

lemma XmlStep.unique {t' : XmlPlace} (h : XmlStep cv s t) (h' : XmlStep cv s t') : t = t' := by
  cases h with
  | item _ hlex hnext =>
      cases h' with
      | item _ hlex' hnext' =>
          obtain ⟨rfl, rfl⟩ := hlex.unique hlex'
          exact Option.some.inj (hnext.symm.trans hnext')

lemma EmptyPlace.no_step (h : EmptyPlace cv s) : ¬XmlStep cv s t := by
  intro hstep
  cases hstep with
  | item _ hlex _ => exact hlex.not_empty h.2

/-- A walk that ends elsewhere meets no node without a name. -/
lemma Halts.not_empty (h : Halts cv s) (hwalk : XmlWalk cv s t) : ¬EmptyPlace cv t := by
  intro hempty
  obtain ⟨u, hu, hdead⟩ := h
  have hright : Relator.RightUnique (XmlStep cv) := fun _ _ _ h1 h2 => h1.unique h2
  rcases Relation.ReflTransGen.total_of_right_unique hright hwalk hu with hto | hto
  · rcases Relation.ReflTransGen.cases_head hto with rfl | ⟨v, hv, -⟩
    · exact hdead.1 hempty
    · exact hempty.no_step hv
  · rcases Relation.ReflTransGen.cases_head hto with rfl | ⟨v, hv, -⟩
    · exact hdead.1 hempty
    · exact hdead.2 v hv

lemma Halts.trans (hwalk : XmlWalk cv s t) (h : Halts cv t) : Halts cv s := by
  obtain ⟨u, hu, hdead⟩ := h
  exact ⟨u, hwalk.trans hu, hdead⟩

lemma XmlCreated.trans (hwalk : XmlWalk cv s t) {n : XmlNode} (h : XmlCreated cv t n) :
    XmlCreated cv s n := by
  induction h with
  | text hw hlex => exact .text (hwalk.trans hw) hlex
  | tag hw hlex _ ih => exact .tag (hwalk.trans hw) hlex ih

/-! ### Dead places -/

/-- An item that ends the document. -/
lemma dead_of_lexeme (h : XmlLexeme cv d (p.dropWhile xmlIsSpace) item rest)
    (hnext : item.next d rest = none) : DeadPlace cv (p, d) := by
  refine ⟨fun hempty => h.not_empty hempty.2, fun t hstep => ?_⟩
  cases hstep with
  | item _ hlex hnext' =>
      obtain ⟨rfl, rfl⟩ := h.unique hlex
      rw [hnext] at hnext'
      cases hnext'

/-- A place where the parser fails. -/
lemma dead_of_failed (h : xmlParseItem (.at p d cv) = .error .failed) : DeadPlace cv (p, d) := by
  refine ⟨fun hempty => ?_, fun t hstep => ?_⟩
  · rw [xmlParseItem_empty hempty.2] at h
    cases h
  · cases hstep with
    | item _ hlex _ =>
        rw [xmlParseItem_lexeme hlex] at h
        cases h

/-- Too many open tags. -/
lemma dead_of_depth (h : 256 ≤ d) : DeadPlace cv (p, d) := by
  refine ⟨fun hempty => absurd hempty.1 (not_lt.mpr h), fun t hstep => ?_⟩
  cases hstep with
  | item hd _ _ => exact absurd hd (not_lt.mpr h)

/-! ### The recursive descent -/

/-- How `CMUTIL_XmlParseNode` ends, called at a place. -/
inductive XmlNodeRun (cv : XmlCharset) (p : List UInt8) (d : ℕ) :
    Except XmlFault (XmlParseCtx × Option XmlNode) → Prop
  | close {q rest : List UInt8} : XmlWalk cv (p, d) (q, d) → d < 256 →
      XmlLexeme cv d (q.dropWhile xmlIsSpace) .close rest →
      XmlNodeRun cv p d (.ok (.at rest d cv, none))
  | node {rest : List UInt8} {n : XmlNode} : (d ≠ 0 → XmlWalk cv (p, d) (rest, d)) →
      (d = 0 → Halts cv (p, d)) → rest.length < p.length → XmlCreated cv (p, d) n →
      XmlNodeRun cv p d (.ok (.at rest d cv, some n))
  | empty {s : XmlPlace} : XmlWalk cv (p, d) s → EmptyPlace cv s →
      XmlNodeRun cv p d (.error .nullDeref)
  | failed : Halts cv (p, d) → XmlNodeRun cv p d (.error .failed)

/-- How the loop over the children ends, called at a place. -/
inductive XmlChildrenRun (cv : XmlCharset) (p : List UInt8) (d : ℕ) (acc : List XmlNode) :
    Except XmlFault (XmlParseCtx × List XmlNode) → Prop
  | close {q rest : List UInt8} {children : List XmlNode} : XmlWalk cv (p, d) (q, d) → d < 256 →
      XmlLexeme cv d (q.dropWhile xmlIsSpace) .close rest →
      (∀ n ∈ children, XmlCreated cv (p, d) n) →
      XmlChildrenRun cv p d acc (.ok (.at rest d cv, acc ++ children))
  | empty {s : XmlPlace} : XmlWalk cv (p, d) s → EmptyPlace cv s →
      XmlChildrenRun cv p d acc (.error .nullDeref)
  | failed : Halts cv (p, d) → XmlChildrenRun cv p d acc (.error .failed)

lemma XmlItem.next_suffix (h : item.next d rest = some t) : t.1 <:+ rest := by
  cases item with
  | ignored | leaf _ =>
      obtain rfl := Option.some.inj h
      exact List.suffix_rfl
  | close =>
      simp only [XmlItem.next] at h
      split at h
      · obtain rfl := Option.some.inj h
        exact List.suffix_rfl
      · cases h
  | start name attributes =>
      simp only [XmlItem.next] at h
      split at h
      · split at h
        · cases h
        · obtain rfl := Option.some.inj h
          exact List.suffix_append [0x2F, 0x3E] _
      · obtain rfl := Option.some.inj h
        exact List.suffix_cons ..
      · cases h

/-- The text behind a step is a proper part of the text before it. -/
lemma XmlStep.suffix (h : XmlStep cv s t) : t.1 <:+ s.1 ∧ t.1.length < s.1.length := by
  cases h with
  | @item p d item rest t hd hlex hnext =>
      obtain ⟨hrest, hlt⟩ := hlex.suffix
      have hnext := item.next_suffix hnext
      have hspace := List.dropWhile_suffix xmlIsSpace (l := p)
      have hle := hnext.length_le
      have hle' := hspace.length_le
      exact ⟨hnext.trans (hrest.trans hspace), by simp only; omega⟩

lemma XmlWalk.suffix (h : XmlWalk cv s t) : t.1 <:+ s.1 := by
  induction h with
  | refl => exact List.suffix_rfl
  | tail _ hstep ih => exact hstep.suffix.1.trans ih

/-- A step first, then a run. -/
lemma XmlNodeRun.head {p' : List UInt8} {r : Except XmlFault (XmlParseCtx × Option XmlNode)}
    (hstep : XmlStep cv (p, d) (p', d)) (h : XmlNodeRun cv p' d r) : XmlNodeRun cv p d r := by
  have hwalk : XmlWalk cv (p, d) (p', d) := .single hstep
  cases h with
  | close hw hd hlex => exact .close (hwalk.trans hw) hd hlex
  | node hw hhalt hlen hn =>
      exact .node (fun hd => hwalk.trans (hw hd)) (fun hd => (hhalt hd).trans hwalk)
        (hlen.trans hstep.suffix.2) (hn.trans hwalk)
  | empty hw hempty => exact .empty (hwalk.trans hw) hempty
  | failed hhalt => exact .failed (hhalt.trans hwalk)

/-- A child first, then the loop. -/
lemma XmlChildrenRun.cons {p' : List UInt8} {acc : List XmlNode} {n : XmlNode}
    {r : Except XmlFault (XmlParseCtx × List XmlNode)} (hwalk : XmlWalk cv (p, d) (p', d))
    (hn : XmlCreated cv (p, d) n) (h : XmlChildrenRun cv p' d (acc ++ [n]) r) :
    XmlChildrenRun cv p d acc r := by
  cases h with
  | @close q rest children hw hd hlex hcreated =>
      rw [List.append_assoc, List.singleton_append]
      refine .close (hwalk.trans hw) hd hlex fun m hm => ?_
      rcases List.mem_cons.mp hm with rfl | hm
      · exact hn
      · exact (hcreated m hm).trans hwalk
  | empty hw hempty => exact .empty (hwalk.trans hw) hempty
  | failed hhalt => exact .failed (hhalt.trans hwalk)

/-- A tag that is read to its end: the close tag leads on, or ends the document. -/
lemma XmlNodeRun.of_children {name : List UInt8} {attributes : OrderedMap CString (List UInt8)}
    {fuel : ℕ} (hd : d < 256)
    (hlex : XmlLexeme cv d (p.dropWhile xmlIsSpace) (.start name attributes) (0x3E :: rest))
    (h : XmlChildrenRun cv rest (d + 1) [] (xmlParseChildren fuel (.at rest (d + 1) cv) [])) :
    XmlNodeRun cv p d (xmlParseChildren fuel (.at rest (d + 1) cv) [] >>= fun r =>
      .ok ({ r.1 with stack := r.1.stack - 1 }, some (.tag name attributes r.2))) := by
  have hstep : XmlStep cv (p, d) (rest, d + 1) := .item hd hlex rfl
  have hwalk : XmlWalk cv (p, d) (rest, d + 1) := .single hstep
  generalize xmlParseChildren fuel (.at rest (d + 1) cv) [] = r at h
  cases h with
  | @close q rest' children hw hd' hclose hn =>
      have hq := Relation.ReflTransGen.trans hwalk hw
      have hcreated : XmlCreated cv (p, d) (.tag name attributes children) :=
        .tag .refl hlex fun n hmem => (hn n hmem).trans hwalk
      have hlt : rest'.length < p.length := by
        have hlen := hw.suffix.length_le
        have hspace := (List.dropWhile_suffix xmlIsSpace (l := q)).length_le
        have hrest := hclose.suffix.2
        have hfirst := hstep.suffix.2
        simp only at hlen hfirst
        omega
      rw [except_ok_bind, List.nil_append]
      refine .node (fun hd0 => hq.tail (.item hd' hclose ?_)) (fun hd0 => ⟨_, hq, ?_⟩) hlt hcreated
      · rw [XmlItem.next, if_pos (by omega)]
        rfl
      · subst hd0
        exact dead_of_lexeme hclose rfl
  | empty hw hempty => exact .empty (hwalk.trans hw) hempty
  | failed hhalt => exact .failed (hhalt.trans hwalk)

/-- A tag without children leads on, or ends the document. -/
lemma XmlNodeRun.of_empty_tag {name : List UInt8} {attributes : OrderedMap CString (List UInt8)}
    (hd : d < 256)
    (hlex : XmlLexeme cv d (p.dropWhile xmlIsSpace) (.start name attributes)
      (0x2F :: 0x3E :: rest)) :
    XmlNodeRun cv p d (.ok (.at rest d cv, some (.tag name attributes []))) := by
  have hspace := (List.dropWhile_suffix xmlIsSpace (l := p)).length_le
  have hrest := hlex.suffix.2
  simp only [List.length_cons] at hrest
  refine .node (fun hd0 => .single (.item hd hlex ?_)) (fun hd0 => ⟨_, .refl, ?_⟩) (by omega)
    (.tag .refl hlex (by simp))
  · simp [XmlItem.next, hd0]
  · exact dead_of_lexeme hlex (by simp [XmlItem.next, hd0])

/-- What follows the attributes of a tag. -/
lemma xmlParseNext_start {fuel : ℕ} {name : List UInt8}
    {attributes : OrderedMap CString (List UInt8)} {c : UInt8} (hd : d < 256)
    (hlex : XmlLexeme cv d (p.dropWhile xmlIsSpace) (.start name attributes) (c :: rest))
    (hchildren : ∀ r : List UInt8, r.length < p.length →
      XmlChildrenRun cv r (d + 1) [] (xmlParseChildren fuel (.at r (d + 1) cv) [])) :
    XmlNodeRun cv p d (xmlParseNext (fuel + 1) (.at p d cv)) := by
  have hitem : xmlParseItem (.at p d cv) = .ok (.at (c :: rest) (d + 1) cv, .start name attributes) :=
    xmlParseItem_lexeme hlex
  have hlt : (c :: rest).length < p.length :=
    hlex.suffix.2.trans_le (List.dropWhile_suffix _).length_le
  simp only [xmlParseNext, hitem, except_ok_bind, XmlParseCtx.at_pos, XmlParseCtx.at_remain,
    xmlStartsWith_at, decide_eq_true_eq, XmlParseCtx.deref_cons]
  by_cases hempty : [0x2F, 0x3E] <+: c :: rest
  · obtain ⟨r, hr⟩ := hempty
    rw [← hr] at hlex
    rw [if_pos ⟨r, hr⟩, ← hr, xmlSkipSub_at (n := 2) rfl, except_ok_bind]
    exact .of_empty_tag hd hlex
  · rw [if_neg hempty]
    by_cases hc : c = 0x3E
    · subst hc
      rw [if_pos rfl, ← List.singleton_append, xmlSkipSub_at (n := 1) rfl, except_ok_bind]
      exact .of_children hd hlex (hchildren rest (by simp only [List.length_cons] at hlt; omega))
    · rw [if_neg hc]
      refine .failed ⟨_, .refl, dead_of_lexeme hlex ?_⟩
      simp only [XmlItem.next]
      split
      · rename_i r heq
        exact absurd ⟨r, heq.symm⟩ hempty
      · rename_i heq
        exact absurd (List.cons.inj heq).1 hc
      · rfl

lemma XmlLexeme.start_rest {name : List UInt8} {attributes : OrderedMap CString (List UInt8)}
    (h : XmlLexeme cv d q (.start name attributes) rest) : ∃ c r, rest = c :: r := by
  cases h with
  | @start c p rest attributes hc hbang hlen hattr =>
      rcases xmlParseAttributes_cases ((c :: p).dropWhile xmlIsToken) (d + 1) cv with
        ⟨e, r, as, hr, -⟩ | hr
      · rw [hattr] at hr
        exact ⟨e, r, congrArg (fun r => r.1.pos) (Except.ok.inj hr)⟩
      · rw [hattr] at hr
        cases hr

lemma XmlLexeme.leaf_open {n : XmlNode} (h : XmlLexeme cv d q (.leaf n) rest) :
    d ≠ 0 ∧ ∃ name, n = .text name := by
  cases h with
  | cdata hd _ _ => exact ⟨hd, _, rfl⟩
  | text hd _ _ _ _ => exact ⟨hd, _, rfl⟩

/-- **The parser follows the walk.** It has fuel enough and reads no byte behind the text. -/
theorem xmlParse_runs (cv : XmlCharset) : ∀ fuel : ℕ,
    (∀ p d, 3 * p.length + 2 ≤ fuel → XmlNodeRun cv p d (xmlParseNode fuel (.at p d cv))) ∧
    (∀ p d, d < 256 → 3 * p.length + 1 ≤ fuel →
      XmlNodeRun cv p d (xmlParseNext fuel (.at p d cv))) ∧
    (∀ p d acc, d ≠ 0 → 3 * p.length + 3 ≤ fuel →
      XmlChildrenRun cv p d acc (xmlParseChildren fuel (.at p d cv) acc))
  | 0 => ⟨by omega, by omega, by omega⟩
  | fuel + 1 => by
      obtain ⟨ihnode, ihnext, ihchildren⟩ := xmlParse_runs cv fuel
      refine ⟨fun p d hfuel => ?_, fun p d hd hfuel => ?_, fun p d acc hd hfuel => ?_⟩
      · rw [xmlParseNode, XmlParseCtx.at_stack]
        split
        · exact .failed ⟨_, .refl, dead_of_depth ‹_›⟩
        · exact ihnext p d (by omega) (by omega)
      · rcases xmlParseItem_cases p d cv with ⟨item, rest, hlex⟩ | hempty | hfailed
        · have hitem := xmlParseItem_lexeme hlex
          have hlt : rest.length < p.length :=
            hlex.suffix.2.trans_le (List.dropWhile_suffix _).length_le
          cases item with
          | ignored =>
              have hrest := ihnext rest d hd (by omega)
              rw [xmlParseNext, hitem, except_ok_bind]
              exact hrest.head (.item hd hlex rfl)
          | close =>
              rw [xmlParseNext, hitem, except_ok_bind]
              exact .close .refl hd hlex
          | leaf n =>
              obtain ⟨hd0, name, rfl⟩ := hlex.leaf_open
              rw [xmlParseNext, hitem, except_ok_bind]
              exact .node (fun _ => .single (.item hd hlex rfl)) (fun h => absurd h hd0) hlt
                (.text .refl hlex)
          | start name attributes =>
              obtain ⟨c, r, rfl⟩ := hlex.start_rest
              exact xmlParseNext_start hd hlex fun r hr => ihchildren r (d + 1) [] (by omega)
                (by omega)
        · rw [xmlParseNext, xmlParseItem_empty hempty, except_error_bind]
          exact .empty .refl ⟨hd, hempty⟩
        · rw [xmlParseNext, hfailed, except_error_bind]
          exact .failed ⟨_, .refl, dead_of_failed hfailed⟩
      · have hnode := ihnode p d (by omega)
        rw [xmlParseChildren]
        generalize xmlParseNode fuel (.at p d cv) = r at hnode
        cases hnode with
        | close hw hd256 hlex =>
            have hrun : XmlChildrenRun cv p d acc (.ok (_, acc ++ [])) :=
              .close hw hd256 hlex fun _ h => absurd h List.not_mem_nil
            rwa [List.append_nil] at hrun
        | @node rest n hw _ hlt hn =>
            have hrest := ihchildren rest d (acc ++ [n]) hd (by omega)
            exact hrest.cons (hw hd) hn
        | empty hw hempty => exact .empty hw hempty
        | failed hhalt => exact .failed hhalt

end LibCmutils
