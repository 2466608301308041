import LibCmutils.Xml.Descent
import LibCmutils.Xml.Header

/-!
`CMUTIL_XmlParseString` on any bytes (`src/nanoxml.c`, `src/strings.c`).

* `XmlReaches`: the places on the walk behind the header of a text.
* `xmlParseString_cases`: the parser returns a tree created on the walk, or it fails, or it
  uses a `NULL` pointer at a place on the walk where a node gets no name.
* `xmlParseString_ne_nullDeref`: these places are the only danger, and each is one. A string
  of capacity 0 without content is not created, and the node does not look at the result.
-/

namespace LibCmutils

/-- A place that the parser comes to behind the header, with the conversion that the header
asks for. -/
def XmlReaches (ic : Iconv) (xmlstr : List UInt8) (cv : XmlCharset) (t : XmlPlace) : Prop :=
  ∃ p encoding, xmlParseHeader (xmlParseInit xmlstr) utf8Name = .ok (.at p 0 none, encoding) ∧
    cv = xmlCharset ic encoding ∧ XmlWalk cv (p, 0) t

/-- How `CMUTIL_XmlParseStringInternal` ends after the header. -/
inductive XmlRootRun (cv : XmlCharset) (p : List UInt8) : Except XmlFault XmlNode → Prop
  | node {n : XmlNode} : Halts cv (p, 0) → XmlCreated cv (p, 0) n → XmlRootRun cv p (.ok n)
  | empty {s : XmlPlace} : XmlWalk cv (p, 0) s → EmptyPlace cv s →
      XmlRootRun cv p (.error .nullDeref)
  | failed : Halts cv (p, 0) → XmlRootRun cv p (.error .failed)

lemma xmlParseRoot_run (cv : XmlCharset) (p : List UInt8) :
    XmlRootRun cv p (xmlParseRoot (.at p 0 cv)) := by
  have hrun := (xmlParse_runs cv (3 * p.length + 3)).1 p 0 (by omega)
  rw [xmlParseRoot, XmlParseCtx.at_remain, Int.toNat_natCast]
  generalize xmlParseNode (3 * p.length + 3) (.at p 0 cv) = r at hrun
  cases hrun with
  | close hw _ hlex => exact .failed ⟨_, hw, dead_of_lexeme hlex rfl⟩
  | node _ hhalt _ hn => exact .node (hhalt rfl) hn
  | empty hw hempty => exact .empty hw hempty
  | failed hhalt => exact .failed hhalt

/-- The text has no header, or it is parsed behind the header. -/
lemma xmlParseString_header (ic : Iconv) (xmlstr : List UInt8) :
    (∃ p encoding, xmlParseHeader (xmlParseInit xmlstr) utf8Name = .ok (.at p 0 none, encoding) ∧
      p <:+ xmlstr ∧
      xmlParseString ic xmlstr = xmlParseRoot (.at p 0 (xmlCharset ic encoding))) ∨
    xmlParseHeader (xmlParseInit xmlstr) utf8Name = .error .failed ∧
      xmlParseString ic xmlstr = .error .failed := by
  rcases xmlParseHeader_cases 0 none xmlstr utf8Name with ⟨p, e, hp, hsuffix⟩ | hfail
  · refine .inl ⟨p, e, hp, hsuffix, ?_⟩
    have hrun : xmlParseHeader (xmlParseInit xmlstr) utf8Name = .ok (.at p 0 none, e) := hp
    rw [xmlParseString, hrun]
    rfl
  · refine .inr ⟨hfail, ?_⟩
    have hrun : xmlParseHeader (xmlParseInit xmlstr) utf8Name = .error .failed := hfail
    rw [xmlParseString, hrun]
    rfl

/-- **The outcomes of the parser.** It has fuel enough, and reads no byte behind the text. -/
theorem xmlParseString_cases (ic : Iconv) (xmlstr : List UInt8) :
    (∃ n, xmlParseString ic xmlstr = .ok n) ∨ xmlParseString ic xmlstr = .error .failed ∨
      xmlParseString ic xmlstr = .error .nullDeref := by
  rcases xmlParseString_header ic xmlstr with ⟨p, e, -, -, hrun⟩ | ⟨-, hrun⟩
  · have hroot := xmlParseRoot_run (xmlCharset ic e) p
    rw [← hrun] at hroot
    generalize xmlParseString ic xmlstr = r at hroot
    cases hroot with
    | node => exact .inl ⟨_, rfl⟩
    | empty => exact .inr (.inr rfl)
    | failed => exact .inr (.inl rfl)
  · exact .inr (.inl hrun)

/-- **No `NULL` pointer is used.** The parser keeps clear of the strings that were not
created exactly on the texts whose walk meets no node without a name. -/
theorem xmlParseString_ne_nullDeref (ic : Iconv) (xmlstr : List UInt8) :
    xmlParseString ic xmlstr ≠ .error .nullDeref ↔
      ∀ cv t, XmlReaches ic xmlstr cv t → ¬EmptyPlace cv t := by
  rcases xmlParseString_header ic xmlstr with ⟨p, e, hheader, -, hrun⟩ | ⟨hheader, hrun⟩
  · have hroot := xmlParseRoot_run (xmlCharset ic e) p
    have hhalts : Halts (xmlCharset ic e) (p, 0) →
        ∀ cv t, XmlReaches ic xmlstr cv t → ¬EmptyPlace cv t := by
      rintro hhalts cv t ⟨p', e', hheader', rfl, hwalk⟩
      have hpair := Except.ok.inj (hheader.symm.trans hheader')
      obtain rfl : e = e' := congrArg Prod.snd hpair
      obtain rfl : p = p' := congrArg (fun r => r.1.pos) hpair
      exact hhalts.not_empty hwalk
    rw [← hrun] at hroot
    generalize xmlParseString ic xmlstr = r at hroot
    cases hroot with
    | node hhalt _ => exact iff_of_true (by simp) (hhalts hhalt)
    | @empty s hw hempty =>
        refine iff_of_false (by simp) fun h => ?_
        exact h _ s ⟨p, e, hheader, rfl, hw⟩ hempty
    | failed hhalt => exact iff_of_true (by simp) (hhalts hhalt)
  · refine iff_of_true (by simp [hrun]) ?_
    rintro cv t ⟨p, e, hheader', -⟩
    rw [hheader] at hheader'
    cases hheader'

/-- `<?xml ?><>`: the tag has no name. -/
theorem xmlParseString_nullDeref :
    ¬∀ (ic : Iconv) (xmlstr : List UInt8), xmlParseString ic xmlstr ≠ .error .nullDeref := by
  intro h
  exact h ⟨fun _ _ => none⟩ [0x3C, 0x3F, 0x78, 0x6D, 0x6C, 0x20, 0x3F, 0x3E, 0x3C, 0x3E] rfl

end LibCmutils
