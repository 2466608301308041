import LibCmutils.Json.Descent

/-!
Which of the texts that `CMUTIL_JsonParse` accepts are complete documents
(`src/nanojson.c`).

* `Document`: white space and comments, one complete value, white space and comments.
* `CutItems`, `CutMembers`: what follows the bracket of an array or an object that the
  text ends in, right after the bracket or a comma.
* `Defect`: the four kinds of accepted texts that are no documents.
* `json_document_iff`: the parser accepts a text that is no document exactly when
  the text has a defect.
-/

namespace LibCmutils

variable {cd : CDouble}

/-- A complete document. -/
def Document (cd : CDouble) (t : List UInt8) : Prop :=
  ∃ m v r, Blank t m ∧ Derives cd false (.value 0 m v r) ∧ Blank r []

/-- Complete items, each with its comma, and then the end of the text. -/
inductive CutItems (cd : CDouble) (d : ℕ) : List UInt8 → Prop
  | here : CutItems cd d []
  | more {l p v q k} : Blank l p → Derives cd false (.value d p v q) → Blank q (0x2C :: k) →
      CutItems cd d k → CutItems cd d l

/-- Complete members, each with its comma, and then the end of the text. -/
inductive CutMembers (cd : CDouble) (d : ℕ) : List UInt8 → Prop
  | here : CutMembers cd d []
  | more {l m s n o p v q k} : Blank l m → NameToken false m s n → Blank n (0x3A :: o) →
      Blank o p → Derives cd false (.value d p v q) → Blank q (0x2C :: k) → CutMembers cd d k →
      CutMembers cd d l

/-- A text that is accepted and is no document: a complete value with more than white
space and comments after it, or a string, an object or an array at the top that the
end of the text cuts short, the last two right after a bracket or a comma. -/
inductive Defect (cd : CDouble) (t : List UInt8) : Prop
  | trailing {m v r} : Blank t m → Derives cd false (.value 0 m v r) → ¬Blank r [] → Defect cd t
  | string {l s} : Blank t (0x22 :: l) → Scan isQuote l s [] → Defect cd t
  | object {l} : Blank t (0x7B :: l) → CutMembers cd 1 l → Defect cd t
  | array {l} : Blank t (0x5B :: l) → CutItems cd 1 l → Defect cd t

/-! ### Cutting short -/

/-- What the end of the text cuts short. -/
def CutShort (cd : CDouble) : JsonJudgment → Prop
  | .value d m _ r => r = [] ∧ ((∃ l s, m = 0x22 :: l ∧ Scan isQuote l s []) ∨
      (∃ l, m = 0x7B :: l ∧ CutMembers cd (d + 1) l) ∨
      ∃ l, m = 0x5B :: l ∧ CutItems cd (d + 1) l)
  | .members d l _ _ r => r = [] ∧ CutMembers cd d l
  | .items d l _ _ r => r = [] ∧ CutItems cd d l

/-- What the parser accepts is complete or cut short. -/
lemma Derives.complete_or_cut {j : JsonJudgment} (h : Derives cd true j) :
    Derives cd false j ∨ CutShort cd j := by
  induction h with
  | string hd hq =>
      cases hq with
      | close hscan => exact .inl (.string hd (.close hscan))
      | cut _ hscan => exact .inr ⟨rfl, .inl ⟨_, _, rfl, hscan⟩⟩
  | literal hd hl hq ho ha hu hconst => exact .inl (.literal hd hl hq ho ha hu hconst)
  | object hd _ ih =>
      rcases ih with ih | ⟨rfl, hcut⟩
      · exact .inl (.object hd ih)
      · exact .inr ⟨rfl, .inr (.inl ⟨_, rfl, hcut⟩)⟩
  | array hd _ ih =>
      rcases ih with ih | ⟨rfl, hcut⟩
      · exact .inl (.array hd ih)
      · exact .inr ⟨rfl, .inr (.inr ⟨_, rfl, hcut⟩)⟩
  | membersCut => exact .inr ⟨rfl, .here⟩
  | membersClose hb => exact .inl (.membersClose hb)
  | membersLast hb hname hcolon hp hv hclose =>
      exact .inl (.membersLast hb (hname.of_rest hcolon.ne_nil) hcolon hp
        (hv.of_rest hclose.ne_nil) hclose)
  | membersMore hb hname hcolon hp hv hcomma _ _ ih =>
      have hname := hname.of_rest hcolon.ne_nil
      have hv := hv.of_rest hcomma.ne_nil
      rcases ih with ih | ⟨rfl, hcut⟩
      · exact .inl (.membersMore hb hname hcolon hp hv hcomma ih)
      · exact .inr ⟨rfl, .more hb hname hcolon hp hv hcomma hcut⟩
  | itemsCut => exact .inr ⟨rfl, .here⟩
  | itemsClose hb => exact .inl (.itemsClose hb)
  | itemsLast hp hv hclose => exact .inl (.itemsLast hp (hv.of_rest hclose.ne_nil) hclose)
  | itemsMore hp hv hcomma _ _ ih =>
      have hv := hv.of_rest hcomma.ne_nil
      rcases ih with ih | ⟨rfl, hcut⟩
      · exact .inl (.itemsMore hp hv hcomma ih)
      · exact .inr ⟨rfl, .more hp hv hcomma hcut⟩

/-- An array that is cut short is accepted. -/
lemma CutItems.derives {d : ℕ} {l : List UInt8} (h : CutItems cd d l) (xs : List Json) :
    ∃ xs', Derives cd true (.items d l xs xs' []) := by
  induction h generalizing xs with
  | here => exact ⟨xs, .itemsCut rfl⟩
  | @more l p v q k hp hv hcomma _ ih =>
      obtain ⟨xs', h⟩ := ih (jsonArrayAdd xs v)
      exact ⟨xs', .itemsMore hp (hv.mono true) hcomma h⟩

/-- An object that is cut short is accepted. -/
lemma CutMembers.derives {d : ℕ} {l : List UInt8} (h : CutMembers cd d l)
    (es : List (CString × Json)) : ∃ es', Derives cd true (.members d l es es' []) := by
  induction h generalizing es with
  | here => exact ⟨es, .membersCut rfl⟩
  | @more l m s n o p v q k hb hname hcolon hp hv hcomma _ ih =>
      obtain ⟨es', h⟩ := ih (jsonObjectPut es (CString.ofBytes s) v)
      exact ⟨es', .membersMore hb (hname.mono true) hcolon hp (hv.mono true) hcomma h⟩

/-! ### Complete and cut exclude each other -/

/-- A byte that white space does not pass. -/
lemma Blank.cons_unique {l r r' : List UInt8} {c c' : UInt8} (h : Blank l (c :: r))
    (hc : strchr jsnSpaces c = false ∧ c ≠ 0x2F) (h' : Blank l (c' :: r'))
    (hc' : strchr jsnSpaces c' = false ∧ c' ≠ 0x2F) : c = c' ∧ r = r' := by
  have hstart := tokenStart_cons hc.1 hc.2 r
  have hstart' := tokenStart_cons hc'.1 hc'.2 r'
  exact List.cons.inj (h.unique hstart.stuck h' hstart'.stuck)

/-- The value at a place, and what follows it. -/
lemma Derives.complete_unique {d : ℕ} {l p p' q q' : List UInt8} {v v' : Json} (hp : Blank l p)
    (hv : Derives cd false (.value d p v q)) (hp' : Blank l p')
    (hv' : Derives cd false (.value d p' v' q')) : p = p' ∧ q = q' := by
  obtain rfl : p = p' := hp.unique hv.value_head.1.stuck hp' hv'.value_head.1.stuck
  exact ⟨rfl, ((hv.mono true).unique (hv'.mono true)).2⟩

lemma NameToken.unique {l s s' n n' : List UInt8} (h : NameToken true l s n)
    (h' : NameToken true l s' n') : n = n' := by
  obtain ⟨isconst, hs⟩ := jsonParseString_name h 0
  obtain ⟨isconst', hs'⟩ := jsonParseString_name h' 0
  have heq := hs.symm.trans hs'
  simp only [Option.some.injEq, Prod.mk.injEq] at heq
  exact congrArg JsonParser.curr heq.1

/-- An array that is cut short has no closing bracket. -/
lemma CutItems.not_complete {d : ℕ} {l : List UInt8} (h : CutItems cd d l) {xs xs' : List Json}
    {r : List UInt8} : ¬Derives cd false (.items d l xs xs' r) := by
  induction h generalizing xs with
  | here =>
      intro h
      cases h with
      | itemsCut hcut => cases hcut
      | itemsClose hb => exact hb.ne_nil rfl
      | itemsLast hp hv => cases hp; exact hv.value_head.1
      | itemsMore hp hv => cases hp; exact hv.value_head.1
  | @more l p v q k hp hv hcomma _ ih =>
      intro h
      cases h with
      | itemsCut hcut => cases hcut
      | itemsClose hb =>
          obtain ⟨htok, hhead⟩ := hv.value_head
          have hclose : TokenStart (0x5D :: r) := tokenStart_cons (by decide) (by decide) r
          obtain rfl := hp.unique htok.stuck hb hclose.stuck
          exact hhead rfl
      | itemsLast hp' hv' hclose =>
          obtain ⟨rfl, rfl⟩ := Derives.complete_unique hp hv hp' hv'
          exact absurd (hcomma.cons_unique (by decide) hclose (by decide)).1 (by decide)
      | itemsMore hp' hv' hcomma' h =>
          obtain ⟨rfl, rfl⟩ := Derives.complete_unique hp hv hp' hv'
          obtain ⟨-, rfl⟩ := hcomma.cons_unique (by decide) hcomma' (by decide)
          exact ih h

/-- An object that is cut short has no closing brace. -/
lemma CutMembers.not_complete {d : ℕ} {l : List UInt8} (h : CutMembers cd d l)
    {es es' : List (CString × Json)} {r : List UInt8} :
    ¬Derives cd false (.members d l es es' r) := by
  induction h generalizing es with
  | here =>
      intro h
      cases h with
      | membersCut hcut => cases hcut
      | membersClose hb => exact hb.ne_nil rfl
      | membersLast hb hname => cases hb; exact hname.tokenStart
      | membersMore hb hname => cases hb; exact hname.tokenStart
  | @more l m s n o p v q k hb hname hcolon hp hv hcomma _ ih =>
      -- a second reading of the head of the round gives the same place
      have hround : ∀ {m' s' n' o' p' v' q'}, Blank l m' → NameToken false m' s' n' →
          Blank n' (0x3A :: o') → Blank o' p' → Derives cd false (.value d p' v' q') → q = q' := by
        intro m' s' n' o' p' v' q' hb' hname' hcolon' hp' hv'
        obtain rfl := hb.unique hname.tokenStart.stuck hb' hname'.tokenStart.stuck
        obtain rfl := (hname.mono true).unique (hname'.mono true)
        obtain ⟨-, rfl⟩ := hcolon.cons_unique (by decide) hcolon' (by decide)
        exact (Derives.complete_unique hp hv hp' hv').2
      intro h
      cases h with
      | membersCut hcut => cases hcut
      | membersClose hclose =>
          have hend : TokenStart (0x7D :: r) := tokenStart_cons (by decide) (by decide) r
          obtain rfl := hb.unique hname.tokenStart.stuck hclose hend.stuck
          exact hname.head_ne hcolon rfl
      | membersLast hb' hname' hcolon' hp' hv' hclose =>
          obtain rfl := hround hb' hname' hcolon' hp' hv'
          exact absurd (hcomma.cons_unique (by decide) hclose (by decide)).1 (by decide)
      | membersMore hb' hname' hcolon' hp' hv' hcomma' h =>
          obtain rfl := hround hb' hname' hcolon' hp' hv'
          obtain ⟨-, rfl⟩ := hcomma.cons_unique (by decide) hcomma' (by decide)
          exact ih h

/-- A value that is cut short is not complete. -/
lemma CutShort.not_complete {d : ℕ} {m r r' : List UInt8} {v v' : Json}
    (h : CutShort cd (.value d m v r)) : ¬Derives cd false (.value d m v' r') := by
  intro h'
  obtain ⟨-, ⟨l, s, rfl, hscan⟩ | ⟨l, rfl, hcut⟩ | ⟨l, rfl, hcut⟩⟩ := h
  · cases h' with
    | string _ hq =>
        cases hq with
        | close hscan' =>
            have := (hscan.unique (by decide) (by simp) hscan' (by simp; decide)).2
            cases this
        | cut hcut => cases hcut
    | literal _ _ hq => exact hq rfl
  · cases h' with
    | literal _ _ _ ho => exact ho rfl
    | object _ h' => exact hcut.not_complete h'
  · cases h' with
    | literal _ _ _ _ ha => exact ha rfl
    | array _ h' => exact hcut.not_complete h'

/-! ### Documents -/

/-- A text with a defect is accepted, and is no document. -/
lemma Defect.accepted {t : List UInt8} (h : Defect cd t) :
    (∃ v, jsonParse cd t = some (some v)) ∧ ¬Document cd t := by
  obtain ⟨m, v, r, hb, hv, hnot⟩ : ∃ m v r, Blank t m ∧ Derives cd true (.value 0 m v r) ∧
      ((Derives cd false (.value 0 m v r) ∧ ¬Blank r []) ∨ CutShort cd (.value 0 m v r)) := by
    cases h with
    | trailing hb hv hr => exact ⟨_, _, _, hb, hv.mono true, .inl ⟨hv, hr⟩⟩
    | string hb hscan =>
        exact ⟨_, _, [], hb, .string (by norm_num) (.cut rfl hscan),
          .inr ⟨rfl, .inl ⟨_, _, rfl, hscan⟩⟩⟩
    | object hb hcut =>
        obtain ⟨es, hes⟩ := hcut.derives []
        exact ⟨_, _, [], hb, .object (by norm_num) hes, .inr ⟨rfl, .inr (.inl ⟨_, rfl, hcut⟩)⟩⟩
    | array hb hcut =>
        obtain ⟨xs, hxs⟩ := hcut.derives []
        exact ⟨_, _, [], hb, .array (by norm_num) hxs, .inr ⟨rfl, .inr (.inr ⟨_, rfl, hcut⟩)⟩⟩
  refine ⟨⟨v, jsonParse_eq_some_iff.mpr ⟨m, r, hb, hv⟩⟩, ?_⟩
  rintro ⟨m', v', r', hb', hv', hend⟩
  obtain rfl := hb.unique hv.value_head.1.stuck hb' hv'.value_head.1.stuck
  rcases hnot with ⟨-, hnot⟩ | hcut
  · obtain ⟨-, rfl⟩ := hv.unique (hv'.mono true)
    exact hnot hend
  · exact hcut.not_complete hv'

end LibCmutils
