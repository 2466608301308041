import LibCmutils.Json.Descent

/-!
Inserting comments and white space between JSON tokens (`src/nanojson.c`).

* `Insertion`: a line comment, a block comment or a run of spaces.
* `InsertPoint`: a point between two tokens that is not behind an unquoted token, or
  behind an unquoted value when spaces are inserted. An unquoted token goes on up to
  the next delimiter, and what stands there belongs to it.
* `Survives`: a relation between the ends of a stretch of text is kept when something is
  inserted into the stretch or behind it. `Survives.seq` puts stretches together.
* `json_insert_blank`: the parsed tree does not change.
-/

namespace LibCmutils

variable {cd : CDouble}

/-- A line comment with its newline, a closed block comment, or a run of spaces. -/
inductive Insertion : List UInt8 → Prop
  | line {body : List UInt8} : (∀ c ∈ body, strchr jsnLineEnds c = false) →
      Insertion (0x2F :: 0x2F :: body ++ [0x0A])
  | block (body : List UInt8) : BlockBody (body ++ [0x2A, 0x2F]) [] →
      Insertion (0x2F :: 0x2A :: body ++ [0x2A, 0x2F])
  | spaces {w : List UInt8} : (∀ c ∈ w, c = 0x20) → Insertion w

/-- The second text is the first with `w` inserted where `s` begins. -/
inductive Inserts (w s : List UInt8) : List UInt8 → List UInt8 → Prop
  | here : Inserts w s s (w ++ s)
  | cons {l l' : List UInt8} (c : UInt8) : Inserts w s l l' → Inserts w s (c :: l) (c :: l')

/-- Reading tokens and blanks from here leads to the point before `s`, where `w` may be
inserted. -/
inductive InsertPoint (w s : List UInt8) : List UInt8 → Prop
  | here : InsertPoint w s s
  | tail {l str x r : List UInt8} : (∀ c ∈ w, c = 0x20) → TokenStart l → l.head? ≠ some 0x22 →
      (∀ c ∈ l.head?, c ∉ jsnDelims) → Scan (strchr jsnDelims) l str s → s = x ++ r →
      (∀ c ∈ x, c ∈ jsnSpaces) → Stop r → (∀ k, ¬Blank r (0x3A :: k)) → InsertPoint w s l
  | space {c : UInt8} {l : List UInt8} : strchr jsnSpaces c = true → InsertPoint w s l →
      InsertPoint w s (c :: l)
  | line {c : UInt8} {l m : List UInt8} : LineBody l (c :: m) → InsertPoint w s m →
      InsertPoint w s (0x2F :: 0x2F :: l)
  | block {l m : List UInt8} : BlockBody l m → InsertPoint w s m →
      InsertPoint w s (0x2F :: 0x2A :: l)
  | delim {c : UInt8} {l : List UInt8} : c ∈ jsnDelims → InsertPoint w s l → InsertPoint w s (c :: l)
  | quoted {l str r : List UInt8} : QuotedBody false l str r → InsertPoint w s r →
      InsertPoint w s (0x22 :: l)
  | unquoted {l str r : List UInt8} : TokenStart l → l.head? ≠ some 0x22 →
      (∀ c ∈ l.head?, c ∉ jsnDelims) → Unquoted l str r → s ≠ r → InsertPoint w s r →
      InsertPoint w s l

variable {w s : List UInt8}

/-! ### What stands behind a token does not matter -/

lemma Escape.tail {l u m : List UInt8} (h : Escape l u m) :
    ∃ x, l = x ++ m ∧ ∀ m', Escape (x ++ m') u m' := by
  cases h with
  | @byte c _ hc => exact ⟨[c], rfl, fun m' => .byte m' hc⟩
  | unicode hl hcp hrange => exact ⟨_, rfl, fun m' => .unicode hl hcp hrange⟩
  | pair hl hcp hhigh hm hlo hlow => exact ⟨_, rfl, fun m' => .pair hl hcp hhigh hm hlo hlow⟩

lemma Scan.tail {stop : UInt8 → Bool} {l s r : List UInt8} (h : Scan stop l s r) :
    ∃ x, l = x ++ r ∧ ∀ r', Scan stop (x ++ r') s r' := by
  induction h with
  | nil l => exact ⟨[], rfl, fun r' => .nil r'⟩
  | @char c l s r hc hstop _ ih =>
      obtain ⟨x, rfl, hx⟩ := ih
      exact ⟨c :: x, rfl, fun r' => .char hc hstop (hx r')⟩
  | escape he _ ih =>
      obtain ⟨y, rfl, hy⟩ := he.tail
      obtain ⟨x, rfl, hx⟩ := ih
      refine ⟨0x5C :: y ++ x, by simp, fun r' => ?_⟩
      rw [List.append_assoc]
      exact .escape (hy (x ++ r')) (hx r')

lemma QuotedBody.tail {l s r : List UInt8} (h : QuotedBody false l s r) :
    ∃ x, l = x ++ r ∧ ∀ r', QuotedBody false (x ++ r') s r' := by
  cases h with
  | close h =>
      obtain ⟨x, rfl, hx⟩ := h.tail
      refine ⟨x ++ [0x22], by simp, fun r' => ?_⟩
      rw [List.append_assoc]
      exact .close (hx (0x22 :: r'))
  | cut hcut => cases hcut

lemma LineBody.tail {l m : List UInt8} (h : LineBody l m) :
    ∃ x, l = x ++ m ∧ ∀ m', m'.head? = m.head? → LineBody (x ++ m') m' := by
  induction h with
  | stop hstop => exact ⟨[], rfl, fun m' hm' => .stop (by rw [List.nil_append, hm']; exact hstop)⟩
  | @char c l m hc _ ih =>
      obtain ⟨x, rfl, hx⟩ := ih
      exact ⟨c :: x, rfl, fun m' hm' => .char hc (hx m' hm')⟩

lemma BlockBody.tail {l m : List UInt8} (h : BlockBody l m) :
    ∃ x, x ≠ [] ∧ l = x ++ m ∧ ∀ m', BlockBody (x ++ m') m' := by
  induction h with
  | close l => exact ⟨[0x2A, 0x2F], by simp, rfl, fun m' => .close m'⟩
  | @char c l m hc _ ih =>
      obtain ⟨x, hne, rfl, hx⟩ := ih
      obtain ⟨e, y, rfl⟩ := List.exists_cons_of_ne_nil hne
      exact ⟨c :: e :: y, by simp, rfl, fun m' => .char hc (hx m')⟩

/-! ### Inserting -/

lemma Insertion.blank (hw : Insertion w) (r : List UInt8) : Blank (w ++ r) r := by
  cases hw with
  | @line body hbody =>
      have hline : LineBody (body ++ 0x0A :: r) (0x0A :: r) := by
        induction body with
        | nil => exact .stop (by simp; decide)
        | cons c body ih =>
            exact .char (hbody c (by simp)) (ih fun e he => hbody e (by simp [he]))
      have := Blank.line hline (.space (by decide) (.nil r))
      simpa using this
  | block body hbody =>
      obtain ⟨x, -, hx, htail⟩ := hbody.tail
      rw [List.append_nil] at hx
      have := Blank.block (htail r) (.nil r)
      rwa [← hx] at this
  | spaces hw =>
      induction w with
      | nil => exact .nil r
      | cons c w ih =>
          refine .space ?_ (ih fun e he => hw e (by simp [he]))
          rw [hw c (by simp)]
          decide

lemma Inserts.append {l l' : List UInt8} (x : List UInt8) (h : Inserts w s l l') :
    Inserts w s (x ++ l) (x ++ l') := by
  induction x with
  | nil => exact h
  | cons c x ih => exact .cons c ih

lemma Inserts.length_le {l l' : List UInt8} (h : Inserts w s l l') : s.length ≤ l.length := by
  induction h with
  | here => exact le_rfl
  | cons c _ ih => exact ih.trans (by simp)

/-- Behind its first byte an insertion leaves the first byte. -/
lemma Inserts.head {l l' : List UInt8} (h : Inserts w s l l') (hne : s ≠ l) : l'.head? = l.head? := by
  cases h with
  | here => exact absurd rfl hne
  | cons c _ => rfl

/-- There is one place to insert. -/
lemma Inserts.eq_append {p l t : List UInt8} (h : Inserts w s l t) (hl : l = p ++ s) :
    t = p ++ w ++ s := by
  induction p generalizing l t with
  | nil =>
      rw [List.nil_append] at hl
      cases h with
      | here => simp
      | cons c h =>
          have := h.length_le
          rw [← hl, List.length_cons] at this
          omega
  | cons c p ih =>
      cases h with
      | here =>
          have := congrArg List.length hl
          simp only [List.cons_append, List.length_cons, List.length_append] at this
          omega
      | cons e h =>
          obtain ⟨rfl, rfl⟩ := List.cons.inj hl
          rw [ih h rfl]
          rfl

lemma InsertPoint.length_le {l : List UInt8} (h : InsertPoint w s l) : s.length ≤ l.length := by
  induction h with
  | here => exact le_rfl
  | tail _ _ _ _ hscan => exact hscan.length_le
  | space _ _ ih => exact ih.trans (by simp)
  | line hline _ ih =>
      have := hline.length_le
      simp only [List.length_cons] at this ⊢
      omega
  | block hblock _ ih =>
      have := hblock.length_lt
      simp only [List.length_cons]
      omega
  | delim _ _ ih => exact ih.trans (by simp)
  | quoted hq _ ih =>
      have := hq.length_le
      simp only [List.length_cons]
      omega
  | unquoted _ _ _ hu _ _ ih => exact ih.trans hu.1.length_le

/-- A point can be inserted at. -/
lemma InsertPoint.inserts {l : List UInt8} (h : InsertPoint w s l) : ∃ l', Inserts w s l l' := by
  induction h with
  | here => exact ⟨_, .here⟩
  | tail _ _ _ _ hscan =>
      obtain ⟨x, rfl, -⟩ := hscan.tail
      exact ⟨_, .append x .here⟩
  | @space c _ _ _ ih =>
      obtain ⟨l', h⟩ := ih
      exact ⟨_, .cons c h⟩
  | @line c _ _ hline _ ih =>
      obtain ⟨l', h⟩ := ih
      obtain ⟨x, rfl, -⟩ := hline.tail
      exact ⟨_, .cons _ (.cons _ (.append x (.cons c h)))⟩
  | block hblock _ ih =>
      obtain ⟨l', h⟩ := ih
      obtain ⟨x, -, rfl, -⟩ := hblock.tail
      exact ⟨_, .cons _ (.cons _ (.append x h))⟩
  | @delim c _ _ _ ih =>
      obtain ⟨l', h⟩ := ih
      exact ⟨_, .cons c h⟩
  | quoted hq _ ih =>
      obtain ⟨l', h⟩ := ih
      obtain ⟨x, rfl, -⟩ := hq.tail
      exact ⟨_, .cons _ (.append x h)⟩
  | unquoted _ _ _ hu _ _ ih =>
      obtain ⟨l', h⟩ := ih
      obtain ⟨x, rfl, -⟩ := hu.1.tail
      exact ⟨_, .append x h⟩

/-! ### Where a point can be -/

set_option maxRecDepth 8000 in
lemma delim_byte : ∀ c ∈ jsnDelims, strchr jsnSpaces c = false ∧ c ≠ 0x2F ∧ c ≠ 0x22 ∧ c ≠ 0x5C ∧
    strchr jsnDelims c = true := by
  decide

set_option maxRecDepth 8000 in
lemma space_byte : ∀ c ∈ jsnSpaces, c ≠ 0x5C ∧ strchr jsnDelims c = false ∧
    strchr spaces c = true ∧ c ≠ 0 := by
  decide

lemma InsertPoint.of_space {c : UInt8} {l : List UInt8} (hc : strchr jsnSpaces c = true)
    (h : InsertPoint w s (c :: l)) : s = c :: l ∨ InsertPoint w s l := by
  cases h with
  | here => exact .inl rfl
  | tail _ htok => exact absurd (hc.symm.trans htok.1) (by decide)
  | space _ h => exact .inr h
  | line => exact absurd hc (by decide)
  | block => exact absurd hc (by decide)
  | delim _ h => exact .inr h
  | quoted => exact absurd hc (by decide)
  | unquoted htok => exact absurd (hc.symm.trans htok.1) (by decide)

lemma InsertPoint.of_line {l m : List UInt8} (hline : LineBody l m)
    (h : InsertPoint w s (0x2F :: 0x2F :: l)) :
    s = 0x2F :: 0x2F :: l ∨ ∃ c k, m = c :: k ∧ InsertPoint w s k := by
  cases h with
  | here => exact .inl rfl
  | tail _ htok => exact absurd ⟨rfl, .inl rfl⟩ htok.2
  | space hc => exact absurd hc (by decide)
  | line hline' h => exact .inr ⟨_, _, hline.unique hline', h⟩
  | delim hc => exact absurd hc (by decide)
  | unquoted htok => exact absurd ⟨rfl, .inl rfl⟩ htok.2

lemma InsertPoint.of_block {l m : List UInt8} (hblock : BlockBody l m)
    (h : InsertPoint w s (0x2F :: 0x2A :: l)) : s = 0x2F :: 0x2A :: l ∨ InsertPoint w s m := by
  cases h with
  | here => exact .inl rfl
  | tail _ htok => exact absurd ⟨rfl, .inr rfl⟩ htok.2
  | space hc => exact absurd hc (by decide)
  | block hblock' h => exact .inr (hblock.unique hblock' ▸ h)
  | delim hc => exact absurd hc (by decide)
  | unquoted htok => exact absurd ⟨rfl, .inr rfl⟩ htok.2

lemma InsertPoint.of_delim {c : UInt8} {l : List UInt8} (hc : c ∈ jsnDelims)
    (h : InsertPoint w s (c :: l)) : s = c :: l ∨ InsertPoint w s l := by
  obtain ⟨hspace, hslash, hquote, -⟩ := delim_byte c hc
  cases h with
  | here => exact .inl rfl
  | tail _ _ _ hhead => exact absurd hc (hhead c (by simp))
  | space _ h => exact .inr h
  | line => exact absurd rfl hslash
  | block => exact absurd rfl hslash
  | delim _ h => exact .inr h
  | quoted => exact absurd rfl hquote
  | unquoted _ _ hhead => exact absurd hc (hhead c (by simp))

lemma InsertPoint.of_quoted {cut : Bool} {l str r : List UInt8} (hq : QuotedBody cut l str r)
    (h : InsertPoint w s (0x22 :: l)) :
    s = 0x22 :: l ∨ InsertPoint w s r ∧ QuotedBody false l str r := by
  cases h with
  | here => exact .inl rfl
  | tail _ _ hquote => exact absurd rfl hquote
  | space hc => exact absurd hc (by decide)
  | delim hc => exact absurd hc (by decide)
  | @quoted _ str' r' hq' h =>
      refine .inr ?_
      cases hq' with
      | close hscan' =>
          cases hq with
          | close hscan =>
              obtain ⟨rfl, hr⟩ := hscan.unique (by decide) (by simp; decide) hscan'
                (by simp; decide)
              obtain rfl := (List.cons.inj hr).2
              exact ⟨h, .close hscan⟩
          | cut _ hscan =>
              have := (hscan.unique (by decide) (by simp) hscan' (by simp; decide)).2
              cases this
      | cut hcut => cases hcut
  | unquoted _ hquote => exact absurd rfl hquote

/-- The point behind the token, or in the white space at its end. -/
lemma InsertPoint.of_unquoted {l str r : List UInt8} (hl : TokenStart l)
    (hquote : l.head? ≠ some 0x22) (hhead : ∀ c ∈ l.head?, c ∉ jsnDelims)
    (hu : Unquoted l str r) (h : InsertPoint w s l) :
    s = l ∨ (s ≠ r ∧ InsertPoint w s r) ∨
      ((∀ c ∈ w, c = 0x20) ∧ (∀ k, ¬Blank r (0x3A :: k)) ∧ ∃ str' x,
        Scan (strchr jsnDelims) l str' s ∧ s = x ++ r ∧ ∀ c ∈ x, c ∈ jsnSpaces) := by
  cases h with
  | here => exact .inl rfl
  | @tail _ str' x r' hw _ _ _ hscan hs hx hr hcolon =>
      have hscan' : Scan (strchr jsnDelims) l (str' ++ x) r' := by
        rw [hs] at hscan
        exact hscan.trans (scan_plain (fun c hc => ⟨(space_byte c (hx c hc)).1,
          (space_byte c (hx c hc)).2.1⟩) r')
      obtain ⟨-, rfl⟩ := hu.1.unique (by decide) hu.2 hscan' hr
      exact .inr (.inr ⟨hw, hcolon, str', x, hscan, hs, hx⟩)
  | space hc => exact absurd (hc.symm.trans hl.1) (by decide)
  | line => exact absurd ⟨rfl, .inl rfl⟩ hl.2
  | block => exact absurd ⟨rfl, .inr rfl⟩ hl.2
  | delim hc => exact absurd hc (hhead _ (by simp))
  | quoted => exact absurd rfl hquote
  | unquoted _ _ _ hu' hne h =>
      obtain ⟨-, rfl⟩ := hu.1.unique (by decide) hu.2 hu'.1 hu'.2
      exact .inr (.inl ⟨hne, h⟩)

/-! ### Stretches of text -/

/-- A stretch of text from `l` to `r` stays one when `w` is inserted into it, or
behind it. -/
def Survives (w s : List UInt8) (P : List UInt8 → List UInt8 → Prop) (l r : List UInt8) : Prop :=
  InsertPoint w s l → (∃ l', Inserts w s l l' ∧ P l' r) ∨
    InsertPoint w s r ∧ ∀ r', Inserts w s r r' → ∃ l', Inserts w s l l' ∧ P l' r'

/-- A token stays one when `w` is inserted into it or behind it, but not before it. -/
def SurvivesToken (w s : List UInt8) (P : List UInt8 → List UInt8 → Prop) (l r : List UInt8) : Prop :=
  s ≠ l → Survives w s P l r

/-- Two stretches one after the other. -/
def Seq (P Q : List UInt8 → List UInt8 → Prop) (l r : List UInt8) : Prop := ∃ m, P l m ∧ Q m r

lemma Survives.seq {P Q : List UInt8 → List UInt8 → Prop} {l m r : List UInt8}
    (hP : Survives w s P l m) (hQ : Survives w s Q m r) (hmr : Q m r) :
    Survives w s (Seq P Q) l r := by
  intro hl
  rcases hP hl with ⟨l', hins, hlm⟩ | ⟨hm, hback⟩
  · exact .inl ⟨l', hins, m, hlm, hmr⟩
  · rcases hQ hm with ⟨m', hins, hmr'⟩ | ⟨hr, hback'⟩
    · obtain ⟨l', hins', hlm'⟩ := hback m' hins
      exact .inl ⟨l', hins', m', hlm', hmr'⟩
    · refine .inr ⟨hr, fun r' hins => ?_⟩
      obtain ⟨m', hins', hmr'⟩ := hback' r' hins
      obtain ⟨l', hins'', hlm'⟩ := hback m' hins'
      exact ⟨l', hins'', m', hlm', hmr'⟩

lemma Survives.mono {P Q : List UInt8 → List UInt8 → Prop} {l r : List UInt8}
    (h : Survives w s P l r) (hPQ : ∀ a b, P a b → Q a b) : Survives w s Q l r := by
  intro hl
  rcases h hl with ⟨l', hins, hlr⟩ | ⟨hr, hback⟩
  · exact .inl ⟨l', hins, hPQ _ _ hlr⟩
  · refine .inr ⟨hr, fun r' hins => ?_⟩
    obtain ⟨l', hins', hlr'⟩ := hback r' hins
    exact ⟨l', hins', hPQ _ _ hlr'⟩

set_option maxRecDepth 8000 in
lemma lineEnd_space : ∀ c, strchr jsnLineEnds c = true → strchr jsnSpaces c = true := by
  decide

/-- White space and comments before a token. The point before the token belongs to
them. -/
lemma survives_blank (hw : ∀ r, Blank (w ++ r) r) {l m : List UInt8} (h : Blank l m)
    (hm : TokenStart m) (hl : InsertPoint w s l) :
    (∃ l', Inserts w s l l' ∧ Blank l' m) ∨ s ≠ m ∧ InsertPoint w s m ∧
      ∀ m', Inserts w s m m' → ∃ l', Inserts w s l l' ∧ Blank l' m' := by
  induction h with
  | nil l =>
      by_cases hs : s = l
      · subst hs
        exact .inl ⟨_, .here, hw s⟩
      · exact .inr ⟨hs, hl, fun m' hins => ⟨m', hins, .nil m'⟩⟩
  | @space c l m hc hb ih =>
      rcases hl.of_space hc with rfl | hl
      · exact .inl ⟨_, .here, (hw _).trans (.space hc hb)⟩
      · rcases ih hm hl with ⟨l', hins, hb'⟩ | ⟨hne, hp, hback⟩
        · exact .inl ⟨_, .cons c hins, .space hc hb'⟩
        · refine .inr ⟨hne, hp, fun m' hins => ?_⟩
          obtain ⟨l', hins', hb'⟩ := hback m' hins
          exact ⟨_, .cons c hins', .space hc hb'⟩
  | @line l k m hline hb ih =>
      rcases hl.of_line hline with rfl | ⟨c, k, rfl, hk⟩
      · exact .inl ⟨_, .here, (hw _).trans (.line hline hb)⟩
      · have hc := hline.head c (by simp)
        have hspace := lineEnd_space c hc
        have hne : s ≠ c :: k := by
          rintro rfl
          have := hk.length_le
          rw [List.length_cons] at this
          omega
        obtain ⟨x, rfl, hx⟩ := hline.tail
        -- the line end stays, so the comment does
        have hkeep : ∀ k' m', Inserts w s (c :: k) k' → Blank k' m' →
            ∃ l', Inserts w s (0x2F :: 0x2F :: (x ++ c :: k)) l' ∧ Blank l' m' := by
          intro k' m' hins hb'
          exact ⟨_, .cons _ (.cons _ (.append x hins)), .line (hx k' (hins.head hne)) hb'⟩
        rcases ih hm (.space hspace hk) with ⟨k', hins, hb'⟩ | ⟨hne', hp, hback⟩
        · exact .inl (hkeep k' m hins hb')
        · refine .inr ⟨hne', hp, fun m' hins => ?_⟩
          obtain ⟨k', hins', hb'⟩ := hback m' hins
          exact hkeep k' m' hins' hb'
  | @block l k m hblock hb ih =>
      rcases hl.of_block hblock with rfl | hk
      · exact .inl ⟨_, .here, (hw _).trans (.block hblock hb)⟩
      · obtain ⟨x, -, rfl, hx⟩ := hblock.tail
        rcases ih hm hk with ⟨k', hins, hb'⟩ | ⟨hne, hp, hback⟩
        · exact .inl ⟨_, .cons _ (.cons _ (.append x hins)), .block (hx k') hb'⟩
        · refine .inr ⟨hne, hp, fun m' hins => ?_⟩
          obtain ⟨k', hins', hb'⟩ := hback m' hins
          exact ⟨_, .cons _ (.cons _ (.append x hins')), .block (hx k') hb'⟩

/-- White space and comments, and then something. -/
def Blanked (P : List UInt8 → List UInt8 → Prop) : List UInt8 → List UInt8 → Prop := Seq Blank P

/-- A token with the white space and comments before it. -/
lemma SurvivesToken.blanked (hw : ∀ r, Blank (w ++ r) r) {P : List UInt8 → List UInt8 → Prop}
    {l m r : List UInt8} (hb : Blank l m) (hm : TokenStart m) (h : SurvivesToken w s P m r)
    (hmr : P m r) : Survives w s (Blanked P) l r := by
  intro hl
  rcases survives_blank hw hb hm hl with ⟨l', hins, hb'⟩ | ⟨hne, hp, hback⟩
  · exact .inl ⟨l', hins, m, hb', hmr⟩
  · rcases h hne hp with ⟨m', hins, hmr'⟩ | ⟨hr, hback'⟩
    · obtain ⟨l', hins', hb'⟩ := hback m' hins
      exact .inl ⟨l', hins', m', hb', hmr'⟩
    · refine .inr ⟨hr, fun r' hins => ?_⟩
      obtain ⟨m', hins', hmr'⟩ := hback' r' hins
      obtain ⟨l', hins'', hb'⟩ := hback m' hins'
      exact ⟨l', hins'', m', hb', hmr'⟩

/-- A delimiter. -/
lemma survives_delim {c : UInt8} (hc : c ∈ jsnDelims) (r : List UInt8) :
    SurvivesToken w s (fun a b => a = c :: b) (c :: r) r := by
  intro hne hl
  rcases hl.of_delim hc with rfl | hr
  · exact absurd rfl hne
  · exact .inr ⟨hr, fun r' hins => ⟨_, .cons c hins, rfl⟩⟩

/-! ### Tokens -/

lemma jsonParseConst_append {str x : List UInt8} (hx : ∀ c ∈ x, c ∈ jsnSpaces) :
    jsonParseConst cd (str ++ x) = jsonParseConst cd str := by
  have htrim : stringSelfTrim (str ++ x) = stringSelfTrim str :=
    stringSelfTrim_append fun c hc => (space_byte c (hx c hc)).2.2
  rw [jsonParseConst, jsonParseConst, htrim]

/-- The first byte of a token, with another text behind it. -/
lemma TokenStart.congr {c : UInt8} {l l' : List UInt8} (h : TokenStart (c :: l))
    (hl : l'.head? = l.head? ∨ l'.head? = some 0x20) : TokenStart (c :: l') := by
  refine ⟨h.1, fun hslash => h.2 ⟨hslash.1, ?_⟩⟩
  rcases hl with hl | hl
  · rw [← hl]
    exact hslash.2
  · rw [hl] at hslash
    exact absurd hslash.2 (by decide)

/-- An unquoted token that does not begin with a delimiter is not empty. -/
lemma Unquoted.length_lt {l str r : List UInt8} (hu : Unquoted l str r) (hl : TokenStart l)
    (hhead : ∀ c ∈ l.head?, c ∉ jsnDelims) : r.length < l.length := by
  obtain ⟨hscan, hstop⟩ := hu
  cases hscan with
  | nil =>
      obtain ⟨c, k, rfl⟩ := List.exists_cons_of_ne_nil hl.ne_nil
      have hc : strchr jsnDelims c = true := hstop c (by simp)
      have hzero : c ≠ 0 := by
        rintro rfl
        exact absurd hl.1 (by decide)
      have hmem : c ∈ jsnDelims := by simpa [strchr, hzero] using hc
      exact absurd hmem (hhead c (by simp))
  | char _ _ h =>
      have := h.length_le
      rw [List.length_cons]
      omega
  | escape he h =>
      have := he.length_lt
      have := h.length_le
      rw [List.length_cons]
      omega

/-- An unquoted token with something inserted behind the delimiter that ends it. -/
lemma unquoted_back {l str r : List UInt8} (hl : TokenStart l) (hu : Unquoted l str r)
    (hlt : r.length < l.length) (hne : s ≠ r) {r' : List UInt8} (hins : Inserts w s r r') :
    ∃ l', Inserts w s l l' ∧ TokenStart l' ∧ l'.head? = l.head? ∧ Unquoted l' str r' := by
  obtain ⟨hscan, hstop⟩ := hu
  obtain ⟨x, rfl, hx⟩ := hscan.tail
  have hhead := hins.head hne
  cases x with
  | nil =>
      rw [List.nil_append] at hlt
      omega
  | cons c x =>
      refine ⟨_, .append _ hins, ?_, rfl, hx r', by rwa [Stop, hhead]⟩
      refine TokenStart.congr (l := x ++ r) hl (.inl ?_)
      cases x with
      | nil => exact hhead
      | cons => rfl

/-- An unquoted token with spaces inserted at its end. -/
lemma unquoted_spaces {l str x r : List UInt8} (hw : ∀ c ∈ w, c = 0x20) (hl : TokenStart l)
    (hne : s ≠ l) (hscan : Scan (strchr jsnDelims) l str s) (hs : s = x ++ r)
    (hx : ∀ c ∈ x, c ∈ jsnSpaces) (hr : Stop r) :
    ∃ l', Inserts w s l l' ∧ TokenStart l' ∧ l'.head? = l.head? ∧
      Unquoted l' (str ++ (w ++ x)) r := by
  obtain ⟨y, rfl, hy⟩ := hscan.tail
  have hwx : ∀ c ∈ w ++ x, c ∈ jsnSpaces := by
    intro c hc
    rcases List.mem_append.mp hc with hc | hc
    · rw [hw c hc]
      decide
    · exact hx c hc
  cases y with
  | nil => exact absurd rfl hne
  | cons c y =>
      refine ⟨c :: y ++ (w ++ s), .append _ .here, ?_, rfl, ?_, hr⟩
      · refine TokenStart.congr (l := y ++ s) hl ?_
        cases y with
        | cons => exact .inl rfl
        | nil =>
            cases w with
            | nil => exact .inl rfl
            | cons e w => exact .inr (congrArg some (hw e (by simp)))
      · have hplain : Scan (strchr jsnDelims) (w ++ x ++ r) (w ++ x) r := scan_plain
          (fun c hc => ⟨(space_byte c (hwx c hc)).1, (space_byte c (hwx c hc)).2.1⟩) r
        have hwhole := hy (w ++ x ++ r)
        rw [hs, ← List.append_assoc w]
        exact hwhole.trans hplain

/-- The name of a member, its colon behind it. -/
lemma survives_name {l str n o : List UInt8} (h : NameToken true l str n)
    (hcolon : Blank n (0x3A :: o)) :
    SurvivesToken w s (fun a b => NameToken true a str b) l n := by
  intro hne hpt
  cases h with
  | quoted hq =>
      rcases hpt.of_quoted hq with rfl | ⟨hn, hq⟩
      · exact absurd rfl hne
      · obtain ⟨x, rfl, hx⟩ := hq.tail
        exact .inr ⟨hn, fun r' hins => ⟨_, .cons _ (.append x hins), .quoted ((hx r').mono true)⟩⟩
  | unquoted hl hquote hu =>
      by_cases hhead : ∀ c ∈ l.head?, c ∉ jsnDelims
      · rcases hpt.of_unquoted hl hquote hhead hu with rfl | ⟨hne', hn⟩ | ⟨-, hno, -⟩
        · exact absurd rfl hne
        · refine .inr ⟨hn, fun r' hins => ?_⟩
          obtain ⟨l', hins', hl', hhead', hu'⟩ :=
            unquoted_back hl hu (hu.length_lt hl hhead) hne' hins
          exact ⟨l', hins', .unquoted hl' (by rwa [hhead']) hu'⟩
        · exact absurd hcolon (hno o)
      · -- an empty name
        push Not at hhead
        obtain ⟨c, hc, hdelim⟩ := hhead
        obtain ⟨k, rfl⟩ := List.head?_eq_some_iff.mp hc
        obtain ⟨hspace, hslash, hbyte, -, hstop⟩ := delim_byte c hdelim
        obtain ⟨rfl, rfl⟩ := hu.of_delim hstop
        refine .inr ⟨hpt, fun r' hins => ⟨r', hins, ?_⟩⟩
        have hhead := hins.head hne
        obtain ⟨k', rfl⟩ := List.head?_eq_some_iff.mp hhead
        exact .unquoted (tokenStart_cons hspace hslash k') (by simpa using hbyte)
          ⟨.nil _, by simpa [Stop] using hstop⟩

/-- An unquoted value. -/
lemma survives_literal {d : ℕ} {l str r : List UInt8} {v : Json} (hd : d < 512)
    (hl : TokenStart l) (hquote : l.head? ≠ some 0x22) (ho : l.head? ≠ some 0x7B)
    (ha : l.head? ≠ some 0x5B) (hu : Unquoted l str r) (hconst : jsonParseConst cd str = some v) :
    SurvivesToken w s (fun a b => Derives cd true (.value d a v b)) l r := by
  intro hne hpt
  have hhead : ∀ c ∈ l.head?, c ∉ jsnDelims := by
    intro c hc hdelim
    obtain ⟨k, rfl⟩ := List.head?_eq_some_iff.mp hc
    obtain ⟨rfl, -⟩ := hu.of_delim (delim_byte c hdelim).2.2.2.2
    rw [jsonParseConst_nil] at hconst
    cases hconst
  have hkeep : ∀ l' str' r', TokenStart l' → l'.head? = l.head? → Unquoted l' str' r' →
      jsonParseConst cd str' = some v → Derives cd true (.value d l' v r') :=
    fun l' str' r' hl' hhead' hu' hconst' => .literal hd hl' (by rwa [hhead']) (by rwa [hhead'])
      (by rwa [hhead']) hu' hconst'
  rcases hpt.of_unquoted hl hquote hhead hu with rfl | ⟨hne', hr⟩ | ⟨hw, -, str', x, hscan, hs, hx⟩
  · exact absurd rfl hne
  · refine .inr ⟨hr, fun r' hins => ?_⟩
    obtain ⟨l', hins', hl', hhead', hu'⟩ := unquoted_back hl hu (hu.length_lt hl hhead) hne' hins
    exact ⟨l', hins', hkeep l' str r' hl' hhead' hu' hconst⟩
  · obtain ⟨l', hins, hl', hhead', hu'⟩ := unquoted_spaces hw hl hne hscan hs hx hu.2
    have hscan' : Scan (strchr jsnDelims) l (str' ++ x) r := by
      rw [hs] at hscan
      exact hscan.trans (scan_plain (fun c hc => ⟨(space_byte c (hx c hc)).1,
        (space_byte c (hx c hc)).2.1⟩) r)
    obtain ⟨rfl, -⟩ := hu.1.unique (by decide) hu.2 hscan' hu.2
    refine .inl ⟨l', hins, hkeep l' _ r hl' hhead' hu' ?_⟩
    rw [jsonParseConst_append hx] at hconst
    rw [jsonParseConst_append, hconst]
    intro c hc
    rcases List.mem_append.mp hc with hc | hc
    · rw [hw c hc]
      decide
    · exact hx c hc

/-! ### Values -/

/-- What the grammar reads survives an insertion. -/
def JudgmentSurvives (cd : CDouble) (w s : List UInt8) : JsonJudgment → Prop
  | .value d l v r => SurvivesToken w s (fun a b => Derives cd true (.value d a v b)) l r
  | .members d l es es' r => Survives w s (fun a b => Derives cd true (.members d a es es' b)) l r
  | .items d l xs xs' r => Survives w s (fun a b => Derives cd true (.items d a xs xs' b)) l r

/-- A token byte in front of a stretch. -/
lemma Survives.cons {P Q : List UInt8 → List UInt8 → Prop} {c : UInt8} (hc : c ∈ jsnDelims)
    {l r : List UInt8} (h : Survives w s P l r) (hPQ : ∀ a b, P a b → Q (c :: a) b) :
    SurvivesToken w s Q (c :: l) r := by
  intro hne hpt
  rcases hpt.of_delim hc with rfl | hl
  · exact absurd rfl hne
  · rcases h hl with ⟨l', hins, hlr⟩ | ⟨hr, hback⟩
    · exact .inl ⟨_, .cons c hins, hPQ _ _ hlr⟩
    · refine .inr ⟨hr, fun r' hins => ?_⟩
      obtain ⟨l', hins', hlr'⟩ := hback r' hins
      exact ⟨_, .cons c hins', hPQ _ _ hlr'⟩

/-- White space, comments and a delimiter. -/
lemma survives_blank_delim (hw : ∀ r, Blank (w ++ r) r) {c : UInt8} (hc : c ∈ jsnDelims)
    {l r : List UInt8} (hb : Blank l (c :: r)) :
    Survives w s (Blanked fun a b => a = c :: b) l r := by
  obtain ⟨hspace, hslash, -⟩ := delim_byte c hc
  exact (survives_delim hc r).blanked hw hb (tokenStart_cons hspace hslash r) rfl

/-- The name, the colon and the value of a member, and what comes after it. -/
lemma survives_member (hw : ∀ r, Blank (w ++ r) r) {d : ℕ} {l m str n o p q r : List UInt8}
    {v : Json} (hb : Blank l m) (hname : NameToken true m str n) (hcolon : Blank n (0x3A :: o))
    (hp : Blank o p) (hv : Derives cd true (.value d p v q))
    (ih : SurvivesToken w s (fun a b => Derives cd true (.value d a v b)) p q)
    {Q : List UInt8 → List UInt8 → Prop} (hQ : Survives w s Q q r) (hqr : Q q r) :
    Survives w s (Seq (Blanked fun a b => NameToken true a str b)
      (Seq (Blanked fun a b => a = 0x3A :: b)
        (Seq (Blanked fun a b => Derives cd true (.value d a v b)) Q))) l r := by
  have hvalue := (ih.blanked hw hp hv.value_head.1 hv).seq hQ hqr
  have hrest := (survives_blank_delim hw (by decide) hcolon).seq hvalue ⟨q, ⟨p, hp, hv⟩, hqr⟩
  exact ((survives_name hname hcolon).blanked hw hb hname.tokenStart hname).seq hrest
    ⟨o, ⟨_, hcolon, rfl⟩, q, ⟨p, hp, hv⟩, hqr⟩

/-- **Insertion.** Values, members and items survive the insertion of white space and
comments. -/
theorem Derives.survives (hw : ∀ r, Blank (w ++ r) r) (hs : s ≠ []) {j : JsonJudgment}
    (h : Derives cd true j) : JudgmentSurvives cd w s j := by
  induction h with
  | @string d l str r hd hq =>
      intro hne hpt
      rcases hpt.of_quoted hq with rfl | ⟨hr, hq⟩
      · exact absurd rfl hne
      · obtain ⟨x, rfl, hx⟩ := hq.tail
        exact .inr ⟨hr, fun r' hins =>
          ⟨_, .cons _ (.append x hins), .string hd ((hx r').mono true)⟩⟩
  | literal hd hl hq ho ha hu hconst => exact survives_literal hd hl hq ho ha hu hconst
  | object hd _ ih =>
      simp only [JudgmentSurvives] at ih ⊢
      exact ih.cons (by decide) fun a b h => .object hd h
  | array hd _ ih =>
      simp only [JudgmentSurvives] at ih ⊢
      exact ih.cons (by decide) fun a b h => .array hd h
  | membersCut | itemsCut =>
      intro hpt
      exact absurd (List.length_eq_zero_iff.mp (Nat.le_zero.mp hpt.length_le)) hs
  | membersClose hb =>
      simp only [JudgmentSurvives]
      refine (survives_blank_delim hw (by decide) hb).mono fun a b h => ?_
      obtain ⟨m, hb', rfl⟩ := h
      exact .membersClose hb'
  | membersLast hb hname hcolon hp hv hclose ih =>
      simp only [JudgmentSurvives] at ih ⊢
      refine (survives_member hw hb hname hcolon hp hv ih
        (survives_blank_delim hw (by decide) hclose) ⟨_, hclose, rfl⟩).mono fun a b h => ?_
      obtain ⟨n, ⟨m, hb, hname⟩, o, ⟨o', hcolon, rfl⟩, q, ⟨p, hp, hv⟩, k, hclose, rfl⟩ := h
      exact .membersLast hb hname hcolon hp hv hclose
  | membersMore hb hname hcolon hp hv hcomma hmore ihv ih =>
      simp only [JudgmentSurvives] at ihv ih ⊢
      have hnext := (survives_blank_delim hw (by decide) hcomma).seq ih hmore
      refine (survives_member hw hb hname hcolon hp hv ihv hnext
        ⟨_, ⟨_, hcomma, rfl⟩, hmore⟩).mono fun a b h => ?_
      obtain ⟨n, ⟨m, hb, hname⟩, o, ⟨o', hcolon, rfl⟩, q, ⟨p, hp, hv⟩, k, ⟨k', hcomma, rfl⟩, hmore⟩ :=
        h
      exact .membersMore hb hname hcolon hp hv hcomma hmore
  | itemsClose hb =>
      simp only [JudgmentSurvives]
      refine (survives_blank_delim hw (by decide) hb).mono fun a b h => ?_
      obtain ⟨m, hb', rfl⟩ := h
      exact .itemsClose hb'
  | itemsLast hp hv hclose ih =>
      simp only [JudgmentSurvives] at ih ⊢
      refine ((ih.blanked hw hp hv.value_head.1 hv).seq
        (survives_blank_delim hw (by decide) hclose) ⟨_, hclose, rfl⟩).mono fun a b h => ?_
      obtain ⟨q, ⟨p, hp, hv⟩, k, hclose, rfl⟩ := h
      exact .itemsLast hp hv hclose
  | itemsMore hp hv hcomma hmore ihv ih =>
      simp only [JudgmentSurvives] at ihv ih ⊢
      have hnext := (survives_blank_delim hw (by decide) hcomma).seq ih hmore
      refine ((ihv.blanked hw hp hv.value_head.1 hv).seq hnext ⟨_, ⟨_, hcomma, rfl⟩, hmore⟩).mono
        fun a b h => ?_
      obtain ⟨q, ⟨p, hp, hv⟩, k, ⟨k', hcomma, rfl⟩, hmore⟩ := h
      exact .itemsMore hp hv hcomma hmore

end LibCmutils
