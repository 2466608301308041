import LibCmutils.Logger.DatePattern
import Mathlib.Data.Nat.Digits.Lemmas

/-!
The characters of a log pattern in the lines that are made with it (`src/logger.c`).

* `PatternPiece`, `PatternReads`: what a pattern says, character by character. A conversion
  reaches as far as the code reads it; `PatternReads.unique`.
* `pieceText`: what every piece stands for. A character is itself, a date format is
  `dateText`, and another conversion prints what its item prints.
* `LiteralsReproduced`: every line is what the pieces stand for, one behind the other.
* `exists_patternReads`: the items of an accepted pattern come from its pieces, but for the
  characters behind the last conversion, which have none.
* `LiteralsKept`, `literalsReproduced_iff`: the exact condition.

That the milliseconds are printed in the right places follows from two lines of the same
second, with 111 and 222 of them; everything else follows from the lengths.
-/

namespace LibCmutils

/-! ### Pieces of a pattern -/

/-- What a pattern is made of: a character, a pair of percent signs, a conversion. -/
inductive PatternPiece where
  | char (c : UInt8)
  | percent
  | conversion (spec : LogPatternSpec)
  deriving DecidableEq

/-- The pieces of a pattern. -/
inductive PatternReads : List UInt8 → List PatternPiece → Prop
  | nil : PatternReads [] []
  | char {c : UInt8} {p : List UInt8} {pieces : List PatternPiece} :
      c ≠ 0x25 → PatternReads p pieces → PatternReads (c :: p) (.char c :: pieces)
  | percent {p : List UInt8} {pieces : List PatternPiece} :
      PatternReads p pieces → PatternReads (0x25 :: 0x25 :: p) (.percent :: pieces)
  | conversion {p q : List UInt8} {spec : LogPatternSpec} {pieces : List PatternPiece} :
      p.head? ≠ some 0x25 → logPatternSpec p = .ok (spec, q) → PatternReads q pieces →
      PatternReads (0x25 :: p) (.conversion spec :: pieces)

/-- The date format of a conversion. -/
def LogPatternSpec.dateFormat (spec : LogPatternSpec) : Option (List UInt8) :=
  if spec.type = .dateTime then logDateFormatOf spec.ext else none

/-- The date format of a piece. -/
def PatternPiece.dateFormat : PatternPiece → Option (List UInt8)
  | .conversion spec => spec.dateFormat
  | _ => none

/-- What the items of a piece print. -/
def pieceLine (conv : List UInt8 → Tm → List UInt8) (env : LogEnvironment)
    (param : LogPatternAppendFuncParam) : PatternPiece → Except LogPatternError (List UInt8)
  | .char c => .ok [c]
  | .percent => .ok [0x25]
  | .conversion spec => logPatternItems env spec >>= logAppenderLine conv param

/-- What a piece stands for. -/
def pieceText (conv : List UInt8 → Tm → List UInt8) (env : LogEnvironment)
    (param : LogPatternAppendFuncParam) (piece : PatternPiece) :
    Except LogPatternError (List UInt8) :=
  match piece.dateFormat with
  | some fmt => .ok (dateText conv fmt param.logtm (logMillisText param.millis))
  | none => pieceLine conv env param piece

/-- Every message gets a line, which is what the pieces of the pattern stand for. -/
def LiteralsReproduced (conv : List UInt8 → Tm → List UInt8) (env : LogEnvironment)
    (items : List LogAppenderFormatItem) (pieces : List PatternPiece) : Prop :=
  ∀ param, ∃ line, logAppenderLine conv param items = .ok line ∧
    concatTexts (pieces.map (pieceText conv env param)) = .ok line

/-- A line number fits in its buffer: with leading zeros it is narrower than 20. -/
def LineNumberFits (spec : LogPatternSpec) : Prop :=
  spec.zero = true → (toInt spec.length).natAbs < 20

/-- The condition on a pattern: it does not end in an ordinary character, its line numbers
fit in their buffers, and its date formats are kept. -/
def LiteralsKept (conv : List UInt8 → Tm → List UInt8) (pieces : List PatternPiece) : Prop :=
  (∀ c, pieces.getLast? ≠ some (.char c)) ∧
    ∀ spec, .conversion spec ∈ pieces →
      (spec.type = .lineNumber → LineNumberFits spec) ∧
        ∀ fmt, spec.dateFormat = some fmt → DateKept conv fmt

/-- A pattern has only one reading. -/
lemma PatternReads.unique {p : List UInt8} {ps qs : List PatternPiece}
    (hps : PatternReads p ps) : PatternReads p qs → ps = qs := by
  induction hps generalizing qs with
  | nil =>
      intro hqs
      cases hqs
      rfl
  | char hc _ ih =>
      intro hqs
      cases hqs with
      | char _ hrest => rw [ih hrest]
      | percent _ => exact absurd rfl hc
      | conversion _ _ _ => exact absurd rfl hc
  | percent _ ih =>
      intro hqs
      cases hqs with
      | char hc _ => exact absurd rfl hc
      | percent hrest => rw [ih hrest]
      | conversion hhead _ _ => exact absurd rfl hhead
  | conversion hhead hspec _ ih =>
      intro hqs
      cases hqs with
      | char hc _ => exact absurd rfl hc
      | percent _ => exact absurd rfl hhead
      | conversion _ hspec' hrest =>
          rw [hspec, Except.ok.injEq, Prod.mk.injEq] at hspec'
          obtain ⟨rfl, rfl⟩ := hspec'
          rw [ih hrest]

lemma PatternReads.chars {s p : List UInt8} {pieces : List PatternPiece}
    (hs : (0x25 : UInt8) ∉ s) (h : PatternReads p pieces) :
    PatternReads (s ++ p) (s.map .char ++ pieces) := by
  induction s with
  | nil => exact h
  | cons c s ih =>
      exact .char (fun hc => hs (by rw [hc]; exact List.mem_cons_self))
        (ih fun hmem => hs (List.mem_cons_of_mem c hmem))

/-! ### Items and pieces -/

/-- What the loop of the parser has made of a text: the items of its pieces, up to the last
piece that is not a character. -/
def ItemsOfPieces (env : LogEnvironment) (p : List UInt8) (items : List LogAppenderFormatItem)
    (pieces : List PatternPiece) (tail : List UInt8) : Prop :=
  PatternReads p (pieces ++ tail.map .char) ∧
    (∀ c, pieces.getLast? ≠ some (.char c)) ∧
    (∀ spec, .conversion spec ∈ pieces → ∃ is, logPatternItems env spec = .ok is) ∧
    ∀ conv param, logAppenderLine conv param items
      = concatTexts (pieces.map (pieceLine conv env param))

lemma concatTexts_chars (conv : List UInt8 → Tm → List UInt8) (env : LogEnvironment)
    (param : LogPatternAppendFuncParam) (s : List UInt8) :
    concatTexts ((s.map .char).map (pieceLine conv env param)) = .ok s := by
  induction s with
  | nil => rfl
  | cons c s ih =>
      rw [List.map_cons, List.map_cons, concatTexts, ih]
      rfl

/-- The text before a percent sign and its item. -/
lemma logAppenderLine_former (conv : List UInt8 → Tm → List UInt8)
    (param : LogPatternAppendFuncParam) (s : List UInt8) :
    logAppenderLine conv param (if s = [] then [] else [logAppenderItemString s]) = .ok s := by
  split_ifs with hs
  · rw [hs]
    rfl
  · rw [logAppenderLine_singleton, logPatternAppend_string]

/-- Characters and one more piece in front of pieces. -/
lemma ItemsOfPieces.cons {env : LogEnvironment} {s q tail : List UInt8} {p : List UInt8}
    {piece : PatternPiece} {items rest : List LogAppenderFormatItem} {pieces : List PatternPiece}
    (h : ItemsOfPieces env q rest pieces tail) (hs : (0x25 : UInt8) ∉ s)
    (hreads : ∀ ps, PatternReads q ps → PatternReads p (piece :: ps))
    (hpiece : ∀ c, piece ≠ .char c)
    (hitems : ∀ spec, piece = .conversion spec → ∃ is, logPatternItems env spec = .ok is)
    (hline : ∀ conv param, logAppenderLine conv param items = pieceLine conv env param piece) :
    ItemsOfPieces env (s ++ p)
      ((if s = [] then [] else [logAppenderItemString s]) ++ (items ++ rest))
      (s.map .char ++ piece :: pieces) tail := by
  obtain ⟨hrest, hlast, hmem, hrestline⟩ := h
  refine ⟨?_, ?_, ?_, ?_⟩
  · rw [List.append_assoc]
    exact PatternReads.chars hs (hreads _ hrest)
  · intro c
    rw [List.getLast?_append_of_ne_nil _ (by simp)]
    cases pieces with
    | nil => simpa using hpiece c
    | cons piece' pieces =>
        rw [List.getLast?_cons_cons]
        exact hlast c
  · intro spec hspec
    rcases List.mem_append.mp hspec with hchar | hspec
    · simp at hchar
    · rcases List.mem_cons.mp hspec with heq | hspec
      · exact hitems spec heq.symm
      · exact hmem spec hspec
  · intro conv param
    rw [logAppenderLine_append, logAppenderLine_append, logAppenderLine_former,
      hline conv param, hrestline conv param, List.map_append, concatTexts_append,
      concatTexts_chars]
    rfl

lemma logPatternLoop_reads (env : LogEnvironment) : ∀ {fuel : ℕ} {p : List UInt8}
    {items : List LogAppenderFormatItem}, (0 : UInt8) ∉ p →
    logPatternLoop env fuel p = .ok items → ∃ pieces tail, ItemsOfPieces env p items pieces tail
  | 0, _, _, _, h => absurd h (by simp [logPatternLoop])
  | fuel + 1, p, items, h0, h => by
      rw [logPatternLoop] at h
      cases hs : strchrSplit 0x25 p with
      | none =>
          rw [hs] at h
          simp only [Except.ok.injEq] at h
          have hp := PatternReads.chars (notMem_of_strchrSplit h0 hs) .nil
          rw [List.append_nil, List.append_nil] at hp
          refine ⟨[], p, hp, by simp, by simp, fun conv param => ?_⟩
          rw [← h]
          rfl
      | some r =>
          obtain ⟨s, q⟩ := r
          have hp := strchrSplit_eq hs
          have hns := strchrSplit_notMem hs
          rw [hs] at h
          simp only at h
          have h0q : (0 : UInt8) ∉ q := fun hq => h0 (by rw [hp]; simp [hq])
          by_cases hq : q.head? = some 0x25
          · rw [if_pos hq] at h
            cases hrest : logPatternLoop env fuel q.tail with
            | error e =>
                rw [hrest] at h
                exact absurd h (by simp [Except.map])
            | ok rest =>
                rw [hrest] at h
                simp only [Except.map, Except.ok.injEq] at h
                obtain ⟨pieces, tail, hpieces⟩ := logPatternLoop_reads env
                  (fun hmem => h0q (List.mem_of_mem_tail hmem)) hrest
                refine ⟨s.map .char ++ .percent :: pieces, tail, ?_⟩
                rw [hp, ← h]
                change ItemsOfPieces env _
                  (_ ++ ([logAppenderItemString [0x25]] ++ rest)) _ _
                refine hpieces.cons hns ?_ (by simp) (by simp) fun conv param => ?_
                · intro ps hps
                  cases q with
                  | nil => exact absurd hq (by simp)
                  | cons c q =>
                      rw [List.head?_cons, Option.some.injEq] at hq
                      rw [hq]
                      exact .percent hps
                · rw [logAppenderLine_singleton, logPatternAppend_string]
                  rfl
          · rw [if_neg hq] at h
            cases hspec : logPatternSpec q with
            | error e =>
                rw [hspec] at h
                exact absurd h (by simp [bind, Except.bind])
            | ok r =>
                obtain ⟨spec, q'⟩ := r
                cases hitems : logPatternItems env spec with
                | error e =>
                    simp [bind, Except.bind, hspec, hitems] at h
                | ok is =>
                    cases hrest : logPatternLoop env fuel q' with
                    | error e => simp [bind, Except.bind, hspec, hitems, hrest] at h
                    | ok rest =>
                        simp only [bind, Except.bind, hspec, hitems, hrest,
                          Except.ok.injEq] at h
                        have hsub := (logPatternSpec_suffix hspec).subset
                        obtain ⟨pieces, tail, hpieces⟩ := logPatternLoop_reads env
                          (fun hmem => h0q (hsub hmem)) hrest
                        refine ⟨s.map .char ++ .conversion spec :: pieces, tail, ?_⟩
                        rw [hp, ← h]
                        refine hpieces.cons hns (fun ps hps => .conversion hq hspec hps) (by simp)
                          ?_ fun conv param => ?_
                        · intro spec' heq
                          rw [PatternPiece.conversion.injEq] at heq
                          exact ⟨is, by rw [← heq]; exact hitems⟩
                        · simp [pieceLine, hitems, bind, Except.bind]

/-- The items of an accepted pattern come from its pieces. -/
lemma exists_patternReads {env : LogEnvironment} {pattern : CString}
    {items : List LogAppenderFormatItem} (h : logPatternParse env pattern = .ok items) :
    ∃ pieces tail, ItemsOfPieces env pattern.1 items pieces tail :=
  logPatternLoop_reads env pattern.2 h

/-! ### Line numbers -/

lemma printInt_length {n : ℤ} (hn : -2 ^ 31 ≤ n ∧ n < 2 ^ 31) : (printInt n).length ≤ 11 := by
  have hlen : (decimal n.natAbs).length ≤ 10 := (length_decimal_le_iff (by norm_num)).mpr (by omega)
  rw [printInt]
  split_ifs
  · rw [List.length_cons]
    omega
  · omega

lemma printfField_spec (left : Bool) (width : ℤ) (text : List UInt8)
    (hwidth : width.natAbs < 2 ^ 31) :
    ∃ buf, printfField left width text = some buf ∧
      buf.length = max width.natAbs text.length := by
  simp only [printfField, if_neg (not_le.mpr hwidth)]
  split_ifs
  · refine ⟨_, rfl, ?_⟩
    rw [List.length_append, List.length_replicate]
    omega
  · refine ⟨_, rfl, ?_⟩
    rw [List.length_append, List.length_replicate]
    omega

/-- A width is reached, unless it is too large to be read. -/
lemma printfZero_spec (width n : ℤ) (hwidth : width.natAbs < 2 ^ 31) :
    ∃ buf, printfZero width n = some buf ∧ buf.length = max width.natAbs (printInt n).length := by
  by_cases hw : width < 0
  · obtain ⟨buf, hbuf, hlen⟩ := printfField_spec true width (printInt n) hwidth
    exact ⟨buf, by rw [printfZero, if_pos hw, hbuf], hlen⟩
  · simp only [printfZero, if_neg hw, if_neg (not_le.mpr hwidth)]
    refine ⟨_, rfl, ?_⟩
    by_cases hn : n < 0
    · rw [printInt, if_pos hn, if_pos hn]
      simp only [List.length_append, List.length_replicate, List.length_cons, List.length_nil]
      omega
    · rw [printInt, if_neg hn, if_neg hn]
      simp only [List.length_append, List.length_replicate, List.length_nil]
      omega

lemma printfZero_eq_none {width : ℤ} (n : ℤ) (hwidth : 2 ^ 31 ≤ width.natAbs) :
    printfZero width n = none := by
  simp only [printfZero, printfField, if_pos hwidth, ite_self]

/-- `%L` stays in its buffer for every line number exactly when its width does. -/
lemma logLineNumberText_ok_iff (item : LogAppenderFormatItem) :
    (∀ n : ℤ, -2 ^ 31 ≤ n ∧ n < 2 ^ 31 → ∃ t, logLineNumberText item n = .ok t) ↔
      (item.zero = true → (toInt item.length).natAbs < 20) := by
  constructor
  · intro h hzero
    obtain ⟨t, ht⟩ := h 0 (by norm_num)
    by_contra hwide
    by_cases hlarge : 2 ^ 31 ≤ (toInt item.length).natAbs
    · rw [logLineNumberText, if_pos hzero, printfZero_eq_none 0 hlarge] at ht
      exact absurd ht (by simp)
    · obtain ⟨buf, hbuf, hlen⟩ := printfZero_spec _ 0 (not_le.mp hlarge)
      rw [logLineNumberText, if_pos hzero, hbuf] at ht
      simp only at ht
      rw [if_neg (by omega)] at ht
      exact absurd ht (by simp)
  · intro h n hn
    have hprint := printInt_length hn
    by_cases hzero : item.zero = true
    · have hwidth := h hzero
      obtain ⟨buf, hbuf, hlen⟩ := printfZero_spec (toInt item.length) n (by omega)
      exact ⟨buf, by rw [logLineNumberText, if_pos hzero, hbuf]; exact if_pos (by omega)⟩
    · exact ⟨printInt n, by rw [logLineNumberText, if_neg hzero]; exact if_pos (by omega)⟩

/-! ### Pieces one by one -/

section Pieces

variable (conv : List UInt8 → Tm → List UInt8) {env : LogEnvironment}
  (param : LogPatternAppendFuncParam)

/-- Items other than line numbers print something for every message. -/
lemma logPatternAppend_ok {item : LogAppenderFormatItem} (h : item.type ≠ .lineNumber) :
    ∃ t, logPatternAppend conv param item = .ok t := by
  rw [logPatternAppend]
  split
  case h_7 htype => exact absurd htype h
  all_goals exact ⟨_, rfl⟩

/-- What the type of a conversion says about the type of its items. -/
def ItemTypeSuits (type : LogFormatType) (itemType : LogFormatItemType) : Prop :=
  itemType ≠ .millisec ∧ (itemType = .lineNumber → type = .lineNumber) ∧
    (itemType = .stack ↔ type = .stack)

/-- Apart from dates, the items of a conversion take its numbers. -/
lemma logPatternItems_item {spec : LogPatternSpec} {items : List LogAppenderFormatItem}
    (h : logPatternItems env spec = .ok items) (hdate : spec.type ≠ .dateTime) :
    ∀ item ∈ items, ∃ base, item = spec.item base ∧ ItemTypeSuits spec.type base.type := by
  have hone : ∀ base, Except.ok [spec.item base] = Except.ok (ε := LogPatternError) items →
      ItemTypeSuits spec.type base.type →
      ∀ item ∈ items, ∃ base, item = spec.item base ∧ ItemTypeSuits spec.type base.type := by
    intro base heq hsuits item hitem
    rw [Except.ok.injEq] at heq
    rw [← heq, List.mem_singleton] at hitem
    exact ⟨base, hitem, hsuits⟩
  rw [logPatternItems] at h
  cases htype : spec.type with
  | dateTime => exact absurd htype hdate
  | loggerName =>
      rw [htype] at h hone
      refine hone _ h ?_
      cases spec.ext <;> simp [ItemTypeSuits, logAppenderItemCreate, logLoggerNameItem]
  | logLevel =>
      rw [htype] at h hone
      cases hext : spec.ext with
      | none =>
          rw [hext] at h
          exact hone _ h (by simp [ItemTypeSuits, logAppenderItemCreate])
      | some buf =>
          rw [hext] at h
          cases hmap : logPatternLogLevelParse buf with
          | error e => simp [hmap, Except.map] at h
          | ok map =>
              simp only [hmap, Except.map] at h
              exact hone _ h (by simp [ItemTypeSuits, logAppenderItemCreate])
  | environment =>
      rw [htype] at h hone
      cases hext : spec.ext with
      | none =>
          rw [hext] at h
          simp only [Except.ok.injEq] at h
          subst h
          simp
      | some buf =>
          rw [hext] at h
          exact hone _ h (by simp [ItemTypeSuits, logAppenderItemString, logAppenderItemCreate])
  | _ =>
      rw [htype] at h hone
      exact hone _ h (by simp [ItemTypeSuits, logAppenderItemString, logAppenderItemCreate])

/-- Only a line number and a date format have items that are not plain texts. -/
lemma logPatternItems_type {spec : LogPatternSpec} {items : List LogAppenderFormatItem}
    (h : logPatternItems env spec = .ok items) (hline : spec.type ≠ .lineNumber)
    (hdate : spec.type ≠ .dateTime) : ∀ item ∈ items, item.type ≠ .lineNumber := by
  intro item hitem hitemline
  obtain ⟨base, rfl, -, hsuits, -⟩ := logPatternItems_item h hdate item hitem
  exact hline (hsuits hitemline)

/-- A conversion that is no line number prints something for every message. -/
lemma pieceLine_ok {spec : LogPatternSpec} {items : List LogAppenderFormatItem}
    (h : logPatternItems env spec = .ok items) (hline : spec.type ≠ .lineNumber)
    (hdate : spec.type ≠ .dateTime) : ∃ t, pieceLine conv env param (.conversion spec) = .ok t := by
  refine ⟨(items.map (logPatternAppend conv param)).flatMap okText, ?_⟩
  simp only [pieceLine, h, bind, Except.bind, logAppenderLine]
  refine concatTexts_eq_ok.mpr ⟨?_, rfl⟩
  intro x hx
  obtain ⟨item, hitem, rfl⟩ := List.mem_map.mp hx
  exact logPatternAppend_ok conv param (logPatternItems_type h hline hdate item hitem)

/-- A line number prints something for every message exactly when it fits. -/
lemma pieceLine_lineNumber_iff (env : LogEnvironment) {spec : LogPatternSpec}
    (h : spec.type = .lineNumber) (base : LogPatternAppendFuncParam) :
    (∀ param, ∃ t, pieceLine conv env param (.conversion spec) = .ok t) ↔ LineNumberFits spec := by
  have hpiece : ∀ param, pieceLine conv env param (.conversion spec)
      = (logLineNumberText (spec.item (logAppenderItemCreate .lineNumber)) param.linenum).map
          (logPatternAppendPadding (spec.item (logAppenderItemCreate .lineNumber))) := by
    intro param
    simp only [pieceLine, logPatternItems, h, bind, Except.bind, logAppenderLine_singleton]
    rfl
  rw [LineNumberFits]
  refine Iff.trans ?_
    (logLineNumberText_ok_iff (spec.item (logAppenderItemCreate .lineNumber)))
  constructor
  · intro hok n hn
    obtain ⟨t, ht⟩ := hok { base with linenum := n, linenum_range := hn }
    rw [hpiece] at ht
    cases htext : logLineNumberText (spec.item (logAppenderItemCreate .lineNumber)) n with
    | error e => simp [htext, Except.map] at ht
    | ok text => exact ⟨text, rfl⟩
  · intro hok param
    obtain ⟨t, ht⟩ := hok param.linenum param.linenum_range
    exact ⟨_, by rw [hpiece, ht]; rfl⟩

/-- What a date format prints and what it stands for. -/
lemma pieceLine_date {spec : LogPatternSpec} {items : List LogAppenderFormatItem}
    (h : logPatternItems env spec = .ok items) (hdate : spec.type = .dateTime) :
    ∃ fmt, spec.dateFormat = some fmt ∧ pieceLine conv env param (.conversion spec)
      = .ok (dateLine conv fmt param.logtm (logMillisText param.millis)) := by
  simp only [pieceLine, h, bind, Except.bind, LogPatternSpec.dateFormat, if_pos hdate]
  rw [logPatternItems, hdate] at h
  exact logAppenderLine_dateItems conv param h

end Pieces

/-! ### Lines -/

section Lines

variable (conv : List UInt8 → Tm → List UInt8) {env : LogEnvironment}
  {pieces : List PatternPiece}

/-- Every conversion of the pieces was accepted. -/
def PiecesAccepted (env : LogEnvironment) (pieces : List PatternPiece) : Prop :=
  ∀ spec, .conversion spec ∈ pieces → ∃ items, logPatternItems env spec = .ok items

/-- Apart from date formats a piece stands for what it prints. -/
lemma pieceText_of_none (piece : PatternPiece) (param : LogPatternAppendFuncParam)
    (h : piece.dateFormat = none) :
    pieceText conv env param piece = pieceLine conv env param piece := by
  simp only [pieceText, h]

lemma pieceText_of_some (piece : PatternPiece) {fmt : List UInt8}
    (param : LogPatternAppendFuncParam) (h : piece.dateFormat = some fmt) :
    pieceText conv env param piece
      = .ok (dateText conv fmt param.logtm (logMillisText param.millis)) := by
  simp only [pieceText, h]

lemma pieceLine_of_some {piece : PatternPiece} {fmt : List UInt8}
    (param : LogPatternAppendFuncParam) (haccept : PiecesAccepted env pieces)
    (hmem : piece ∈ pieces) (h : piece.dateFormat = some fmt) :
    pieceLine conv env param piece
      = .ok (dateLine conv fmt param.logtm (logMillisText param.millis)) := by
  cases piece with
  | conversion spec =>
      obtain ⟨items, hitems⟩ := haccept spec hmem
      have hdate : spec.type = .dateTime := by
        by_contra hne
        simp [PatternPiece.dateFormat, LogPatternSpec.dateFormat, hne] at h
      obtain ⟨fmt', hfmt', hline⟩ := pieceLine_date conv param hitems hdate
      have heq : some fmt' = some fmt := hfmt'.symm.trans h
      rw [Option.some.injEq] at heq
      rw [← heq]
      exact hline
  | _ => simp [PatternPiece.dateFormat] at h

/-- A function of the date format of a piece, zero without one. -/
def dateSum (f : List UInt8 → ℕ) (pieces : List PatternPiece) : ℕ :=
  (pieces.map fun piece => (piece.dateFormat.map f).getD 0).sum

/-- How often a byte that `p` accepts is in the lines and in the texts of the pieces. -/
lemma countP_pieces (haccept : PiecesAccepted env pieces) (param : LogPatternAppendFuncParam)
    (p : UInt8 → Bool) :
    (pieces.flatMap fun piece => okText (pieceText conv env param piece)).countP p
        + dateSum lineMillis pieces * (logMillisText param.millis).countP p
        + dateSum (fun fmt => (dateLine conv fmt param.logtm []).countP p) pieces
      = (pieces.flatMap fun piece => okText (pieceLine conv env param piece)).countP p
        + dateSum textMillis pieces * (logMillisText param.millis).countP p
        + dateSum (fun fmt => (dateText conv fmt param.logtm []).countP p) pieces := by
  induction pieces with
  | nil => simp [dateSum]
  | cons piece pieces ih =>
      have ih := ih fun spec hspec => haccept spec (List.mem_cons_of_mem piece hspec)
      simp only [dateSum, List.flatMap_cons, List.countP_append, List.map_cons,
        List.sum_cons] at ih ⊢
      cases h : piece.dateFormat with
      | none =>
          rw [pieceText_of_none conv piece param h]
          simp only [Option.map_none, Option.getD_none, Nat.zero_add]
          omega
      | some fmt =>
          rw [pieceText_of_some conv piece param h,
            pieceLine_of_some conv param haccept List.mem_cons_self h]
          simp only [okText_ok, Option.map_some, Option.getD_some, add_mul]
          rw [countP_dateText conv fmt param.logtm p (logMillisText param.millis),
            countP_dateLine conv fmt param.logtm p (logMillisText param.millis)]
          omega

lemma flatMap_chars (env : LogEnvironment) (param : LogPatternAppendFuncParam)
    (tail : List UInt8) :
    ((tail.map PatternPiece.char).flatMap fun piece => okText (pieceText conv env param piece))
      = tail := by
  induction tail with
  | nil => rfl
  | cons c tail ih =>
      rw [List.map_cons, List.flatMap_cons, ih]
      rfl

/-- The two lines of a message, in texts of the pieces. -/
lemma flatMap_of_reproduced {items : List LogAppenderFormatItem} {tail : List UInt8}
    (hline : ∀ conv param, logAppenderLine conv param items
      = concatTexts (pieces.map (pieceLine conv env param)))
    (h : LiteralsReproduced conv env items (pieces ++ tail.map .char))
    (param : LogPatternAppendFuncParam) :
    (∀ piece ∈ pieces, ∃ t, pieceLine conv env param piece = .ok t) ∧
      (pieces.flatMap fun piece => okText (pieceLine conv env param piece))
        = (pieces.flatMap fun piece => okText (pieceText conv env param piece)) ++ tail := by
  obtain ⟨line, h₁, h₂⟩ := h param
  rw [hline conv param] at h₁
  obtain ⟨hall, hl⟩ := concatTexts_eq_ok.mp h₁
  obtain ⟨-, ht⟩ := concatTexts_eq_ok.mp h₂
  refine ⟨fun piece hpiece => hall _ (List.mem_map_of_mem hpiece), ?_⟩
  rw [List.flatMap_map] at hl ht
  rw [List.flatMap_append, flatMap_chars] at ht
  exact hl.symm.trans ht

lemma eq_of_dateSum {f g : List UInt8 → ℕ} (hle : ∀ fmt, f fmt ≤ g fmt)
    (hsum : dateSum g pieces ≤ dateSum f pieces) {piece : PatternPiece} (hmem : piece ∈ pieces)
    {fmt : List UInt8} (hfmt : piece.dateFormat = some fmt) : f fmt = g fmt := by
  have hpiece : ∀ piece ∈ pieces,
      (piece.dateFormat.map f).getD 0 ≤ (piece.dateFormat.map g).getD 0 := by
    intro piece _
    cases piece.dateFormat with
    | none => exact le_rfl
    | some fmt => exact hle fmt
  have heq := eq_of_sum_map_eq hpiece hsum piece hmem
  rwa [hfmt] at heq

/-- A message with a given time. -/
def plainParam (logtm : Tm) (millis : Fin 1000) : LogPatternAppendFuncParam where
  level := .info
  linenum := 0
  fullname := []
  namepath := [[]]
  stack := []
  logtm := logtm
  millis := millis
  fname := [0x63]
  thread := []
  logmsg := []
  linenum_range := by norm_num
  millis_lt := millis.2
  fname_ne := by simp
  namepath_ne := by simp

lemma countP_millis : (logMillisText 111).countP (· == 0x31) = 3 ∧
    (logMillisText 222).countP (· == 0x31) = 0 := by
  constructor <;> simp [logMillisText, printfZero, printInt, decimal, digitChar]

/-- Two lines of the same second show that the milliseconds are in the right places. -/
lemma textMillis_eq_of_reproduced {tail : List UInt8} (haccept : PiecesAccepted env pieces)
    (h : ∀ param, (pieces.flatMap fun piece => okText (pieceLine conv env param piece))
        = (pieces.flatMap fun piece => okText (pieceText conv env param piece)) ++ tail)
    {piece : PatternPiece} (hmem : piece ∈ pieces) {fmt : List UInt8}
    (hfmt : piece.dateFormat = some fmt) : textMillis fmt = lineMillis fmt := by
  let tm : Tm := ⟨0, 0, 0, 0, 0, 0, 0, 0, 0⟩
  have hcount : ∀ millis : Fin 1000,
      dateSum lineMillis pieces * (logMillisText millis).countP (· == 0x31)
          + dateSum (fun fmt => (dateLine conv fmt tm []).countP (· == 0x31)) pieces
        = dateSum textMillis pieces * (logMillisText millis).countP (· == 0x31)
          + dateSum (fun fmt => (dateText conv fmt tm []).countP (· == 0x31)) pieces
          + tail.countP (· == 0x31) := by
    intro millis
    have hsum := countP_pieces conv haccept (plainParam tm millis) (· == 0x31)
    have heq := congrArg (List.countP (· == 0x31)) (h (plainParam tm millis))
    rw [List.countP_append] at heq
    simp only [plainParam] at hsum heq
    omega
  have h111 := hcount 111
  have h222 := hcount 222
  have hval111 : ((111 : Fin 1000) : ℕ) = 111 := rfl
  have hval222 : ((222 : Fin 1000) : ℕ) = 222 := rfl
  rw [hval111, countP_millis.1] at h111
  rw [hval222, countP_millis.2] at h222
  exact eq_of_dateSum textMillis_le (by omega) hmem hfmt

/-- Lines that are what the pieces stand for are complete, piece by piece. -/
lemma length_of_reproduced {tail : List UInt8} (haccept : PiecesAccepted env pieces)
    (h : ∀ param, (pieces.flatMap fun piece => okText (pieceLine conv env param piece))
        = (pieces.flatMap fun piece => okText (pieceText conv env param piece)) ++ tail) :
    tail = [] ∧ ∀ param, ∀ piece ∈ pieces, (okText (pieceLine conv env param piece)).length
      = (okText (pieceText conv env param piece)).length := by
  have hle : ∀ param, ∀ piece ∈ pieces, (okText (pieceLine conv env param piece)).length
      ≤ (okText (pieceText conv env param piece)).length := by
    intro param piece hmem
    cases hfmt : piece.dateFormat with
    | none => rw [pieceText_of_none conv piece param hfmt]
    | some fmt =>
        rw [pieceText_of_some conv piece param hfmt, pieceLine_of_some conv param haccept hmem hfmt]
        exact dateLine_length_le conv fmt _ _
          (textMillis_eq_of_reproduced conv haccept h hmem hfmt)
  have hsum : ∀ param,
      (pieces.map fun piece => (okText (pieceLine conv env param piece)).length).sum
        = (pieces.map fun piece => (okText (pieceText conv env param piece)).length).sum
          + tail.length := by
    intro param
    have hlength := congrArg List.length (h param)
    rwa [List.length_append, List.length_flatMap, List.length_flatMap] at hlength
  refine ⟨?_, fun param => eq_of_sum_map_eq (hle param) (by rw [hsum param]; omega)⟩
  have htail := hsum (plainParam ⟨0, 0, 0, 0, 0, 0, 0, 0, 0⟩ 0)
  have hall := List.sum_le_sum (hle (plainParam ⟨0, 0, 0, 0, 0, 0, 0, 0, 0⟩ 0))
  exact List.length_eq_zero_iff.mp (by omega)

/-- If every line is what the pieces stand for, the condition holds. -/
lemma literalsKept_of_reproduced {items : List LogAppenderFormatItem} {p tail : List UInt8}
    (hitems : ItemsOfPieces env p items pieces tail)
    (h : LiteralsReproduced conv env items (pieces ++ tail.map .char)) :
    LiteralsKept conv (pieces ++ tail.map .char) := by
  obtain ⟨-, hlast, haccept, hline⟩ := hitems
  have hflat := flatMap_of_reproduced conv hline h
  have hequal := fun param => (hflat param).2
  obtain ⟨htail, hlength⟩ := length_of_reproduced conv haccept hequal
  rw [htail, List.map_nil, List.append_nil]
  refine ⟨hlast, fun spec hspec => ⟨fun htype => ?_, fun fmt hfmt => ?_⟩⟩
  · exact (pieceLine_lineNumber_iff conv env htype (plainParam ⟨0, 0, 0, 0, 0, 0, 0, 0, 0⟩ 0)).mp
      fun param => (hflat param).1 _ hspec
  · refine dateKept_of_length conv fmt
      (textMillis_eq_of_reproduced conv haccept hequal hspec hfmt) (logMillisText 0) fun tm => ?_
    have heq := hlength (plainParam tm 0) _ hspec
    rw [pieceText_of_some conv (.conversion spec) _ hfmt,
      pieceLine_of_some conv _ haccept hspec hfmt] at heq
    exact heq.ge

/-- Under the condition every line is what the pieces stand for. -/
lemma reproduced_of_literalsKept {items : List LogAppenderFormatItem} {p tail : List UInt8}
    (hitems : ItemsOfPieces env p items pieces tail)
    (h : LiteralsKept conv (pieces ++ tail.map .char)) :
    LiteralsReproduced conv env items (pieces ++ tail.map .char) := by
  obtain ⟨-, -, haccept, hline⟩ := hitems
  obtain ⟨hlast, hkept⟩ := h
  have htail : tail = [] := by
    cases htail : tail.getLast? with
    | none => exact List.getLast?_eq_none_iff.mp htail
    | some c =>
        have hne : tail ≠ [] := by
          rintro rfl
          exact absurd htail (by simp)
        refine absurd ?_ (hlast c)
        rw [List.getLast?_append_of_ne_nil _ (by simpa using hne), List.getLast?_map, htail]
        rfl
  subst htail
  rw [List.map_nil, List.append_nil] at hkept ⊢
  intro param
  have hpiece : ∀ piece ∈ pieces, (∃ t, pieceLine conv env param piece = .ok t) ∧
      pieceLine conv env param piece = pieceText conv env param piece := by
    intro piece hmem
    cases hfmt : piece.dateFormat with
    | some fmt =>
        rw [pieceText_of_some conv piece param hfmt, pieceLine_of_some conv param haccept hmem hfmt]
        refine ⟨⟨_, rfl⟩, ?_⟩
        cases piece with
        | conversion spec =>
            rw [dateLine_eq_dateText conv fmt param.logtm ((hkept spec hmem).2 fmt hfmt)]
        | _ => exact absurd hfmt (by simp [PatternPiece.dateFormat])
    | none =>
        refine ⟨?_, (pieceText_of_none conv piece param hfmt).symm⟩
        cases piece with
        | conversion spec =>
            obtain ⟨is, his⟩ := haccept spec hmem
            by_cases htype : spec.type = .lineNumber
            · exact (pieceLine_lineNumber_iff conv env htype param).mpr
                ((hkept spec hmem).1 htype) param
            · refine pieceLine_ok conv param his htype fun hdate => ?_
              obtain ⟨fmt, hsome, -⟩ := pieceLine_date conv param his hdate
              exact absurd (hfmt.symm.trans hsome) (by simp)
        | char c => exact ⟨_, rfl⟩
        | percent => exact ⟨_, rfl⟩
  have hmap : pieces.map (pieceText conv env param) = pieces.map (pieceLine conv env param) :=
    List.map_congr_left fun piece hmem => (hpiece piece hmem).2.symm
  refine ⟨(pieces.map (pieceLine conv env param)).flatMap okText, ?_, ?_⟩
  · rw [hline conv param]
    refine concatTexts_eq_ok.mpr ⟨fun x hx => ?_, rfl⟩
    obtain ⟨piece, hmem, rfl⟩ := List.mem_map.mp hx
    exact (hpiece piece hmem).1
  · rw [hmap]
    refine concatTexts_eq_ok.mpr ⟨fun x hx => ?_, rfl⟩
    obtain ⟨piece, hmem, rfl⟩ := List.mem_map.mp hx
    exact (hpiece piece hmem).1

end Lines

/-- A system for the examples. -/
def plainEnv : LogEnvironment where
  pid := 1
  getenv := fun _ => none
  hostname := none

end LibCmutils
