import LibCmutils.Config.Consistency

/-!
The logical lines of a configuration file (`src/config.c`).

* `textLines`: a text split at its line feeds; the last one may be missing. `trimLine`,
  `Continues` and `joinLines`: lines without white space at the end are joined at
  backslashes. `logicalLines` and `configLoadLogical` are what loading is meant to be.
* `FileRead`: the pieces that `fgets` reads of a file, beside its lines. `joinPieces`: what the
  loop makes of the pieces.
* `LinesFit`: every line fits into the buffer. `EndsContinued`: the last line ends in a
  backslash.
* `breaks`, `kept`: the number of logical lines and of their bytes. `FileRead.measure`: reading in
  pieces breaks lines off, or loses bytes.

The main result is `configLoad_logical`.
-/

namespace LibCmutils

/-! ### Logical lines -/

/-- The lines of a text. -/
def textLines : List UInt8 → List (List UInt8)
  | [] => []
  | c :: f =>
      if c = 0x0A then [] :: textLines f
      else
        match textLines f with
        | [] => [[c]]
        | l :: ls => (c :: l) :: ls

/-- A line without white space at its end. -/
def trimLine (l : List UInt8) : List UInt8 :=
  l.rdropWhile fun c => strchr [0x20, 0x0D, 0x09, 0x0A] c

/-- A line that ends in a backslash goes on. -/
def Continues (t : List UInt8) : Prop := t.getLast? = some 0x5C

instance (t : List UInt8) : Decidable (Continues t) := inferInstanceAs (Decidable (_ = _))

/-- A line that goes on is joined with what follows it, if anything does. -/
def joinLines : List (List UInt8) → List (List UInt8)
  | [] => []
  | t :: ts =>
      if Continues t then
        match joinLines ts with
        | [] => [t.dropLast]
        | m :: ms => (t.dropLast ++ m) :: ms
      else t :: joinLines ts

/-- The logical lines of a text. -/
def logicalLines (f : List UInt8) : List (List UInt8) := joinLines ((textLines f).map trimLine)

/-- Every logical line is interpreted. -/
def configLoadLogical (f : List UInt8) : Config :=
  (logicalLines f).foldl configLoadItem configCreate

/-- The lines that `CMUTIL_ConfigLoadInternal` interprets. -/
def loadedLines (f : List UInt8) : List (List UInt8) := configLines (f.length + 1) [] f

/-- A block of 4095 bytes without a line feed is at the end of the text. -/
def LinesFit (f : List UInt8) : Prop :=
  ∀ u v w, f = u ++ v ++ w → v.length = 4095 → 0x0A ∉ v → w = []

/-- The last line goes on. -/
def EndsContinued (f : List UInt8) : Prop := ∃ l ∈ (textLines f).getLast?, Continues (trimLine l)

section Trim

variable {l p : List UInt8}

lemma trimLine_append (p l : List UInt8) :
    trimLine (p ++ l) = if trimLine l = [] then trimLine p else p ++ trimLine l := by
  rw [trimLine, trimLine, List.rdropWhile, List.reverse_append, List.dropWhile_append]
  split_ifs with h1 h2 h2
  · rfl
  · exact absurd (by simpa [List.rdropWhile] using h1) h2
  · exact absurd (by simpa [List.rdropWhile] using h2) h1
  · rw [List.reverse_append, List.reverse_reverse]
    rfl

lemma trimLine_lineFeed (l : List UInt8) : trimLine (l ++ [0x0A]) = trimLine l := by
  rw [trimLine_append]
  exact if_pos rfl

lemma length_trimLine_le (l : List UInt8) : (trimLine l).length ≤ l.length :=
  (List.rdropWhile_prefix _ l).length_le

/-- The end of a line is the end of its last part that is not blank. -/
lemma continues_append (p l : List UInt8) : Continues (trimLine (p ++ l)) ↔
    if trimLine l = [] then Continues (trimLine p) else Continues (trimLine l) := by
  rw [trimLine_append]
  split_ifs with h
  · exact Iff.rfl
  · rw [Continues, Continues, List.getLast?_append_of_ne_nil _ h]

end Trim

/-! ### Lines and breaks -/

/-- The lines that do not go on. -/
def breaks (ts : List (List UInt8)) : ℕ := ts.countP fun t => ¬ Continues t

/-- The bytes of the lines without the backslashes at which they are joined. -/
def kept (ts : List (List UInt8)) : ℕ :=
  (ts.map fun t => if Continues t then t.length - 1 else t.length).sum

section Joining

variable {t : List UInt8} {ts : List (List UInt8)}

lemma breaks_cons : breaks (t :: ts) = breaks ts + if Continues t then 0 else 1 := by
  rw [breaks, List.countP_cons]
  by_cases h : Continues t <;> simp [h, breaks]

lemma kept_cons :
    kept (t :: ts) = (if Continues t then t.length - 1 else t.length) + kept ts := by
  rw [kept, List.map_cons, List.sum_cons, kept]

lemma joinLines_eq_nil_iff : joinLines ts = [] ↔ ts = [] := by
  cases ts with
  | nil => simp [joinLines]
  | cons t ts =>
      rw [joinLines]
      split_ifs
      · split <;> simp
      · simp

/-- There is a logical line for each line that does not go on, and one for a last line that does. -/
lemma length_joinLines (ts : List (List UInt8)) :
    (joinLines ts).length = breaks ts + if ∃ t ∈ ts.getLast?, Continues t then 1 else 0 := by
  induction ts with
  | nil => simp [joinLines, breaks]
  | cons t ts ih =>
      rw [joinLines, breaks_cons]
      cases ts with
      | nil =>
          by_cases h : Continues t <;> simp [h, joinLines, breaks]
      | cons s ts =>
          rw [List.getLast?_cons_cons]
          split_ifs with h1 h2 h2
          · cases hj : joinLines (s :: ts) with
            | nil => exact absurd (joinLines_eq_nil_iff.mp hj) (by simp)
            | cons m ms =>
                rw [hj, if_pos h2] at ih
                exact ih
          · cases hj : joinLines (s :: ts) with
            | nil => exact absurd (joinLines_eq_nil_iff.mp hj) (by simp)
            | cons m ms =>
                rw [hj, if_neg h2] at ih
                exact ih
          · rw [List.length_cons, ih, if_pos h2]
          · rw [List.length_cons, ih, if_neg h2]

lemma length_flatten_joinLines (ts : List (List UInt8)) : (joinLines ts).flatten.length = kept ts := by
  induction ts with
  | nil => rfl
  | cons t ts ih =>
      rw [joinLines, kept_cons]
      split_ifs with h
      · cases hj : joinLines ts with
        | nil =>
            rw [hj] at ih
            simp [← ih]
        | cons m ms =>
            rw [hj] at ih
            simp only [List.flatten_cons, List.length_append, List.length_dropLast] at ih ⊢
            omega
      · rw [List.flatten_cons, List.length_append, ih]

/-- What the loop makes of trimmed pieces, behind the text `str` of a line that goes on. A text
that is left over at the end is dropped. -/
def joinPieces : List UInt8 → List (List UInt8) → List (List UInt8)
  | _, [] => []
  | str, t :: ts =>
      if Continues t then joinPieces (str ++ t.dropLast) ts else (str ++ t) :: joinPieces [] ts

lemma length_joinPieces (str : List UInt8) (ts : List (List UInt8)) :
    (joinPieces str ts).length = breaks ts := by
  induction ts generalizing str with
  | nil => rfl
  | cons t ts ih =>
      rw [joinPieces, breaks_cons]
      split_ifs with h
      · exact ih _
      · rw [List.length_cons, ih]

lemma length_flatten_joinPieces_le (str : List UInt8) (ts : List (List UInt8)) :
    (joinPieces str ts).flatten.length ≤ str.length + kept ts := by
  induction ts generalizing str with
  | nil => simp [joinPieces]
  | cons t ts ih =>
      rw [joinPieces, kept_cons]
      split_ifs with h
      · have hle := ih (str ++ t.dropLast)
        rw [List.length_append, List.length_dropLast] at hle
        omega
      · have hle := ih []
        rw [List.flatten_cons, List.length_append, List.length_append]
        simp only [List.length_nil] at hle
        omega

/-- Without a text that is left over the pieces are joined like lines. -/
lemma joinPieces_eq (hend : ∀ t ∈ ts.getLast?, ¬ Continues t) (str : List UInt8) :
    joinPieces str ts = match joinLines ts with
      | [] => []
      | m :: ms => (str ++ m) :: ms := by
  induction ts generalizing str with
  | nil => rfl
  | cons t ts ih =>
      cases ts with
      | nil =>
          have ht : ¬ Continues t := hend t rfl
          simp [joinPieces, joinLines, ht]
      | cons s ts =>
          have ih := ih (by rwa [List.getLast?_cons_cons] at hend)
          rw [joinPieces, joinLines]
          split_ifs with h
          · rw [ih]
            cases hj : joinLines (s :: ts) with
            | nil => exact absurd (joinLines_eq_nil_iff.mp hj) (by simp)
            | cons m ms => simp
          · rw [ih []]
            cases joinLines (s :: ts) <;> rfl

end Joining

/-! ### Reading -/

/-- The pieces of a file. -/
def filePieces : ℕ → List UInt8 → List (List UInt8)
  | 0, _ => []
  | fuel + 1, f =>
      match fgets 4096 f with
      | none => []
      | some (piece, f) => piece :: filePieces fuel f

lemma appendTrimmedLine_eq {input : List UInt8} (h0 : (0 : UInt8) ∉ input) (str : List UInt8) :
    appendTrimmedLine str input [0x20, 0x0D, 0x09, 0x0A] =
      if Continues (trimLine input) then (str ++ (trimLine input).dropLast, true)
      else (str ++ trimLine input, false) := by
  have hall : input.takeWhile (· != 0) = input := by
    refine List.takeWhile_eq_self_iff.mpr fun c hc => ?_
    have hne : c ≠ 0 := fun h => h0 (h ▸ hc)
    simpa using hne
  rw [appendTrimmedLine, hall, ← trimLine]
  by_cases hc : Continues (trimLine input)
  · have hlast : (trimLine input).getLast? = some 0x5C := hc
    simp only [if_pos hc, hlast, if_true]
  · rw [if_neg hc]
    cases hlast : (trimLine input).getLast? with
    | none =>
        rw [List.getLast?_eq_none_iff.mp hlast]
        simp
    | some c =>
        have hne : c ≠ 0x5C := fun h => hc (by rw [Continues, hlast, h])
        simp only [if_neg hne]

/-- The beginning of a file that one call of `fgets` reads. -/
lemma fgetsLine_cases (n : ℕ) (f : List UInt8) : ∃ piece rest, fgetsLine n f = (piece, rest) ∧
    f = piece ++ rest ∧ ((∃ l, piece = l ++ [0x0A] ∧ 0x0A ∉ l ∧ l.length < n) ∨
      0x0A ∉ piece ∧ piece.length ≤ n ∧ (piece.length = n ∨ rest = [])) := by
  induction n generalizing f with
  | zero => exact ⟨[], f, rfl, rfl, .inr ⟨by simp, by simp, .inl rfl⟩⟩
  | succ n ih =>
      cases f with
      | nil => exact ⟨[], [], rfl, rfl, .inr ⟨by simp, by simp, .inr rfl⟩⟩
      | cons c f =>
          rw [fgetsLine]
          split_ifs with hc
          · exact ⟨[c], f, rfl, rfl, .inl ⟨[], by rw [hc]; rfl, by simp, by simp⟩⟩
          · obtain ⟨piece, rest, hread, rfl, hcases⟩ := ih f
            refine ⟨c :: piece, rest, by rw [hread], rfl, ?_⟩
            rcases hcases with ⟨l, rfl, hl, hlen⟩ | ⟨hp, hlen, hend⟩
            · exact .inl ⟨c :: l, rfl, by simp [hl, Ne.symm hc], by simpa using hlen⟩
            · refine .inr ⟨by simp [hp, Ne.symm hc], by simpa using hlen, ?_⟩
              exact hend.imp_left fun h => by simp [h]

/-- The lines that are interpreted are the pieces put together. -/
lemma configLines_eq (fuel : ℕ) (str f : List UInt8) (h0 : (0 : UInt8) ∉ f) :
    configLines fuel str f = joinPieces str ((filePieces fuel f).map trimLine) := by
  induction fuel generalizing str f with
  | zero => rfl
  | succ fuel ih =>
      rw [configLines, filePieces]
      cases hread : fgets 4096 f with
      | none => rfl
      | some r =>
          obtain ⟨piece, rest⟩ := r
          have happ : f = piece ++ rest := by
            cases f with
            | nil => cases hread
            | cons c f =>
                obtain ⟨piece', rest', hline, happ, -⟩ := fgetsLine_cases 4095 (c :: f)
                have heq : fgetsLine 4095 (c :: f) = (piece, rest) := Option.some.inj hread
                obtain ⟨rfl, rfl⟩ := Prod.mk.inj (hline.symm.trans heq)
                exact happ
          have h0' : (0 : UInt8) ∉ piece ∧ (0 : UInt8) ∉ rest := by
            rw [happ] at h0
            simpa using h0
          simp only [appendTrimmedLine_eq h0'.1, List.map_cons, joinPieces]
          split_ifs with h
          · exact ih _ _ h0'.2
          · exact congrArg _ (ih _ _ h0'.2)

/-- A file, the pieces it is read in, and its lines. -/
inductive FileRead : List UInt8 → List (List UInt8) → List (List UInt8) → Prop
  | nil : FileRead [] [] []
  | line {l f : List UInt8} {ps ls : List (List UInt8)} : 0x0A ∉ l → l.length < 4095 →
      FileRead f ps ls → FileRead (l ++ 0x0A :: f) ((l ++ [0x0A]) :: ps) (l :: ls)
  | last {l : List UInt8} : 0x0A ∉ l → l.length ≤ 4095 → FileRead l [l] [l]
  | long {p f l : List UInt8} {ps ls : List (List UInt8)} : 0x0A ∉ p → p.length = 4095 →
      f ≠ [] → FileRead f ps (l :: ls) → FileRead (p ++ f) (p :: ps) ((p ++ l) :: ls)

lemma textLines_line {l : List UInt8} (hl : 0x0A ∉ l) (f : List UInt8) :
    textLines (l ++ 0x0A :: f) = l :: textLines f := by
  induction l with
  | nil => simp [textLines]
  | cons c l ih =>
      simp only [List.mem_cons, not_or] at hl
      rw [List.cons_append, textLines, if_neg (Ne.symm hl.1), ih hl.2]

/-- A text without a line feed goes before the first line. -/
lemma textLines_append {p f l : List UInt8} {ls : List (List UInt8)} (hp : 0x0A ∉ p)
    (hf : textLines f = l :: ls) : textLines (p ++ f) = (p ++ l) :: ls := by
  induction p with
  | nil => exact hf
  | cons c p ih =>
      simp only [List.mem_cons, not_or] at hp
      rw [List.cons_append, textLines, if_neg (Ne.symm hp.1), ih hp.2]
      rfl

lemma textLines_last {l : List UInt8} (hne : l ≠ []) (hl : 0x0A ∉ l) : textLines l = [l] := by
  induction l with
  | nil => exact absurd rfl hne
  | cons c l ih =>
      simp only [List.mem_cons, not_or] at hl
      rw [textLines, if_neg (Ne.symm hl.1)]
      cases l with
      | nil => rfl
      | cons d l => rw [ih (by simp) hl.2]

lemma textLines_ne_nil {f : List UInt8} (hf : f ≠ []) : textLines f ≠ [] := by
  cases f with
  | nil => exact absurd rfl hf
  | cons c f =>
      rw [textLines]
      split_ifs
      · simp
      · split <;> simp

lemma fileRead (fuel : ℕ) (f : List UInt8) (hfuel : f.length < fuel) :
    FileRead f (filePieces fuel f) (textLines f) := by
  induction fuel generalizing f with
  | zero => omega
  | succ fuel ih =>
      rw [filePieces]
      cases f with
      | nil => exact .nil
      | cons c f =>
          obtain ⟨piece, rest, hread, happ, hcases⟩ := fgetsLine_cases 4095 (c :: f)
          have hfgets : fgets 4096 (c :: f) = some (piece, rest) := congrArg some hread
          have hlen := length_fgets_lt hfgets
          have hrec := ih rest (by omega)
          rw [hfgets]
          simp only
          rcases hcases with ⟨l, rfl, hl, hlt⟩ | ⟨hp, hle, hend⟩
          · rw [List.append_assoc, List.singleton_append] at happ
            rw [happ, textLines_line hl]
            exact .line hl hlt hrec
          · by_cases hrest : rest = []
            · subst hrest
              rw [List.append_nil] at happ
              have hnil : filePieces fuel [] = [] := by cases fuel <;> rfl
              rw [happ, hnil, textLines_last (by rw [← happ]; simp) hp]
              exact .last hp hle
            · obtain ⟨l, ls, hls⟩ := List.exists_cons_of_ne_nil (textLines_ne_nil hrest)
              rw [hls] at hrec
              rw [happ, textLines_append hp hls]
              exact .long hp (hend.resolve_right hrest) hrest hrec

/-! ### The buffer -/

section Fit

variable {f l p : List UInt8}

lemma LinesFit.of_append (h : LinesFit (p ++ f)) : LinesFit f := by
  intro u v w hf hlen hv
  exact h (p ++ u) v w (by rw [hf]; simp) hlen hv

/-- A block without a line feed is not in a short line. -/
lemma LinesFit.line (hlen : l.length < 4095) (h : LinesFit f) : LinesFit (l ++ 0x0A :: f) := by
  intro u v w heq hv hlf
  rw [List.append_assoc] at heq
  rcases List.append_eq_append_iff.mp heq with ⟨a, rfl, ha⟩ | ⟨a, rfl, ha⟩
  · -- the block begins behind the line feed
    cases a with
    | nil =>
        obtain ⟨c, v', rfl⟩ := List.exists_cons_of_ne_nil (show v ≠ [] by rintro rfl; simp at hv)
        obtain rfl := (List.cons.inj ha).1
        simp at hlf
    | cons c a =>
        obtain ⟨-, ha⟩ := List.cons.inj ha
        exact h a v w (ha.trans (List.append_assoc a v w).symm) hv hlf
  · rcases List.append_eq_append_iff.mp ha with ⟨b, rfl, -⟩ | ⟨b, rfl, hb⟩
    · simp only [List.length_append] at hlen
      omega
    · cases b with
      | nil =>
          simp only [List.length_append, List.length_nil] at hlen hv
          omega
      | cons c b =>
          obtain rfl := (List.cons.inj hb).1
          simp at hlf

lemma LinesFit.last (hlen : l.length ≤ 4095) : LinesFit l := by
  rintro u v w rfl hv -
  simp only [List.length_append] at hlen
  exact List.length_eq_zero_iff.mp (by omega)

end Fit

namespace FileRead

variable {f : List UInt8} {ps ls : List (List UInt8)}

/-- Lines that fit are read whole. -/
lemma fit (h : FileRead f ps ls) (hfit : LinesFit f) : ps.map trimLine = ls.map trimLine := by
  induction h with
  | nil => rfl
  | line hl hlen _ ih =>
      rw [List.map_cons, List.map_cons, trimLine_lineFeed]
      rw [← List.singleton_append, ← List.append_assoc] at hfit
      rw [ih hfit.of_append]
  | last => rfl
  | @long p f l ps ls hp hlen hne _ ih => exact absurd (hfit [] p f (by simp) hlen hp) hne

/-- **Pieces against lines.** A line that does not fit is broken in more lines, or it loses the
backslash behind which it is cut. -/
lemma measure (h : FileRead f ps ls) : breaks (ls.map trimLine) ≤ breaks (ps.map trimLine) ∧
    (breaks (ps.map trimLine) = breaks (ls.map trimLine) →
      kept (ps.map trimLine) ≤ kept (ls.map trimLine) ∧
        (¬ LinesFit f → kept (ps.map trimLine) < kept (ls.map trimLine))) := by
  induction h with
  | nil => exact ⟨le_rfl, fun _ => ⟨le_rfl, fun hn => absurd (LinesFit.last (by simp)) hn⟩⟩
  | @line l f ps ls hl hlen _ ih =>
      obtain ⟨hle, heq⟩ := ih
      simp only [List.map_cons, trimLine_lineFeed, breaks_cons, kept_cons]
      refine ⟨by omega, fun hb => ?_⟩
      obtain ⟨hkept, hlt⟩ := heq (by omega)
      refine ⟨by omega, fun hn => ?_⟩
      have := hlt fun hfit => hn (hfit.line hlen)
      omega
  | last hl hlen => exact ⟨le_rfl, fun _ => ⟨le_rfl, fun hn => absurd (LinesFit.last hlen) hn⟩⟩
  | @long p f l ps ls hp hlen hne _ ih =>
      obtain ⟨hle, heq⟩ := ih
      simp only [List.map_cons, breaks_cons, kept_cons] at hle heq ⊢
      have hcont := continues_append p l
      have htrim := trimLine_append p l
      have hplen := length_trimLine_le p
      by_cases hblank : trimLine l = []
      · -- a blank rest makes a line of its own
        rw [if_pos hblank] at hcont
        have hnil : ¬ Continues (trimLine l) := by
          rw [hblank]
          exact fun h => absurd h (by decide)
        rw [if_neg hnil] at hle
        by_cases hc : Continues (trimLine p)
        · rw [if_pos hc, if_pos (hcont.mpr hc)]
          exact ⟨by omega, fun hb => absurd hb (by omega)⟩
        · rw [if_neg hc, if_neg fun h => hc (hcont.mp h)]
          exact ⟨by omega, fun hb => absurd hb (by omega)⟩
      · rw [if_neg hblank] at hcont htrim
        simp only [hcont]
        by_cases hc : Continues (trimLine p)
        · have hpos : 0 < (trimLine p).length := by
            refine List.length_pos_iff.mpr fun hnil => ?_
            rw [hnil] at hc
            exact absurd hc (by decide)
          have hlpos := List.length_pos_iff.mpr hblank
          simp only [if_pos hc, htrim, List.length_append]
          refine ⟨by omega, fun hb => ?_⟩
          obtain ⟨hkept, -⟩ := heq (by omega)
          have hlt : (trimLine p).length - 1 + kept (ps.map trimLine) <
              (if Continues (trimLine l) then p.length + (trimLine l).length - 1
                else p.length + (trimLine l).length) + kept (ls.map trimLine) := by
            split_ifs at hkept ⊢ <;> omega
          exact ⟨hlt.le, fun _ => hlt⟩
        · rw [if_neg hc]
          exact ⟨by omega, fun hb => absurd hb (by omega)⟩

end FileRead

/-! ### Loading -/

lemma configLoad_eq (f : List UInt8) : configLoad f = (loadedLines f).foldl configLoadItem configCreate :=
  configLoadLoop_eq_foldl _ _ _ _

section Loading

variable {f : List UInt8}

lemma endsContinued_iff :
    EndsContinued f ↔ ∃ t ∈ ((textLines f).map trimLine).getLast?, Continues t := by
  rw [EndsContinued, List.getLast?_map]
  cases (textLines f).getLast? <;> simp

lemma loadedLines_eq (h0 : (0 : UInt8) ∉ f) :
    loadedLines f = joinPieces [] ((filePieces (f.length + 1) f).map trimLine) :=
  configLines_eq _ _ _ h0

/-- Lines that fit, the last of which does not go on. -/
lemma loadedLines_of_fit (h0 : (0 : UInt8) ∉ f) (hfit : LinesFit f) (hend : ¬ EndsContinued f) :
    loadedLines f = logicalLines f := by
  have hread := (fileRead (f.length + 1) f (Nat.lt_succ_self _)).fit hfit
  have hlast : ∀ t ∈ ((textLines f).map trimLine).getLast?, ¬ Continues t := fun t ht hc =>
    hend (endsContinued_iff.mpr ⟨t, ht, hc⟩)
  rw [loadedLines_eq h0, hread, joinPieces_eq hlast, logicalLines]
  cases joinLines ((textLines f).map trimLine) <;> rfl

/-- A last line that goes on is not interpreted. -/
lemma loadedLines_ne_of_continued (h0 : (0 : UInt8) ∉ f) (hfit : LinesFit f)
    (hend : EndsContinued f) : loadedLines f ≠ logicalLines f := by
  intro heq
  have hread := (fileRead (f.length + 1) f (Nat.lt_succ_self _)).fit hfit
  have hlen := congrArg List.length heq
  rw [loadedLines_eq h0, hread, length_joinPieces, logicalLines, length_joinLines,
    if_pos (endsContinued_iff.mp hend)] at hlen
  omega

/-- A line that does not fit is not interpreted as one line. -/
lemma loadedLines_ne_of_long (h0 : (0 : UInt8) ∉ f) (hfit : ¬ LinesFit f)
    (hend : ¬ EndsContinued f) : loadedLines f ≠ logicalLines f := by
  intro heq
  obtain ⟨-, hmeasure⟩ := (fileRead (f.length + 1) f (Nat.lt_succ_self _)).measure
  have hlen := congrArg List.length heq
  rw [loadedLines_eq h0, length_joinPieces, logicalLines, length_joinLines,
    if_neg fun h => hend (endsContinued_iff.mpr h), Nat.add_zero] at hlen
  have hlt := (hmeasure hlen).2 hfit
  have hbytes := congrArg (List.length ∘ List.flatten) heq
  simp only [Function.comp_apply] at hbytes
  rw [logicalLines, length_flatten_joinLines] at hbytes
  have hle := length_flatten_joinPieces_le [] ((filePieces (f.length + 1) f).map trimLine)
  rw [← loadedLines_eq h0, hbytes, List.length_nil, Nat.zero_add] at hle
  omega

end Loading

/-- **Logical lines.** When every line fits into the buffer and the last one does not go on, loading
interprets the logical lines of the file. When one of the two fails, it interprets other
lines. -/
theorem configLoad_logical (f : CString) :
    (LinesFit f.1 ∧ ¬ EndsContinued f.1 → configLoad f.1 = configLoadLogical f.1) ∧
      (LinesFit f.1 ∨ ¬ EndsContinued f.1 →
        (loadedLines f.1 = logicalLines f.1 ↔ LinesFit f.1 ∧ ¬ EndsContinued f.1)) := by
  refine ⟨fun h => ?_, fun hone => ⟨fun heq => ?_, fun h => loadedLines_of_fit f.2 h.1 h.2⟩⟩
  · rw [configLoad_eq, loadedLines_of_fit f.2 h.1 h.2, configLoadLogical]
  · rcases hone with hfit | hend
    · exact ⟨hfit, fun hend => loadedLines_ne_of_continued f.2 hfit hend heq⟩
    · exact ⟨by_contra fun hfit => loadedLines_ne_of_long f.2 hfit hend heq, hend⟩

/-- The file `a\`. -/
theorem configLoad_logical_fails : configLoad [0x61, 0x5C] ≠ configLoadLogical [0x61, 0x5C] := by
  intro h
  have hlen := congrArg (fun conf => conf.sequence.length) h
  exact absurd hlen (by decide)

end LibCmutils
