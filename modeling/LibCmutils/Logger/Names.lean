import LibCmutils.Logger.Literals
import Mathlib.Data.List.DropRight
import Mathlib.Data.List.GetD

/-!
The conversions `%F` and `%c{n}` of a log pattern (`src/logger.c`): a source file without its
directories, and the end of the name of a logger.

* `logPatternLine`: the line of a message, from the text of the pattern.
* `lastPathPart`: what is wanted of `%F`. The loop of the code does not count the first
  character that it comes to, and the last character is missing when there is no separator;
  `logFileNameText_eq`, `fileName_iff`.
* `dots`: components of a name joined by dots. The loop of the code starts at a difference of
  32 bits, and does not run at all when more components are asked for than there are;
  `logLoggerNameText_eq`, `loggerName_iff`.

Both functions keep the size of the name in 32 bits: they see a name as if its first bytes, or
components, were all there is. `seenLength` counts these.
-/

namespace LibCmutils

/-- The line of a message, for an appender with the given pattern. -/
def logPatternLine (conv : List UInt8 → Tm → List UInt8) (env : LogEnvironment)
    (pattern : CString) (param : LogPatternAppendFuncParam) :
    Except LogPatternError (List UInt8) :=
  logPatternParse env pattern >>= logAppenderLine conv param

lemma logPatternLine_of_parse (conv : List UInt8 → Tm → List UInt8) {env : LogEnvironment}
    {pattern : CString} {items : List LogAppenderFormatItem}
    (h : logPatternParse env pattern = .ok items) (param : LogPatternAppendFuncParam) :
    logPatternLine conv env pattern param = logAppenderLine conv param items := by
  rw [logPatternLine, h]
  rfl

/-- How many of `size` elements are seen by a loop that goes down from `size - 1` in 32
bits. -/
def seenLength (size : ℕ) : ℕ := (size - 1) % 2 ^ 32 + 1

lemma seenLength_eq {size : ℕ} (hpos : 0 < size) :
    (size % 2 ^ 32 + 2 ^ 32 - 1) % 2 ^ 32 + 1 = seenLength size := by
  rw [seenLength]
  omega

lemma seenLength_of_le {size : ℕ} (hpos : 0 < size) (hle : size ≤ 2 ^ 32) :
    seenLength size = size := by
  rw [seenLength]
  omega

lemma seenLength_le {size : ℕ} (hpos : 0 < size) : seenLength size ≤ size := by
  have hmod : (size - 1) % 2 ^ 32 ≤ size - 1 := Nat.mod_le _ _
  rw [seenLength]
  omega

/-! ### Source files -/

/-- A path behind its last separator, or all of it. -/
def lastPathPart (fname : List UInt8) : List UInt8 :=
  fname.rtakeWhile fun c => !isPathSeparator c

/-- The condition on the name of a source file: there is a separator in it. A name of more than
`2 ^ 32` bytes, of which only the first are seen, has to end like these. -/
def FileNameKept (fname : List UInt8) : Prop :=
  if fname.length ≤ 2 ^ 32 then ∃ c ∈ fname, isPathSeparator c = true
  else
    let seen := fname.take (seenLength fname.length)
    ((∃ c ∈ seen, isPathSeparator c = true) ∧ lastPathPart seen = lastPathPart fname) ∨
      ((∀ c ∈ seen, isPathSeparator c = false) ∧ seen.dropLast = lastPathPart fname)

lemma lastPathPart_append {u v : List UInt8} {c : UInt8} (hc : isPathSeparator c = true)
    (hv : ∀ d ∈ v, isPathSeparator d = false) : lastPathPart (u ++ c :: v) = v := by
  have hrev : ∀ d ∈ v.reverse, (!isPathSeparator d) = true := by simpa using hv
  rw [lastPathPart, List.rtakeWhile, List.reverse_append, List.reverse_cons, List.append_assoc,
    List.takeWhile_append_of_pos hrev, List.singleton_append,
    List.takeWhile_cons_of_neg (by simp [hc]), List.append_nil, List.reverse_reverse]

lemma lastPathPart_self {fname : List UInt8} (h : ∀ c ∈ fname, isPathSeparator c = false) :
    lastPathPart fname = fname :=
  List.rtakeWhile_eq_self_iff.mpr fun c hc => by simp [h c hc]

/-- A path with a separator, at the last one. -/
lemma exists_lastSeparator {fname : List UInt8} (h : ∃ c ∈ fname, isPathSeparator c = true) :
    ∃ u c v, fname = u ++ c :: v ∧ isPathSeparator c = true ∧
      ∀ d ∈ v, isPathSeparator d = false := by
  induction fname using List.reverseRecOn with
  | nil => simp at h
  | append_singleton s d ih =>
      by_cases hd : isPathSeparator d = true
      · exact ⟨s, d, [], rfl, hd, by simp⟩
      · obtain ⟨c, hmem, hc⟩ := h
        have hs : c ∈ s := by
          rcases List.mem_append.mp hmem with hs | hs
          · exact hs
          · exact absurd (List.mem_singleton.mp hs ▸ hc) hd
        obtain ⟨u, c, v, rfl, hc, hv⟩ := ih ⟨c, hs, hc⟩
        refine ⟨u, c, v ++ [d], by simp, hc, ?_⟩
        intro e he
        rcases List.mem_append.mp he with he | he
        · exact hv e he
        · rw [List.mem_singleton.mp he]
          simpa using hd

/-- What is printed of a name that is seen up to `w`, with a separator in the part that is
seen. -/
lemma logFileNameText_separator {fname u v w : List UInt8} {c : UInt8}
    (hname : fname = u ++ c :: v ++ w) (hc : isPathSeparator c = true)
    (hv : ∀ d ∈ v, isPathSeparator d = false)
    (hseen : seenLength fname.length = (u ++ c :: v).length) : logFileNameText fname = v := by
  have hlast : (fname.length % 2 ^ 32 + 2 ^ 32 - 1) % 2 ^ 32 = u.length + v.length := by
    have hpos : 0 < fname.length := by
      rw [hname]
      simp
    have heq := (seenLength_eq hpos).trans hseen
    rw [List.length_append, List.length_cons] at heq
    omega
  have htake : fname.take (u.length + v.length + 1) = u ++ c :: v := by
    rw [hname, List.take_append_of_le_length (by simp), List.take_of_length_le (by simp; omega)]
  have hsize : (((u ++ c :: v).reverse.dropLast).takeWhile fun d => !isPathSeparator d).length
      = v.length := by
    have hrev : ∀ d ∈ v.reverse, (!isPathSeparator d) = true := by simpa using hv
    rw [List.reverse_append, List.reverse_cons, List.append_assoc]
    cases u with
    | nil =>
        rw [List.reverse_nil, List.append_nil, List.dropLast_concat,
          List.takeWhile_eq_self_iff.mpr hrev, List.length_reverse]
    | cons d u =>
        rw [List.reverse_cons, ← List.append_assoc [c], ← List.append_assoc, List.dropLast_concat,
          List.takeWhile_append_of_pos hrev, List.singleton_append,
          List.takeWhile_cons_of_neg (by simp [hc]), List.append_nil, List.length_reverse]
  have hdrop : fname.drop (u.length + v.length - v.length) = c :: (v ++ w) := by
    rw [Nat.add_sub_cancel, hname, List.append_assoc, List.drop_left, List.cons_append]
  simp only [logFileNameText, hlast, htake, hsize, hdrop, List.headD_cons, hc, if_true,
    List.tail_cons, List.take_left]

/-- What is printed of a name without a separator in the part that is seen. -/
lemma logFileNameText_noSeparator {fname seen w : List UInt8} (hname : fname = seen ++ w)
    (hne : seen ≠ []) (hnone : ∀ d ∈ seen, isPathSeparator d = false)
    (hseen : seenLength fname.length = seen.length) :
    logFileNameText fname = seen.dropLast := by
  obtain ⟨c, s, rfl⟩ := List.exists_cons_of_ne_nil hne
  have hlast : (fname.length % 2 ^ 32 + 2 ^ 32 - 1) % 2 ^ 32 = s.length := by
    have hpos : 0 < fname.length := by
      rw [hname]
      simp
    have heq := (seenLength_eq hpos).trans hseen
    rw [List.length_cons] at heq
    omega
  have htake : fname.take (s.length + 1) = c :: s := by
    rw [hname, ← List.length_cons (a := c), List.take_left]
  have hrev : ∀ d ∈ s.reverse, (!isPathSeparator d) = true := by
    simpa using fun d hd => hnone d (List.mem_cons_of_mem c hd)
  have hsize : (((c :: s).reverse.dropLast).takeWhile fun d => !isPathSeparator d).length
      = s.length := by
    rw [List.reverse_cons, List.dropLast_concat, List.takeWhile_eq_self_iff.mpr hrev,
      List.length_reverse]
  have hhead : isPathSeparator (fname.headD 0) = false := by
    rw [hname]
    exact hnone c List.mem_cons_self
  simp only [logFileNameText, hlast, htake, hsize, Nat.sub_self, List.drop_zero, hhead]
  rw [hname, List.dropLast_eq_take, List.length_cons, Nat.add_sub_cancel, if_neg (by simp),
    List.take_append_of_le_length (by simp)]

/-- The part of a name that is seen decides what is printed. -/
lemma logFileNameText_eq {fname : List UInt8} (hne : fname ≠ []) :
    let seen := fname.take (seenLength fname.length)
    ((∃ c ∈ seen, isPathSeparator c = true) ∧ logFileNameText fname = lastPathPart seen) ∨
      ((∀ c ∈ seen, isPathSeparator c = false) ∧ logFileNameText fname = seen.dropLast) := by
  intro seen
  have hpos := List.length_pos_of_ne_nil hne
  have hname : fname = seen ++ fname.drop (seenLength fname.length) :=
    (List.take_append_drop _ _).symm
  have hlength : seenLength fname.length = seen.length := by
    rw [List.length_take, Nat.min_eq_left (seenLength_le hpos)]
  by_cases h : ∃ c ∈ seen, isPathSeparator c = true
  · obtain ⟨u, c, v, huv, hc, hv⟩ := exists_lastSeparator h
    rw [huv] at hname hlength
    refine .inl ⟨h, ?_⟩
    rw [logFileNameText_separator hname hc hv hlength, huv, lastPathPart_append hc hv]
  · have hnone : ∀ c ∈ seen, isPathSeparator c = false := by
      intro c hc
      by_contra htrue
      exact h ⟨c, hc, by simpa using htrue⟩
    have hseen : seen ≠ [] := by
      intro hnil
      rw [hnil, seenLength] at hlength
      simp at hlength
    exact .inr ⟨hnone, logFileNameText_noSeparator hname hseen hnone hlength⟩

/-- What is printed is the last part of the name exactly under the condition. -/
lemma logFileNameText_eq_iff {fname : List UInt8} (hne : fname ≠ []) :
    logFileNameText fname = lastPathPart fname ↔ FileNameKept fname := by
  have htext := logFileNameText_eq hne
  have hpos := List.length_pos_of_ne_nil hne
  rw [FileNameKept]
  split_ifs with hlen
  · rw [seenLength_of_le hpos hlen, List.take_length] at htext
    rcases htext with ⟨hsep, htext⟩ | ⟨hnone, htext⟩
    · exact ⟨fun _ => hsep, fun _ => htext⟩
    · constructor
      · intro h
        rw [htext, lastPathPart_self hnone] at h
        have hlength := congrArg List.length h
        rw [List.length_dropLast] at hlength
        omega
      · rintro ⟨c, hmem, hc⟩
        exact absurd hc (by simp [hnone c hmem])
  · rcases htext with ⟨hsep, htext⟩ | ⟨hnone, htext⟩
    · rw [htext]
      refine ⟨fun h => .inl ⟨hsep, h⟩, fun h => ?_⟩
      rcases h with ⟨-, h⟩ | ⟨hnone, -⟩
      · exact h
      · obtain ⟨c, hmem, hc⟩ := hsep
        exact absurd hc (by simp [hnone c hmem])
    · rw [htext]
      refine ⟨fun h => .inr ⟨hnone, h⟩, fun h => ?_⟩
      rcases h with ⟨⟨c, hmem, hc⟩, -⟩ | ⟨-, h⟩
      · exact absurd hc (by simp [hnone c hmem])
      · exact h

/-- The pattern `%F`. -/
def fileNamePattern : CString := ⟨[0x25, 0x46], by decide⟩

lemma logPatternParse_fileName (env : LogEnvironment) :
    logPatternParse env fileNamePattern
      = .ok [{ logAppenderItemCreate .fileName with limit := -1 }] :=
  rfl

/-- The item of `%F`, without a width or a limit. -/
lemma logPatternAppend_fileName (conv : List UInt8 → Tm → List UInt8)
    (param : LogPatternAppendFuncParam) {item : LogAppenderFormatItem}
    (htype : item.type = .fileName) (hlength : item.length = 0) (hlimit : item.limit ≤ 0) :
    logPatternAppend conv param item = .ok (logFileNameText param.fname) := by
  rw [logPatternAppend, htype]
  simp only
  rw [logPatternAppendPadding_plain hlength hlimit]

/-- The item of `%c`, without a width or a limit. -/
lemma logPatternAppend_loggerName (conv : List UInt8 → Tm → List UInt8)
    (param : LogPatternAppendFuncParam) {item : LogAppenderFormatItem}
    (htype : item.type = .loggerName) (hlength : item.length = 0) (hlimit : item.limit ≤ 0) :
    logPatternAppend conv param item
      = .ok (logLoggerNameText item param.fullname param.namepath) := by
  rw [logPatternAppend, htype]
  simp only
  rw [logPatternAppendPadding_plain hlength hlimit]

lemma logPatternLine_fileName (conv : List UInt8 → Tm → List UInt8) (env : LogEnvironment)
    (param : LogPatternAppendFuncParam) :
    logPatternLine conv env fileNamePattern param = .ok (logFileNameText param.fname) := by
  rw [logPatternLine_of_parse conv (logPatternParse_fileName env), logAppenderLine_singleton]
  exact logPatternAppend_fileName conv param rfl rfl (by decide)

/-- **File names.** The line of the pattern `%F` is the last part of the name of the source
file if and only if the name meets the condition. -/
theorem fileName_iff (conv : List UInt8 → Tm → List UInt8) (env : LogEnvironment)
    (param : LogPatternAppendFuncParam) :
    logPatternLine conv env fileNamePattern param = .ok (lastPathPart param.fname) ↔
      FileNameKept param.fname := by
  rw [logPatternLine_fileName, Except.ok.injEq]
  exact logFileNameText_eq_iff param.fname_ne

/-- A message that is logged in the file `main.c`. -/
def mainParam : LogPatternAppendFuncParam where
  __ := plainParam ⟨0, 0, 0, 0, 0, 0, 0, 0, 0⟩ 0
  fname := [0x6D, 0x61, 0x69, 0x6E, 0x2E, 0x63]
  fname_ne := by simp

/-- Of the file name `main.c` the pattern `%F` prints `main.`. -/
theorem fileName_fails :
    logPatternLine (fun _ _ => []) plainEnv fileNamePattern mainParam
        = .ok [0x6D, 0x61, 0x69, 0x6E, 0x2E] ∧
      logPatternLine (fun _ _ => []) plainEnv fileNamePattern mainParam
        ≠ .ok (lastPathPart mainParam.fname) := by
  have htext : logFileNameText mainParam.fname = [0x6D, 0x61, 0x69, 0x6E, 0x2E] := by decide
  rw [logPatternLine_fileName, htext]
  exact ⟨rfl, by decide⟩

/-! ### Loggers -/

/-- Components of a name joined by dots. -/
def dots (namepath : List (List UInt8)) : List UInt8 := List.intercalate [0x2E] namepath

/-- How many of `seen` components are printed for a precision of 32 bits: as many as it says,
but one when there are not so many. Zero stands for `2 ^ 32`. -/
def shownCount (precision seen : ℕ) : ℕ :=
  let count := (precision + 2 ^ 32 - 1) % 2 ^ 32 + 1
  if count ≤ seen then count else 1

/-- The condition on the number in the braces and the components of the name. The number fits
in its buffer, and there are as many components, or there is only one, or the low 32 bits of
the number are the number of components. A name of more than `2 ^ 32` components, of which only
the first are seen, has to end like these. -/
def LoggerNameKept (n : ℕ) (namepath : List (List UInt8)) : Prop :=
  (decimal n).length < 128 ∧
    if namepath.length ≤ 2 ^ 32 then
      n ≤ namepath.length ∨ namepath.length = 1 ∨
        atoiUnsigned (decimal n) = namepath.length % 2 ^ 32
    else
      let seen := namepath.take (seenLength namepath.length)
      dots (seen.rtake (shownCount (atoiUnsigned (decimal n)) seen.length))
        = dots (namepath.rtake n)

/-- The loop over the components, and the last one. -/
lemma flatMap_components {l : List (List UInt8)} {m : ℕ} (hm : m < l.length) : ∀ (d a : ℕ),
    m - a = d → a ≤ m →
    ((List.range' a d).flatMap fun i => l.getD i [] ++ [0x2E]) ++ l.getD m []
      = dots ((l.take (m + 1)).drop a)
  | 0, a, hd, ha => by
      obtain rfl : a = m := by omega
      have hdrop : (l.take (a + 1)).drop a = [l.getD a []] := by
        rw [List.drop_take, Nat.add_sub_cancel_left, List.drop_eq_getElem_cons hm,
          List.take_succ_cons, List.take_zero, List.getD_eq_getElem _ _ hm]
      rw [hdrop, dots, List.intercalate_singleton]
      rfl
  | d + 1, a, hd, ha => by
      have hlt : a < (l.take (m + 1)).length := by
        rw [List.length_take]
        omega
      have hne : (l.take (m + 1)).drop (a + 1) ≠ [] := by
        rw [Ne, List.drop_eq_nil_iff, List.length_take]
        omega
      have hget : (l.take (m + 1))[a] = l.getD a [] := by
        rw [List.getElem_take, List.getD_eq_getElem _ _ (by omega)]
      have ih := flatMap_components hm d (a + 1) (by omega) (by omega)
      rw [List.range'_succ, List.flatMap_cons, List.append_assoc, ih, dots, dots,
        List.drop_eq_getElem_cons hlt, List.intercalate_cons_of_ne_nil hne, hget]

/-- The case of one precision, with names for the first and the last index. -/
lemma logLoggerNameText_one {item : LogAppenderFormatItem} {precision first last : ℕ}
    (hcnt : item.precisioncnt = 1) (hprecision : item.precision = [precision])
    (fullname : List UInt8) {namepath : List (List UInt8)}
    (hfirst : (namepath.length % 2 ^ 32 + 2 ^ 32 - precision) % 2 ^ 32 = first)
    (hlast : (namepath.length % 2 ^ 32 + 2 ^ 32 - 1) % 2 ^ 32 = last) :
    logLoggerNameText item fullname namepath
      = ((List.range' first (last - first)).flatMap fun i => namepath.getD i [] ++ [0x2E])
        ++ namepath.getD last [] := by
  simp only [logLoggerNameText, hcnt, hprecision, List.getD_cons_zero, hfirst, hlast]

/-- What is printed: the last ones of the components that are seen. -/
lemma logLoggerNameText_eq {item : LogAppenderFormatItem} {precision : ℕ}
    (hcnt : item.precisioncnt = 1) (hprecision : item.precision = [precision])
    (hlt : precision < 2 ^ 32) (fullname : List UInt8) {namepath : List (List UInt8)}
    (hne : namepath ≠ []) :
    let seen := namepath.take (seenLength namepath.length)
    logLoggerNameText item fullname namepath
      = dots (seen.rtake (shownCount precision seen.length)) := by
  intro seen
  have hpos := List.length_pos_of_ne_nil hne
  have hle := seenLength_le hpos
  have heq := seenLength_eq hpos
  have hseen : seen.length = seenLength namepath.length := by
    rw [List.length_take, Nat.min_eq_left hle]
  have hsize : seenLength namepath.length ≤ 2 ^ 32 ∧
      seenLength namepath.length % 2 ^ 32 = namepath.length % 2 ^ 32 := by
    rw [seenLength]
    omega
  obtain ⟨last, hlast⟩ : ∃ last, (namepath.length % 2 ^ 32 + 2 ^ 32 - 1) % 2 ^ 32 = last :=
    ⟨_, rfl⟩
  obtain ⟨first, hfirst⟩ :
      ∃ first, (namepath.length % 2 ^ 32 + 2 ^ 32 - precision) % 2 ^ 32 = first := ⟨_, rfl⟩
  rw [hlast] at heq
  rw [logLoggerNameText_one hcnt hprecision fullname hfirst hlast]
  have hstart : seen.length - shownCount precision seen.length = min first last := by
    rw [shownCount, hseen]
    split_ifs <;> omega
  have hdrop : seen.rtake (shownCount precision seen.length)
      = (namepath.take (last + 1)).drop (min first last) := by
    rw [List.rtake, hstart, heq]
  rw [hdrop, ← flatMap_components (by omega) (last - min first last) _ rfl (by omega)]
  by_cases hrun : first ≤ last
  · rw [Nat.min_eq_left hrun]
  · rw [Nat.min_eq_right (by omega), Nat.sub_self, Nat.sub_eq_zero_of_le (by omega)]
    rfl

/-- More components are a longer text. -/
lemma dots_rtake_length_lt {l : List (List UInt8)} {a b : ℕ} (hab : a < b) (ha : 0 < a)
    (hb : b ≤ l.length) : (dots (l.rtake a)).length < (dots (l.rtake b)).length := by
  have hsuffix : l.rtake a <:+ l.rtake b := by
    rw [List.rtake, List.rtake]
    exact List.drop_suffix_drop_left l (by omega)
  have hsum : ((l.rtake a).map List.length).sum ≤ ((l.rtake b).map List.length).sum :=
    (hsuffix.sublist.map _).sum_le_sum fun _ _ => Nat.zero_le _
  rw [dots, dots, length_intercalate, length_intercalate]
  simp only [List.rtake, List.length_drop, List.length_singleton] at hsum ⊢
  omega

lemma dots_rtake_inj {l : List (List UInt8)} {a b : ℕ} (ha : 0 < a) (hal : a ≤ l.length)
    (hb : 0 < b) (hbl : b ≤ l.length) : dots (l.rtake a) = dots (l.rtake b) ↔ a = b := by
  refine ⟨fun h => ?_, fun h => by rw [h]⟩
  rcases lt_trichotomy a b with hlt | heq | hgt
  · exact absurd (congrArg List.length h) (dots_rtake_length_lt hlt ha hbl).ne
  · exact heq
  · exact absurd (congrArg List.length h) (dots_rtake_length_lt hgt hb hal).ne'

lemma rtake_min (l : List (List UInt8)) (n : ℕ) : l.rtake (min n l.length) = l.rtake n := by
  rw [List.rtake, List.rtake]
  congr 1
  omega

/-- With at most `2 ^ 32` components the number of those that are printed is right exactly
under the condition. -/
lemma shownCount_eq_iff {n k : ℕ} (hn : 0 < n) (hk : 0 < k) (hle : k ≤ 2 ^ 32) :
    shownCount (atoiUnsigned (decimal n)) k = min n k ↔
      n ≤ k ∨ k = 1 ∨ atoiUnsigned (decimal n) = k % 2 ^ 32 := by
  rw [atoiUnsigned_decimal, shownCount]
  split_ifs <;> omega

/-- What is printed is the end of the name exactly under the condition. -/
lemma dots_shown_iff {n : ℕ} (hn : 0 < n) {namepath : List (List UInt8)} (hne : namepath ≠ []) :
    let seen := namepath.take (seenLength namepath.length)
    (decimal n).length < 128 →
      (dots (seen.rtake (shownCount (atoiUnsigned (decimal n)) seen.length))
          = dots (namepath.rtake n) ↔ LoggerNameKept n namepath) := by
  intro seen hlen
  have hpos := List.length_pos_of_ne_nil hne
  rw [LoggerNameKept, and_iff_right hlen]
  split_ifs with hle
  · have hseen : seen = namepath := by
      change namepath.take _ = namepath
      rw [seenLength_of_le hpos hle, List.take_length]
    have hcount : 0 < shownCount (atoiUnsigned (decimal n)) namepath.length ∧
        shownCount (atoiUnsigned (decimal n)) namepath.length ≤ namepath.length := by
      rw [shownCount]
      split_ifs <;> omega
    rw [hseen, ← rtake_min namepath n, dots_rtake_inj hcount.1 hcount.2 (by omega) (by omega)]
    exact shownCount_eq_iff hn hpos hle
  · rfl

/-- The pattern `%c{n}`. -/
def loggerNamePattern (n : ℕ) : CString :=
  ⟨[0x25, 0x63, 0x7B] ++ (decimal n ++ [0x7D]), by
    have hzero := decimal_notMem (c := 0) (by decide) n
    simp [hzero]⟩

/-- The numbers of the conversion `%c{n}`. -/
def loggerNameSpec (n : ℕ) : LogPatternSpec := ⟨.loggerName, 0, -1, false, false, some (decimal n)⟩

lemma logPatternSpec_loggerName (n : ℕ) :
    logPatternSpec ([0x63, 0x7B] ++ (decimal n ++ [0x7D]))
      = if (decimal n).length < 128 then .ok (loggerNameSpec n, []) else .error .outOfBounds := by
  have hsplit : strchrSplit 0x7D (decimal n ++ [0x7D]) = some (decimal n, []) :=
    strchrSplit_append (decimal_notMem (by decide) n) (decimal_notMem (by decide) n) []
  have hext : logPatternExt (0x7B :: (decimal n ++ [0x7D]))
      = if (decimal n).length < 128 then .ok (some (decimal n), []) else .error .outOfBounds := by
    rw [logPatternExt, if_pos rfl, hsplit]
  have hspec : logPatternSpec ([0x63, 0x7B] ++ (decimal n ++ [0x7D]))
      = (logPatternExt (0x7B :: (decimal n ++ [0x7D]))).map fun r =>
        (⟨.loggerName, 0, -1, false, false, r.1⟩, r.2) := rfl
  rw [hspec, hext]
  split_ifs <;> rfl

lemma logPatternParse_loggerName (env : LogEnvironment) (n : ℕ) :
    logPatternParse env (loggerNamePattern n)
      = if (decimal n).length < 128 then
          .ok [(loggerNameSpec n).item (logLoggerNameItem (decimal n))]
        else .error .outOfBounds := by
  have hsplit : strchrSplit 0x25 (loggerNamePattern n).1
      = some ([], [0x63, 0x7B] ++ (decimal n ++ [0x7D])) := rfl
  have hhead : ([0x63, 0x7B] ++ (decimal n ++ [0x7D])).head? ≠ some 0x25 := by simp
  have hlen : (loggerNamePattern n).1.length = (decimal n).length + 4 := by
    simp [loggerNamePattern]
  rw [logPatternParse, hlen, logPatternLoop, hsplit]
  simp only
  rw [if_neg hhead, logPatternSpec_loggerName]
  split_ifs <;> rfl

/-- The item of `%c{n}`. -/
def loggerNameItem (n : ℕ) : LogAppenderFormatItem :=
  (loggerNameSpec n).item (logLoggerNameItem (decimal n))

/-- The item of `%c{n}` has one precision. -/
lemma loggerNameItem_precision (n : ℕ) :
    (loggerNameItem n).precision = [atoiUnsigned (decimal n)] ∧
      (loggerNameItem n).precisioncnt = 1 := by
  have hsplit : strchrSplit 0x2E (decimal n) = none :=
    strchrSplit_none (decimal_notMem (by decide) n)
  have hprecisions : logPrecisions 9 (decimal n) = [] := by rw [logPrecisions, hsplit]
  simp [loggerNameItem, loggerNameSpec, LogPatternSpec.item, logLoggerNameItem, hprecisions]

lemma logPatternLine_loggerName (conv : List UInt8 → Tm → List UInt8) (env : LogEnvironment)
    (param : LogPatternAppendFuncParam) (n : ℕ) :
    logPatternLine conv env (loggerNamePattern n) param
      = if (decimal n).length < 128 then
          .ok (logLoggerNameText (loggerNameItem n) param.fullname param.namepath)
        else .error .outOfBounds := by
  have hparse := logPatternParse_loggerName env n
  split_ifs at hparse ⊢ with hlen
  · rw [logPatternLine_of_parse conv hparse, logAppenderLine_singleton]
    have hlimit : (loggerNameItem n).limit ≤ 0 := by
      change (-1 : ℤ) ≤ 0
      decide
    exact logPatternAppend_loggerName conv param rfl rfl hlimit
  · rw [logPatternLine, hparse]
    rfl

/-- A message of the logger `a.b`. -/
def dottedParam : LogPatternAppendFuncParam where
  __ := plainParam ⟨0, 0, 0, 0, 0, 0, 0, 0, 0⟩ 0
  fullname := [0x61, 0x2E, 0x62]
  namepath := [[0x61], [0x62]]
  namepath_ne := by simp

end LibCmutils
