import LibCmutils.Logger.Pattern
import Mathlib.Algebra.Order.BigOperators.Group.List

/-!
Date formats in log patterns (`src/logger.c`): the text that a format asks for, and what the
items made of its parts print.

* `dateText`: the text of the whole format, with the milliseconds as one more conversion.
* `dateLine`: what the items print, part by part; `logAppenderLine_dateItems`.
* `DateKept`: the condition under which the two agree (`dateLine_eq_dateText`): no conversion
  of milliseconds is cut out of another conversion, no part begins or ends with white space,
  and every part fits in the buffer at every time.
* `countP_dateLine`, `countP_dateText`: how often the milliseconds are printed.
* `dateLine_length_le`, `dateKept_of_length`: without the first fault the line is never longer
  than the text, and it is as long only under the condition.
-/

namespace LibCmutils

/-- The parts of a date format between the conversions of milliseconds. -/
def datePieces (fmt : List UInt8) (c : UInt8) : List (List UInt8) :=
  splitPieces [0x25, c] fmt.length fmt

/-- The text that a date format asks for, with `t` for the milliseconds. -/
def dateText (conv : List UInt8 → Tm → List UInt8) (fmt : List UInt8) (tm : Tm)
    (t : List UInt8) : List UInt8 :=
  match logDateMilli fmt with
  | none => formatText (fun spec => conv spec tm) none fmt
  | some c => formatText (withSpec (fun spec => conv spec tm) c t) none fmt

/-- The text that the items of a date format print, with `t` for the milliseconds. -/
def dateLine (conv : List UInt8 → Tm → List UInt8) (fmt : List UInt8) (tm : Tm)
    (t : List UInt8) : List UInt8 :=
  match logDateMilli fmt with
  | none => logStrftime conv fmt tm
  | some c =>
      t.intercalate ((datePieces fmt c).map fun s => logStrftime conv (stringSelfTrim s) tm)

/-- The condition on a date format. -/
def DateKept (conv : List UInt8 → Tm → List UInt8) (fmt : List UInt8) : Prop :=
  match logDateMilli fmt with
  | none => ∀ tm, (formatText (fun spec => conv spec tm) none fmt).length < 50
  | some c =>
      (∀ s ∈ (datePieces fmt c).dropLast, formatState none s = none) ∧
        ∀ s ∈ datePieces fmt c, stringSelfTrim s = s ∧
          ∀ tm, (formatText (fun spec => conv spec tm) none s).length < 50

/-- How often the items of a date format print the milliseconds. -/
def lineMillis (fmt : List UInt8) : ℕ :=
  match logDateMilli fmt with
  | none => 0
  | some c => (datePieces fmt c).length - 1

/-- How often the text of a date format has the milliseconds. -/
def textMillis (fmt : List UInt8) : ℕ :=
  match logDateMilli fmt with
  | none => 0
  | some c => (datePieces fmt c).dropLast.countP fun s => (formatState none s).isNone

/-! ### Lists -/

lemma countP_intercalate (p : UInt8 → Bool) (t : List UInt8) (l : List (List UInt8)) :
    (t.intercalate l).countP p = (l.map (List.countP p)).sum + (l.length - 1) * t.countP p := by
  induction l with
  | nil => simp
  | cons s l ih =>
      cases l with
      | nil => simp
      | cons s' l =>
          rw [List.intercalate_cons_cons, List.countP_append, List.countP_append, ih]
          simp only [List.map_cons, List.sum_cons, List.length_cons, Nat.add_sub_cancel]
          ring

lemma length_intercalate (t : List UInt8) (l : List (List UInt8)) :
    (t.intercalate l).length = (l.map List.length).sum + (l.length - 1) * t.length := by
  have h := countP_intercalate (fun _ => true) t l
  rwa [List.countP_true] at h

/-- Two sums of equal value, one of which has no greater term, have the same terms. -/
lemma eq_of_sum_map_eq {α : Type} {l : List α} {f g : α → ℕ} (hle : ∀ x ∈ l, f x ≤ g x)
    (hsum : (l.map g).sum ≤ (l.map f).sum) : ∀ x ∈ l, f x = g x := by
  induction l with
  | nil => simp
  | cons x l ih =>
      have hx := hle x List.mem_cons_self
      have hl := fun y hy => hle y (List.mem_cons_of_mem x hy)
      have htail := List.sum_le_sum hl
      rw [List.map_cons, List.map_cons, List.sum_cons, List.sum_cons] at hsum
      intro y hy
      rcases List.mem_cons.mp hy with rfl | hy
      · omega
      · exact ih hl (by omega) y hy

/-! ### The text of a format -/

section Pieces

variable (conv : List UInt8 → List UInt8) (c : UInt8)

/-- The text of a format from its parts. -/
def piecesText (t : List UInt8) : List (List UInt8) → List UInt8
  | [] => []
  | [s] => formatText conv none s
  | s :: arr => formatOut conv none s ++
      (needleText (withSpec conv c t) c (formatState none s) ++ piecesText t arr)

lemma piecesText_cons (t s : List UInt8) {arr : List (List UInt8)} (h : arr ≠ []) :
    piecesText conv c t (s :: arr) = formatOut conv none s ++
      (needleText (withSpec conv c t) c (formatState none s) ++ piecesText conv c t arr) := by
  cases arr with
  | nil => exact absurd rfl h
  | cons s' arr => rfl

variable {c}

lemma formatText_splitPieces (hconv : isConversion c = true)
    (hmod : ∀ mods, isModifier mods c = false) (hc : c ≠ 0x25) (t : List UInt8) :
    ∀ {fuel : ℕ} {p : List UInt8}, p.length ≤ fuel →
      formatText (withSpec conv c t) none p
        = piecesText conv c t (splitPieces [0x25, c] fuel p)
  | 0, p, hfuel => by
      rw [List.length_eq_zero_iff.mp (Nat.le_zero.mp hfuel)]
      rfl
  | fuel + 1, p, hfuel => by
      rw [splitPieces]
      cases h : strstrSplit [0x25, c] p with
      | none => exact formatText_withSpec conv t (strstrSplit_none h)
      | some r =>
          obtain ⟨u, v⟩ := r
          have hu := strstrSplit_notInfix (by simp) h
          have hv := strstrSplit_length (by simp) h
          have hrest := formatText_splitPieces hconv hmod hc t (show v.length ≤ fuel by omega)
          rw [strstrSplit_eq h, formatText_needle _ hconv hmod hc,
            formatOut_withSpec conv t (by simp) hu, hrest,
            ← piecesText_cons conv c t u (splitPieces_ne_nil _ _ _)]

/-- The milliseconds of a text are those of its parts that no conversion is left open by. -/
lemma countP_piecesText (p : UInt8 → Bool) (hc : c ≠ 0x25) (t : List UInt8)
    (arr : List (List UInt8)) :
    (piecesText conv c t arr).countP p = (piecesText conv c [] arr).countP p
      + (arr.dropLast.countP fun s => (formatState none s).isNone) * t.countP p := by
  induction arr with
  | nil => simp [piecesText]
  | cons s arr ih =>
      cases arr with
      | nil => simp [piecesText]
      | cons s' arr =>
          have hne : s' :: arr ≠ [] := by simp
          rw [piecesText_cons conv c t s hne, piecesText_cons conv c [] s hne]
          simp only [List.countP_append, ih, List.dropLast_cons_of_ne_nil hne, List.countP_cons]
          cases formatState none s with
          | none =>
              simp only [needleText, withSpec, if_true, Option.isNone_none, List.countP_nil]
              ring
          | some mods =>
              have hmods : mods ++ [0x25] ≠ [c] := by
                intro h
                have := congrArg List.getLast? h
                simp only [List.getLast?_concat, List.getLast?_singleton,
                  Option.some.injEq] at this
                exact hc this.symm
              simp only [needleText, withSpec, if_neg hmods, Option.isNone_some,
                Bool.false_eq_true, if_false]
              ring

/-- The text of a format whose parts leave no conversion open. -/
lemma piecesText_of_closed (t : List UInt8) {arr : List (List UInt8)}
    (h : ∀ s ∈ arr.dropLast, formatState none s = none) :
    piecesText conv c t arr = t.intercalate (arr.map (formatText conv none)) := by
  induction arr with
  | nil => rfl
  | cons s arr ih =>
      cases arr with
      | nil => simp [piecesText]
      | cons s' arr =>
          have hne : s' :: arr ≠ [] := by simp
          rw [List.dropLast_cons_of_ne_nil hne] at h
          have hs := h s List.mem_cons_self
          rw [piecesText_cons conv c t s hne, ih fun r hr => h r (List.mem_cons_of_mem s hr), hs,
            needleText, withSpec, if_pos rfl, ← formatText_of_closed conv hs]
          simp only [List.map_cons, List.intercalate_cons_cons, List.append_assoc]

/-! ### White space -/

set_option maxRecDepth 8000 in
lemma formatPlain_of_space : ∀ c : UInt8, strchr spaces c = true → isFormatPlain c = true := by
  decide

/-- White space that is cut off is missing from the text. -/
lemma formatText_stringSelfTrim (s : List UInt8) :
    (formatText conv none (stringSelfTrim s)).length ≤ (formatText conv none s).length ∧
      ((formatText conv none (stringSelfTrim s)).length = (formatText conv none s).length →
        stringSelfTrim s = s) := by
  obtain ⟨pre, post, hs, hpre, hpost⟩ := exists_stringSelfTrim s
  have htext : formatText conv none s
      = pre ++ (formatText conv none (stringSelfTrim s) ++ post) := by
    conv_lhs => rw [hs]
    rw [formatText_plain_append conv fun c hc => formatPlain_of_space c (hpre c hc),
      formatText_append_plain conv fun c hc => formatPlain_of_space c (hpost c hc)]
  have hlength := congrArg List.length htext
  simp only [List.length_append] at hlength
  refine ⟨by omega, fun h => ?_⟩
  have hpre0 : pre = [] := List.length_eq_zero_iff.mp (by omega)
  have hpost0 : post = [] := List.length_eq_zero_iff.mp (by omega)
  rw [hpre0, hpost0, List.append_nil, List.nil_append] at hs
  exact hs.symm

end Pieces

/-! ### Lines and texts -/

/-- The conversion of milliseconds is a letter that is no modifier. -/
lemma logDateMilli_spec {fmt : List UInt8} {c : UInt8} (h : logDateMilli fmt = some c) :
    isConversion c = true ∧ (∀ mods, isModifier mods c = false) ∧ c ≠ 0x25 := by
  have hc : c = 0x71 ∨ c = 0x51 := by
    rw [logDateMilli] at h
    split_ifs at h
    · exact Or.inl (Option.some.inj h).symm
    · exact Or.inr (Option.some.inj h).symm
  have hmod : ∀ mods, isModifier mods c = false := by
    intro mods
    rcases hc with rfl | rfl <;>
      rw [isModifier, if_neg (by decide), if_neg (by decide)] <;>
      exact Bool.and_eq_false_iff.mpr (Or.inl (by decide))
  rcases hc with rfl | rfl
  · exact ⟨by decide, hmod, by decide⟩
  · exact ⟨by decide, hmod, by decide⟩

section Dates

variable (conv : List UInt8 → Tm → List UInt8) (fmt : List UInt8) (tm : Tm)

lemma dateText_eq (t : List UInt8) {c : UInt8} (h : logDateMilli fmt = some c) :
    dateText conv fmt tm t = piecesText (fun spec => conv spec tm) c t (datePieces fmt c) := by
  obtain ⟨hconv, hmod, hc⟩ := logDateMilli_spec h
  simp only [dateText, h]
  exact formatText_splitPieces _ hconv hmod hc t le_rfl

lemma countP_dateText (p : UInt8 → Bool) (t : List UInt8) :
    (dateText conv fmt tm t).countP p
      = (dateText conv fmt tm []).countP p + textMillis fmt * t.countP p := by
  cases h : logDateMilli fmt with
  | none => simp [dateText, textMillis, h]
  | some c =>
      rw [dateText_eq conv fmt tm t h, dateText_eq conv fmt tm [] h,
        countP_piecesText _ p (logDateMilli_spec h).2.2]
      simp only [textMillis, h]

lemma countP_dateLine (p : UInt8 → Bool) (t : List UInt8) :
    (dateLine conv fmt tm t).countP p
      = (dateLine conv fmt tm []).countP p + lineMillis fmt * t.countP p := by
  cases h : logDateMilli fmt with
  | none => simp [dateLine, lineMillis, h]
  | some c => simp [dateLine, lineMillis, h, countP_intercalate]

lemma textMillis_le : textMillis fmt ≤ lineMillis fmt := by
  cases h : logDateMilli fmt with
  | none => simp [textMillis, lineMillis, h]
  | some c =>
      simp only [textMillis, lineMillis, h]
      exact List.countP_le_length.trans (by rw [List.length_dropLast])

/-- The parts of a format whose milliseconds are all printed as such. -/
lemma closed_of_textMillis {c : UInt8} (h : logDateMilli fmt = some c)
    (hmillis : textMillis fmt = lineMillis fmt) :
    ∀ s ∈ (datePieces fmt c).dropLast, formatState none s = none := by
  simp only [textMillis, lineMillis, h] at hmillis
  rw [← List.length_dropLast, List.countP_eq_length] at hmillis
  exact fun s hs => Option.isNone_iff_eq_none.mp (hmillis s hs)

/-- What a part prints is no longer than its text. -/
lemma logStrftime_length_le (s : List UInt8) :
    (logStrftime conv (stringSelfTrim s) tm).length
        ≤ (formatText (fun spec => conv spec tm) none s).length ∧
      ((logStrftime conv (stringSelfTrim s) tm).length
          = (formatText (fun spec => conv spec tm) none s).length →
        stringSelfTrim s = s ∧ (formatText (fun spec => conv spec tm) none s).length < 50) := by
  obtain ⟨hle, heq⟩ := formatText_stringSelfTrim (fun spec => conv spec tm) s
  simp only [logStrftime]
  split_ifs with hlt
  · exact ⟨hle, fun h => ⟨heq h, by omega⟩⟩
  · simp only [List.length_nil]
    omega

/-- A line is no longer than the text, when the milliseconds are printed as such, and as long
only when every part is printed as it is. -/
lemma dateLine_length_le (t : List UInt8) (hmillis : textMillis fmt = lineMillis fmt) :
    (dateLine conv fmt tm t).length ≤ (dateText conv fmt tm t).length := by
  cases h : logDateMilli fmt with
  | none =>
      simp only [dateLine, dateText, h, logStrftime]
      split_ifs <;> simp
  | some c =>
      rw [dateText_eq conv fmt tm t h,
        piecesText_of_closed _ t (closed_of_textMillis fmt h hmillis)]
      simp only [dateLine, h]
      rw [length_intercalate, length_intercalate, List.length_map, List.length_map,
        List.map_map, List.map_map]
      exact Nat.add_le_add_right
        (List.sum_le_sum fun s _ => (logStrftime_length_le conv tm s).1) _

/-- The condition, from the lengths at every time. -/
lemma dateKept_of_length (hmillis : textMillis fmt = lineMillis fmt) (t : List UInt8)
    (hlength : ∀ tm, (dateText conv fmt tm t).length ≤ (dateLine conv fmt tm t).length) :
    DateKept conv fmt := by
  cases h : logDateMilli fmt with
  | none =>
      simp only [DateKept, h]
      intro tm
      have hle := hlength tm
      simp only [dateLine, dateText, h, logStrftime] at hle
      split_ifs at hle with hlt
      · exact hlt
      · simp only [List.length_nil] at hle
        omega
  | some c =>
      have hclosed := closed_of_textMillis fmt h hmillis
      have hparts : ∀ tm, ∀ s ∈ datePieces fmt c,
          (logStrftime conv (stringSelfTrim s) tm).length
            = (formatText (fun spec => conv spec tm) none s).length := by
        intro tm
        have hle := hlength tm
        rw [dateText_eq conv fmt tm t h, piecesText_of_closed _ t hclosed] at hle
        simp only [dateLine, h] at hle
        rw [length_intercalate, length_intercalate, List.length_map, List.length_map,
          List.map_map, List.map_map] at hle
        exact eq_of_sum_map_eq (fun s _ => (logStrftime_length_le conv tm s).1)
          (Nat.le_of_add_le_add_right hle)
      simp only [DateKept, h]
      refine ⟨hclosed, fun s hs => ⟨?_, fun tm => ?_⟩⟩
      · exact ((logStrftime_length_le conv ⟨0, 0, 0, 0, 0, 0, 0, 0, 0⟩ s).2 (hparts _ s hs)).1
      · exact ((logStrftime_length_le conv tm s).2 (hparts tm s hs)).2

/-- Under the condition the items print the text. -/
lemma dateLine_eq_dateText (hkept : DateKept conv fmt) (t : List UInt8) :
    dateLine conv fmt tm t = dateText conv fmt tm t := by
  cases h : logDateMilli fmt with
  | none =>
      simp only [DateKept, h] at hkept
      simp only [dateLine, dateText, h, logStrftime, if_pos (hkept tm)]
  | some c =>
      simp only [DateKept, h] at hkept
      obtain ⟨hclosed, hparts⟩ := hkept
      rw [dateText_eq conv fmt tm t h, piecesText_of_closed _ t hclosed]
      simp only [dateLine, h]
      congr 1
      refine List.map_congr_left fun s hs => ?_
      obtain ⟨htrim, hlt⟩ := hparts s hs
      simp only [htrim, logStrftime, if_pos (hlt tm)]

end Dates

/-! ### The items of a date format -/

/-- The date format of a conversion with the given text in braces; without one it is
`%F %T.%Q`. -/
def logDateFormatOf : Option (List UInt8) → Option (List UInt8)
  | none => some [0x25, 0x46, 0x20, 0x25, 0x54, 0x2E, 0x25, 0x51]
  | some buf => logDateFormat buf

section Items

variable (conv : List UInt8 → Tm → List UInt8) (param : LogPatternAppendFuncParam)

lemma logPatternAppend_dateTime {item : LogAppenderFormatItem} (htype : item.type = .dateTime)
    (hlength : item.length = 0) (hlimit : item.limit = 0) :
    logPatternAppend conv param item = .ok (logStrftime conv item.data param.logtm) := by
  rw [logPatternAppend, htype]
  exact congrArg Except.ok (logPatternAppendPadding_plain hlength hlimit.le _)

lemma logAppenderLine_dateItem (s : List UInt8) :
    logAppenderLine conv param (logDateItem s) = .ok (logStrftime conv s param.logtm) := by
  by_cases hs : s = []
  · rw [logDateItem, if_pos hs, hs]
    rfl
  · rw [logDateItem, if_neg hs, logAppenderLine_singleton]
    exact logPatternAppend_dateTime conv param rfl rfl rfl

lemma logAppenderLine_datePieceItems (hasext : Bool) (arr : List (List UInt8)) :
    logAppenderLine conv param (logDatePieceItems hasext arr)
      = .ok ((logMillisText param.millis).intercalate
          (arr.map fun s => logStrftime conv s param.logtm)) := by
  induction arr with
  | nil => simp [logDatePieceItems, logAppenderLine, concatTexts]
  | cons s arr ih =>
      cases arr with
      | nil => simp [logDatePieceItems, logAppenderLine_dateItem]
      | cons s' arr =>
          rw [logDatePieceItems, logAppenderLine_append, logAppenderLine_cons, ih,
            logAppenderLine_dateItem]
          · simp only [List.map_cons, List.intercalate_cons_cons, List.append_assoc]
            rfl
          · simp

/-- The line of the items of an accepted date format. -/
lemma logAppenderLine_dateItems {ext : Option (List UInt8)} {items : List LogAppenderFormatItem}
    (h : logDateItems ext = .ok items) :
    ∃ fmt, logDateFormatOf ext = some fmt ∧ logAppenderLine conv param items
      = .ok (dateLine conv fmt param.logtm (logMillisText param.millis)) := by
  cases ext with
  | none =>
      refine ⟨_, rfl, ?_⟩
      rw [logDateItems, Except.ok.injEq] at h
      have hmilli : logDateMilli [0x25, 0x46, 0x20, 0x25, 0x54, 0x2E, 0x25, 0x51] = some 0x51 := by
        decide
      have hpieces : datePieces [0x25, 0x46, 0x20, 0x25, 0x54, 0x2E, 0x25, 0x51] 0x51
          = [[0x25, 0x46, 0x20, 0x25, 0x54, 0x2E], []] := by
        decide
      have htrim : stringSelfTrim [0x25, 0x46, 0x20, 0x25, 0x54, 0x2E]
          = [0x25, 0x46, 0x20, 0x25, 0x54, 0x2E] := by
        decide
      have hempty : logStrftime conv (stringSelfTrim []) param.logtm = [] := rfl
      simp only [dateLine, hmilli, hpieces, List.map_cons, List.map_nil, htrim, hempty,
        List.intercalate_cons_cons, List.intercalate_singleton, List.append_nil]
      rw [← h, logAppenderLine_cons, logPatternAppend_dateTime conv param rfl rfl rfl,
        logAppenderLine_singleton]
      rfl
  | some buf =>
      rw [logDateItems] at h
      cases hfmt : logDateFormat buf with
      | none =>
          rw [hfmt] at h
          exact absurd h (by simp)
      | some fmt =>
          refine ⟨fmt, hfmt, ?_⟩
          rw [hfmt] at h
          simp only at h
          cases hmilli : logDateMilli fmt with
          | none =>
              rw [hmilli] at h
              simp only [Except.ok.injEq] at h
              simp only [dateLine, hmilli]
              rw [← h, logAppenderLine_singleton]
              exact logPatternAppend_dateTime conv param rfl rfl rfl
          | some c =>
              rw [hmilli] at h
              simp only [Except.ok.injEq] at h
              simp only [dateLine, hmilli]
              rw [← h, logAppenderLine_datePieceItems, stringSplitInternal, if_neg (by simp),
                List.map_map]
              rfl

end Items

end LibCmutils
