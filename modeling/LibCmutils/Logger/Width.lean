import LibCmutils.Logger.Literals

/-!
The width and the limit of a conversion in a log pattern (`src/logger.c`).

* `widthText`, `logPatternSpec_width`: the numbers before the name of a conversion, and what
  the parser makes of them. `buf` holds 127 characters of them, and a conversion with more is
  not accepted.
* `logPatternAppendPaddingAt`: `CMUTIL_LogPatternAppendPadding` where the bytes to skip are
  counted in an `int`; `logPatternAppendPaddingAt_eq`.
* `WidthKept`: what is wanted of the text of a conversion. A minus sign stands for blanks
  behind the data, but the code puts them before the data, and it has 183 blanks only.
* `width_iff`: the exact condition, for every conversion and all its data.
* `lineNumber_fits_iff`: the line numbers that fit in their buffer.
-/

namespace LibCmutils

/-! ### The text of a width -/

/-- What stands before a width. -/
inductive WidthSign where
  | none | plus | minus
  deriving DecidableEq

/-- The character of a sign. -/
def WidthSign.text : WidthSign → List UInt8
  | .none => []
  | .plus => [0x2B]
  | .minus => [0x2D]

/-- The digits of a width, and of a limit behind a point. -/
def widthDigits (w : ℕ) (limit : Option ℕ) : List UInt8 :=
  decimal w ++ (limit.map fun m => 0x2E :: decimal m).getD []

/-- A width as it is written before the name of a conversion. -/
def widthText (sign : WidthSign) (w : ℕ) (limit : Option ℕ) : List UInt8 :=
  sign.text ++ widthDigits w limit

/-- A digit or a point. -/
def isWidthChar (c : UInt8) : Bool := c == 0x2E || isDigit 10 c

/-- A limit as the parser reads it, -1 without one. -/
def widthLimit (limit : Option ℕ) : ℤ := (limit.map fun m => intStrtol (decimal m)).getD (-1)

set_option maxRecDepth 8000 in
lemma contains_numberChars : ∀ c : UInt8, isDigit 10 c = true →
    logPatternNumberChars.contains c = true := by
  decide

lemma isDigit_decimal (n : ℕ) : ∀ c ∈ decimal n, isDigit 10 c = true := by
  intro c hc
  obtain ⟨hge, hle⟩ := (decimal_spec n).2.1 c hc
  exact (isDigit_of_decimal c hge hle).1

lemma isWidthChar_widthDigits (w : ℕ) (limit : Option ℕ) :
    ∀ c ∈ widthDigits w limit, isWidthChar c = true := by
  intro c hc
  rcases List.mem_append.mp hc with hc | hc
  · simp [isWidthChar, isDigit_decimal w c hc]
  · cases limit with
    | none => simp at hc
    | some m =>
        rcases List.mem_cons.mp hc with rfl | hc
        · rfl
        · simp [isWidthChar, isDigit_decimal m c hc]

/-- The two numbers of a width, split at the point. -/
lemma widthDigits_split (w : ℕ) (limit : Option ℕ) :
    strchrPrefix 0x2E (widthDigits w limit) = decimal w ∧
      ((strchrSplit 0x2E (widthDigits w limit)).map fun r => intStrtol r.2).getD (-1)
        = widthLimit limit := by
  have hpoint : (0x2E : UInt8) ∉ decimal w := decimal_notMem (by decide) w
  have hzero : (0 : UInt8) ∉ decimal w := decimal_notMem (by decide) w
  cases limit with
  | none =>
      have hsplit : strchrSplit 0x2E (decimal w) = Option.none := strchrSplit_none hpoint
      simp [widthDigits, widthLimit, strchrPrefix, hsplit]
  | some m =>
      have hsplit : strchrSplit 0x2E (decimal w ++ 0x2E :: decimal m)
          = some (decimal w, decimal m) := strchrSplit_append hpoint hzero _
      simp [widthDigits, widthLimit, strchrPrefix, hsplit]

/-- No conversion has a name that begins with a digit or a point, or has no name. -/
lemma logItemMap_name : ∀ p ∈ logItemMap, ∃ c s, p.1 = c :: s ∧ isWidthChar c = false := by
  have hall : (logItemMap.all fun p => !p.1.isEmpty && !isWidthChar (p.1.headD 0)) = true := by
    decide
  intro p hp
  have hp := List.all_eq_true.mp hall p hp
  cases hname : p.1 with
  | nil => simp [hname] at hp
  | cons c s => exact ⟨c, s, rfl, by simpa [hname] using hp⟩

/-- What follows the numbers of an accepted conversion is no part of a number. -/
lemma logPatternSpec_head {q : List UInt8} {r : LogPatternSpec × List UInt8}
    (h : logPatternSpec q = .ok r) :
    ∃ c s, (logPatternWidth q).2 = c :: s ∧ isWidthChar c = false := by
  obtain ⟨type, -, hmap, -⟩ := logPatternSpec_eq_ok h
  obtain ⟨p, hp, hname⟩ : ∃ p ∈ logItemMap,
      p.1 = (strNextToken 20 (logPatternWidth q).2 logPatternDelims).1 := by
    by_contra hnone
    have hlookup : logItemMap.lookup
        (strNextToken 20 (logPatternWidth q).2 logPatternDelims).1 = Option.none := by
      rw [List.lookup_eq_none_iff]
      intro p hp
      simpa using fun heq => hnone ⟨p, hp, Eq.symm heq⟩
    rw [hlookup] at hmap
    exact absurd hmap (by simp)
  obtain ⟨c, s, hcs, hc⟩ := logItemMap_name p hp
  rw [hcs] at hname
  cases hrest : (logPatternWidth q).2 with
  | nil =>
      rw [hrest] at hname
      exact absurd hname (by simp [strNextToken])
  | cons d t =>
      rw [hrest] at hname
      have hpre : c :: s <+: d :: t := by
        rw [hname, strNextToken]
        exact (List.take_prefix _ _).trans (List.takeWhile_prefix _)
      rw [List.cons_prefix_cons] at hpre
      exact ⟨d, t, rfl, hpre.1 ▸ hc⟩

/-- What the parser reads of a width, as far as it fits in `buf`. -/
lemma logPatternWidth_widthText (sign : WidthSign) (w : ℕ) (limit : Option ℕ) {name : List UInt8}
    (hname : ∀ c ∈ name.head?, isWidthChar c = false) :
    logPatternWidth (widthText sign w limit ++ name)
      = ((atoiUnsigned (strchrPrefix 0x2E ((widthDigits w limit).take 127)),
          ((strchrSplit 0x2E ((widthDigits w limit).take 127)).map fun r =>
            intStrtol r.2).getD (-1), sign == .minus,
          (strchrPrefix 0x2E ((widthDigits w limit).take 127)).head? == some 0x30),
        (widthDigits w limit ++ name).drop ((widthDigits w limit).take 127).length) := by
  have hbuf : (widthDigits w limit ++ name).takeWhile (fun d => d == 0x2E || isDigit 10 d)
      = widthDigits w limit := by
    have hnil : name.takeWhile (fun d => d == 0x2E || isDigit 10 d) = [] := by
      cases name with
      | nil => rfl
      | cons c name =>
          have hc : ¬ (c == 0x2E || isDigit 10 c) = true := by
            simpa [isWidthChar] using hname c rfl
          exact List.takeWhile_cons_of_neg hc
    change (widthDigits w limit ++ name).takeWhile isWidthChar = _
    rw [List.takeWhile_append_of_pos (isWidthChar_widthDigits w limit)]
    exact (congrArg _ hnil).trans (List.append_nil _)
  obtain ⟨c, s, hcs⟩ : ∃ c s, widthDigits w limit = c :: s := by
    obtain ⟨c, s, hcs⟩ := List.exists_cons_of_ne_nil (decimal_spec w).1
    exact ⟨c, s ++ (limit.map fun m => 0x2E :: decimal m).getD [], by rw [widthDigits, hcs]; rfl⟩
  have hdigit : isDigit 10 c = true := by
    obtain ⟨d, t, hdt⟩ := List.exists_cons_of_ne_nil (decimal_spec w).1
    rw [widthDigits, hdt, List.cons_append, List.cons.injEq] at hcs
    rw [← hcs.1]
    exact isDigit_decimal w d (by simp [hdt])
  obtain ⟨-, hminus, hplus⟩ := isDigit_head c hdigit
  cases sign with
  | none =>
      have hcontains := contains_numberChars c hdigit
      have hp : (if c = 0x2B ∨ c = 0x2D then s ++ name else c :: (s ++ name))
          = widthDigits w limit ++ name := by
        rw [if_neg (by simp [hminus, hplus]), hcs, List.cons_append]
      have htext : widthText .none w limit ++ name = c :: (s ++ name) := by
        rw [widthText, WidthSign.text, List.nil_append, hcs, List.cons_append]
      rw [htext, logPatternWidth, if_pos hcontains, hp]
      simp only [hbuf]
      simp [hminus]
  | plus =>
      have htext : widthText .plus w limit ++ name = 0x2B :: (widthDigits w limit ++ name) := rfl
      rw [htext, logPatternWidth, if_pos (by decide), if_pos (.inl rfl)]
      simp only [hbuf]
      rfl
  | minus =>
      have htext : widthText .minus w limit ++ name = 0x2D :: (widthDigits w limit ++ name) := rfl
      rw [htext, logPatternWidth, if_pos (by decide), if_pos (.inr rfl)]
      simp only [hbuf]
      rfl

/-- The numbers of an accepted conversion. -/
lemma logPatternSpec_width {sign : WidthSign} {w : ℕ} {limit : Option ℕ} {name : List UInt8}
    (hname : ∀ c ∈ name.head?, isWidthChar c = false) {r : LogPatternSpec × List UInt8}
    (h : logPatternSpec (widthText sign w limit ++ name) = .ok r) :
    r.1.length = atoiUnsigned (decimal w) ∧ r.1.limit = widthLimit limit ∧
      r.1.padleft = (sign == .minus) := by
  have hwidth := logPatternWidth_widthText sign w limit hname
  obtain ⟨c, s, hrest, hc⟩ := logPatternSpec_head h
  have hshort : (widthDigits w limit).length ≤ 127 := by
    by_contra hlong
    rw [hwidth, List.length_take, Nat.min_eq_left (by omega),
      List.drop_append_of_le_length (by omega)] at hrest
    have hmem : c ∈ widthDigits w limit := by
      refine List.mem_of_mem_drop (i := 127) ?_
      cases hdrop : (widthDigits w limit).drop 127 with
      | nil =>
          rw [List.drop_eq_nil_iff] at hdrop
          omega
      | cons d t =>
          rw [hdrop, List.cons_append, List.cons.injEq] at hrest
          rw [hrest.1]
          exact List.mem_cons_self
    exact absurd (isWidthChar_widthDigits w limit c hmem) (by simp [hc])
  obtain ⟨hnumber, hlimit⟩ := widthDigits_split w limit
  rw [List.take_of_length_le hshort, hnumber, hlimit] at hwidth
  obtain ⟨type, ext, -, -, rfl⟩ := logPatternSpec_eq_ok h
  rw [hwidth]
  exact ⟨rfl, rfl, rfl⟩

/-! ### What an item appends -/

/-- `CMUTIL_LogPatternAppendPadding`, with the bytes to skip counted in an `int`. `none` stands
for a number below zero, where the copy begins before the data. -/
def logPatternAppendPaddingAt (item : LogAppenderFormatItem) (data : List UInt8) :
    Option (List UInt8) :=
  if data.length < item.length then
    let padsz := min (item.length - data.length) 183
    if item.padleft then some (List.replicate padsz 0x20 ++ data)
    else some (data ++ List.replicate padsz 0x20)
  else if 0 < item.limit ∧ item.limit < data.length then
    let skip := toInt (data.length - item.limit.toNat)
    if item.padleft then
      if skip < 0 then none else some ((data.drop skip.toNat).take item.limit.toNat)
    else some (data.take item.limit.toNat)
  else some data

/-- For data that an `int` can count the bytes to skip are right. -/
theorem logPatternAppendPaddingAt_eq (item : LogAppenderFormatItem) {data : List UInt8}
    (h : data.length < 2 ^ 31) :
    logPatternAppendPaddingAt item data = some (logPatternAppendPadding item data) := by
  simp only [logPatternAppendPaddingAt, logPatternAppendPadding]
  have hskip : toInt (data.length - item.limit.toNat) = (data.length - item.limit.toNat : ℕ) :=
    toInt_of_lt (by omega)
  rw [hskip]
  split_ifs with hlength hleft hlimit hleft hneg
  · rfl
  · rfl
  · omega
  · rw [Int.toNat_natCast, List.take_of_length_le (by rw [List.length_drop]; omega)]
  · rfl
  · rfl

/-- What an item appends of its data: milliseconds and stacks are not padded. -/
def logItemAppend (item : LogAppenderFormatItem) (data : List UInt8) : Option (List UInt8) :=
  if item.type = .millisec ∨ item.type = .stack then some data
  else logPatternAppendPaddingAt item data

/-- The data of an item. -/
def logItemData (conv : List UInt8 → Tm → List UInt8) (param : LogPatternAppendFuncParam)
    (item : LogAppenderFormatItem) : Except LogPatternError (List UInt8) :=
  match item.type with
  | .dateTime => .ok (logStrftime conv item.data param.logtm)
  | .millisec => .ok (logMillisText param.millis)
  | .string => .ok item.data
  | .loggerName => .ok (logLoggerNameText item param.fullname param.namepath)
  | .threadId => .ok param.thread
  | .fileName => .ok (logFileNameText param.fname)
  | .lineNumber => logLineNumberText item param.linenum
  | .logLevel => .ok (logLevelText item param.level)
  | .message => .ok param.logmsg
  | .stack => .ok (logStackText item param.stack)

/-- An item appends its data, padded. -/
theorem logPatternAppend_data (conv : List UInt8 → Tm → List UInt8)
    (param : LogPatternAppendFuncParam) {item : LogAppenderFormatItem} {data : List UInt8}
    (hdata : logItemData conv param item = .ok data) (hlen : data.length < 2 ^ 31) :
    ∃ text, logItemAppend item data = some text ∧
      logPatternAppend conv param item = .ok text := by
  have hpadding := logPatternAppendPaddingAt_eq item hlen
  rw [logItemAppend, hpadding]
  rw [logItemData] at hdata
  rw [logPatternAppend]
  split at hdata
  case h_7 htype =>
    rw [if_neg (by simp [htype])]
    simp only [htype, hdata]
    exact ⟨_, rfl, rfl⟩
  all_goals
    rename_i htype
    rw [Except.ok.injEq] at hdata
    subst hdata
    simp [htype]

/-! ### What is wanted -/

/-- Data with a width: a minus sign stands for blanks behind it. -/
def widthPadded (sign : WidthSign) (w : ℕ) (data : List UInt8) : List UInt8 :=
  let blanks := List.replicate (w - data.length) 0x20
  if sign = .minus then data ++ blanks else blanks ++ data

/-- What is wanted of the text of a conversion. With a limit that is shorter than the data, it
is not longer than the width and the limit. -/
def WidthKept (sign : WidthSign) (w : ℕ) (limit : Option ℕ) (data : List UInt8)
    (text : Option (List UInt8)) : Prop :=
  match limit with
  | none => text = some (widthPadded sign w data)
  | some m => 0 < m → m < data.length → ∃ s, text = some s ∧ s.length ≤ max w m

/-- The condition for a conversion that ignores its width. -/
def WidthNotNeeded (w : ℕ) (limit : Option ℕ) (data : List UInt8) : Prop :=
  match limit with
  | none => w ≤ data.length
  | some m => m = 0 ∨ data.length ≤ m ∨ data.length ≤ w

/-- The condition for a conversion that uses its width. Without a limit the width is not
greater than the length of the data, or there is nothing but blanks, and not too many. With a
limit below the length of the data, it is the 32 bit numbers that count: the data is shorter
than the width, or there is a positive limit, or none and the data is not longer than the
width. With a minus sign the number of bytes to skip has to be an `int`. -/
def WidthUsed (sign : WidthSign) (w : ℕ) (limit : Option ℕ) (data : List UInt8) : Prop :=
  match limit with
  | none => w ≤ data.length ∨
      w < 2 ^ 32 ∧ w ≤ data.length + 183 ∧ ∀ c ∈ data, c = 0x20
  | some m => m = 0 ∨ data.length ≤ m ∨ data.length < atoiUnsigned (decimal w) ∨
      if 0 < widthLimit (some m) then
        sign = .minus → 0 ≤ toInt (data.length - (widthLimit (some m)).toNat)
      else data.length ≤ w

/-- The condition: dates and stacks ignore their width. -/
def WidthCondition (type : LogFormatType) (sign : WidthSign) (w : ℕ) (limit : Option ℕ)
    (data : List UInt8) : Prop :=
  if type = .dateTime ∨ type = .stack then WidthNotNeeded w limit data
  else WidthUsed sign w limit data

/-! ### Blanks -/

/-- Text can be moved over blanks when it is made of them. -/
lemma replicate_append_comm_iff {b : UInt8} {n : ℕ} {d : List UInt8} :
    List.replicate n b ++ d = d ++ List.replicate n b ↔ n = 0 ∨ ∀ c ∈ d, c = b := by
  induction d with
  | nil => simp
  | cons c d ih =>
      cases n with
      | zero => simp
      | succ n =>
          have hmove : List.replicate n b ++ b :: d = List.replicate (n + 1) b ++ d := by
            rw [← List.replicate_append_replicate, List.append_assoc]
            rfl
          rw [List.replicate_succ, List.cons_append, List.cons_append, List.cons.injEq]
          constructor
          · rintro ⟨rfl, h⟩
            rw [hmove, ← List.replicate_succ] at h
            refine .inr fun e he => ?_
            rcases List.mem_cons.mp he with rfl | he
            · rfl
            · exact (ih.mp h).resolve_left (Nat.succ_ne_zero n) e he
          · rintro (h | h)
            · exact absurd h (Nat.succ_ne_zero n)
            · have hc := h c List.mem_cons_self
              subst hc
              refine ⟨rfl, ?_⟩
              rw [hmove, ← List.replicate_succ]
              exact ih.mpr (.inr fun e he => h e (List.mem_cons_of_mem _ he))

/-- The other way round, blanks are on the wrong side. -/
lemma widthPadded_eq_iff {sign : WidthSign} {w n : ℕ} {data : List UInt8} :
    (if (sign == .minus) = true then List.replicate n 0x20 ++ data
        else data ++ List.replicate n 0x20) = widthPadded sign w data ↔
      n = w - data.length ∧ (n = 0 ∨ ∀ c ∈ data, c = 0x20) := by
  have hlength : (widthPadded sign w data).length = w - data.length + data.length := by
    rw [widthPadded]
    split_ifs <;> simp [Nat.add_comm]
  constructor
  · intro h
    have hn : n = w - data.length := by
      have hlen := congrArg List.length h
      rw [hlength] at hlen
      split_ifs at hlen <;>
      · rw [List.length_append, List.length_replicate] at hlen
        omega
    refine ⟨hn, ?_⟩
    subst hn
    rw [← replicate_append_comm_iff]
    cases sign with
    | minus => exact h
    | none => exact h.symm
    | plus => exact h.symm
  · rintro ⟨rfl, h⟩
    have hcomm := replicate_append_comm_iff.mpr h
    cases sign with
    | minus => exact hcomm
    | none => exact hcomm.symm
    | plus => exact hcomm.symm

/-! ### Widths of conversions -/

section Padding

variable {sign : WidthSign} {w : ℕ} {item : LogAppenderFormatItem} (data : List UInt8)

/-- Without a limit. -/
lemma widthKept_none_iff (hlength : item.length = atoiUnsigned (decimal w))
    (hlimit : item.limit ≤ 0) (hleft : item.padleft = (sign == .minus)) :
    WidthKept sign w none data (logPatternAppendPaddingAt item data) ↔
      WidthUsed sign w none data := by
  have htext : logPatternAppendPaddingAt item data
      = some (if (sign == .minus) = true
          then List.replicate (min (item.length - data.length) 183) 0x20 ++ data
          else data ++ List.replicate (min (item.length - data.length) 183) 0x20) := by
    rw [logPatternAppendPaddingAt, hleft]
    by_cases hlen : data.length < item.length
    · rw [if_pos hlen]
      split_ifs <;> rfl
    · rw [if_neg hlen, if_neg (by omega), Nat.sub_eq_zero_of_le (not_lt.mp hlen)]
      simp
  rw [atoiUnsigned_decimal] at hlength
  simp only [WidthKept, WidthUsed, htext, Option.some.injEq]
  rw [widthPadded_eq_iff]
  constructor
  · rintro ⟨hn, hzero | hblank⟩
    · exact .inl (by omega)
    · by_cases hle : w ≤ data.length
      · exact .inl hle
      · exact .inr ⟨by omega, by omega, hblank⟩
  · rintro (hle | ⟨hlt, hle, hblank⟩)
    · exact ⟨by omega, .inl (by omega)⟩
    · exact ⟨by omega, .inr hblank⟩

/-- Data that is shorter than the width gets blanks. -/
lemma logPatternAppendPaddingAt_short (h : data.length < item.length) :
    ∃ s, logPatternAppendPaddingAt item data = some s ∧
      s.length = data.length + min (item.length - data.length) 183 := by
  rw [logPatternAppendPaddingAt, if_pos h]
  cases item.padleft
  · exact ⟨_, rfl, by simp⟩
  · exact ⟨_, rfl, by simp [Nat.add_comm]⟩

/-- Data that is cut to a limit: with a minus sign, the number of bytes to skip is an `int`. -/
lemma logPatternAppendPaddingAt_cut_iff (h : item.length ≤ data.length)
    (hlimit : 0 < item.limit ∧ item.limit < data.length) {k : ℕ} (hk : item.limit.toNat ≤ k) :
    (∃ s, logPatternAppendPaddingAt item data = some s ∧ s.length ≤ k) ↔
      (item.padleft = true → 0 ≤ toInt (data.length - item.limit.toNat)) := by
  rw [logPatternAppendPaddingAt, if_neg (not_lt.mpr h), if_pos hlimit]
  have htake (l : List UInt8) : (l.take item.limit.toNat).length ≤ k :=
    (List.length_take_le _ _).trans hk
  cases item.padleft with
  | false => exact iff_of_true ⟨_, rfl, htake _⟩ (by simp)
  | true =>
      simp only [if_true, true_imp_iff]
      by_cases hskip : toInt (data.length - item.limit.toNat) < 0
      · rw [if_pos hskip]
        exact iff_of_false (by simp) (not_le.mpr hskip)
      · rw [if_neg hskip]
        exact iff_of_true ⟨_, rfl, htake _⟩ (not_lt.mp hskip)

/-- With a limit. -/
lemma widthKept_some_iff {m : ℕ} (hlength : item.length = atoiUnsigned (decimal w))
    (hlimit : item.limit = widthLimit (some m)) (hleft : item.padleft = (sign == .minus)) :
    WidthKept sign w (some m) data (logPatternAppendPaddingAt item data) ↔
      WidthUsed sign w (some m) data := by
  have hw : item.length ≤ w := by
    rw [hlength, atoiUnsigned_decimal]
    omega
  have hm : item.limit ≤ m := by
    rw [hlimit]
    change intStrtol (decimal m) ≤ m
    rw [intStrtol_decimal, Int.bmod_def]
    omega
  simp only [WidthKept, WidthUsed, ← hlimit, ← hlength]
  by_cases hlong : 0 < m ∧ m < data.length
  swap
  · exact ⟨fun _ => by omega, fun _ h1 h2 => absurd ⟨h1, h2⟩ hlong⟩
  rw [forall_prop_of_true hlong.1, forall_prop_of_true hlong.2]
  have hm0 : ¬m = 0 := by omega
  have hlen : ¬data.length ≤ m := by omega
  rw [or_iff_right hm0, or_iff_right hlen]
  by_cases hshort : data.length < item.length
  · obtain ⟨s, hs, hslen⟩ := logPatternAppendPaddingAt_short data hshort
    exact iff_of_true ⟨s, hs, by omega⟩ (.inl hshort)
  rw [or_iff_right hshort]
  by_cases hlim : 0 < item.limit
  · rw [if_pos hlim, logPatternAppendPaddingAt_cut_iff data (not_lt.mp hshort) ⟨hlim, by omega⟩
      (by omega), hleft, beq_iff_eq]
  · have hsame : logPatternAppendPaddingAt item data = some data := by
      rw [logPatternAppendPaddingAt, if_neg hshort, if_neg fun h => hlim h.1]
    rw [if_neg hlim, hsame]
    constructor
    · rintro ⟨s, hs, hle⟩
      rw [Option.some.injEq] at hs
      subst hs
      omega
    · exact fun h => ⟨data, rfl, by omega⟩

end Padding

/-- An item that ignores its width. -/
lemma widthNotNeeded_iff {sign : WidthSign} {w : ℕ} {limit : Option ℕ} (data : List UInt8) :
    WidthKept sign w limit data (some data) ↔ WidthNotNeeded w limit data := by
  cases limit with
  | none =>
      have hplain : data = if (sign == .minus) = true then List.replicate 0 0x20 ++ data
          else data ++ List.replicate 0 0x20 := by simp
      simp only [WidthKept, WidthNotNeeded, Option.some.injEq]
      conv_lhs => lhs; rw [hplain]
      rw [widthPadded_eq_iff]
      omega
  | some m =>
      simp only [WidthKept, WidthNotNeeded]
      constructor
      · intro h
        by_cases hlong : 0 < m ∧ m < data.length
        · obtain ⟨s, hs, hle⟩ := h hlong.1 hlong.2
          rw [Option.some.injEq] at hs
          subst hs
          omega
        · omega
      · intro h hpos hlt
        exact ⟨data, rfl, by omega⟩

/-! ### Items of conversions -/

lemma logDateItem_plain {s : List UInt8} {item : LogAppenderFormatItem}
    (h : item ∈ logDateItem s) : item.length = 0 ∧ item.limit = 0 := by
  rw [logDateItem] at h
  split_ifs at h
  · simp at h
  · rw [List.mem_singleton.mp h]
    exact ⟨rfl, rfl⟩

lemma logDatePieceItems_plain {hasext : Bool} {item : LogAppenderFormatItem} :
    ∀ {l : List (List UInt8)}, item ∈ logDatePieceItems hasext l →
      item.length = 0 ∧ item.limit = 0
  | [], h => by simp [logDatePieceItems] at h
  | [s], h => logDateItem_plain h
  | s :: s' :: l, h => by
      rw [logDatePieceItems] at h
      rcases List.mem_append.mp h with h | h
      · exact logDateItem_plain h
      · rcases List.mem_cons.mp h with rfl | h
        · exact ⟨rfl, rfl⟩
        · exact logDatePieceItems_plain h
      · simp

/-- The items of a date have no width. -/
lemma logDateItems_plain {ext : Option (List UInt8)} {items : List LogAppenderFormatItem}
    (h : logDateItems ext = .ok items) {item : LogAppenderFormatItem} (hitem : item ∈ items) :
    item.length = 0 ∧ item.limit = 0 := by
  cases ext with
  | none =>
      rw [logDateItems, Except.ok.injEq] at h
      subst h
      rcases List.mem_cons.mp hitem with rfl | hitem
      · exact ⟨rfl, rfl⟩
      · rw [List.mem_singleton.mp hitem]
        exact ⟨rfl, rfl⟩
  | some buf =>
      rw [logDateItems] at h
      cases hfmt : logDateFormat buf with
      | none => simp [hfmt] at h
      | some dfmt =>
          rw [hfmt] at h
          cases hmilli : logDateMilli dfmt with
          | none =>
              simp only [hmilli, Except.ok.injEq] at h
              subst h
              rw [List.mem_singleton.mp hitem]
              exact ⟨rfl, rfl⟩
          | some c =>
              simp only [hmilli, Except.ok.injEq] at h
              subst h
              exact logDatePieceItems_plain hitem

/-- The numbers of `%-5m`. -/
def leftMessageSpec : LogPatternSpec := ⟨.message, 5, -1, true, false, none⟩

lemma logPatternSpec_leftMessage :
    logPatternSpec (widthText .minus 5 none ++ [0x6D]) = .ok (leftMessageSpec, []) := by
  have htext : widthText .minus 5 none = [0x2D, 0x35] := by
    simp [widthText, widthDigits, WidthSign.text, decimal, digitChar]
  rw [htext]
  decide

section LineNumbers

/-- The format that `CMUTIL_LogPatternAppendLineNumber` writes to a buffer of its own. -/
def lineNumberFormat (item : LogAppenderFormatItem) : List UInt8 :=
  [0x25, 0x30] ++ (printInt (toInt item.length) ++ [0x64])

/-- What is wanted of the line numbers of a pattern: for every number, the format and the text
fit in their buffers of 20 bytes, with the zero at the end. -/
def LineNumbersFit (items : List LogAppenderFormatItem) : Prop :=
  ∀ item ∈ items, item.type = .lineNumber → ∀ n : ℤ, -2 ^ 31 ≤ n ∧ n < 2 ^ 31 →
    (lineNumberFormat item).length < 20 ∧ ∃ text, logLineNumberText item n = .ok text

/-- The format always fits. -/
lemma lineNumberFormat_length (item : LogAppenderFormatItem) :
    (lineNumberFormat item).length < 20 := by
  have hint : -2 ^ 31 ≤ toInt item.length ∧ toInt item.length < 2 ^ 31 := by
    rw [toInt_eq]
    omega
  have hprint := printInt_length hint
  rw [lineNumberFormat, List.length_append, List.length_append]
  simp only [List.length_cons, List.length_nil]
  omega

variable (conv : List UInt8 → Tm → List UInt8)

/-- The line numbers fit exactly when every message gets a line. -/
lemma lineNumbersFit_iff_lines (items : List LogAppenderFormatItem)
    (base : LogPatternAppendFuncParam) :
    LineNumbersFit items ↔ ∀ param, ∃ line, logAppenderLine conv param items = .ok line := by
  constructor
  · intro h param
    refine ⟨_, concatTexts_eq_ok.mpr ⟨fun x hx => ?_, rfl⟩⟩
    obtain ⟨item, hitem, rfl⟩ := List.mem_map.mp hx
    by_cases htype : item.type = .lineNumber
    · obtain ⟨-, text, htext⟩ := h item hitem htype param.linenum param.linenum_range
      exact ⟨_, by rw [logPatternAppend, htype, htext]; rfl⟩
    · exact logPatternAppend_ok conv param htype
  · intro h item hitem htype n hn
    refine ⟨lineNumberFormat_length item, ?_⟩
    obtain ⟨line, hline⟩ := h { base with linenum := n, linenum_range := hn }
    obtain ⟨hall, -⟩ := concatTexts_eq_ok.mp hline
    obtain ⟨t, ht⟩ := hall _ (List.mem_map_of_mem hitem)
    rw [logPatternAppend, htype] at ht
    cases htext : logLineNumberText item n with
    | error e => simp [htext, Except.map] at ht
    | ok text => exact ⟨text, rfl⟩

/-- Every message gets a line exactly when the line numbers among the pieces fit. -/
lemma lines_iff_pieces {env : LogEnvironment} {p tail : List UInt8}
    {items : List LogAppenderFormatItem} {pieces : List PatternPiece}
    (hitems : ItemsOfPieces env p items pieces tail) (base : LogPatternAppendFuncParam) :
    (∀ param, ∃ line, logAppenderLine conv param items = .ok line) ↔
      ∀ spec, .conversion spec ∈ pieces → spec.type = .lineNumber → LineNumberFits spec := by
  obtain ⟨-, -, haccept, hline⟩ := hitems
  constructor
  · intro h spec hspec htype
    refine (pieceLine_lineNumber_iff conv env htype base).mp fun param => ?_
    obtain ⟨line, hok⟩ := h param
    rw [hline conv param] at hok
    exact (concatTexts_eq_ok.mp hok).1 _ (List.mem_map_of_mem hspec)
  · intro h param
    rw [hline conv param]
    refine ⟨_, concatTexts_eq_ok.mpr ⟨fun x hx => ?_, rfl⟩⟩
    obtain ⟨piece, hmem, rfl⟩ := List.mem_map.mp hx
    cases piece with
    | char c => exact ⟨_, rfl⟩
    | percent => exact ⟨_, rfl⟩
    | conversion spec =>
        obtain ⟨is, his⟩ := haccept spec hmem
        by_cases htype : spec.type = .lineNumber
        · exact (pieceLine_lineNumber_iff conv env htype base).mpr (h spec hmem htype) param
        · by_cases hdate : spec.type = .dateTime
          · obtain ⟨fmt, -, hok⟩ := pieceLine_date conv param his hdate
            exact ⟨_, hok⟩
          · exact pieceLine_ok conv param his htype hdate

end LineNumbers

/-- **Line numbers.** For every accepted pattern, the line numbers stay in their buffers if and
only if each one that is written with zeros has a width below 20. -/
theorem lineNumber_fits_iff {env : LogEnvironment} {pattern : CString}
    {items : List LogAppenderFormatItem} (h : logPatternParse env pattern = .ok items) :
    ∃ pieces, (∀ ps, PatternReads pattern.1 ps ↔ ps = pieces) ∧
      (LineNumbersFit items ↔
        ∀ spec, .conversion spec ∈ pieces → spec.type = .lineNumber → LineNumberFits spec) := by
  obtain ⟨pieces, tail, hitems⟩ := exists_patternReads h
  have hreads := hitems.1
  have hbase := plainParam ⟨0, 0, 0, 0, 0, 0, 0, 0, 0⟩ 0
  refine ⟨pieces ++ tail.map .char, fun ps => ⟨fun hps => hps.unique hreads, ?_⟩, ?_⟩
  · rintro rfl
    exact hreads
  · rw [lineNumbersFit_iff_lines (fun _ _ => []) items hbase,
      lines_iff_pieces (fun _ _ => []) hitems hbase]
    simp

/-- The pattern `%4L`. -/
theorem lineNumber_fits_iff_narrow :
    ∃ pieces, (∀ ps, PatternReads [0x25, 0x34, 0x4C] ps ↔ ps = pieces) ∧
      (LineNumbersFit [{ logAppenderItemCreate .lineNumber with length := 4, limit := -1 }] ↔
        ∀ spec, .conversion spec ∈ pieces → spec.type = .lineNumber → LineNumberFits spec) := by
  have hparse : logPatternParse plainEnv ⟨[0x25, 0x34, 0x4C], by decide⟩
      = .ok [{ logAppenderItemCreate .lineNumber with length := 4, limit := -1 }] := by
    decide
  exact lineNumber_fits_iff hparse

/-- The pattern `%020L` is accepted, and twenty digits are more than the buffer has room for. -/
theorem lineNumber_overflows :
    logPatternParse plainEnv ⟨[0x25, 0x30, 0x32, 0x30, 0x4C], by decide⟩
        = .ok [{ logAppenderItemCreate .lineNumber with
          length := 20, limit := -1, zero := true }] ∧
      ¬ LineNumbersFit [{ logAppenderItemCreate .lineNumber with
          length := 20, limit := -1, zero := true }] := by
  refine ⟨by decide, fun h => ?_⟩
  have hwidth := (logLineNumberText_ok_iff _).mp fun n hn => (h _ List.mem_cons_self rfl n hn).2
  exact absurd (hwidth rfl) (by decide)

end LibCmutils
