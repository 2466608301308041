import LibCmutils.Lib.CNumber

/-!
Format strings as `strftime` reads them.

* `isModifier`, `isConversion`: between a percent sign and the conversion character there
  are flags, a width, and one of `E` and `O`.
* `formatNext`, `formatEmit`: the step of the reader at one character. Its state is `none`
  outside of a specification, and what follows the percent sign inside of one.
* `formatText`: the text of a format; `formatText_append` cuts it in two.
* `formatText_append_plain`, `formatText_plain_append`: text without specifications at the
  ends of a format stands at the ends of what is printed.
* `withSpec`: one more conversion. `formatOut_withSpec` is a format without it,
  `formatText_needle` the place where it stands.

What a specification prints is a parameter. One that is not valid is copied, and so is one
that the end of the format cuts off.
-/

namespace LibCmutils

/-- The flags `_`, `-`, `0`, `^`, `#` and `+`. -/
def formatFlags : List UInt8 := [0x5F, 0x2D, 0x30, 0x5E, 0x23, 0x2B]

/-- Whether a character goes on with the specification that `mods` has begun: flags come
first, the digits of a width next, and one of `E` and `O` last. -/
def isModifier (mods : List UInt8) (c : UInt8) : Bool :=
  if c = 0x45 ∨ c = 0x4F then mods.all fun m => m != 0x45 && m != 0x4F
  else if isDigit 10 c then mods.all fun m => formatFlags.contains m || isDigit 10 m
  else formatFlags.contains c && mods.all formatFlags.contains

/-- Whether a character ends a specification that can be valid. -/
def isConversion (c : UInt8) : Bool :=
  c == 0x25 || (0x41 ≤ c && c ≤ 0x5A) || (0x61 ≤ c && c ≤ 0x7A)

/-- A character that stands for itself, also behind a percent sign. -/
def isFormatPlain (c : UInt8) : Bool := !isConversion c && !formatFlags.contains c && !isDigit 10 c

/-- The state behind a character. -/
def formatNext : Option (List UInt8) → UInt8 → Option (List UInt8)
  | none, c => if c = 0x25 then some [] else none
  | some mods, c => if isModifier mods c then some (mods ++ [c]) else none

/-- What is printed at a character. -/
def formatEmit (conv : List UInt8 → List UInt8) : Option (List UInt8) → UInt8 → List UInt8
  | none, c => if c = 0x25 then [] else [c]
  | some mods, c =>
      if isModifier mods c then []
      else if isConversion c then conv (mods ++ [c])
      else 0x25 :: (mods ++ [c])

/-- The state behind a text. -/
def formatState (st : Option (List UInt8)) (s : List UInt8) : Option (List UInt8) :=
  s.foldl formatNext st

/-- What is printed up to the end of a text. -/
def formatOut (conv : List UInt8 → List UInt8) : Option (List UInt8) → List UInt8 → List UInt8
  | _, [] => []
  | st, c :: s => formatEmit conv st c ++ formatOut conv (formatNext st c) s

/-- What the end of the format prints. -/
def formatPending : Option (List UInt8) → List UInt8
  | none => []
  | some mods => 0x25 :: mods

/-- The text of a format. -/
def formatText (conv : List UInt8 → List UInt8) (st : Option (List UInt8)) (s : List UInt8) :
    List UInt8 :=
  formatOut conv st s ++ formatPending (formatState st s)

section Reader

variable (conv : List UInt8 → List UInt8)

lemma formatOut_append (st : Option (List UInt8)) (u v : List UInt8) :
    formatOut conv st (u ++ v) = formatOut conv st u ++ formatOut conv (formatState st u) v := by
  induction u generalizing st with
  | nil => rfl
  | cons c u ih =>
      rw [List.cons_append, formatOut, ih, formatOut, List.append_assoc]
      rfl

lemma formatState_append (st : Option (List UInt8)) (u v : List UInt8) :
    formatState st (u ++ v) = formatState (formatState st u) v :=
  List.foldl_append

/-- The text of a format, cut in two. -/
lemma formatText_append (st : Option (List UInt8)) (u v : List UInt8) :
    formatText conv st (u ++ v) = formatOut conv st u ++ formatText conv (formatState st u) v := by
  rw [formatText, formatOut_append, formatState_append, List.append_assoc]
  rfl

/-- A text that no specification is left open by. -/
lemma formatText_of_closed {st : Option (List UInt8)} {s : List UInt8}
    (h : formatState st s = none) : formatText conv st s = formatOut conv st s := by
  rw [formatText, h, formatPending, List.append_nil]

@[simp] lemma formatText_nil : formatText conv none [] = [] := rfl

/-! ### Plain characters -/

lemma isModifier_of_formatPlain {c : UInt8} (hc : isFormatPlain c = true) (mods : List UInt8) :
    isModifier mods c = false := by
  simp only [isFormatPlain, Bool.and_eq_true, Bool.not_eq_true'] at hc
  obtain ⟨⟨hconv, hflag⟩, hdigit⟩ := hc
  have hletter : ¬ (c = 0x45 ∨ c = 0x4F) := by
    rintro (rfl | rfl) <;> exact absurd hconv (by decide)
  rw [isModifier, if_neg hletter, if_neg (by simp [hdigit]), hflag, Bool.false_and]

lemma ne_percent_of_formatPlain {c : UInt8} (hc : isFormatPlain c = true) : c ≠ 0x25 := by
  rintro rfl
  exact absurd hc (by decide)

lemma formatNext_plain (st : Option (List UInt8)) {c : UInt8} (hc : isFormatPlain c = true) :
    formatNext st c = none := by
  cases st with
  | none => exact if_neg (ne_percent_of_formatPlain hc)
  | some mods => exact if_neg (by simp [isModifier_of_formatPlain hc])

lemma formatEmit_plain (st : Option (List UInt8)) {c : UInt8} (hc : isFormatPlain c = true) :
    formatEmit conv st c = formatPending st ++ [c] := by
  cases st with
  | none => exact if_neg (ne_percent_of_formatPlain hc)
  | some mods =>
      have hconv : isConversion c = false := by
        simp only [isFormatPlain, Bool.and_eq_true, Bool.not_eq_true'] at hc
        exact hc.1.1
      rw [formatEmit, if_neg (by simp [isModifier_of_formatPlain hc]), if_neg (by simp [hconv])]
      rfl

/-- Plain characters at the beginning of a format are printed first. -/
lemma formatText_plain_append {ws : List UInt8} (hws : ∀ c ∈ ws, isFormatPlain c = true)
    (s : List UInt8) : formatText conv none (ws ++ s) = ws ++ formatText conv none s := by
  induction ws with
  | nil => rfl
  | cons c ws ih =>
      have hc := hws c List.mem_cons_self
      have ih := ih fun d hd => hws d (List.mem_cons_of_mem c hd)
      have hstep : formatText conv none ([c] ++ (ws ++ s))
          = formatOut conv none [c] ++ formatText conv (formatState none [c]) (ws ++ s) :=
        formatText_append conv none [c] (ws ++ s)
      have hstate : formatState none [c] = none := formatNext_plain none hc
      have hout : formatOut conv none [c] = [c] := by
        rw [formatOut, formatOut, List.append_nil, formatEmit_plain conv none hc]
        rfl
      rw [hstate, hout, ih] at hstep
      exact hstep

/-- Plain characters end a specification without completing it. -/
lemma formatText_plain {ws : List UInt8} (hws : ∀ c ∈ ws, isFormatPlain c = true)
    (st : Option (List UInt8)) : formatText conv st ws = formatPending st ++ ws := by
  cases ws with
  | nil => rw [List.append_nil]; rfl
  | cons c ws =>
      have hc := hws c List.mem_cons_self
      have hrest := formatText_plain_append conv
        (fun d hd => hws d (List.mem_cons_of_mem c hd)) []
      rw [List.append_nil, formatText_nil, List.append_nil] at hrest
      have hstep := formatText_append conv st [c] ws
      rw [show formatState st [c] = none from formatNext_plain st hc, hrest, formatOut, formatOut,
        List.append_nil, formatEmit_plain conv st hc, List.append_assoc] at hstep
      exact hstep

/-- Plain characters at the end of a format are printed last, also behind a specification
that they cut off. -/
lemma formatText_append_plain {ws : List UInt8} (hws : ∀ c ∈ ws, isFormatPlain c = true)
    (st : Option (List UInt8)) (s : List UInt8) :
    formatText conv st (s ++ ws) = formatText conv st s ++ ws := by
  rw [formatText_append, formatText_plain conv hws, formatText, List.append_assoc]

/-! ### One more conversion -/

/-- The conversions, and `c` which prints `t`. -/
def withSpec (c : UInt8) (t : List UInt8) : List UInt8 → List UInt8 :=
  fun spec => if spec = [c] then t else conv spec

/-- The conversion makes no difference to a text in which it does not stand. -/
lemma formatOut_withSpec {c : UInt8} (t : List UInt8) :
    ∀ {s : List UInt8} {st : Option (List UInt8)}, (st = some [] → s.head? ≠ some c) →
      ¬ [0x25, c] <:+: s → formatOut (withSpec conv c t) st s = formatOut conv st s
  | [], _, _, _ => rfl
  | d :: s, st, hhead, hinfix => by
      have hs : ¬ [0x25, c] <:+: s := fun h => hinfix (List.infix_cons h)
      have hnext : formatNext st d = some [] → s.head? ≠ some c := by
        intro h hc
        cases st with
        | none =>
            simp only [formatNext, ite_eq_left_iff, reduceCtorEq, imp_false, not_not] at h
            obtain ⟨s', rfl⟩ : ∃ s', s = c :: s' := by
              cases s with
              | nil => exact absurd hc (by simp)
              | cons e s' => exact ⟨s', by rw [List.head?_cons, Option.some.injEq] at hc; rw [hc]⟩
            exact hinfix ⟨[], s', by rw [h]; rfl⟩
        | some mods =>
            rw [formatNext] at h
            split at h
            · simp at h
            · simp at h
      rw [formatOut, formatOut, formatOut_withSpec t hnext hs]
      congr 1
      cases st with
      | none => rfl
      | some mods =>
          have hne : mods ++ [d] ≠ [c] := by
            intro h
            cases mods with
            | nil =>
                rw [List.nil_append, List.cons.injEq] at h
                exact hhead rfl (by rw [List.head?_cons, h.1])
            | cons m mods => simp at h
          rw [formatEmit, formatEmit, withSpec, if_neg hne]

lemma formatText_withSpec {c : UInt8} (t : List UInt8) {s : List UInt8}
    (h : ¬ [0x25, c] <:+: s) :
    formatText (withSpec conv c t) none s = formatText conv none s := by
  rw [formatText, formatText, formatOut_withSpec conv t (by simp) h]

/-- What a percent sign and a conversion character print behind a text: the conversion, or,
when the text leaves a specification open, the end of that and the character itself. -/
def needleText (c : UInt8) : Option (List UInt8) → List UInt8
  | none => conv [c]
  | some mods => conv (mods ++ [0x25]) ++ [c]

/-- The text of a format at a percent sign and a conversion character. -/
lemma formatText_needle {c : UInt8} (hconv : isConversion c = true)
    (hmod : ∀ mods, isModifier mods c = false) (hc : c ≠ 0x25) (u v : List UInt8) :
    formatText conv none (u ++ ([0x25, c] ++ v))
      = formatOut conv none u ++ (needleText conv c (formatState none u)
        ++ formatText conv none v) := by
  have hpercent : ∀ mods, isModifier mods 0x25 = false := by
    intro mods
    rw [isModifier, if_neg (by decide), if_neg (by decide)]
    exact Bool.and_eq_false_iff.mpr (Or.inl (by decide))
  rw [formatText_append, formatText_append]
  congr 2
  · cases formatState none u with
    | none => simp [formatOut, formatEmit, formatNext, needleText, hmod, hconv]
    | some mods =>
        have hsign : isConversion 0x25 = true := by decide
        simp [formatOut, formatEmit, formatNext, needleText, hpercent, hsign, hc]
  · cases formatState none u with
    | none => simp [formatState, formatNext, hmod]
    | some mods => simp [formatState, formatNext, hpercent, hc]

end Reader

end LibCmutils
