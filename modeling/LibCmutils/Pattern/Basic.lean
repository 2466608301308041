import LibCmutils.Lib.Glob
import Mathlib.Algebra.Order.Ring.Int

/-!
Matching file names (`src/pattern.c`).

* `patternChar`, `patternRange`: a character of a set that may be quoted, and a range of them.
* `patternIsValid`: `CMUTIL_PatternIsValid`, with its loop over a set `patternSetEnd`.
* `patternSubmatch`: `CMUTIL_PatternSubmatch`, with its loop over a set `patternSetLoop`.
* `patternMatch`, `patternMatchN`: `CMUTIL_PatternMatch` and `CMUTIL_PatternMatchN`.

The code is compiled for Unix without the treatment of path delimiters. A text is the list of
its bytes before the terminating NUL, whose place is the end of the list.
-/

namespace LibCmutils

/-! ### The characters of patterns -/

abbrev fpatQuote : UInt8 := 0x5C
abbrev fpatDot : UInt8 := 0x2E
abbrev fpatNot : UInt8 := 0x21
abbrev fpatAny : UInt8 := 0x3F
abbrev fpatClos : UInt8 := 0x2A
abbrev fpatClosp : UInt8 := 0x1A
abbrev fpatSetL : UInt8 := 0x5B
abbrev fpatSetR : UInt8 := 0x5D
abbrev fpatSetNot : UInt8 := 0x21
abbrev fpatSetThru : UInt8 := 0x2D

/-- A `char` as an `int`: it has a sign. -/
def charInt (c : UInt8) : ℤ := c.toInt8.toInt

/-! ### Sets -/

/-- A character of a set, perhaps quoted, and what is behind it. -/
def patternChar : List UInt8 → Option (UInt8 × List UInt8)
  | [] => none
  | c :: pat =>
      if c = fpatQuote then
        match pat with
        | [] => none
        | d :: pat => some (d, pat)
      else some (c, pat)

/-- One round of the loops over a set: the bounds of the range, and what is behind it. There is
none when the pattern ends before, or directly behind. -/
def patternRange (pat : List UInt8) : Option ((UInt8 × UInt8) × List UInt8) :=
  match patternChar pat with
  | none => none
  | some (lo, pat) =>
      match if pat.head? = some fpatSetThru then patternChar pat.tail else some (lo, pat) with
      | none | some (_, []) => none
      | some (hi, c :: pat) => some ((lo, hi), c :: pat)

lemma patternChar_length {pat rest : List UInt8} {c : UInt8}
    (h : patternChar pat = some (c, rest)) : rest.length < pat.length := by
  fun_cases patternChar pat with
  | case1 => exact absurd h (by simp [patternChar])
  | case2 => exact absurd h (by simp [patternChar])
  | case3 d pat =>
      obtain ⟨-, rfl⟩ : d = c ∧ pat = rest := by simpa [patternChar] using h
      simp only [List.length_cons]
      omega
  | case4 d pat hd =>
      obtain ⟨-, rfl⟩ : d = c ∧ pat = rest := by simpa [patternChar, hd] using h
      simp

lemma patternRange_length {pat rest : List UInt8} {r : UInt8 × UInt8}
    (h : patternRange pat = some (r, rest)) : rest.length < pat.length := by
  rw [patternRange] at h
  split at h
  · exact absurd h (by simp)
  · next lo p hlo =>
      have hp := patternChar_length hlo
      split at h
      · exact absurd h (by simp)
      · exact absurd h (by simp)
      · next hi d q hhi =>
          rw [← (Prod.mk.inj (Option.some.inj h)).2]
          split_ifs at hhi
          · have hq := patternChar_length hhi
            rw [List.length_tail] at hq
            omega
          · rwa [← (Prod.mk.inj (Option.some.inj hhi)).2]

/-- The loop of `CMUTIL_PatternIsValid` over a set: what is behind the closing bracket. `none`
stands for its `return CMFalse`. -/
def patternSetEnd (pat : List UInt8) : Option (List UInt8) :=
  if pat.head? = some fpatSetR then some pat.tail
  else
    match _h : patternRange pat with
    | none => none
    | some (_, rest) => patternSetEnd rest
termination_by pat.length
decreasing_by exact patternRange_length _h

lemma patternSetEnd_length {pat rest : List UInt8} (h : patternSetEnd pat = some rest) :
    rest.length < pat.length := by
  fun_induction patternSetEnd pat with
  | case1 pat hr =>
      rw [← Option.some.inj h]
      match pat with
      | c :: pat => simp
  | case2 => exact absurd h (by simp)
  | case3 pat _ r p hp ih => exact (ih h).trans (patternRange_length hp)

/-- The loop of `CMUTIL_PatternSubmatch` over a set: whether `fch` matches, and the place in the
pattern where the loop ends. -/
def patternSetLoop (fch : UInt8) (yes : Bool) (pat : List UInt8) (isMatch : Bool) :
    Bool × List UInt8 :=
  if pat = [] ∨ pat.head? = some fpatSetR then (isMatch, pat)
  else
    match _h : patternRange pat with
    | none => (isMatch, [])
    | some ((lo, hi), rest) =>
        if charInt lo ≤ charInt fch ∧ charInt fch ≤ charInt hi then
          patternSetLoop fch yes rest yes
        else patternSetLoop fch yes rest isMatch
termination_by pat.length
decreasing_by all_goals exact patternRange_length _h

lemma patternSetLoop_length (fch : UInt8) (yes : Bool) (pat : List UInt8) (isMatch : Bool) :
    (patternSetLoop fch yes pat isMatch).2.length ≤ pat.length := by
  fun_induction patternSetLoop fch yes pat isMatch with
  | case1 => exact le_rfl
  | case2 => exact Nat.zero_le _
  | case3 pat isMatch _ lo hi rest h _ ih => exact ih.trans (patternRange_length h).le
  | case4 pat isMatch _ lo hi rest h _ ih => exact ih.trans (patternRange_length h).le

/-- The pattern behind a negation of a set, and whether the set is a plain one. -/
def patternSetNot (pat : List UInt8) : Bool × List UInt8 :=
  if pat.head? = some fpatSetNot then (false, pat.tail) else (true, pat)

lemma patternSetNot_length (pat : List UInt8) : (patternSetNot pat).2.length ≤ pat.length := by
  rw [patternSetNot]
  split_ifs <;> simp

/-- The part of `CMUTIL_PatternSubmatch` for a set: what is behind the closing bracket when
`fch` matches. `none` stands for its `return CMFalse`. -/
def patternSet (fch : UInt8) (pat : List UInt8) : Option (List UInt8) :=
  let (yes, pat) := patternSetNot pat
  match patternSetLoop fch yes pat (!yes) with
  | (false, _) | (true, []) => none
  | (true, _ :: pat) => some pat

lemma patternSet_length {fch : UInt8} {pat rest : List UInt8}
    (h : patternSet fch pat = some rest) : rest.length < pat.length := by
  have hloop := patternSetLoop_length fch (patternSetNot pat).1 (patternSetNot pat).2
    (!(patternSetNot pat).1)
  have hnot := patternSetNot_length pat
  simp only [patternSet] at h
  split at h
  · exact absurd h (by simp)
  · exact absurd h (by simp)
  · next c p hp =>
      rw [hp, List.length_cons] at hloop
      rw [← Option.some.inj h]
      omega

/-! ### The functions -/

/-- `CMUTIL_PatternIsValid`. -/
def patternIsValid (pat : List UInt8) : Bool :=
  match pat with
  | [] => true
  | c :: pat =>
      if c = fpatSetL then
        match _h : patternSetEnd (patternSetNot pat).2 with
        | none => false
        | some rest => patternIsValid rest
      else if c = fpatQuote then
        match pat with
        | [] => false
        | _ :: pat => patternIsValid pat
      else if c = fpatNot then
        match pat with
        | [] => false
        | _ :: pat => patternIsValid pat
      else patternIsValid pat
termination_by pat.length
decreasing_by
  · exact ((patternSetEnd_length _h).trans_le (patternSetNot_length pat)).trans (by simp)
  all_goals simp only [List.length_cons]; omega

/-- `CMUTIL_PatternSubmatch`. -/
def patternSubmatch (pat fname : List UInt8) : Bool :=
  match pat with
  | [] => fname.isEmpty
  | pch :: pat =>
      if pch = fpatAny then
        match fname with
        | [] => false
        | _ :: fname => patternSubmatch pat fname
      else if pch = fpatClos then
        Glob.tryDown (fun fname => patternSubmatch pat fname) fname fname.length
      else if pch = fpatClosp then
        Glob.tryDown (fun fname => patternSubmatch pat fname) fname
          (fname.takeWhile fun c => c != fpatDot).length
      else if pch = fpatQuote then
        match pat, fname with
        | pch :: pat, fch :: fname => if fch = pch then patternSubmatch pat fname else false
        | _, _ => false
      else if pch = fpatSetL then
        match fname with
        | [] => false
        | fch :: fname =>
            match _h : patternSet fch pat with
            | none => false
            | some pat => patternSubmatch pat fname
      else if pch = fpatNot then
        if pat = [] then false else !patternSubmatch pat fname
      else
        match fname with
        | [] => false
        | fch :: fname => if fch = pch then patternSubmatch pat fname else false
termination_by pat.length
decreasing_by
  all_goals simp only [List.length_cons]
  all_goals first
    | omega
    | exact (patternSet_length (by assumption)).trans (Nat.lt_succ_self _)

/-- `CMUTIL_PatternMatch`. A missing argument is `none`. -/
def patternMatch (pat fname : Option (List UInt8)) : Bool :=
  match fname, pat with
  | none, _ => false
  | _, none => false
  | some fname, some pat =>
      if !patternIsValid pat then false
      else if fname = [] then pat.isEmpty
      else patternSubmatch pat fname

/-- `CMUTIL_PatternMatchN`. -/
def patternMatchN (pat fname : Option (List UInt8)) : Bool :=
  match fname, pat with
  | none, _ => false
  | _, none => false
  | some fname, some pat => patternSubmatch pat fname

end LibCmutils
