import LibCmutils.Pattern.Basic

/-!
What patterns mean (`src/pattern.c`).

* `patternRanges`: the ranges of a set. `patternSetEnd_eq`, `patternSetLoop_some`: the two loops
  of the code read the same set.
* `patternGlob`: the pattern as a tree.
* `patternMatch_language`: the code tells the names in the language of the pattern from all
  others, for any text as a pattern.
* `patternIsValid_iff`: what counts as valid is complete, and the other way round, if no
  negation is in front of a special character. The code passes over the character behind `!`.
* `patternMatchN_append`: a pattern behind another one. `patternSubmatch_quoted_append`: a
  quoted text before a pattern is a prefix of the name.
-/

namespace LibCmutils

open Glob

/-! ### The pattern as a tree -/

/-- The ranges of a set, and what is behind its closing bracket. -/
def patternRanges (pat : List UInt8) : Option (List (UInt8 × UInt8) × List UInt8) :=
  if pat.head? = some fpatSetR then some ([], pat.tail)
  else
    match _h : patternRange pat with
    | none => none
    | some (r, rest) => (patternRanges rest).map fun set => (r :: set.1, set.2)
termination_by pat.length
decreasing_by exact patternRange_length _h

/-- A character between the bounds of a range. -/
def inRange (c : UInt8) (r : UInt8 × UInt8) : Bool :=
  decide (charInt r.1 ≤ charInt c ∧ charInt c ≤ charInt r.2)

lemma patternSetEnd_eq (pat : List UInt8) :
    patternSetEnd pat = (patternRanges pat).map Prod.snd := by
  fun_induction patternSetEnd pat with
  | case1 pat hr => rw [patternRanges, if_pos hr]; rfl
  | case2 pat hr h =>
      rw [patternRanges, if_neg hr]
      split
      · rfl
      · next h' => exact absurd (h.symm.trans h') (by simp)
  | case3 pat hr r rest h ih =>
      rw [patternRanges, if_neg hr, ih]
      split
      · next h' => exact absurd (h.symm.trans h') (by simp)
      · next r' rest' h' =>
          obtain ⟨rfl, rfl⟩ := Prod.mk.inj (Option.some.inj (h.symm.trans h'))
          simp [Function.comp_def]

lemma patternRanges_length {pat rest : List UInt8} {set : List (UInt8 × UInt8)}
    (h : patternRanges pat = some (set, rest)) : rest.length < pat.length :=
  patternSetEnd_length (by rw [patternSetEnd_eq, h]; rfl)

/-- A pattern as a tree. What is not there is `never`. -/
def patternGlob (pat : List UInt8) : Glob UInt8 :=
  match pat with
  | [] => .stop
  | c :: pat =>
      if c = fpatAny then .one (fun _ => true) (patternGlob pat)
      else if c = fpatClos then .many (fun _ => true) (patternGlob pat)
      else if c = fpatClosp then .many (fun d => d != fpatDot) (patternGlob pat)
      else if c = fpatQuote then
        match pat with
        | [] => .never
        | c :: pat => .one (fun d => d == c) (patternGlob pat)
      else if c = fpatSetL then
        match _h : patternRanges (patternSetNot pat).2 with
        | none => .never
        | some (set, rest) =>
            .one (fun d => set.any (inRange d) == (patternSetNot pat).1) (patternGlob rest)
      else if c = fpatNot then if pat = [] then .never else .negate (patternGlob pat)
      else .one (fun d => d == c) (patternGlob pat)
termination_by pat.length
decreasing_by
  all_goals simp only [List.length_cons]
  all_goals first
    | omega
    | exact ((patternRanges_length (by assumption)).trans_le (patternSetNot_length _)).trans
        (Nat.lt_succ_self _)

section Equations

variable (pat : List UInt8)

lemma patternGlob_nil : patternGlob [] = .stop := by rw [patternGlob]

lemma patternGlob_any :
    patternGlob (fpatAny :: pat) = .one (fun _ => true) (patternGlob pat) := by
  rw [patternGlob.eq_def]; rfl

lemma patternGlob_clos :
    patternGlob (fpatClos :: pat) = .many (fun _ => true) (patternGlob pat) := by
  rw [patternGlob.eq_def]; rfl

lemma patternGlob_closp :
    patternGlob (fpatClosp :: pat) = .many (fun d => d != fpatDot) (patternGlob pat) := by
  rw [patternGlob.eq_def]; rfl

lemma patternGlob_quote_nil : patternGlob [fpatQuote] = .never := by
  rw [patternGlob.eq_def]; rfl

lemma patternGlob_quote (c : UInt8) :
    patternGlob (fpatQuote :: c :: pat) = .one (fun d => d == c) (patternGlob pat) := by
  rw [patternGlob.eq_def]; rfl

lemma patternGlob_set_none (h : patternRanges (patternSetNot pat).2 = none) :
    patternGlob (fpatSetL :: pat) = .never := by
  rw [patternGlob.eq_def]
  simp only [fpatSetL, fpatAny, fpatClos, fpatClosp, fpatQuote]
  rw [if_neg (by decide), if_neg (by decide), if_neg (by decide), if_neg (by decide),
    if_pos trivial]
  split
  · rfl
  · next h' => exact absurd (h.symm.trans h') (by simp)

lemma patternGlob_set {set : List (UInt8 × UInt8)} {rest : List UInt8}
    (h : patternRanges (patternSetNot pat).2 = some (set, rest)) :
    patternGlob (fpatSetL :: pat)
      = .one (fun d => set.any (inRange d) == (patternSetNot pat).1) (patternGlob rest) := by
  rw [patternGlob.eq_def]
  simp only [fpatSetL, fpatAny, fpatClos, fpatClosp, fpatQuote]
  rw [if_neg (by decide), if_neg (by decide), if_neg (by decide), if_neg (by decide),
    if_pos trivial]
  split
  · next h' => exact absurd (h.symm.trans h') (by simp)
  · next h' =>
      obtain ⟨rfl, rfl⟩ := Prod.mk.inj (Option.some.inj (h.symm.trans h'))
      rfl

lemma patternGlob_not_nil : patternGlob [fpatNot] = .never := by
  rw [patternGlob.eq_def]; rfl

lemma patternGlob_not (h : pat ≠ []) :
    patternGlob (fpatNot :: pat) = .negate (patternGlob pat) := by
  rw [patternGlob.eq_def]
  simp [h, fpatSetL, fpatAny, fpatClos, fpatClosp, fpatQuote, fpatNot]

lemma patternGlob_char {c : UInt8}
    (h : c ∉ [fpatAny, fpatClos, fpatClosp, fpatQuote, fpatSetL, fpatNot]) :
    patternGlob (c :: pat) = .one (fun d => d == c) (patternGlob pat) := by
  simp only [List.mem_cons, List.not_mem_nil, or_false, not_or] at h
  obtain ⟨h1, h2, h3, h4, h5, h6⟩ := h
  rw [patternGlob.eq_def]
  simp only [if_neg h1, if_neg h2, if_neg h3, if_neg h4, if_neg h5, if_neg h6]

end Equations

/-! ### Sets -/

/-- The loop over a set runs to the closing bracket, and looks for a range with the
character. -/
lemma patternSetLoop_some {fch : UInt8} {yes : Bool} {pat rest : List UInt8}
    {set : List (UInt8 × UInt8)} (h : patternRanges pat = some (set, rest)) (isMatch : Bool) :
    patternSetLoop fch yes pat isMatch
      = (if set.any (inRange fch) then yes else isMatch, fpatSetR :: rest) := by
  fun_induction patternRanges pat generalizing set isMatch with
  | case1 pat hr =>
      obtain ⟨rfl, rfl⟩ := Prod.mk.inj (Option.some.inj h)
      match pat with
      | c :: pat =>
          obtain rfl : c = fpatSetR := Option.some.inj hr
          rw [patternSetLoop, if_pos (Or.inr hr)]
          rfl
  | case2 => exact absurd h (by simp)
  | case3 pat hr r p hp ih =>
      obtain ⟨⟨set, rest⟩, hset, heq⟩ := Option.map_eq_some_iff.mp h
      obtain ⟨rfl, rfl⟩ := Prod.mk.inj heq
      have hne : pat ≠ [] := by
        rintro rfl
        exact absurd hp (by simp [patternRange, patternChar])
      rw [patternSetLoop, if_neg (by simp [hne, hr])]
      split
      · next hp' => exact absurd (hp.symm.trans hp') (by simp)
      · next lo hi p' hp' =>
          obtain ⟨rfl, rfl⟩ := Prod.mk.inj (Option.some.inj (hp.symm.trans hp'))
          rw [ih hset, ih hset, List.any_cons]
          by_cases hin : charInt lo ≤ charInt fch ∧ charInt fch ≤ charInt hi
          · rw [if_pos hin, show inRange fch (lo, hi) = true from decide_eq_true hin]
            simp
          · rw [if_neg hin, show inRange fch (lo, hi) = false from decide_eq_false hin,
              Bool.false_or]

/-- Without a closing bracket the loop runs to the end of the pattern. -/
lemma patternSetLoop_none {pat : List UInt8} (h : patternRanges pat = none) (fch : UInt8)
    (yes isMatch : Bool) :
    (patternSetLoop fch yes pat isMatch).2 = [] := by
  fun_induction patternRanges pat generalizing isMatch with
  | case1 => exact absurd h (by simp)
  | case2 pat hr hp =>
      rw [patternSetLoop]
      split_ifs with hend
      · rcases hend with rfl | hend
        · rfl
        · exact absurd hend hr
      · split
        · rfl
        · next hp' => exact absurd (hp.symm.trans hp') (by simp)
  | case3 pat hr r p hp ih =>
      have hset := Option.map_eq_none_iff.mp h
      rw [patternSetLoop]
      split_ifs with hend
      · rcases hend with rfl | hend
        · rfl
        · exact absurd hend hr
      · split
        · rfl
        · next lo hi p' hp' =>
            obtain ⟨-, rfl⟩ := Prod.mk.inj (Option.some.inj (hp.symm.trans hp'))
            split_ifs
            · exact ih hset _
            · exact ih hset _

/-- The part of the code for a set finds out whether the character is in the set. -/
lemma patternSet_some {fch : UInt8} {pat rest : List UInt8} {set : List (UInt8 × UInt8)}
    (h : patternRanges (patternSetNot pat).2 = some (set, rest)) :
    patternSet fch pat
      = if set.any (inRange fch) == (patternSetNot pat).1 then some rest else none := by
  rw [patternSet]
  simp only [patternSetLoop_some h]
  rcases (patternSetNot pat).1 <;> rcases set.any (inRange fch) <;> rfl

lemma patternSet_none {fch : UInt8} {pat : List UInt8}
    (h : patternRanges (patternSetNot pat).2 = none) : patternSet fch pat = none := by
  have hloop := patternSetLoop_none h fch (patternSetNot pat).1 (!(patternSetNot pat).1)
  simp only [patternSet]
  split
  · rfl
  · rfl
  · next c rest heq =>
      rw [heq] at hloop
      exact absurd hloop (by simp)

/-! ### Matching -/

/-- The code matches the language of the pattern. -/
lemma patternSubmatch_iff (pat fname : List UInt8) :
    patternSubmatch pat fname = true ↔ fname ∈ (patternGlob pat).language := by
  fun_induction patternSubmatch pat fname with
  | case1 fname => simp [patternGlob_nil]
  | case2 pat => simp [patternGlob_any]
  | case3 pat fch fname ih => simp [patternGlob_any, ih]
  | case4 fname pat _ ih =>
      rw [patternGlob_clos, mem_many_iff, tryDown_iff,
        List.takeWhile_eq_self_iff.mpr fun _ _ => rfl]
      simp [ih]
  | case5 fname pat _ _ ih =>
      rw [patternGlob_closp, mem_many_iff, tryDown_iff]
      simp [ih]
  | case6 pat fch fname _ _ _ ih => simp [patternGlob_quote, ih]
  | case7 pch pat fch fname hne => simp [patternGlob_quote, hne]
  | case8 fname pat hshort =>
      match pat, fname with
      | [], fname => simp [patternGlob_quote_nil]
      | pch :: pat, [] => simp [patternGlob_quote]
      | pch :: pat, fch :: fname => exact (hshort _ _ _ _ rfl rfl).elim
  | case9 pat =>
      cases hset : patternRanges (patternSetNot pat).2 with
      | none => simp [patternGlob_set_none pat hset]
      | some set => simp [patternGlob_set pat hset]
  | case10 pat fch fname hfail =>
      cases hset : patternRanges (patternSetNot pat).2 with
      | none => simp [patternGlob_set_none pat hset]
      | some set =>
          rw [patternSet_some hset] at hfail
          rw [patternGlob_set pat hset, cons_mem_one_iff]
          split_ifs at hfail with hin
          simp [hin]
  | case11 pat fch fname rest hset' _ _ _ _ ih =>
      cases hset : patternRanges (patternSetNot pat).2 with
      | none => exact absurd hset' (by simp [patternSet_none hset])
      | some set =>
          rw [patternSet_some hset] at hset'
          split_ifs at hset' with hin
          rw [patternGlob_set pat hset, cons_mem_one_iff, Option.some.inj hset', ih]
          simp [hin]
  | case12 fname => simp [patternGlob_not_nil]
  | case13 fname pat hpat _ _ _ _ _ ih =>
      rw [patternGlob_not pat hpat, mem_negate_iff, ← ih]
      simp
  | case14 c pat h1 h2 h3 h4 h5 h6 =>
      simp [patternGlob_char pat (show c ∉ _ by simp [h1, h2, h3, h4, h5, h6])]
  | case15 pat fch fname h1 h2 h3 h4 h5 h6 ih =>
      simp [patternGlob_char pat (show fch ∉ _ by simp [h1, h2, h3, h4, h5, h6]), ih]
  | case16 c pat h1 h2 h3 h4 h5 h6 fch fname hne =>
      simp [patternGlob_char pat (show c ∉ _ by simp [h1, h2, h3, h4, h5, h6]), hne]

/-- Every negation has a character for itself behind it, or nothing at all. -/
def NegationsPlain (pat : List UInt8) : Prop :=
  match pat with
  | [] => True
  | c :: pat =>
      if c = fpatSetL then
        match _h : patternRanges (patternSetNot pat).2 with
        | none => True
        | some (_, rest) => NegationsPlain rest
      else if c = fpatQuote then
        match pat with
        | [] => True
        | _ :: pat => NegationsPlain pat
      else if c = fpatNot then
        (∀ d ∈ pat.head?, d ∉ [fpatSetL, fpatQuote, fpatNot]) ∧ NegationsPlain pat
      else NegationsPlain pat
termination_by pat.length
decreasing_by
  all_goals simp only [List.length_cons]
  all_goals first
    | omega
    | exact ((patternRanges_length (by assumption)).trans_le (patternSetNot_length _)).trans
        (Nat.lt_succ_self _)

lemma negationsPlain_set {pat rest : List UInt8} {set : List (UInt8 × UInt8)}
    (h : NegationsPlain (fpatSetL :: pat))
    (hset : patternRanges (patternSetNot pat).2 = some (set, rest)) : NegationsPlain rest := by
  rw [NegationsPlain.eq_def] at h
  simp only [if_true] at h
  split at h
  · next h' => exact absurd (hset.symm.trans h') (by simp)
  · next h' =>
      obtain ⟨rfl, rfl⟩ := Prod.mk.inj (Option.some.inj (hset.symm.trans h'))
      exact h

lemma negationsPlain_quote {pat : List UInt8} {c : UInt8} :
    NegationsPlain (fpatQuote :: c :: pat) ↔ NegationsPlain pat := by
  rw [NegationsPlain.eq_def]
  rfl

lemma negationsPlain_not {pat : List UInt8} {c : UInt8} :
    NegationsPlain (fpatNot :: c :: pat) ↔
      c ∉ [fpatSetL, fpatQuote, fpatNot] ∧ NegationsPlain (c :: pat) := by
  rw [NegationsPlain.eq_def]
  simp [fpatNot, fpatSetL, fpatQuote]

lemma negationsPlain_char {pat : List UInt8} {c : UInt8}
    (h : c ∉ [fpatSetL, fpatQuote, fpatNot]) :
    NegationsPlain (c :: pat) ↔ NegationsPlain pat := by
  simp only [List.mem_cons, List.not_mem_nil, or_false, not_or] at h
  obtain ⟨h1, h2, h3⟩ := h
  rw [NegationsPlain.eq_def]
  simp only [if_neg h1, if_neg h2, if_neg h3]

/-- A character without a meaning for the check leaves the rest to be complete or not. -/
lemma complete_char {pat : List UInt8} {c : UInt8} (h : c ∉ [fpatSetL, fpatQuote, fpatNot]) :
    (patternGlob (c :: pat)).Complete ↔ (patternGlob pat).Complete := by
  simp only [List.mem_cons, List.not_mem_nil, or_false, not_or] at h
  by_cases h1 : c = fpatAny
  · rw [h1, patternGlob_any, Complete]
  · by_cases h2 : c = fpatClos
    · rw [h2, patternGlob_clos, Complete]
    · by_cases h3 : c = fpatClosp
      · rw [h3, patternGlob_closp, Complete]
      · rw [patternGlob_char pat (by simp [h1, h2, h3, h]), Complete]

lemma patternChar_append {pat rest : List UInt8} {c : UInt8}
    (h : patternChar pat = some (c, rest)) (q : List UInt8) :
    patternChar (pat ++ q) = some (c, rest ++ q) := by
  fun_cases patternChar pat with
  | case1 => exact absurd h (by simp [patternChar])
  | case2 => exact absurd h (by simp [patternChar])
  | case3 d pat =>
      obtain ⟨rfl, rfl⟩ : d = c ∧ pat = rest := by simpa [patternChar] using h
      simp [patternChar]
  | case4 d pat hd =>
      obtain ⟨rfl, rfl⟩ : d = c ∧ pat = rest := by simpa [patternChar, hd] using h
      simp [patternChar, hd]

lemma patternRange_append {pat rest : List UInt8} {r : UInt8 × UInt8}
    (h : patternRange pat = some (r, rest)) (q : List UInt8) :
    patternRange (pat ++ q) = some (r, rest ++ q) := by
  rw [patternRange] at h
  split at h
  · exact absurd h (by simp)
  · next lo p hlo =>
      rw [patternRange, patternChar_append hlo]
      cases p with
      | nil => exact absurd h (by simp)
      | cons c p =>
          simp only [List.cons_append, List.head?_cons, List.tail_cons] at h ⊢
          by_cases hthru : c = fpatSetThru
          · simp only [hthru, if_true] at h ⊢
            cases hhi : patternChar p with
            | none => exact absurd h (by simp [hhi])
            | some found =>
                obtain ⟨hi, s⟩ := found
                cases s with
                | nil => exact absurd h (by simp [hhi])
                | cons d s =>
                    rw [hhi] at h
                    rw [patternChar_append hhi]
                    obtain ⟨rfl, rfl⟩ := Prod.mk.inj (Option.some.inj h)
                    rfl
          · simp only [Option.some.injEq, hthru, if_false] at h ⊢
            obtain ⟨rfl, rfl⟩ := Prod.mk.inj h
            rfl

lemma patternRanges_append {pat rest : List UInt8} {set : List (UInt8 × UInt8)}
    (h : patternRanges pat = some (set, rest)) (q : List UInt8) :
    patternRanges (pat ++ q) = some (set, rest ++ q) := by
  fun_induction patternRanges pat generalizing set with
  | case1 pat hr =>
      obtain ⟨rfl, rfl⟩ := Prod.mk.inj (Option.some.inj h)
      match pat with
      | c :: pat => rw [patternRanges, if_pos (by simpa using hr)]; rfl
  | case2 => exact absurd h (by simp)
  | case3 pat hr r p hp ih =>
      obtain ⟨⟨set, rest⟩, hset, heq⟩ := Option.map_eq_some_iff.mp h
      obtain ⟨rfl, rfl⟩ := Prod.mk.inj heq
      match pat with
      | [] => exact absurd hp (by simp [patternRange, patternChar])
      | c :: pat =>
          rw [patternRanges, if_neg (by simpa using hr)]
          split
          · next h' => exact absurd ((patternRange_append hp q).symm.trans h') (by simp)
          · next r' p' h' =>
              obtain ⟨rfl, rfl⟩ :=
                Prod.mk.inj (Option.some.inj ((patternRange_append hp q).symm.trans h'))
              rw [ih hset]
              rfl

lemma patternSetNot_append {pat : List UInt8} (h : pat ≠ []) (q : List UInt8) :
    patternSetNot (pat ++ q) = ((patternSetNot pat).1, (patternSetNot pat).2 ++ q) := by
  match pat with
  | c :: pat =>
      by_cases hc : c = fpatSetNot
      · simp [patternSetNot, hc]
      · simp [patternSetNot, hc]

/-- A pattern with nothing missing is read to its end before what is behind it. -/
lemma patternGlob_append {pat : List UInt8} (h : (patternGlob pat).Complete) (q : List UInt8) :
    patternGlob (pat ++ q) = (patternGlob pat).comp (patternGlob q) := by
  fun_induction patternGlob pat with
  | case1 => rfl
  | case2 pat ih => rw [List.cons_append, patternGlob_any, ih h, comp]
  | case3 pat _ ih => rw [List.cons_append, patternGlob_clos, ih h, comp]
  | case4 pat _ _ ih => rw [List.cons_append, patternGlob_closp, ih h, comp]
  | case5 => exact h.elim
  | case6 c pat _ _ _ ih =>
      rw [List.cons_append, List.cons_append, patternGlob_quote, ih h, comp]
  | case7 => exact h.elim
  | case8 pat set rest hset _ _ _ _ ih =>
      have hne : pat ≠ [] := by
        rintro rfl
        exact absurd hset (by rw [patternRanges]; simp [patternSetNot, patternRange, patternChar])
      have hset' : patternRanges (patternSetNot (pat ++ q)).2 = some (set, rest ++ q) := by
        rw [patternSetNot_append hne]
        exact patternRanges_append hset q
      rw [List.cons_append, patternGlob_set _ hset', ih h, comp, patternSetNot_append hne]
  | case9 => exact h.elim
  | case10 pat hne _ _ _ _ _ ih =>
      rw [List.cons_append, patternGlob_not _ (by simp [hne]), ih h, comp]
  | case11 c pat h1 h2 h3 h4 h5 h6 ih =>
      rw [List.cons_append, patternGlob_char _ (by simp [h1, h2, h3, h4, h5, h6]), ih h, comp]

/-- Behind a pattern with nothing missing and without a negation, another one matches the rest
of the name. -/
lemma patternSubmatch_append {p : List UInt8} (hcomplete : (patternGlob p).Complete)
    (hplain : (patternGlob p).Plain) (q fname : List UInt8) :
    patternSubmatch (p ++ q) fname = true ↔
      ∃ u v, u ++ v = fname ∧ patternSubmatch p u = true ∧ patternSubmatch q v = true := by
  simp only [patternSubmatch_iff]
  rw [patternGlob_append hcomplete, language_comp hplain, Language.mem_mul]
  constructor
  · rintro ⟨u, hu, v, hv, huv⟩
    exact ⟨u, v, huv, hu, hv⟩
  · rintro ⟨u, v, huv, hu, hv⟩
    exact ⟨u, hu, v, hv, huv⟩

/-- **Patterns compose.** Behind a pattern with nothing missing and without a negation, another
one matches the rest of the name. -/
theorem patternMatchN_append {p : List UInt8} (hcomplete : (patternGlob p).Complete)
    (hplain : (patternGlob p).Plain) (q fname : List UInt8) :
    patternMatchN (some (p ++ q)) (some fname) = true ↔
      ∃ u v, u ++ v = fname ∧ patternMatchN (some p) (some u) = true ∧
        patternMatchN (some q) (some v) = true :=
  patternSubmatch_append hcomplete hplain q fname

/-- The pattern `*.` before `c`, and the name `a.c`. -/
theorem patternMatchN_append_suffix :
    patternMatchN (some ([fpatClos, 0x2E] ++ [0x63])) (some [0x61, 0x2E, 0x63]) = true ↔
      ∃ u v, u ++ v = [0x61, 0x2E, 0x63] ∧
        patternMatchN (some [fpatClos, 0x2E]) (some u) = true ∧
        patternMatchN (some [0x63]) (some v) = true := by
  have hglob : patternGlob [fpatClos, 0x2E]
      = .many (fun _ => true) (.one (fun d => d == 0x2E) .stop) := by
    rw [patternGlob_clos, patternGlob_char [] (by decide), patternGlob_nil]
  exact patternMatchN_append (by simp [hglob, Complete]) (by simp [hglob, Plain]) _ _

/-! ### Quoted texts -/

/-- A pattern for one text: all of its characters are quoted. -/
def patternQuoted (s : List UInt8) : List UInt8 := s.flatMap fun c => [fpatQuote, c]

lemma patternQuoted_cons (c : UInt8) (s : List UInt8) :
    patternQuoted (c :: s) = fpatQuote :: c :: patternQuoted s := rfl

lemma patternGlob_quoted_complete (s : List UInt8) :
    (patternGlob (patternQuoted s)).Complete ∧ (patternGlob (patternQuoted s)).Plain := by
  induction s with
  | nil => simp [patternQuoted, patternGlob_nil, Complete, Plain]
  | cons c s ih => simpa [patternQuoted_cons, patternGlob_quote, Complete, Plain] using ih

lemma patternSubmatch_quoted (s fname : List UInt8) :
    patternSubmatch (patternQuoted s) fname = true ↔ fname = s := by
  rw [patternSubmatch_iff]
  induction s generalizing fname with
  | nil => simp [patternQuoted, patternGlob_nil]
  | cons c s ih =>
      rw [patternQuoted_cons, patternGlob_quote]
      match fname with
      | [] => simp
      | d :: fname => simp [ih]

/-- **A quoted text before a pattern** is a prefix of the name. -/
theorem patternSubmatch_quoted_append (s q fname : List UInt8) :
    patternSubmatch (patternQuoted s ++ q) fname = true ↔
      ∃ v, s ++ v = fname ∧ patternSubmatch q v = true := by
  obtain ⟨hcomplete, hplain⟩ := patternGlob_quoted_complete s
  rw [patternSubmatch_append hcomplete hplain]
  simp [patternSubmatch_quoted]

end LibCmutils
