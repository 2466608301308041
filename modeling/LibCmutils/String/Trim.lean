import Mathlib.Data.List.DropRight
import LibCmutils.Lib.CNumber
import LibCmutils.String.Builder

/-!
Trimming in place (`src/strings.c`).

* `trimSpaces`: a text without the white space at its ends. `trimmed_trimSpaces` says that
  what is cut are the maximal runs there.
* `StringInternal.selfTrim`: `CMUTIL_StringSelfTrim` on the block of a string.
  `Holds.selfTrim` says that it leaves what `stringSelfTrim` does.
* `strRTrimBlock`, `strLTrimBlock`, `strTrimBlock`: the stand-alone functions on the block of a
  C string. The length is an `int` there.
* `TrimReaches`: a length that leads to the end of a text, or to the white space there.

The main result is `stringTrim_iff`.
-/

namespace LibCmutils

/-! ### Texts -/

/-- A byte of `SPACES`. -/
def isSpaceByte (c : UInt8) : Bool := spaces.contains c

/-- A text without the white space at its ends. -/
def trimSpaces (l : List UInt8) : List UInt8 := (l.rdropWhile isSpaceByte).dropWhile isSpaceByte

/-- `t` is `l` without the longest runs of white space at its two ends. -/
structure Trimmed (l t : List UInt8) : Prop where
  split : ∃ pre post, l = pre ++ (t ++ post) ∧ (∀ c ∈ pre, isSpaceByte c = true) ∧
    ∀ c ∈ post, isSpaceByte c = true
  head : ∀ c ∈ t.head?, isSpaceByte c = false
  last : ∀ c ∈ t.getLast?, isSpaceByte c = false

lemma trimSpaces_sublist (l : List UInt8) : (trimSpaces l).Sublist l :=
  (List.dropWhile_sublist _).trans (List.rdropWhile_prefix _ _).sublist

lemma trimmed_trimSpaces (l : List UInt8) : Trimmed l (trimSpaces l) := by
  have hleft : (l.rdropWhile isSpaceByte).takeWhile isSpaceByte ++ trimSpaces l
      = l.rdropWhile isSpaceByte := List.takeWhile_append_dropWhile
  refine ⟨⟨(l.rdropWhile isSpaceByte).takeWhile isSpaceByte, l.rtakeWhile isSpaceByte, ?_,
    fun c hc => List.mem_takeWhile_imp hc, fun c hc => List.mem_rtakeWhile_imp hc⟩, ?_, ?_⟩
  · rw [← List.append_assoc, hleft, List.rdropWhile_append_rtakeWhile]
  · intro c hc
    have hhead := List.head?_dropWhile_not isSpaceByte (l.rdropWhile isSpaceByte)
    rw [show (l.rdropWhile isSpaceByte).dropWhile isSpaceByte = trimSpaces l from rfl, hc] at hhead
    simpa using hhead
  · intro c hc
    have hlast : (l.rdropWhile isSpaceByte).getLast? = some c := by
      rw [← hleft, List.getLast?_append, hc]
      rfl
    have hne : l.rdropWhile isSpaceByte ≠ [] := fun hnil => by simp [hnil] at hlast
    rw [List.getLast?_eq_some_getLast hne, Option.some.injEq] at hlast
    simpa [← hlast] using List.rdropWhile_last_not isSpaceByte l hne

lemma Trimmed.trimSpaces_eq {l t : List UInt8} (h : Trimmed l t) : trimSpaces t = t := by
  have hright : t.rdropWhile isSpaceByte = t := by
    refine List.rdropWhile_eq_self_iff.mpr fun hne => ?_
    simpa using h.last _ (List.getLast?_eq_some_getLast hne)
  rw [trimSpaces, hright, List.dropWhile_eq_self_iff]
  intro hpos
  simpa using h.head _ (List.head?_eq_getElem? .. ▸ List.getElem?_eq_getElem hpos)

lemma trimSpaces_of_all {l : List UInt8} (h : ∀ c ∈ l, isSpaceByte c = true) :
    trimSpaces l = [] := by
  rw [trimSpaces, List.rdropWhile_eq_nil_iff.mpr h]
  rfl

/-- White space at the end makes no difference. -/
lemma trimSpaces_append {w : List UInt8} (hw : ∀ c ∈ w, isSpaceByte c = true)
    (l : List UInt8) : trimSpaces (l ++ w) = trimSpaces l := by
  induction w using List.reverseRecOn with
  | nil => rw [List.append_nil]
  | append_singleton w c ih =>
      rw [← ih fun d hd => hw d (by simp [hd]), ← List.append_assoc, trimSpaces,
        List.rdropWhile_concat_pos _ _ _ (hw c (by simp))]
      rfl

lemma Trimmed.countP_eq {l t : List UInt8} (h : Trimmed l t) :
    l.countP (fun c => !isSpaceByte c) = t.countP fun c => !isSpaceByte c := by
  obtain ⟨pre, post, rfl, hpre, hpost⟩ := h.split
  have hnone : ∀ {w : List UInt8}, (∀ c ∈ w, isSpaceByte c = true) →
      w.countP (fun c => !isSpaceByte c) = 0 := fun hw =>
    List.countP_eq_zero.mpr fun c hc => by simp [hw c hc]
  rw [List.countP_append, List.countP_append, hnone hpre, hnone hpost, Nat.zero_add, Nat.add_zero]

/-- A part at the front is enough when white space is behind it, and only then. -/
lemma trimSpaces_take_iff (l : List UInt8) (n : ℕ) :
    trimSpaces (l.take n) = trimSpaces l ↔ ∀ c ∈ l.drop n, isSpaceByte c = true := by
  constructor
  · intro h
    have hcount := (trimmed_trimSpaces (l.take n)).countP_eq
    rw [h, ← (trimmed_trimSpaces l).countP_eq] at hcount
    have hparts : (l.take n ++ l.drop n).countP (fun c => !isSpaceByte c) = _ :=
      List.countP_append
    rw [List.take_append_drop] at hparts
    have hzero : (l.drop n).countP (fun c => !isSpaceByte c) = 0 := by omega
    simpa using List.countP_eq_zero.mp hzero
  · intro h
    conv_rhs => rw [← List.take_append_drop n l]
    exact (trimSpaces_append h _).symm

/-- The left trim alone is enough for a text that does not end with white space, and for
white space. -/
lemma dropWhile_eq_trimSpaces_iff (l : List UInt8) : l.dropWhile isSpaceByte = trimSpaces l ↔
    (∀ c ∈ l.getLast?, isSpaceByte c = false) ∨ ∀ c ∈ l, isSpaceByte c = true := by
  constructor
  · intro h
    by_cases hall : ∀ c ∈ l, isSpaceByte c = true
    · exact .inr hall
    · refine .inl fun c hc => (trimmed_trimSpaces l).last c ?_
      have hne : l.dropWhile isSpaceByte ≠ [] := fun h => hall (List.dropWhile_eq_nil_iff.mp h)
      rw [Option.mem_def] at hc ⊢
      rw [← h, ← hc]
      conv_rhs => rw [← List.takeWhile_append_dropWhile (p := isSpaceByte) (l := l)]
      exact (List.getLast?_append_of_ne_nil _ hne).symm
  · rintro (hlast | hall)
    · rcases List.eq_nil_or_concat l with rfl | ⟨m, c, rfl⟩
      · rfl
      · rw [trimSpaces, List.concat_eq_append,
          List.rdropWhile_concat_neg _ _ _ (by simpa using hlast)]
    · rw [trimSpaces_of_all hall, List.dropWhile_eq_nil_iff.mpr hall]

lemma strchr_spaces {c : UInt8} (hc : c ≠ 0) : strchr spaces c = isSpaceByte c := by
  simp [strchr, isSpaceByte, hc]

lemma strRTrim_concat {m : List UInt8} (hm : m ≠ []) (c : UInt8) :
    strRTrim (m ++ [c]) = if strchr spaces c then strRTrim m else m ++ [c] := by
  obtain ⟨d, t, hd⟩ := List.exists_cons_of_ne_nil (List.reverse_ne_nil_iff.mpr hm)
  rw [strRTrim, List.reverse_append, List.reverse_singleton, List.singleton_append, hd,
    selfTrimRight, ← hd]
  · split
    · rfl
    · rw [List.reverse_cons, List.reverse_reverse]
  · simp

/-- The right trim leaves a part at the front, and the first byte. -/
lemma strRTrim_isPrefix {m : List UInt8} (hm : m ≠ []) : strRTrim m <+: m ∧ strRTrim m ≠ [] := by
  induction m using List.reverseRecOn with
  | nil => exact absurd rfl hm
  | append_singleton m c ih =>
      by_cases hnil : m = []
      · subst hnil
        exact ⟨List.prefix_rfl, by simp [strRTrim, selfTrimRight]⟩
      · rw [strRTrim_concat hnil]
        split
        · exact ⟨(ih hnil).1.trans (List.prefix_append _ _), (ih hnil).2⟩
        · exact ⟨List.prefix_rfl, by simp⟩

lemma dropWhile_strRTrim {l : List UInt8} (h0 : (0 : UInt8) ∉ l) :
    (strRTrim l).dropWhile isSpaceByte = trimSpaces l := by
  rw [trimSpaces]
  induction l using List.reverseRecOn with
  | nil => rfl
  | append_singleton m c ih =>
      have hc : c ≠ 0 := fun h => h0 (by simp [h])
      by_cases hnil : m = []
      · subst hnil
        cases hs : isSpaceByte c <;>
          simp [strRTrim, selfTrimRight, List.rdropWhile_singleton, hs]
      · rw [strRTrim_concat hnil, strchr_spaces hc, List.rdropWhile_concat]
        split
        · exact ih fun h => h0 (List.mem_append_left _ h)
        · rfl

lemma dropWhile_congr {p q : UInt8 → Bool} {l : List UInt8} (h : ∀ c ∈ l, p c = q c) :
    l.dropWhile p = l.dropWhile q := by
  induction l with
  | nil => rfl
  | cons c l ih =>
      rw [List.dropWhile_cons, List.dropWhile_cons, h c (by simp),
        ih fun d hd => h d (by simp [hd])]

/-- `CMUTIL_StringSelfTrim` on a text without NUL. -/
lemma stringSelfTrim_eq {l : List UInt8} (h0 : (0 : UInt8) ∉ l) :
    stringSelfTrim l = trimSpaces l := by
  rw [← dropWhile_strRTrim h0]
  change (strRTrim l).dropWhile _ = _
  refine dropWhile_congr fun c hc => ?_
  have hne : c ≠ 0 := by
    rintro rfl
    rcases List.eq_nil_or_concat l with rfl | ⟨m, d, rfl⟩
    · exact absurd hc List.not_mem_nil
    · exact h0 ((strRTrim_isPrefix (by simp)).1.subset hc)
  simp [strchr_spaces hne, hne]

/-! ### The loops -/

/-- The right loop, from place `p` down. -/
def strRTrimLoop (data : List UInt8) : ℕ → Option ℕ
  | 0 => (data[0]?).map fun _ => 0
  | p + 1 => do
      let c ← data[p + 1]?
      if strchr spaces c then strRTrimLoop data p else some (p + 1)

/-- The right loop of `CMUTIL_StringSelfTrim`, with the length. -/
def selfTrimRightLoop (data : List UInt8) : ℕ → ℕ → Option (ℕ × ℕ)
  | 0, len => (data[0]?).map fun _ => (0, len)
  | p + 1, len => do
      let c ← data[p + 1]?
      if strchr spaces c then selfTrimRightLoop data p (len - 1) else some (p + 1, len)

/-- The left loop, on the bytes from place `q` on. -/
def strLTrimLoop : List UInt8 → ℕ → Option ℕ
  | [], _ => none
  | c :: rest, q =>
      if strchr spaces c ∧ c ≠ 0 then strLTrimLoop rest (q + 1) else some q

/-- The left loop of `CMUTIL_StringSelfTrim`, with the length. -/
def selfTrimLeftLoop : List UInt8 → ℕ → ℕ → Option (ℕ × ℕ)
  | [], _, _ => none
  | c :: rest, p, len =>
      if strchr spaces c ∧ c ≠ 0 then selfTrimLeftLoop rest (p + 1) (len - 1) else some (p, len)

/-- The loop of `CMUTIL_StrLTrim` that moves the text from place `q` to place `p`, and the NUL
after it. -/
def strMoveLoop : ℕ → List UInt8 → ℕ → ℕ → Option (List UInt8)
  | 0, _, _, _ => none
  | fuel + 1, data, p, q => do
      let c ← data[q]?
      if c ≠ 0 then strMoveLoop fuel (data.set p c) (p + 1) (q + 1) else some (data.set p 0)

/-- `CMUTIL_StringSelfTrim`. -/
def StringInternal.selfTrim (istr : StringInternal) : Option StringInternal :=
  if istr.size = 0 then some istr
  else do
    let (p, len) ← selfTrimRightLoop istr.data (istr.size - 1) istr.size
    let data ← blockWrite istr.data (p + 1) [0]
    let (p, len) ← selfTrimLeftLoop data 0 len
    let data ← if 0 < p then blockMove data 0 p (len + 1) else some data
    return { istr with data := data, size := len }

/-- `CMUTIL_StrRTrim` from the length on. A negative one leads out of the block. -/
def strRTrimFrom (inp : List UInt8) (len : ℤ) : Option (List UInt8) :=
  if len = 0 then some inp
  else if len < 0 then none
  else do
    let p ← strRTrimLoop inp (len.toNat - 1)
    blockWrite inp (p + 1) [0]

/-- `CMUTIL_StrRTrim` on the block that `inp` points to. -/
def strRTrimBlock (inp : List UInt8) : Option (List UInt8) := do
  let text ← cStringAt inp 0
  strRTrimFrom inp (toInt text.length)

/-- `CMUTIL_StrLTrim` on the block that `inp` points to. -/
def strLTrimBlock (inp : List UInt8) : Option (List UInt8) := do
  let q ← strLTrimLoop inp 0
  strMoveLoop (inp.length + 1) inp 0 q

/-- `CMUTIL_StrTrim` on the block that `inp` points to. -/
def strTrimBlock (inp : List UInt8) : Option (List UInt8) := do
  let inp ← strRTrimBlock inp
  strLTrimBlock inp

/-! ### What the loops do -/

/-- White space that is skipped from the left. -/
def skippedLeft (c : UInt8) : Bool := strchr spaces c && c != 0

lemma skippedLeft_iff {c : UInt8} : skippedLeft c = true ↔ strchr spaces c = true ∧ c ≠ 0 := by
  simp [skippedLeft]

lemma strRTrimLoop_eq {m : List UInt8} (hm : m ≠ []) (rest : List UInt8) :
    strRTrimLoop (m ++ rest) (m.length - 1) = some ((strRTrim m).length - 1) := by
  induction m using List.reverseRecOn generalizing rest with
  | nil => exact absurd rfl hm
  | append_singleton m c ih =>
      rw [List.append_assoc, List.length_append, List.length_singleton, Nat.add_sub_cancel]
      cases m with
      | nil => rfl
      | cons d m =>
          have hget : (d :: m ++ ([c] ++ rest))[m.length + 1]? = some c := by
            rw [List.getElem?_append_right (by simp)]
            simp
          rw [List.length_cons, strRTrimLoop, hget, Option.bind_eq_bind, Option.bind_some,
            strRTrim_concat (by simp)]
          split
          · exact ih (by simp) ([c] ++ rest)
          · simp

/-- The length goes along with the place. -/
lemma selfTrimRightLoop_eq (data : List UInt8) :
    ∀ p, selfTrimRightLoop data p (p + 1) = (strRTrimLoop data p).map fun q => (q, q + 1)
  | 0 => by
      rw [selfTrimRightLoop, strRTrimLoop]
      cases data[0]? <;> rfl
  | p + 1 => by
      rw [selfTrimRightLoop, strRTrimLoop]
      cases data[p + 1]? with
      | none => rfl
      | some c =>
          simp only [Option.bind_eq_bind, Option.bind_some, Nat.add_sub_cancel]
          split
          · exact selfTrimRightLoop_eq data p
          · rfl

lemma strLTrimLoop_eq (t rest : List UInt8) (q : ℕ) :
    strLTrimLoop (t ++ 0 :: rest) q = some (q + (t.takeWhile skippedLeft).length) := by
  induction t generalizing q with
  | nil =>
      rw [List.nil_append, strLTrimLoop, if_neg (by simp)]
      rfl
  | cons c t ih =>
      rw [List.cons_append, strLTrimLoop, List.takeWhile_cons]
      by_cases hc : strchr spaces c = true ∧ c ≠ 0
      · rw [if_pos hc, if_pos (skippedLeft_iff.mpr hc), ih, List.length_cons, Nat.add_right_comm,
          Nat.add_assoc]
      · rw [if_neg hc, if_neg (fun h => hc (skippedLeft_iff.mp h))]
        rfl

lemma selfTrimLeftLoop_eq (t rest : List UInt8) (p len : ℕ) :
    selfTrimLeftLoop (t ++ 0 :: rest) p len = some (p + (t.takeWhile skippedLeft).length,
      len - (t.takeWhile skippedLeft).length) := by
  induction t generalizing p len with
  | nil =>
      rw [List.nil_append, selfTrimLeftLoop, if_neg (by simp)]
      rfl
  | cons c t ih =>
      rw [List.cons_append, selfTrimLeftLoop, List.takeWhile_cons]
      by_cases hc : strchr spaces c = true ∧ c ≠ 0
      · rw [if_pos hc, if_pos (skippedLeft_iff.mpr hc), ih, List.length_cons, Nat.add_right_comm,
          Nat.add_assoc, Nat.sub_sub, Nat.add_comm 1]
      · rw [if_neg hc, if_neg (fun h => hc (skippedLeft_iff.mp h))]
        rfl

/-- Text is moved down over a gap. -/
lemma strMoveLoop_eq (rest : List UInt8) : ∀ (t done gap : List UInt8) (fuel : ℕ),
    (0 : UInt8) ∉ t → t.length < fuel →
    ∃ rest', strMoveLoop fuel (done ++ (gap ++ (t ++ 0 :: rest))) done.length
      (done.length + gap.length) = some (done ++ (t ++ 0 :: rest'))
  | [], done, gap, fuel + 1, _, _ => by
      have hget : (done ++ (gap ++ ([] ++ 0 :: rest)))[done.length + gap.length]? = some 0 := by
        rw [← List.append_assoc, List.getElem?_append_right (by simp)]
        simp
      rw [strMoveLoop, hget]
      cases gap with
      | nil => exact ⟨rest, by simp⟩
      | cons d gap => exact ⟨gap ++ 0 :: rest, by simp⟩
  | c :: t, done, gap, fuel + 1, h0, hfuel => by
      have hc : c ≠ 0 := fun h => h0 (by simp [h])
      have hget : (done ++ (gap ++ (c :: t ++ 0 :: rest)))[done.length + gap.length]?
          = some c := by
        rw [← List.append_assoc, List.getElem?_append_right (by simp)]
        simp
      rw [strMoveLoop, hget]
      simp only [Option.bind_eq_bind, Option.bind_some, ne_eq, hc, not_false_eq_true, if_true]
      have ih := fun gap => strMoveLoop_eq rest t (done ++ [c]) gap fuel
        (fun h => h0 (List.mem_cons_of_mem c h)) (by rw [List.length_cons] at hfuel; omega)
      cases gap with
      | nil =>
          obtain ⟨rest', hrest'⟩ := ih []
          exact ⟨rest', by simpa using hrest'⟩
      | cons d gap =>
          obtain ⟨rest', hrest'⟩ := ih (gap ++ [c])
          refine ⟨rest', ?_⟩
          simp only [List.length_append, List.length_singleton, List.append_assoc,
            List.singleton_append] at hrest'
          simp only [List.cons_append, List.set_append_right, Nat.sub_self, le_refl,
            List.set_cons_zero, List.length_cons]
          rw [← hrest']
          congr 1
          omega

/-! ### `CMUTIL_StringSelfTrim` -/

/-- A NUL is written behind a part at the front. -/
lemma blockWrite_nul {l t : List UInt8} (h : t <+: l) (rest : List UInt8) :
    ∃ rest', blockWrite (l ++ 0 :: rest) t.length [0] = some (t ++ 0 :: rest') ∧
      (t ++ 0 :: rest').length = (l ++ 0 :: rest).length ∧ (t = l → rest' = rest) := by
  obtain ⟨u, rfl⟩ := h
  cases u with
  | nil =>
      refine ⟨rest, ?_, by simp, fun _ => rfl⟩
      simpa using blockWrite_append t [0] rest [0] rfl
  | cons c u =>
      refine ⟨u ++ 0 :: rest, ?_, by simp, fun h => absurd h (by simp)⟩
      simpa using blockWrite_append t [c] (u ++ 0 :: rest) [0] rfl

namespace StringInternal

variable {s : StringInternal} {l : List UInt8}

/-- The two loops and the NUL between them. -/
lemma Holds.selfTrim_loops (h : Holds s l) (hne : l ≠ []) :
    ∃ rest', (strRTrim l ++ 0 :: rest').length = s.data.length ∧
      (strRTrim l = l → strRTrim l ++ 0 :: rest' = s.data) ∧
      s.selfTrim = (if 0 < ((strRTrim l).takeWhile skippedLeft).length then
          blockMove (strRTrim l ++ 0 :: rest') 0 ((strRTrim l).takeWhile skippedLeft).length
            ((strRTrim l).length - ((strRTrim l).takeWhile skippedLeft).length + 1)
        else some (strRTrim l ++ 0 :: rest')).map fun data =>
          { s with
            data := data
            size := (strRTrim l).length - ((strRTrim l).takeWhile skippedLeft).length } := by
  obtain ⟨rest, hdata⟩ := h.split
  obtain ⟨hpre, hright⟩ := strRTrim_isPrefix hne
  have hpos := List.length_pos_iff.mpr hne
  have hrpos := List.length_pos_iff.mpr hright
  have hsize : s.size = (l.length - 1) + 1 := by
    rw [h.size_eq]
    omega
  obtain ⟨rest', hwrite, hlen, hsame⟩ := blockWrite_nul hpre rest
  refine ⟨rest', by rw [hlen, hdata], fun heq => by rw [hsame heq, heq, hdata], ?_⟩
  have hloop : selfTrimRightLoop s.data (s.size - 1) s.size
      = some ((strRTrim l).length - 1, (strRTrim l).length - 1 + 1) := by
    rw [hsize, Nat.add_sub_cancel, selfTrimRightLoop_eq, hdata, strRTrimLoop_eq hne]
    rfl
  have hback : (strRTrim l).length - 1 + 1 = (strRTrim l).length := Nat.sub_add_cancel hrpos
  rw [selfTrim, if_neg (by omega), hloop]
  simp only [Option.bind_eq_bind, Option.bind_some, hback]
  rw [hdata, hwrite, Option.bind_some, selfTrimLeftLoop_eq, Nat.zero_add, Option.bind_some]
  split
  · rw [Option.map_eq_bind]
    rfl
  · rfl

/-- `CMUTIL_StringSelfTrim` leaves what is left of the bytes. -/
lemma Holds.selfTrim (h : Holds s l) :
    ∃ s', s.selfTrim = some s' ∧ Holds s' (stringSelfTrim l) := by
  by_cases hne : l = []
  · subst hne
    refine ⟨s, ?_, h⟩
    rw [StringInternal.selfTrim, if_pos (by simpa using h.size_eq)]
  · obtain ⟨rest', hlen, -, htrim⟩ := h.selfTrim_loops hne
    let pre := (strRTrim l).takeWhile skippedLeft
    have hparts : pre ++ stringSelfTrim l = strRTrim l := List.takeWhile_append_dropWhile
    have hsub : (strRTrim l).length - pre.length = (stringSelfTrim l).length := by
      rw [← hparts, List.length_append, Nat.add_sub_cancel_left]
    by_cases hpos : 0 < pre.length
    · have hmove : blockMove (strRTrim l ++ 0 :: rest') 0 pre.length
          ((stringSelfTrim l).length + 1) = some (stringSelfTrim l ++
            0 :: (strRTrim l ++ 0 :: rest').drop ((stringSelfTrim l).length + 1)) := by
        rw [← hparts, List.append_assoc, blockMove, memmove, List.drop_left]
        simp [List.take_append]
        omega
      rw [if_pos hpos, hsub, hmove] at htrim
      refine ⟨_, htrim, Holds.of_split ⟨_, rfl⟩ rfl ?_⟩
      have hcap := h.capacity_eq
      rw [← hlen] at hcap
      have hlong : (stringSelfTrim l).length ≤ (strRTrim l).length := by
        rw [← hparts]
        simp
      simp only [List.length_append, List.length_cons, List.length_drop] at hcap ⊢
      omega
    · have hnil : pre = [] := List.eq_nil_of_length_eq_zero (by omega)
      rw [if_neg hpos, hsub] at htrim
      rw [hnil, List.nil_append] at hparts
      refine ⟨_, htrim, Holds.of_split ⟨rest', by rw [hparts]⟩ rfl ?_⟩
      rw [hlen]
      exact h.capacity_eq

/-- A text with nothing to cut is left as it is. -/
lemma Holds.selfTrim_self (h : Holds s l) (hself : stringSelfTrim l = l) :
    s.selfTrim = some s := by
  by_cases hne : l = []
  · subst hne
    rw [StringInternal.selfTrim, if_pos (by simpa using h.size_eq)]
  · obtain ⟨rest', -, hsame, htrim⟩ := h.selfTrim_loops hne
    have hparts : (strRTrim l).takeWhile skippedLeft ++ stringSelfTrim l = strRTrim l :=
      List.takeWhile_append_dropWhile
    have hlen := congrArg List.length hparts
    have hle := (strRTrim_isPrefix hne).1.length_le
    rw [hself, List.length_append] at hlen
    have hnone : ((strRTrim l).takeWhile skippedLeft).length = 0 := by omega
    have hright : strRTrim l = l := by
      rw [List.eq_nil_of_length_eq_zero hnone, hself, List.nil_append] at hparts
      exact hparts.symm
    rw [htrim, hnone, if_neg (by omega), hsame hright, hright, Nat.sub_zero, ← h.size_eq]
    rfl

end StringInternal

/-! ### `CMUTIL_StrTrim` -/

lemma strLTrimBlock_eq {t : List UInt8} (h0 : (0 : UInt8) ∉ t) (rest : List UInt8) :
    ∃ rest', strLTrimBlock (t ++ 0 :: rest) = some (t.dropWhile isSpaceByte ++ 0 :: rest') := by
  have hdrop : t.dropWhile skippedLeft = t.dropWhile isSpaceByte := dropWhile_congr fun c hc => by
    have hne : c ≠ 0 := fun h => h0 (h ▸ hc)
    simp [skippedLeft, strchr_spaces hne, hne]
  have hparts : t.takeWhile skippedLeft ++ t.dropWhile isSpaceByte = t :=
    hdrop ▸ List.takeWhile_append_dropWhile
  have hlen := congrArg List.length hparts
  rw [List.length_append] at hlen
  obtain ⟨rest', hmove⟩ := strMoveLoop_eq rest (t.dropWhile isSpaceByte) []
    (t.takeWhile skippedLeft) ((t ++ 0 :: rest).length + 1)
    (fun h => h0 (List.dropWhile_sublist _ |>.subset h))
    (by rw [List.length_append]; omega)
  rw [← List.append_assoc (t.takeWhile skippedLeft), hparts] at hmove
  refine ⟨rest', ?_⟩
  rw [strLTrimBlock, strLTrimLoop_eq]
  exact hmove

/-- The right trim from inside a text cuts what is behind. -/
lemma strRTrimFrom_of_pos {l : List UInt8} (rest : List UInt8) {len : ℤ} (hpos : 0 < len)
    (hle : len ≤ l.length) : ∃ rest', strRTrimFrom (l ++ 0 :: rest) len =
      some (strRTrim (l.take len.toNat) ++ 0 :: rest') := by
  have hlen : (l.take len.toNat).length = len.toNat := by
    rw [List.length_take]
    omega
  have hne : l.take len.toNat ≠ [] := by
    rw [← List.length_pos_iff]
    omega
  obtain ⟨hpre, hright⟩ := strRTrim_isPrefix hne
  obtain ⟨rest', hwrite, -⟩ := blockWrite_nul (hpre.trans (List.take_prefix _ l)) rest
  have hloop := strRTrimLoop_eq hne (l.drop len.toNat ++ 0 :: rest)
  rw [← List.append_assoc, List.take_append_drop, hlen] at hloop
  refine ⟨rest', ?_⟩
  rw [strRTrimFrom, if_neg hpos.ne', if_neg hpos.not_gt, hloop, Option.bind_eq_bind,
    Option.bind_some, Nat.sub_add_cancel (List.length_pos_iff.mpr hright), hwrite]

/-- What `CMUTIL_StrTrim` leaves when the length of the text is taken for `len`. -/
def trimAt (l : List UInt8) (len : ℤ) : Option (List UInt8) :=
  if len = 0 then some (l.dropWhile isSpaceByte)
  else if len < 0 then none
  else some (trimSpaces (l.take len.toNat))

/-- Nothing is added. -/
lemma trimAt_sublist {l t : List UInt8} {len : ℤ} (h : trimAt l len = some t) : t.Sublist l := by
  have htrim : (trimSpaces (l.take len.toNat)).Sublist l :=
    ((List.dropWhile_sublist _).trans (List.rdropWhile_prefix _ _).sublist).trans
      (List.take_sublist _ _)
  rw [trimAt] at h
  split_ifs at h
  · rw [← Option.some.inj h]
    exact List.dropWhile_sublist _
  · rw [← Option.some.inj h]
    exact htrim

lemma strTrim_trimAt {l : List UInt8} (h0 : (0 : UInt8) ∉ l) (rest : List UInt8) {len : ℤ}
    (hle : len ≤ l.length) :
    ((strRTrimFrom (l ++ 0 :: rest) len).bind strLTrimBlock).bind (fun inp => cStringAt inp 0) =
      trimAt l len := by
  have hleft : ∀ t : List UInt8, (0 : UInt8) ∉ t → ∀ rest,
      (strLTrimBlock (t ++ 0 :: rest)).bind (fun inp => cStringAt inp 0)
        = some (t.dropWhile isSpaceByte) := by
    intro t ht rest
    obtain ⟨rest', hrest⟩ := strLTrimBlock_eq ht rest
    rw [hrest]
    exact cStringAt_append [] (fun h => ht (List.dropWhile_sublist _ |>.subset h)) rest'
  rcases lt_trichotomy len 0 with hneg | rfl | hpos
  · rw [strRTrimFrom, trimAt, if_neg hneg.ne, if_neg hneg.ne, if_pos hneg, if_pos hneg]
    rfl
  · exact hleft l h0 rest
  · obtain ⟨rest', hright⟩ := strRTrimFrom_of_pos rest hpos hle
    have h0' : (0 : UInt8) ∉ l.take len.toNat := fun h => h0 (List.mem_of_mem_take h)
    have h0r : (0 : UInt8) ∉ strRTrim (l.take len.toNat) := by
      intro hmem
      rcases List.eq_nil_or_concat (l.take len.toNat) with hnil | ⟨m, c, hm⟩
      · rw [hnil] at hmem
        exact List.not_mem_nil hmem
      · exact h0' ((strRTrim_isPrefix (by simp [hm])).1.subset hmem)
    rw [hright, trimAt, if_neg hpos.ne', if_neg hpos.not_gt, ← dropWhile_strRTrim h0']
    exact hleft _ h0r rest'

lemma strRTrimBlock_eq {l : List UInt8} (h0 : (0 : UInt8) ∉ l) (rest : List UInt8) :
    strRTrimBlock (l ++ 0 :: rest) = strRTrimFrom (l ++ 0 :: rest) (toInt l.length) := by
  have htext : cStringAt (l ++ 0 :: rest) 0 = some l := cStringAt_append [] h0 rest
  rw [strRTrimBlock, htext, Option.bind_eq_bind, Option.bind_some]

/-- `CMUTIL_StrTrim` takes the length for an `int`. -/
lemma strTrimBlock_eq {l : List UInt8} (h0 : (0 : UInt8) ∉ l) (rest : List UInt8) :
    (strTrimBlock (l ++ 0 :: rest)).bind (fun inp => cStringAt inp 0) =
      trimAt l (toInt l.length) := by
  rw [← strTrim_trimAt h0 rest (toInt_le l.length), strTrimBlock, strRTrimBlock_eq h0,
    Option.bind_eq_bind]

/-- A length leads to the end of the text, or to white space at its end. -/
def TrimReaches (l : List UInt8) (len : ℤ) : Prop :=
  len = 0 ∧ ((∀ c ∈ l.getLast?, isSpaceByte c = false) ∨ ∀ c ∈ l, isSpaceByte c = true) ∨
    0 < len ∧ ∀ c ∈ l.drop len.toNat, isSpaceByte c = true

lemma trimAt_iff (l : List UInt8) (len : ℤ) :
    trimAt l len = some (trimSpaces l) ↔ TrimReaches l len := by
  rw [trimAt, TrimReaches]
  rcases lt_trichotomy len 0 with hneg | rfl | hpos
  · simp [hneg.ne, hneg, hneg.not_gt]
  · simp [dropWhile_eq_trimSpaces_iff]
  · simp [hpos.ne', hpos, hpos.not_gt, trimSpaces_take_iff]

/-- **Trimming.** `CMUTIL_StringSelfTrim` cuts the runs of white space at the two ends, and does
nothing the second time. `CMUTIL_StrTrim` does the same to a copy of the bytes, exactly when the
length as an `int` leads to the end. -/
theorem stringTrim_iff {s : StringInternal} {l : List UInt8} (h : StringInternal.Holds s l)
    (h0 : (0 : UInt8) ∉ l) (rest : List UInt8) :
    (∃ t s' inp', Trimmed l t ∧ ((∀ c ∈ l, isSpaceByte c = true) → t = []) ∧
      s.selfTrim = some s' ∧ StringInternal.Holds s' t ∧ s'.selfTrim = some s' ∧
      strTrimBlock (l ++ 0 :: rest) = some inp' ∧ cStringAt inp' 0 = some t) ↔
      TrimReaches l (toInt l.length) := by
  obtain ⟨s', htrim, h'⟩ := h.selfTrim
  rw [stringSelfTrim_eq h0] at h'
  rw [← trimAt_iff, ← strTrimBlock_eq h0 rest, Option.bind_eq_some_iff]
  constructor
  · rintro ⟨t, s'', inp', -, -, htrim'', h'', -, hblock, htext⟩
    obtain rfl := Option.some.inj (htrim.symm.trans htrim'')
    exact ⟨inp', hblock, by rw [htext, ← h''.content_eq, h'.content_eq]⟩
  · rintro ⟨inp', hblock, htext⟩
    have h0' : (0 : UInt8) ∉ trimSpaces l := fun hmem => by
      obtain ⟨pre, post, heq, -, -⟩ := (trimmed_trimSpaces l).split
      exact h0 (heq ▸ by simp [hmem])
    have hself : stringSelfTrim (trimSpaces l) = trimSpaces l := by
      rw [stringSelfTrim_eq h0', (trimmed_trimSpaces l).trimSpaces_eq]
    exact ⟨trimSpaces l, s', inp', trimmed_trimSpaces l, trimSpaces_of_all, htrim, h',
      h'.selfTrim_self hself, hblock, htext⟩

/-- A text with a space at either end. -/
theorem stringTrim_iff_padded :
    (∃ t s' inp', Trimmed [0x20, 0x61, 0x0A] t ∧
      ((∀ c ∈ [0x20, 0x61, 0x0A], isSpaceByte c = true) → t = []) ∧
      (StringInternal.mk [0x20, 0x61, 0x0A, 0, 0x7A] 5 3).selfTrim = some s' ∧
      StringInternal.Holds s' t ∧ s'.selfTrim = some s' ∧
      strTrimBlock ([0x20, 0x61, 0x0A] ++ 0 :: []) = some inp' ∧ cStringAt inp' 0 = some t) ↔
      TrimReaches [0x20, 0x61, 0x0A] (toInt 3) :=
  stringTrim_iff (StringInternal.Holds.of_split ⟨[0x7A], rfl⟩ rfl rfl) (by decide) []

/-- A length that is no `int` leads `CMUTIL_StrTrim` out of the text. -/
lemma strTrimBlock_of_long {l : List UInt8} (h0 : (0 : UInt8) ∉ l) (hge : 2147483648 ≤ l.length)
    (hlt : l.length < 4294967296) (rest : List UInt8) : strTrimBlock (l ++ 0 :: rest) = none := by
  have hneg := toInt_neg hge hlt
  rw [strTrimBlock, strRTrimBlock_eq h0, strRTrimFrom, if_neg hneg.ne, if_pos hneg,
    Option.bind_eq_bind, Option.bind_none]

/-- A text of as many bytes as there are numbers up to the greatest `int`, and one more. -/
theorem stringTrim_fails :
    ∃ s l, l = List.replicate 2147483648 0x61 ∧ StringInternal.Holds s l ∧ (0 : UInt8) ∉ l ∧
      (∃ s', s.selfTrim = some s') ∧ strTrimBlock (l ++ 0 :: []) = none := by
  obtain ⟨l, hl⟩ : ∃ l : List UInt8, l = List.replicate 2147483648 0x61 := ⟨_, rfl⟩
  have hlen : l.length = 2147483648 := by rw [hl, List.length_replicate]
  have h0 : (0 : UInt8) ∉ l := by
    rw [hl, List.mem_replicate]
    decide
  have hholds : StringInternal.Holds ⟨l ++ [0], l.length + 1, l.length⟩ l :=
    StringInternal.Holds.of_split ⟨[], rfl⟩ rfl (by simp)
  obtain ⟨s', htrim, -⟩ := hholds.selfTrim
  exact ⟨_, l, hl, hholds, h0, ⟨s', htrim⟩,
    strTrimBlock_of_long h0 hlen.ge (by rw [hlen]; norm_num) []⟩

end LibCmutils
