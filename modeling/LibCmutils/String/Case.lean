import LibCmutils.String.Builder

/-!
Upper and lower case (`src/strings.c`).

* `StringInternal.convertCopy`: `CMUTIL_StringToLower` and `CMUTIL_StringToUpper`, which run over
  the size and fill a new string. `convertCopy_spec`, `convertCopy_empty`.
* `StringInternal.convertSelf`: `CMUTIL_StringSelfToLower` and `CMUTIL_StringSelfToUpper`, which
  run to the first NUL in place. `convertSelf_spec`.

The main result is `caseConversion_iff`, when the two agree.
-/

namespace LibCmutils

namespace StringInternal

variable {s : StringInternal} {l : List UInt8}

/-- The loop over the size, from place `i` on for `n` more bytes. -/
def convertLoop (f : UInt8 → UInt8) (src : List UInt8) : ℕ → ℕ → List UInt8 → Option (List UInt8)
  | 0, _, dst => some dst
  | n + 1, i, dst => do
      let c ← src[i]?
      let dst ← blockWrite dst i [f c]
      convertLoop f src n (i + 1) dst

/-- A new string of the converted bytes. -/
def convertCopy (f : UInt8 → UInt8) (allocs : Allocs) (istr : StringInternal) :
    Option (Option StringInternal) := do
  match ← createInternal allocs istr.size none with
  | none => return none
  | some res =>
      let data ← convertLoop f istr.data istr.size 0 res.data
      let data ← blockWrite data istr.size [0]
      return some { res with data := data, size := istr.size }

/-- `CMUTIL_StringToLower`. -/
def toLower : Allocs → StringInternal → Option (Option StringInternal) := convertCopy tolower

/-- `CMUTIL_StringToUpper`. -/
def toUpper : Allocs → StringInternal → Option (Option StringInternal) := convertCopy toupper

/-- The loop to the NUL. -/
def convertToNul (f : UInt8 → UInt8) : List UInt8 → Option (List UInt8)
  | [] => none
  | c :: p => if c ≠ 0 then (convertToNul f p).map (f c :: ·) else some (c :: p)

/-- The bytes of a string are converted in place. -/
def convertSelf (f : UInt8 → UInt8) (istr : StringInternal) : Option StringInternal := do
  let data ← convertToNul f istr.data
  return { istr with data := data }

/-- `CMUTIL_StringSelfToLower`. -/
def selfToLower : StringInternal → Option StringInternal := convertSelf tolower

/-- `CMUTIL_StringSelfToUpper`. -/
def selfToUpper : StringInternal → Option StringInternal := convertSelf toupper

/-! ### What they do -/

variable {f : UInt8 → UInt8}

lemma convertLoop_eq (f : UInt8 → UInt8) (rest tail : List UInt8) :
    ∀ todo done gap : List UInt8, gap.length = todo.length →
      convertLoop f (done ++ (todo ++ rest)) todo.length done.length (done.map f ++ (gap ++ tail)) =
        some ((done ++ todo).map f ++ tail)
  | [], done, gap, hgap => by
      obtain rfl := List.length_eq_zero_iff.mp hgap
      simp [convertLoop]
  | c :: todo, done, [], hgap => by simp at hgap
  | c :: todo, done, d :: gap, hgap => by
      have hread : (done ++ (c :: todo ++ rest))[done.length]? = some c := by simp
      have hwrite := blockWrite_append (done.map f) [d] (gap ++ tail) [f c] rfl
      rw [List.length_map] at hwrite
      have hnext := convertLoop_eq f rest tail todo (done ++ [c]) gap (by simpa using hgap)
      rw [List.length_cons, convertLoop, hread, Option.bind_eq_bind, Option.bind_some,
        List.cons_append, ← List.singleton_append, hwrite, Option.bind_eq_bind, Option.bind_some]
      simpa using hnext

/-- A copy of bytes that are there. -/
lemma convertCopy_spec (h : Holds s l) (hne : l ≠ []) {allocs : Allocs}
    (hmem : allocs.record && allocs.block.isSome) :
    ∃ res, convertCopy f allocs s = some (some res) ∧ Holds res (l.map f) := by
  have hpos := List.length_pos_iff.mpr hne
  have hsize : s.size ≠ 0 := by
    rw [h.size_eq]
    omega
  obtain ⟨res, hcreate, hempty, hcap, -⟩ := createInternal_served hmem hsize
  obtain ⟨rest, hdata⟩ := h.split
  obtain ⟨gap, c, hblock⟩ : ∃ gap c, res.data = gap ++ [c] := by
    rcases List.eq_nil_or_concat res.data with hnil | ⟨gap, c, hblock⟩
    · rw [hempty.capacity_eq, hnil] at hcap
      exact absurd hcap (by simp)
    · exact ⟨gap, c, by rw [hblock, List.concat_eq_append]⟩
  have hlen : gap.length = l.length := by
    have := hempty.capacity_eq
    rw [hcap, hblock, List.length_append, List.length_singleton, h.size_eq] at this
    omega
  have hloop := convertLoop_eq f (0 :: rest) [c] l [] gap hlen
  rw [List.nil_append, List.map_nil, List.nil_append, List.nil_append, List.length_nil, ← hdata,
    ← hblock] at hloop
  have hwrite := blockWrite_append (l.map f) [c] [] [0] rfl
  rw [List.length_map, List.append_nil] at hwrite
  refine ⟨{ res with data := l.map f ++ [0], size := l.length }, ?_, Holds.of_split ⟨[], rfl⟩ ?_ ?_⟩
  · rw [convertCopy, hcreate, Option.bind_eq_bind, Option.bind_some, h.size_eq]
    simp [hloop, hwrite]
  · simp
  · simp [hcap, h.size_eq]

/-- There is no copy of an empty string. -/
lemma convertCopy_empty (h : Holds s []) (allocs : Allocs) : convertCopy f allocs s = some none := by
  have hsize : s.size = 0 := h.size_eq
  rw [convertCopy, hsize, createInternal]
  cases allocs.record <;> rfl

lemma convertToNul_eq (f : UInt8 → UInt8) (rest : List UInt8) : ∀ l : List UInt8,
    convertToNul f (l ++ 0 :: rest) =
      some ((l.takeWhile (· != 0)).map f ++ (l.dropWhile (· != 0) ++ 0 :: rest))
  | [] => rfl
  | c :: l => by
      rw [List.cons_append, convertToNul, List.takeWhile_cons, List.dropWhile_cons]
      by_cases hc : c = 0
      · subst hc
        rfl
      · rw [if_pos hc, if_pos (by simpa using hc), if_pos (by simpa using hc),
          convertToNul_eq f rest l]
        rfl

/-- In place the bytes up to the first NUL are converted. -/
lemma convertSelf_spec (h : Holds s l) :
    ∃ s', convertSelf f s = some s' ∧
      Holds s' ((l.takeWhile (· != 0)).map f ++ l.dropWhile (· != 0)) := by
  obtain ⟨rest, hdata⟩ := h.split
  have hlen : ((l.takeWhile (· != 0)).map f ++ l.dropWhile (· != 0)).length = l.length := by
    rw [List.length_append, List.length_map, ← List.length_append, List.takeWhile_append_dropWhile]
  refine ⟨{ s with data := (l.takeWhile (· != 0)).map f ++ (l.dropWhile (· != 0) ++ 0 :: rest) },
    ?_, Holds.of_split ⟨rest, by rw [List.append_assoc]⟩ (h.size_eq.trans hlen.symm) ?_⟩
  · rw [convertSelf, hdata, convertToNul_eq]
    rfl
  · rw [h.capacity_eq, hdata, ← List.append_assoc, List.length_append, List.length_append, hlen]

/-- The two ways of a conversion give equal strings: the copy, and a clone that is converted in
place. -/
def ConversionsAgree (copy : Allocs → StringInternal → Option (Option StringInternal))
    (self : StringInternal → Option StringInternal) (allocs cloning : Allocs)
    (s : StringInternal) : Prop :=
  ∃ res c c' m, copy allocs s = some (some res) ∧ clone cloning s = some (some c) ∧
    self c = some c' ∧ Holds res m ∧ Holds c' m

lemma map_eq_self_iff {t : List UInt8} : t.map f = t ↔ ∀ c ∈ t, f c = c := by
  conv_lhs =>
    rhs
    rw [← List.map_id t]
  exact List.map_inj_left

lemma conversionsAgree_iff (h : Holds s l) {allocs cloning : Allocs}
    (hmem : allocs.record && allocs.block.isSome) (hclone : cloning.record && cloning.block.isSome) :
    ConversionsAgree (convertCopy f) (convertSelf f) allocs cloning s ↔
      l ≠ [] ∧ ∀ c ∈ l.dropWhile (· != 0), f c = c := by
  have hparts : l.map f = (l.takeWhile (· != 0)).map f ++ (l.dropWhile (· != 0)).map f := by
    rw [← List.map_append, List.takeWhile_append_dropWhile]
  obtain ⟨c, hc, hholds, hsome⟩ := clone_spec h cloning
  obtain ⟨c, rfl⟩ := Option.isSome_iff_exists.mp (hsome.trans hclone)
  obtain ⟨c', hself, hc'⟩ := convertSelf_spec (f := f) (hholds c rfl)
  constructor
  · rintro ⟨res, d, d', m, hcopy, hd, hd', hres, hm⟩
    obtain rfl := Option.some.inj (Option.some.inj (hc.symm.trans hd))
    obtain rfl := Option.some.inj (hself.symm.trans hd')
    have hne : l ≠ [] := by
      rintro rfl
      rw [convertCopy_empty h] at hcopy
      exact absurd hcopy nofun
    refine ⟨hne, ?_⟩
    obtain ⟨res', hcopy', hres'⟩ := convertCopy_spec (f := f) h hne hmem
    obtain rfl := Option.some.inj (Option.some.inj (hcopy.symm.trans hcopy'))
    have heq : (l.takeWhile (· != 0)).map f ++ (l.dropWhile (· != 0)).map f =
        (l.takeWhile (· != 0)).map f ++ l.dropWhile (· != 0) := by
      rw [← hparts, ← hres'.content_eq, hres.content_eq, ← hc'.content_eq, hm.content_eq]
    exact map_eq_self_iff.mp (List.append_cancel_left heq)
  · rintro ⟨hne, hfix⟩
    obtain ⟨res, hcopy, hres⟩ := convertCopy_spec (f := f) h hne hmem
    rw [hparts, map_eq_self_iff.mpr hfix] at hres
    exact ⟨res, c, c', _, hcopy, hc, hself, hres, hc'⟩

/-- **Case conversion.** Copying and converting in place agree exactly on the strings that are
not empty and have nothing to convert behind a NUL. -/
theorem caseConversion_iff (h : Holds s l) {allocs cloning : Allocs}
    (hmem : allocs.record && allocs.block.isSome) (hclone : cloning.record && cloning.block.isSome) :
    (ConversionsAgree toLower selfToLower allocs cloning s ↔
      l ≠ [] ∧ ∀ c ∈ l.dropWhile (· != 0), tolower c = c) ∧
    (ConversionsAgree toUpper selfToUpper allocs cloning s ↔
      l ≠ [] ∧ ∀ c ∈ l.dropWhile (· != 0), toupper c = c) :=
  ⟨conversionsAgree_iff h hmem hclone, conversionsAgree_iff h hmem hclone⟩

/-- A letter of either case. -/
theorem caseConversion_iff_mixed :
    ConversionsAgree toLower selfToLower ⟨true, some fun _ => 0, none⟩
      ⟨true, some fun _ => 0x7A, none⟩ ⟨[0x41, 0x62, 0], 3, 2⟩ :=
  (caseConversion_iff (Holds.of_split ⟨[], rfl⟩ rfl rfl : Holds _ [0x41, 0x62]) rfl rfl).1.mpr
    ⟨by decide, by simp⟩

/-- The empty string, and a letter behind a NUL. -/
theorem caseConversion_fails :
    ¬ ConversionsAgree toLower selfToLower ⟨true, some fun _ => 0, none⟩
        ⟨true, some fun _ => 0, none⟩ ⟨[0], 1, 0⟩ ∧
      ¬ ConversionsAgree toUpper selfToUpper ⟨true, some fun _ => 0, none⟩
        ⟨true, some fun _ => 0, none⟩ ⟨[0x61, 0, 0x62, 0], 4, 3⟩ := by
  have hempty : Holds ⟨[0], 1, 0⟩ [] := Holds.of_split ⟨[], rfl⟩ rfl rfl
  have hinner : Holds ⟨[0x61, 0, 0x62, 0], 4, 3⟩ [0x61, 0, 0x62] := Holds.of_split ⟨[], rfl⟩ rfl rfl
  rw [toLower, selfToLower, toUpper, selfToUpper, conversionsAgree_iff hempty rfl rfl,
    conversionsAgree_iff hinner rfl rfl]
  exact ⟨fun h => h.1 rfl, fun h => absurd (h.2 0x62 (by decide)) (by decide)⟩

end StringInternal

end LibCmutils
