import LibCmutils.String.Split
import LibCmutils.String.Trim

/-!
Splitting a text into strings (`CMUTIL_StringSplit`, `src/strings.c`).

* `StringInternal.splitToken`: one string of the result, `splitLoop` and `stringSplit`: all of
  them, with the answers of the allocator for each.
* `splitLoop_spec`: the strings hold the pieces of `splitPieces`, trimmed.
* `splitPieces_eq`: these are what lies between the needles.

The main result is `stringSplit_spec`.
-/

namespace LibCmutils

/-- The pieces are what lies between the needles, taken from left to right. -/
lemma splitPieces_eq {needle : List UInt8} (hne : needle ≠ []) (l : List UInt8) :
    ∀ (fuel start : ℕ), start ≤ l.length → l.length - start ≤ fuel →
      ∃ ps, LeftmostFrom needle l needle.length start ps ∧
        splitPieces needle fuel (l.drop start) = segmentsFrom l needle.length start ps := by
  have hpos := List.length_pos_iff.mpr hne
  intro fuel
  induction fuel with
  | zero =>
      intro start hstart hfuel
      have hnil : l.drop start = [] := List.drop_eq_nil_of_le (by omega)
      have hnone : strstrSplit needle (l.drop start) = none := by rw [hnil, strstrSplit, if_neg hne]
      exact ⟨[], .nil (strstrSplit_notOccursAt hnone), rfl⟩
  | succ fuel ih =>
      intro start hstart hfuel
      rw [splitPieces]
      cases hfind : strstrSplit needle (l.drop start) with
      | none => exact ⟨[], .nil (strstrSplit_notOccursAt hfind), rfl⟩
      | some uv =>
          obtain ⟨u, v⟩ := uv
          obtain ⟨hoccurs, hfirst⟩ := strstrSplit_occursAt hfind
          have heq := strstrSplit_eq hfind
          have hlen := congrArg List.length heq
          rw [List.length_drop, List.length_append, List.length_append] at hlen
          obtain ⟨ps, hps, hpieces⟩ := ih (start + u.length + needle.length) (by omega) (by omega)
          have hv : l.drop (start + u.length + needle.length) = v := by
            rw [Nat.add_assoc, ← List.drop_drop, heq, ← List.append_assoc, ← List.length_append,
              List.drop_left]
          refine ⟨(start + u.length) :: ps, .cons (Nat.le_add_right _ _) hoccurs hfirst hps, ?_⟩
          rw [hv] at hpieces
          rw [segmentsFrom, ← hpieces, Nat.add_sub_cancel_left, heq, List.take_left]

lemma subset_of_mem_segmentsFrom {l : List UInt8} {n : ℕ} {seg : List UInt8} :
    ∀ {start : ℕ} {ps : List ℕ}, seg ∈ segmentsFrom l n start ps → seg ⊆ l
  | start, [], h => by
      rw [segmentsFrom, List.mem_singleton] at h
      exact h ▸ List.drop_subset start l
  | start, p :: ps, h => by
      rw [segmentsFrom, List.mem_cons] at h
      rcases h with rfl | h
      · exact fun _ hc => List.drop_subset start l (List.take_subset _ _ hc)
      · exact subset_of_mem_segmentsFrom h

namespace StringInternal

/-- A piece as a string of its own, created with room for it and trimmed. -/
def splitToken (allocs : Allocs) (piece : List UInt8) : Option (Option StringInternal) := do
  match ← createInternal allocs (piece.length + 1) none with
  | none => return none
  | some str =>
      if 0 < piece.length then
        let (str, _) ← addNString allocs.grown str (some piece)
        return some (← str.selfTrim)
      else return some (← str.selfTrim)

/-- The loop of `CMUTIL_StringSplitInternal`; `n` counts the strings. An empty needle is not
looked for. -/
def splitLoop (allocs : ℕ → Allocs) (needle : List UInt8) :
    ℕ → ℕ → List UInt8 → Option (Option (List StringInternal))
  | 0, _, _ => none
  | fuel + 1, n, p => do
      match if needle = [] then none else strstrSplit needle p with
      | none => return (← splitToken (allocs n) p).map fun str => [str]
      | some (piece, q) =>
          match ← splitToken (allocs n) piece with
          | none => return none
          | some str => return (← splitLoop allocs needle fuel (n + 1) q).map (str :: ·)

/-- `CMUTIL_StringSplitInternal`; the inner `none` is `NULL`. -/
def stringSplit (allocs : ℕ → Allocs) (haystack needle : Option CString) :
    Option (Option (List StringInternal)) :=
  match haystack, needle with
  | some haystack, some needle =>
      splitLoop allocs needle.1 (haystack.1.length + 1) 0 haystack.1
  | _, _ => some none

/-- There is always room for the piece. -/
lemma splitToken_spec {allocs : Allocs} (hmem : allocs.record && allocs.block.isSome)
    (piece : List UInt8) :
    ∃ str, splitToken allocs piece = some (some str) ∧ Holds str (stringSelfTrim piece) := by
  obtain ⟨str, hcreate, hempty, -, hroom⟩ :=
    createInternal_served hmem (Nat.succ_ne_zero piece.length)
  obtain ⟨str', hadd, h'⟩ := addNString_of_room hempty (hroom allocs.grown _ (Nat.le_succ _))
  rw [List.nil_append] at h'
  obtain ⟨tok, htrim, htok⟩ := h'.selfTrim
  refine ⟨tok, ?_, htok⟩
  rw [splitToken, hcreate, Option.bind_eq_bind, Option.bind_some]
  by_cases hpos : 0 < piece.length
  · simp [hpos, hadd, htrim]
  · obtain rfl : piece = [] := List.eq_nil_of_length_eq_zero (by omega)
    have hsame : str' = str := by
      simpa [addNString] using (congrArg (Option.map Prod.fst) hadd).symm
    simp [← hsame, htrim]

/-- The loop makes a string of every piece. -/
lemma splitLoop_spec {allocs : ℕ → Allocs}
    (hmem : ∀ n, (allocs n).record && (allocs n).block.isSome) (needle : List UInt8) :
    ∀ (fuel n : ℕ) (p : List UInt8), p.length ≤ fuel →
      ∃ toks, splitLoop allocs needle (fuel + 1) n p = some (some toks) ∧
        List.Forall₂ (fun tok piece => Holds tok (stringSelfTrim piece)) toks
          (if needle = [] then [p] else splitPieces needle fuel p) := by
  intro fuel
  induction fuel with
  | zero =>
      intro n p hp
      obtain rfl : p = [] := List.eq_nil_of_length_eq_zero (by omega)
      obtain ⟨tok, htok, h⟩ := splitToken_spec (hmem n) []
      have hnone : (if needle = [] then none else strstrSplit needle []) = none := by
        split
        · rfl
        · rename_i hne
          rw [strstrSplit, if_neg hne]
      refine ⟨[tok], ?_, ?_⟩
      · rw [splitLoop, hnone]
        simp [htok]
      · rw [splitPieces, ite_self]
        exact .cons h .nil
  | succ fuel ih =>
      intro n p hp
      by_cases hne : needle = []
      · obtain ⟨tok, htok, h⟩ := splitToken_spec (hmem n) p
        rw [if_pos hne]
        refine ⟨[tok], ?_, .cons h .nil⟩
        rw [splitLoop, if_pos hne]
        simp [htok]
      · rw [if_neg hne, splitPieces, splitLoop, if_neg hne]
        cases hfind : strstrSplit needle p with
        | none =>
            obtain ⟨tok, htok, h⟩ := splitToken_spec (hmem n) p
            exact ⟨[tok], by simp [htok], .cons h .nil⟩
        | some sq =>
            obtain ⟨piece, q⟩ := sq
            obtain ⟨tok, htok, h⟩ := splitToken_spec (hmem n) piece
            have hlt := strstrSplit_length hne hfind
            obtain ⟨toks, hloop, htoks⟩ := ih (n + 1) q (by omega)
            rw [if_neg hne] at htoks
            exact ⟨tok :: toks, by simp [htok, hloop], .cons h htoks⟩

/-- **Splitting.** The strings hold what lies between the leftmost occurrences of the needle,
trimmed at both ends; their number is one more than that of the occurrences. -/
theorem stringSplit_spec {allocs : ℕ → Allocs}
    (hmem : ∀ n, (allocs n).record && (allocs n).block.isSome) (haystack needle : CString) :
    ∃ ps toks, (needle.1 ≠ [] → LeftmostFrom needle.1 haystack.1 needle.1.length 0 ps) ∧
      (needle.1 = [] → ps = []) ∧
      stringSplit allocs (some haystack) (some needle) = some (some toks) ∧
      toks.length = ps.length + 1 ∧
      List.Forall₂ (fun tok seg => ∃ t, Trimmed seg t ∧ Holds tok t) toks
        (segmentsFrom haystack.1 needle.1.length 0 ps) := by
  obtain ⟨toks, hloop, htoks⟩ := splitLoop_spec hmem needle.1 haystack.1.length 0 haystack.1 le_rfl
  obtain ⟨ps, hps, hnil, hsegs⟩ : ∃ ps,
      (needle.1 ≠ [] → LeftmostFrom needle.1 haystack.1 needle.1.length 0 ps) ∧
      (needle.1 = [] → ps = []) ∧
      (if needle.1 = [] then [haystack.1] else splitPieces needle.1 haystack.1.length haystack.1) =
        segmentsFrom haystack.1 needle.1.length 0 ps := by
    by_cases hne : needle.1 = []
    · exact ⟨[], fun h => absurd hne h, fun _ => rfl, by rw [if_pos hne]; rfl⟩
    · obtain ⟨ps, hps, hpieces⟩ := splitPieces_eq hne haystack.1 haystack.1.length 0
        (Nat.zero_le _) le_rfl
      exact ⟨ps, fun _ => hps, fun h => absurd h hne, by rw [if_neg hne]; exact hpieces⟩
  rw [hsegs] at htoks
  refine ⟨ps, toks, hps, hnil, hloop, ?_, ?_⟩
  · rw [htoks.length_eq, segmentsFrom_length]
  · refine (List.forall₂_iff_zip.mp htoks).elim fun hlen hzip =>
      List.forall₂_iff_zip.mpr ⟨hlen, fun {tok seg} hmem => ⟨_, trimmed_trimSpaces seg, ?_⟩⟩
    have h0 : (0 : UInt8) ∉ seg := fun h =>
      haystack.2 (subset_of_mem_segmentsFrom (List.of_mem_zip hmem).2 h)
    rw [← stringSelfTrim_eq h0]
    exact hzip hmem

/-- Two needles side by side and white space around them. -/
theorem stringSplit_spec_pieces :
    ∃ toks, stringSplit (fun _ => ⟨true, some fun _ => 0, none⟩)
      (some ⟨[0x20, 0x61, 0x2C, 0x2C, 0x62, 0x0A], by decide⟩) (some ⟨[0x2C], by decide⟩) =
        some (some toks) := by
  let allocs : ℕ → Allocs := fun _ => ⟨true, some fun _ => 0, none⟩
  have hmem : ∀ n, (allocs n).record && (allocs n).block.isSome := fun _ => rfl
  obtain ⟨ps, toks, -, -, hsplit, -⟩ := stringSplit_spec hmem
    ⟨[0x20, 0x61, 0x2C, 0x2C, 0x62, 0x0A], by decide⟩ ⟨[0x2C], by decide⟩
  exact ⟨toks, hsplit⟩

end StringInternal

end LibCmutils
