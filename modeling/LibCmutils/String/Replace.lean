import LibCmutils.Lib.CNumber
import LibCmutils.String.Builder
import LibCmutils.String.Split

/-!
Replacing parts of a string (`src/strings.c`).

* `StringInternal.replaceLoop`, `stringReplace`: `CMUTIL_StringReplace`, with fuel for its
  loop. The length of the needle is an `int` there.
* `replaceLoop_of_pos`: with a positive length the loop goes from left to right over the
  occurrences that far apart. `replaceLoop_of_nonpos`: without one it never goes on.

The main results are `stringReplace_iff`, when the result is the text with every occurrence
replaced, and `stringReplace_ends_iff`, when there is a result at all.
-/

namespace LibCmutils

namespace StringInternal

/-- Why a call has no result: the loop has not ended, or it has left the block. -/
inductive ReplaceFault where
  | running
  | undefined
  deriving DecidableEq

/-- A read or a write outside the block. -/
def orUndefined {β : Type} : Option β → Except ReplaceFault β
  | none => .error .undefined
  | some b => .ok b

/-- What comes before a needle is added, unless there is nothing. -/
def addBefore (alloc : Option (ℕ → UInt8)) (res : StringInternal) (before : List UInt8) :
    Except ReplaceFault (StringInternal × ℤ) :=
  if before.length ≠ 0 then orUndefined (addNString alloc res (some before)) else .ok (res, 0)

/-- The loop of `CMUTIL_StringReplace`; `n` counts the answers of the allocator. The text after
the last needle is added in the last round. -/
def replaceLoop (alloc : ℕ → Option (ℕ → UInt8)) (data : List UInt8) (needle alter : CString)
    (nlen : ℤ) : ℕ → ℕ → ℤ → StringInternal → Except ReplaceFault (Option StringInternal)
  | 0, _, _, _ => .error .running
  | fuel + 1, n, prv, res => do
      let text ← orUndefined (cStringAt data prv)
      match strstrSplit needle.1 text with
      | none => do
          let (res, ir) ← orUndefined (addNString (alloc n) res (some text))
          return if ir < 0 then none else some res
      | some (before, _) => do
          let (res, ir) ← addBefore (alloc n) res before
          if ir < 0 then return none
          else do
            let (res, ir) ← orUndefined (addString (alloc (n + 1)) res (some alter))
            if ir < 0 then return none
            else replaceLoop alloc data needle alter nlen fuel (n + 2) (prv + before.length + nlen) res

/-- `CMUTIL_StringReplace`; the inner `none` is `NULL`. -/
def stringReplace (create : Allocs) (alloc : ℕ → Option (ℕ → UInt8)) (fuel : ℕ)
    (istr : StringInternal) (needle alter : Option CString) :
    Except ReplaceFault (Option StringInternal) :=
  match needle, alter with
  | some needle, some alter => do
      match ← orUndefined (createInternal create istr.capacity none) with
      | none => return none
      | some res =>
          replaceLoop alloc istr.data needle alter (toInt needle.1.length) fuel 0 0 res
  | _, _ => return none

end StringInternal

namespace StringInternal

variable {alloc : ℕ → Option (ℕ → UInt8)} {data : List UInt8} {needle alter : CString}
  {nlen prv : ℤ} {res : StringInternal} {r text u v : List UInt8}

lemma hasRoom_of_isSome {s : StringInternal} {a : Option (ℕ → UInt8)} (h : a.isSome) (n : ℕ) :
    s.hasRoom a n := by
  rw [hasRoom, h, Bool.or_true]

/-- The last round. -/
lemma replaceLoop_last (hmem : ∀ n, (alloc n).isSome) (h : Holds res r)
    (htext : cStringAt data prv = some text) (hnone : strstrSplit needle.1 text = none)
    (fuel n : ℕ) :
    ∃ res', replaceLoop alloc data needle alter nlen (fuel + 1) n prv res = .ok (some res') ∧
      Holds res' (r ++ text) := by
  obtain ⟨res', hadd, h'⟩ := addNString_of_room h (hasRoom_of_isSome (hmem n) text.length)
  refine ⟨res', ?_, h'⟩
  rw [replaceLoop, htext]
  simp only [orUndefined, bind, Except.bind, hnone, hadd]
  rw [if_neg (by omega)]
  rfl

lemma addBefore_ok {a : Option (ℕ → UInt8)} (h : Holds res r) (hmem : a.isSome)
    (u : List UInt8) :
    ∃ mid ir, addBefore a res u = .ok (mid, ir) ∧ ¬ ir < 0 ∧ Holds mid (r ++ u) := by
  rw [addBefore]
  by_cases hu : u.length = 0
  · obtain rfl := List.length_eq_zero_iff.mp hu
    exact ⟨res, 0, rfl, by omega, by simpa using h⟩
  · obtain ⟨mid, hadd, hmid⟩ := addNString_of_room h (hasRoom_of_isSome hmem u.length)
    rw [if_pos hu, hadd]
    exact ⟨mid, _, rfl, by omega, hmid⟩

/-- A round with a needle. -/
lemma replaceLoop_round (hmem : ∀ n, (alloc n).isSome) (h : Holds res r)
    (htext : cStringAt data prv = some text) (hsome : strstrSplit needle.1 text = some (u, v))
    (n : ℕ) :
    ∃ res', Holds res' (r ++ (u ++ alter.1)) ∧ ∀ fuel,
      replaceLoop alloc data needle alter nlen (fuel + 1) n prv res =
        replaceLoop alloc data needle alter nlen fuel (n + 2) (prv + u.length + nlen) res' := by
  obtain ⟨mid, ir, hbefore, hir, hmid⟩ := addBefore_ok h (hmem n) u
  obtain ⟨res', hadd, h'⟩ :=
    addNString_of_room hmid (hasRoom_of_isSome (hmem (n + 1)) alter.1.length)
  refine ⟨res', by rwa [← List.append_assoc], fun fuel => ?_⟩
  rw [replaceLoop, htext]
  simp only [orUndefined, bind, Except.bind, hsome, hbefore, hir, if_false, addString, hadd]
  rw [if_neg (by omega)]

/-- With a positive length the loop replaces the occurrences that far apart. -/
lemma replaceLoop_of_pos {l : List UInt8} (h0 : (0 : UInt8) ∉ l) (rest : List UInt8) {k : ℕ}
    (hpos : 0 < k) (hle : k ≤ needle.1.length) (hmem : ∀ n, (alloc n).isSome) :
    ∀ (fuel n start : ℕ) {res : StringInternal} {r : List UInt8}, start ≤ l.length →
      l.length - start < fuel → Holds res r →
      ∃ ps res', LeftmostFrom needle.1 l k start ps ∧
        replaceLoop alloc (l ++ 0 :: rest) needle alter k fuel n start res = .ok (some res') ∧
        Holds res' (r ++ alter.1.intercalate (segmentsFrom l k start ps))
  | fuel + 1, n, start, res, r, hstart, hfuel, h => by
      have htext : cStringAt (l ++ 0 :: rest) start = some (l.drop start) := by
        have hcut := cStringAt_append (l.take start) (v := l.drop start)
          (fun hmem => h0 (List.mem_of_mem_drop hmem)) rest
        rwa [← List.append_assoc, List.take_append_drop, List.length_take,
          min_eq_left hstart] at hcut
      cases hfind : strstrSplit needle.1 (l.drop start) with
      | none =>
          obtain ⟨res', hloop, h'⟩ := replaceLoop_last hmem h htext
            hfind fuel n
          refine ⟨[], res', .nil (strstrSplit_notOccursAt hfind), hloop, ?_⟩
          rwa [segmentsFrom, List.intercalate_singleton]
      | some uv =>
          obtain ⟨u, v⟩ := uv
          obtain ⟨hoccurs, hfirst⟩ := strstrSplit_occursAt hfind
          have hlen := congrArg List.length (strstrSplit_eq hfind)
          rw [List.length_drop, List.length_append, List.length_append] at hlen
          obtain ⟨mid, hmid, hround⟩ := replaceLoop_round hmem h htext
            hfind n
          obtain ⟨ps, res', hps, hloop, h'⟩ := replaceLoop_of_pos h0 rest hpos hle hmem fuel (n + 2)
            (start + u.length + k) (by omega) (by omega) hmid
          refine ⟨(start + u.length) :: ps, res', .cons (Nat.le_add_right _ _) hoccurs hfirst hps,
            ?_, ?_⟩
          · rw [hround, ← hloop]
            push_cast
            rfl
          · have hu : (l.drop start).take (start + u.length - start) = u := by
              rw [Nat.add_sub_cancel_left, strstrSplit_eq hfind, List.take_left]
            rwa [intercalate_segmentsFrom, hu, ← List.append_assoc u, ← List.append_assoc r]

/-- A loop that comes back to where it was does not end. -/
lemma replaceLoop_stays (hmem : ∀ n, (alloc n).isSome) (htext : cStringAt data prv = some text)
    (hsome : strstrSplit needle.1 text = some (u, v)) (hback : u.length + nlen = 0) :
    ∀ (fuel n : ℕ) {res : StringInternal} {r : List UInt8}, Holds res r →
      replaceLoop alloc data needle alter nlen fuel n prv res = .error .running
  | 0, _, _, _, _ => rfl
  | fuel + 1, n, res, r, h => by
      obtain ⟨res', h', hround⟩ := replaceLoop_round hmem h htext
        hsome n
      rw [hround, Int.add_assoc, hback, Int.add_zero]
      exact replaceLoop_stays hmem htext hsome hback fuel (n + 2) h'

/-- Without a positive length the loop that has found a needle has no result. -/
lemma replaceLoop_of_nonpos {l : List UInt8} (h0 : (0 : UInt8) ∉ l) (rest : List UInt8)
    (hnlen : nlen ≤ 0) (hmem : ∀ n, (alloc n).isSome)
    (hsome : strstrSplit needle.1 l = some (u, v)) (h : Holds res r) (fuel n : ℕ)
    (out : Option StringInternal) :
    replaceLoop alloc (l ++ 0 :: rest) needle alter nlen fuel n 0 res ≠ .ok out := by
  cases fuel with
  | zero => exact nofun
  | succ fuel =>
      have htext : cStringAt (l ++ 0 :: rest) 0 = some l := cStringAt_append [] h0 rest
      obtain ⟨res', h', hround⟩ := replaceLoop_round hmem h htext
        hsome n
      rw [hround, Int.zero_add]
      by_cases hneg : u.length + nlen < 0
      · cases fuel with
        | zero => exact nofun
        | succ fuel =>
            rw [replaceLoop, cStringAt_of_neg hneg]
            exact nofun
      · -- the next search begins at `k`, not behind the needle
        obtain ⟨k, hk⟩ := Int.eq_ofNat_of_zero_le (not_lt.mp hneg)
        have hku : k ≤ u.length := by omega
        have hkl : k ≤ l.length := by
          rw [strstrSplit_eq hsome, List.length_append]
          omega
        have hcut := cStringAt_append (l.take k) (v := l.drop k)
          (fun hmem => h0 (List.mem_of_mem_drop hmem)) rest
        rw [← List.append_assoc, List.take_append_drop, List.length_take, min_eq_left hkl] at hcut
        rw [hk, replaceLoop_stays hmem hcut (strstrSplit_drop k hsome hku)
          (by rw [List.length_drop]; omega) fuel (n + 2) h']
        exact nofun

/-! ### The results -/

variable {create : Allocs} {s : StringInternal} {l : List UInt8}

/-- The allocator serves every request. -/
structure Served (create : Allocs) (alloc : ℕ → Option (ℕ → UInt8)) : Prop where
  record : create.record = true
  block : create.block.isSome = true
  grown : ∀ n, (alloc n).isSome = true

/-- The result is the text of `s` with the occurrences of the needle replaced, from left to
right. -/
def Replaced (create : Allocs) (alloc : ℕ → Option (ℕ → UInt8)) (s : StringInternal)
    (l : List UInt8) (needle alter : CString) : Prop :=
  ∃ fuel ps r, LeftmostFrom needle.1 l needle.1.length 0 ps ∧
    stringReplace create alloc fuel s (some needle) (some alter) = .ok (some r) ∧
    Holds r (alter.1.intercalate (segmentsFrom l needle.1.length 0 ps))

lemma stringReplace_eq (h : Holds s l) (hmem : Served create alloc) (needle alter : CString) :
    ∃ res, Holds res [] ∧ ∀ fuel,
      stringReplace create alloc fuel s (some needle) (some alter) =
        replaceLoop alloc s.data needle alter (toInt needle.1.length) fuel 0 0 res := by
  have hcap : s.capacity ≠ 0 := by
    have := h.size_lt
    omega
  have hserved : create.record && create.block.isSome := by
    rw [hmem.record, hmem.block, Bool.and_self]
  obtain ⟨res, hcreate, hempty, -⟩ := createInternal_served hserved hcap
  refine ⟨res, hempty, fun fuel => ?_⟩
  simp only [stringReplace, hcreate, orUndefined, bind, Except.bind]

lemma strstrSplit_none_iff {needle l : List UInt8} :
    strstrSplit needle l = none ↔ ¬ needle <:+: l := by
  refine ⟨strstrSplit_none, fun hnot => ?_⟩
  by_contra hsome
  obtain ⟨⟨u, v⟩, huv⟩ := Option.ne_none_iff_exists'.mp hsome
  exact hnot ⟨u, v, by rw [List.append_assoc, ← strstrSplit_eq huv]⟩

lemma exists_strstrSplit {needle l : List UInt8} (hin : needle <:+: l) :
    ∃ u v, strstrSplit needle l = some (u, v) := by
  obtain ⟨⟨u, v⟩, huv⟩ := Option.ne_none_iff_exists'.mp
    fun hnone => strstrSplit_none_iff.mp hnone hin
  exact ⟨u, v, huv⟩

/-- A text without a needle is copied. -/
lemma stringReplace_of_notInfix (h : Holds s l) (h0 : (0 : UInt8) ∉ l)
    (hmem : Served create alloc) (hnot : ¬ needle.1 <:+: l) (alter : CString) :
    Replaced create alloc s l needle alter := by
  obtain ⟨res, hres, heq⟩ := stringReplace_eq h hmem needle alter
  obtain ⟨rest, hdata⟩ := h.split
  have htext : cStringAt s.data 0 = some l := hdata ▸ cStringAt_append [] h0 rest
  obtain ⟨r, hloop, hr⟩ := replaceLoop_last hmem.grown hres htext (strstrSplit_none_iff.mpr hnot) 0 0
  refine ⟨1, [], r, .nil fun q _ hq => hnot hq.isInfix, (heq 1).trans hloop, ?_⟩
  rwa [segmentsFrom, List.intercalate_singleton]

/-- **Replacing.** For needles whose length is an `int`, and for texts without a needle, the
result is the text with the occurrences replaced. A longer needle in the text has a length
that is negative or too short. -/
theorem stringReplace_iff (h : Holds s l) (h0 : (0 : UInt8) ∉ l) (hne : needle.1 ≠ [])
    (hmem : Served create alloc) (alter : CString) :
    (needle.1.length < 2147483648 ∨ ¬ needle.1 <:+: l →
      Replaced create alloc s l needle alter) ∧
    (needle.1.length < 4294967296 → Replaced create alloc s l needle alter →
      needle.1.length < 2147483648 ∨ ¬ needle.1 <:+: l) := by
  obtain ⟨res, hres, heq⟩ := stringReplace_eq h hmem needle alter
  obtain ⟨rest, hdata⟩ := h.split
  rw [hdata] at heq
  constructor
  · rintro (hlt | hnot)
    · obtain ⟨ps, r, hps, hloop, hr⟩ := replaceLoop_of_pos h0 rest
        (List.length_pos_iff.mpr hne) le_rfl hmem.grown (l.length - 0 + 1) 0 0 (Nat.zero_le _)
        (Nat.lt_succ_self _) hres
      rw [toInt_of_lt hlt] at heq
      exact ⟨_, ps, r, hps, (heq _).trans hloop, hr⟩
    · exact stringReplace_of_notInfix h h0 hmem hnot alter
  · rintro hlt ⟨fuel, ps, r, -, hok, -⟩
    by_contra hcon
    obtain ⟨hge, hin⟩ := not_or.mp hcon
    obtain ⟨u, v, huv⟩ := exists_strstrSplit (not_not.mp hin)
    rw [heq] at hok
    exact replaceLoop_of_nonpos h0 rest (toInt_neg (not_lt.mp hge) hlt).le hmem.grown huv hres
      fuel 0 _ hok

/-- An allocator whose blocks are zero. -/
def zeroAllocs : Allocs := ⟨true, some fun _ => 0, some fun _ => 0⟩

lemma served_zeroAllocs : Served zeroAllocs fun _ => some fun _ => 0 :=
  ⟨rfl, rfl, fun _ => rfl⟩

/-- A needle twice in a text. -/
theorem stringReplace_iff_twice :
    Replaced zeroAllocs (fun _ => some fun _ => 0) ⟨[0x61, 0x62, 0x61, 0], 4, 3⟩
      [0x61, 0x62, 0x61] ⟨[0x61], by decide⟩ ⟨[0x63, 0x61], by decide⟩ :=
  (stringReplace_iff (Holds.of_split ⟨[], rfl⟩ rfl rfl) (by decide) (by decide) served_zeroAllocs
    _).1 (.inl (by decide))

/-- A text that is its own needle, with one byte more than there are positive numbers in an
`int`. -/
theorem stringReplace_fails :
    ∃ s l, ∃ needle : CString, l = List.replicate 2147483648 0x61 ∧ needle.1 = l ∧ Holds s l ∧
      ¬ Replaced zeroAllocs (fun _ => some fun _ => 0) s l needle ⟨[], by decide⟩ := by
  obtain ⟨l, hl⟩ : ∃ l : List UInt8, l = List.replicate 2147483648 0x61 := ⟨_, rfl⟩
  have hlen : l.length = 2147483648 := by rw [hl, List.length_replicate]
  have h0 : (0 : UInt8) ∉ l := by
    rw [hl, List.mem_replicate]
    decide
  have hneg : toInt l.length < 0 := toInt_neg hlen.ge (by rw [hlen]; norm_num)
  have h : Holds ⟨l ++ [0], l.length + 1, l.length⟩ l := Holds.of_split ⟨[], rfl⟩ rfl (by simp)
  refine ⟨_, l, ⟨l, h0⟩, hl, rfl, h, ?_⟩
  rintro ⟨fuel, ps, r, -, hok, -⟩
  obtain ⟨res, hres, heq⟩ := stringReplace_eq h served_zeroAllocs ⟨l, h0⟩ ⟨[], by decide⟩
  obtain ⟨u, v, huv⟩ := exists_strstrSplit (List.infix_refl l)
  rw [heq] at hok
  exact replaceLoop_of_nonpos h0 [] hneg.le (fun _ => rfl) huv hres fuel 0 _ hok

/-- The text of a block is what comes before the first NUL. -/
lemma exists_text (l rest : List UInt8) : (0 : UInt8) ∉ l.takeWhile (· != 0) ∧
    ∃ rest', l ++ 0 :: rest = l.takeWhile (· != 0) ++ 0 :: rest' := by
  refine ⟨fun h => by simpa using List.mem_takeWhile_imp h, ?_⟩
  induction l with
  | nil => exact ⟨rest, rfl⟩
  | cons c l ih =>
      rw [List.takeWhile_cons]
      split
      · obtain ⟨rest', hrest⟩ := ih
        exact ⟨rest', by rw [List.cons_append, hrest, List.cons_append]⟩
      · rename_i hc
        obtain rfl : c = 0 := by simpa using hc
        exact ⟨l ++ 0 :: rest, rfl⟩

/-- **The end of the replacing.** The loop ends exactly when there is no needle in the text or
the length of the needle, as an `int`, is positive. -/
theorem stringReplace_ends_iff (h : Holds s l) (hmem : Served create alloc)
    (needle alter : CString) :
    (∃ fuel out, stringReplace create alloc fuel s (some needle) (some alter) = .ok out) ↔
      ¬ needle.1 <:+: l.takeWhile (· != 0) ∨ 0 < toInt needle.1.length := by
  obtain ⟨res, hres, heq⟩ := stringReplace_eq h hmem needle alter
  obtain ⟨rest, hdata⟩ := h.split
  obtain ⟨h0, rest', htext⟩ := exists_text l rest
  rw [hdata, htext] at heq
  constructor
  · rintro ⟨fuel, out, hok⟩
    by_contra hcon
    obtain ⟨hin, hpos⟩ := not_or.mp hcon
    obtain ⟨u, v, huv⟩ := exists_strstrSplit (not_not.mp hin)
    rw [heq] at hok
    exact replaceLoop_of_nonpos h0 rest' (not_lt.mp hpos) hmem.grown huv hres fuel 0 out hok
  · rintro (hnot | hpos)
    · have hcut : cStringAt (l.takeWhile (· != 0) ++ 0 :: rest') 0 = some (l.takeWhile (· != 0)) :=
        cStringAt_append [] h0 rest'
      obtain ⟨r, hloop, -⟩ := replaceLoop_last hmem.grown hres hcut (strstrSplit_none_iff.mpr hnot) 0 0
      exact ⟨1, some r, (heq 1).trans hloop⟩
    · obtain ⟨k, hk⟩ := Int.eq_ofNat_of_zero_le hpos.le
      have hle := toInt_le needle.1.length
      rw [hk] at heq hpos hle
      obtain ⟨ps, r, -, hloop, -⟩ := replaceLoop_of_pos h0 rest'
        (Int.natCast_pos.mp hpos) (Int.ofNat_le.mp hle) hmem.grown
        ((l.takeWhile (· != 0)).length - 0 + 1) 0 0 (Nat.zero_le _) (Nat.lt_succ_self _) hres
      exact ⟨_, some r, (heq _).trans hloop⟩

/-- A text with a NUL inside. -/
theorem stringReplace_ends_iff_inner :
    ∃ fuel out, stringReplace zeroAllocs (fun _ => some fun _ => 0) fuel ⟨[0x61, 0, 0x62, 0], 4, 3⟩
      (some ⟨[0x62], by decide⟩) (some ⟨[0x63], by decide⟩) = .ok out :=
  (stringReplace_ends_iff (l := [0x61, 0, 0x62]) (Holds.of_split ⟨[], rfl⟩ rfl rfl)
    served_zeroAllocs _ _).mpr (.inl (by decide))

/-- An empty needle is found again and again at the same place. -/
theorem stringReplace_ends_fails :
    ¬ ∃ fuel out, stringReplace zeroAllocs (fun _ => some fun _ => 0) fuel ⟨[0x61, 0], 2, 1⟩
      (some ⟨[], by decide⟩) (some ⟨[], by decide⟩) = .ok out := by
  rintro ⟨fuel, out, hok⟩
  have h : Holds ⟨[0x61, 0], 2, 1⟩ [0x61] := Holds.of_split ⟨[], rfl⟩ rfl rfl
  obtain ⟨res, hres, heq⟩ := stringReplace_eq h served_zeroAllocs ⟨[], by decide⟩ ⟨[], by decide⟩
  have htext : cStringAt [0x61, 0] 0 = some [0x61] := by decide
  have hfind : strstrSplit [] [0x61] = some ([], [0x61]) := by decide
  have hzero : toInt 0 = 0 := toInt_of_lt (by norm_num)
  rw [heq, replaceLoop_stays (fun _ => rfl) htext hfind (by simpa using hzero) fuel 0 hres] at hok
  cases hok

end StringInternal

end LibCmutils
