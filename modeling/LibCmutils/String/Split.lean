import LibCmutils.Lib.Occurrence
import LibCmutils.String.Basic

/-!
Splitting strings (`src/strings.c`).

* `strstrSplit`: the place of a string in another one. `strstrSplit_eq` puts the parts
  together again, `strstrSplit_notInfix` and `strstrSplit_none` say that it is the first.
* `stringSplitInternal`: the pieces between the needles, cut at both ends like
  `stringSelfTrim` does; `splitPieces` are the pieces before that.
* `exists_stringSelfTrim`: what is cut are spaces at the ends.
-/

namespace LibCmutils

/-- The place `strstr` finds: the bytes before the first `needle` and the bytes behind
it. -/
def strstrSplit (needle : List UInt8) : List UInt8 → Option (List UInt8 × List UInt8)
  | [] => if needle = [] then some ([], []) else none
  | c :: s =>
      if needle <+: c :: s then some ([], (c :: s).drop needle.length)
      else (strstrSplit needle s).map fun r => (c :: r.1, r.2)

/-- The loop of `CMUTIL_StringSplitInternal`, without the trimming. -/
def splitPieces (needle : List UInt8) : ℕ → List UInt8 → List (List UInt8)
  | 0, p => [p]
  | fuel + 1, p =>
      match strstrSplit needle p with
      | none => [p]
      | some (s, q) => s :: splitPieces needle fuel q

/-- `CMUTIL_StringSplitInternal`. An empty needle is not looked for. -/
def stringSplitInternal (haystack needle : List UInt8) : List (List UInt8) :=
  (if needle = [] then [haystack] else splitPieces needle haystack.length haystack).map
    stringSelfTrim

lemma strstrSplit_eq {needle : List UInt8} : ∀ {s u v : List UInt8},
    strstrSplit needle s = some (u, v) → s = u ++ (needle ++ v)
  | [], u, v, h => by
      rw [strstrSplit] at h
      split_ifs at h with hn
      · simp only [Option.some.injEq, Prod.mk.injEq] at h
        rw [← h.1, ← h.2, hn]
        rfl
  | c :: s, u, v, h => by
      rw [strstrSplit] at h
      split_ifs at h with hp
      · simp only [Option.some.injEq, Prod.mk.injEq] at h
        obtain ⟨t, ht⟩ := hp
        rw [← h.1, ← h.2, ← ht, List.drop_left, List.nil_append]
      · obtain ⟨⟨x, y⟩, hxy, he⟩ := Option.map_eq_some_iff.mp h
        simp only [Prod.mk.injEq] at he
        rw [← he.1, ← he.2, strstrSplit_eq hxy, List.cons_append]

/-- The needle that is found is the first. -/
lemma strstrSplit_notInfix {needle : List UInt8} (hne : needle ≠ []) : ∀ {s u v : List UInt8},
    strstrSplit needle s = some (u, v) → ¬ needle <:+: u
  | [], u, v, h => by
      rw [strstrSplit, if_neg hne] at h
      exact absurd h (by simp)
  | c :: s, u, v, h => by
      have heq := strstrSplit_eq h
      rw [strstrSplit] at h
      split_ifs at h with hp
      · simp only [Option.some.injEq, Prod.mk.injEq] at h
        rw [← h.1, List.infix_nil]
        exact hne
      · obtain ⟨⟨x, y⟩, hxy, he⟩ := Option.map_eq_some_iff.mp h
        simp only [Prod.mk.injEq] at he
        rw [← he.1] at heq ⊢
        rw [List.infix_cons_iff]
        rintro (hpre | hin)
        · exact hp (heq ▸ hpre.trans (List.prefix_append _ _))
        · exact strstrSplit_notInfix hne hxy hin

lemma strstrSplit_none {needle : List UInt8} : ∀ {s : List UInt8},
    strstrSplit needle s = none → ¬ needle <:+: s
  | [], h => by
      rw [strstrSplit] at h
      split_ifs at h with hn
      rwa [List.infix_nil]
  | c :: s, h => by
      rw [strstrSplit] at h
      split_ifs at h with hp
      rw [List.infix_cons_iff]
      rintro (hpre | hin)
      · exact hp hpre
      · exact strstrSplit_none (Option.map_eq_none_iff.mp h) hin

/-- What is behind a needle is shorter. -/
lemma strstrSplit_length {needle s u v : List UInt8} (hne : needle ≠ [])
    (h : strstrSplit needle s = some (u, v)) : v.length < s.length := by
  have hpos := List.length_pos_iff.mpr hne
  rw [strstrSplit_eq h, List.length_append, List.length_append]
  omega

/-- There is no needle before the one that is found. -/
lemma strstrSplit_first {needle : List UInt8} : ∀ {s u v : List UInt8},
    strstrSplit needle s = some (u, v) → ∀ q < u.length, ¬ needle <+: s.drop q
  | [], u, v, h, q, hq => by
      rw [strstrSplit] at h
      split_ifs at h
      obtain ⟨rfl, rfl⟩ := Prod.mk.inj (Option.some.inj h)
      exact absurd hq (Nat.not_lt_zero q)
  | c :: s, u, v, h, q, hq => by
      rw [strstrSplit] at h
      split_ifs at h with hp
      · obtain ⟨rfl, rfl⟩ := Prod.mk.inj (Option.some.inj h)
        exact absurd hq (Nat.not_lt_zero q)
      · obtain ⟨⟨x, y⟩, hxy, he⟩ := Option.map_eq_some_iff.mp h
        obtain ⟨rfl, rfl⟩ := Prod.mk.inj he
        cases q with
        | zero => exact hp
        | succ q => exact strstrSplit_first hxy q (Nat.lt_of_succ_lt_succ hq)

/-- A search that begins later, but not behind the needle, finds the same one. -/
lemma strstrSplit_drop {needle : List UInt8} : ∀ (k : ℕ) {s u v : List UInt8},
    strstrSplit needle s = some (u, v) → k ≤ u.length →
      strstrSplit needle (s.drop k) = some (u.drop k, v)
  | 0, _, _, _, h, _ => h
  | k + 1, [], u, v, h, hk => by
      rw [strstrSplit] at h
      split_ifs at h
      obtain ⟨rfl, rfl⟩ := Prod.mk.inj (Option.some.inj h)
      exact absurd hk (Nat.not_succ_le_zero k)
  | k + 1, c :: s, u, v, h, hk => by
      rw [strstrSplit] at h
      split_ifs at h with hp
      · obtain ⟨rfl, rfl⟩ := Prod.mk.inj (Option.some.inj h)
        exact absurd hk (Nat.not_succ_le_zero k)
      · obtain ⟨⟨x, y⟩, hxy, he⟩ := Option.map_eq_some_iff.mp h
        obtain ⟨rfl, rfl⟩ := Prod.mk.inj he
        exact strstrSplit_drop k hxy (Nat.le_of_succ_le_succ hk)

/-- The needle that is found in the rest of a text is the first occurrence there. -/
lemma strstrSplit_occursAt {needle l u v : List UInt8} {start : ℕ}
    (h : strstrSplit needle (l.drop start) = some (u, v)) :
    OccursAt needle l (start + u.length) ∧
      ∀ q, start ≤ q → q < start + u.length → ¬ OccursAt needle l q := by
  constructor
  · rw [← occursAt_drop, OccursAt, strstrSplit_eq h, List.drop_left]
    exact List.prefix_append _ _
  · intro q hle hlt
    obtain ⟨k, rfl⟩ := Nat.exists_eq_add_of_le hle
    rw [← occursAt_drop]
    exact strstrSplit_first h k (by omega)

lemma strstrSplit_notOccursAt {needle l : List UInt8} {start : ℕ}
    (h : strstrSplit needle (l.drop start) = none) :
    ∀ q, start ≤ q → ¬ OccursAt needle l q := by
  intro q hle
  obtain ⟨k, rfl⟩ := Nat.exists_eq_add_of_le hle
  rw [← occursAt_drop]
  exact fun hq => strstrSplit_none h hq.isInfix

lemma splitPieces_ne_nil (needle : List UInt8) (fuel : ℕ) (p : List UInt8) :
    splitPieces needle fuel p ≠ [] := by
  cases fuel with
  | zero => simp [splitPieces]
  | succ fuel =>
      rw [splitPieces]
      cases strstrSplit needle p with
      | none => simp
      | some r => simp

/-! ### What is cut -/

/-- The right trim cuts spaces. -/
lemma exists_selfTrimRight : ∀ s : List UInt8,
    ∃ ws, s = ws ++ selfTrimRight s ∧ ∀ c ∈ ws, strchr spaces c = true
  | [] => ⟨[], rfl, by simp⟩
  | [c] => ⟨[], rfl, by simp⟩
  | c :: d :: s => by
      rw [selfTrimRight]
      split_ifs with hc
      · obtain ⟨ws, hws, hall⟩ := exists_selfTrimRight (d :: s)
        refine ⟨c :: ws, by rw [List.cons_append, ← hws], ?_⟩
        intro e he
        rcases List.mem_cons.mp he with rfl | he
        · exact hc
        · exact hall e he
      · exact ⟨[], rfl, by simp⟩
      · simp

/-- Trimming cuts spaces at the two ends. -/
lemma exists_stringSelfTrim (s : List UInt8) :
    ∃ pre post, s = pre ++ (stringSelfTrim s ++ post) ∧
      (∀ c ∈ pre, strchr spaces c = true) ∧ ∀ c ∈ post, strchr spaces c = true := by
  obtain ⟨ws, hws, hall⟩ := exists_selfTrimRight s.reverse
  have hright : s = (selfTrimRight s.reverse).reverse ++ ws.reverse := by
    rw [← List.reverse_append, ← hws, List.reverse_reverse]
  let isSpace : UInt8 → Bool := fun c => strchr spaces c && c != 0
  have hleft : (selfTrimRight s.reverse).reverse.takeWhile isSpace ++ stringSelfTrim s
      = (selfTrimRight s.reverse).reverse := List.takeWhile_append_dropWhile
  refine ⟨(selfTrimRight s.reverse).reverse.takeWhile isSpace, ws.reverse, ?_, ?_,
    fun c hc => hall c (List.mem_reverse.mp hc)⟩
  · rw [← List.append_assoc, hleft]
    exact hright
  · intro c hc
    have hspace : isSpace c = true := List.mem_takeWhile_imp hc
    exact (Bool.and_eq_true _ _ ▸ hspace).1

end LibCmutils
