import LibCmutils.Lib.Comparator
import Mathlib.Data.List.TakeWhile

/-!
C strings, and the functions of the C library this development needs on them.

* `CString`: the bytes before the terminating NUL, none of them NUL.
  `CString.ofBytes` reads a buffer up to its first NUL, and `cStringAt` a block from
  a pointer on.
* `strcmp`: `isComparator_strcmp`, and it is zero on equal strings only
  (`strcmp_eq_zero`).
* `forall_byte`: a property of bytes is checked on the 256 of them.
* `toupper`, `tolower`: the C locale. `CString.upper` and `CString.lower` are a string with
  every byte in upper or lower case. `strcasecmpEq_iff_lower`: `strcasecmp` ignores the case.
* `strchr`: the test of a byte against a set, where the NUL is always found.
  `strchrSplit` is the place of a byte in a string, `strchrSplit_eq` and
  `strchrSplit_append` its two directions.
-/

namespace LibCmutils

/-- A C string: the bytes before its terminating NUL. -/
abbrev CString := {s : List UInt8 // (0 : UInt8) ∉ s}

/-- The empty C string. -/
def CString.empty : CString := ⟨[], List.not_mem_nil⟩

/-- The C string a buffer holds: its bytes up to the first NUL. -/
def CString.ofBytes (s : List UInt8) : CString :=
  ⟨s.takeWhile (· != 0), fun h => absurd (List.mem_takeWhile_imp h) (by simp)⟩

@[simp] lemma CString.ofBytes_coe (s : CString) : CString.ofBytes s.1 = s := by
  have hall : ∀ b ∈ s.1, (b != 0) = true := by
    intro b hb
    have hne : b ≠ 0 := fun h0 => s.2 (by rwa [h0] at hb)
    simpa using hne
  exact Subtype.ext (List.takeWhile_eq_self_iff.mpr hall)

lemma CString.ofBytes_of_notMem {s : List UInt8} (h : (0 : UInt8) ∉ s) :
    CString.ofBytes s = ⟨s, h⟩ :=
  CString.ofBytes_coe ⟨s, h⟩

/-- The C string a pointer into a block names: the bytes from place `pos` up to the next NUL.
Outside of the block there is none. -/
def cStringAt (block : List UInt8) (pos : ℤ) : Option (List UInt8) :=
  if 0 ≤ pos ∧ (0 : UInt8) ∈ block.drop pos.toNat then
    some ((block.drop pos.toNat).takeWhile (· != 0))
  else none

lemma cStringAt_append (u : List UInt8) {v : List UInt8} (hv : (0 : UInt8) ∉ v)
    (rest : List UInt8) : cStringAt (u ++ (v ++ 0 :: rest)) u.length = some v := by
  have hall : ∀ b ∈ v, (b != 0) = true := by
    intro b hb
    have hne : b ≠ 0 := fun h0 => hv (by rwa [h0] at hb)
    simpa using hne
  rw [cStringAt, Int.toNat_natCast, List.drop_left, if_pos ⟨Int.natCast_nonneg _, by simp⟩,
    List.takeWhile_append_of_pos hall, List.takeWhile_cons_of_neg (by simp), List.append_nil]

lemma cStringAt_zero {block text : List UInt8} (h : cStringAt block 0 = some text) :
    text = (CString.ofBytes block).1 := by
  rw [cStringAt] at h
  split_ifs at h
  exact (Option.some.inj h).symm

lemma cStringAt_of_neg {block : List UInt8} {pos : ℤ} (h : pos < 0) :
    cStringAt block pos = none :=
  if_neg fun hpos => not_le.mpr h hpos.1

/-! ### Comparison -/

/-- `strcmp` on byte lists, the end of a list standing for the NUL. -/
def strcmpBytes : List UInt8 → List UInt8 → ℤ
  | [], [] => 0
  | [], b :: _ => -b.toNat
  | a :: _, [] => a.toNat
  | a :: as, b :: bs => if a = b then strcmpBytes as bs else a.toNat - b.toNat

/-- `strcmp`. -/
def strcmp (a b : CString) : ℤ := strcmpBytes a.1 b.1

lemma toNat_pos_of_ne_zero {b : UInt8} (h : b ≠ 0) : 0 < b.toNat := by
  rcases Nat.eq_zero_or_pos b.toNat with h0 | h0
  · exact absurd (UInt8.toNat_inj.mp (by simpa using h0)) h
  · exact h0

/-- `strcmp` follows the lexicographic order of the bytes. -/
lemma strcmpBytes_sign : ∀ as bs : List UInt8, (0 : UInt8) ∉ as → (0 : UInt8) ∉ bs →
    (strcmpBytes as bs < 0 ↔ as.map UInt8.toNat < bs.map UInt8.toNat) ∧
      (0 < strcmpBytes as bs ↔ bs.map UInt8.toNat < as.map UInt8.toNat)
  | [], [], _, _ => by simp [strcmpBytes]
  | [], b :: bs, _, hb => by
      have := toNat_pos_of_ne_zero (b := b) (by rintro rfl; simp at hb)
      simp only [strcmpBytes, List.map_nil, List.map_cons, List.nil_lt_cons, List.not_lt_nil,
        iff_true, iff_false]
      omega
  | a :: as, [], ha, _ => by
      have := toNat_pos_of_ne_zero (b := a) (by rintro rfl; simp at ha)
      simp only [strcmpBytes, List.map_nil, List.map_cons, List.nil_lt_cons, List.not_lt_nil,
        iff_true, iff_false]
      omega
  | a :: as, b :: bs, ha, hb => by
      have ih := strcmpBytes_sign as bs (fun h => ha (by simp [h])) (fun h => hb (by simp [h]))
      by_cases hab : a = b
      · subst hab
        simp [strcmpBytes, ih]
      · have hne : a.toNat ≠ b.toNat := fun h => hab (UInt8.toNat_inj.mp h)
        simp only [strcmpBytes, hab, if_false, List.map_cons, List.cons_lt_cons_iff]
        omega

lemma isComparator_strcmp : IsComparator strcmp :=
  IsComparator.of_lt (fun s : CString => s.1.map UInt8.toNat)
    (fun a b => (strcmpBytes_sign a.1 b.1 a.2 b.2).1)
    (fun a b => (strcmpBytes_sign a.1 b.1 a.2 b.2).2)

@[simp] lemma strcmp_eq_zero {a b : CString} : strcmp a b = 0 ↔ a = b := by
  refine ⟨fun h => ?_, fun h => h ▸ isComparator_strcmp.self a⟩
  obtain ⟨h1, h2⟩ := strcmpBytes_sign a.1 b.1 a.2 b.2
  rw [strcmp] at h
  have hlt : ¬ a.1.map UInt8.toNat < b.1.map UInt8.toNat := fun hh => by
    have := h1.mpr hh
    omega
  have hgt : ¬ b.1.map UInt8.toNat < a.1.map UInt8.toNat := fun hh => by
    have := h2.mpr hh
    omega
  have hmap := le_antisymm (not_lt.mp hgt) (not_lt.mp hlt)
  exact Subtype.ext (List.map_injective_iff.mpr (fun _ _ => UInt8.toNat_inj.mp) hmap)

/-! ### Bytes -/

lemma forall_byte {P : UInt8 → Prop} (h : ∀ n : Fin 256, P (UInt8.ofNat n.1)) (c : UInt8) :
    P c := by
  simpa using h ⟨c.toNat, UInt8.toNat_lt c⟩

instance decidableForallByte {P : UInt8 → Prop} [DecidablePred P] : Decidable (∀ c, P c) :=
  decidable_of_iff (∀ n : Fin 256, P (UInt8.ofNat n.1)) ⟨forall_byte, fun h _ => h _⟩

/-! ### Case -/

/-- `toupper` in the C locale. -/
def toupper (c : UInt8) : UInt8 := if 0x61 ≤ c ∧ c ≤ 0x7A then c - 0x20 else c

/-- `tolower` in the C locale. -/
def tolower (c : UInt8) : UInt8 := if 0x41 ≤ c ∧ c ≤ 0x5A then c + 0x20 else c

set_option maxRecDepth 8000 in
lemma toupper_toupper (c : UInt8) : toupper (toupper c) = toupper c := by
  revert c
  decide

set_option maxRecDepth 8000 in
lemma toupper_ne_zero : ∀ c : UInt8, c ≠ 0 → toupper c ≠ 0 := by
  decide

/-- The string in upper case. -/
def CString.upper (s : CString) : CString :=
  ⟨s.1.map toupper, fun h => by
    obtain ⟨c, hc, h0⟩ := List.mem_map.mp h
    exact toupper_ne_zero c (fun hz => s.2 (by rwa [hz] at hc)) h0⟩

@[simp] lemma CString.upper_upper (s : CString) : s.upper.upper = s.upper :=
  Subtype.ext (by simp [CString.upper, toupper_toupper])

set_option maxRecDepth 8000 in
lemma tolower_tolower (c : UInt8) : tolower (tolower c) = tolower c := by
  revert c
  decide

set_option maxRecDepth 8000 in
lemma tolower_ne_zero : ∀ c : UInt8, c ≠ 0 → tolower c ≠ 0 := by
  decide

/-- The string in lower case. -/
def CString.lower (s : CString) : CString :=
  ⟨s.1.map tolower, fun h => by
    obtain ⟨c, hc, h0⟩ := List.mem_map.mp h
    exact tolower_ne_zero c (fun hz => s.2 (by rwa [hz] at hc)) h0⟩

@[simp] lemma CString.lower_lower (s : CString) : s.lower.lower = s.lower :=
  Subtype.ext (by simp [CString.lower, tolower_tolower])

@[simp] lemma CString.lower_eq_empty {s : CString} : s.lower = .empty ↔ s = .empty := by
  simp [CString.lower, CString.empty, Subtype.ext_iff]

/-- Whether `strcasecmp` finds two strings equal. -/
def strcasecmpEq (a b : CString) : Bool := a.1.map tolower == b.1.map tolower

lemma strcasecmpEq_refl (a : CString) : strcasecmpEq a a = true := by simp [strcasecmpEq]

lemma strcasecmpEq_iff {a b : CString} :
    strcasecmpEq a b = true ↔ a.1.map tolower = b.1.map tolower := by
  simp [strcasecmpEq]

lemma strcasecmpEq_iff_lower {a b : CString} : strcasecmpEq a b = true ↔ a.lower = b.lower := by
  rw [strcasecmpEq_iff, Subtype.ext_iff]
  rfl

/-- Whether `strchr` finds a byte in a string. It finds the terminating NUL. -/
def strchr (set : List UInt8) (c : UInt8) : Bool := c == 0 || set.contains c

/-- The place `strchr` finds: the bytes before the first `c` and the bytes behind it. The
search ends with the string, at its NUL. -/
def strchrSplit (c : UInt8) : List UInt8 → Option (List UInt8 × List UInt8)
  | [] => none
  | b :: s =>
      if b = c then some ([], s)
      else if b = 0 then none
      else (strchrSplit c s).map fun r => (b :: r.1, r.2)

lemma strchrSplit_append {c : UInt8} {u : List UInt8} (hu : c ∉ u) (h0 : (0 : UInt8) ∉ u)
    (v : List UInt8) : strchrSplit c (u ++ c :: v) = some (u, v) := by
  induction u with
  | nil => simp [strchrSplit]
  | cons b u ih =>
      have hb : b ≠ c := fun h => hu (by simp [h])
      have hb0 : b ≠ 0 := fun h => h0 (by simp [h])
      rw [List.cons_append, strchrSplit, if_neg hb, if_neg hb0,
        ih (fun h => hu (by simp [h])) fun h => h0 (by simp [h])]
      rfl

lemma strchrSplit_none {c : UInt8} : ∀ {s : List UInt8}, c ∉ s → strchrSplit c s = none
  | [], _ => rfl
  | b :: s, h => by
      have hb : b ≠ c := fun h' => h (by simp [h'])
      rw [strchrSplit, if_neg hb, strchrSplit_none fun h' => h (List.mem_cons_of_mem b h')]
      simp

/-- The first place of the byte, and no NUL before it. -/
lemma strchrSplit_spec {c : UInt8} : ∀ {s u v : List UInt8}, strchrSplit c s = some (u, v) →
    s = u ++ c :: v ∧ c ∉ u ∧ (0 : UInt8) ∉ u
  | b :: s, u, v, h => by
      rw [strchrSplit] at h
      split_ifs at h with hb hb0
      · obtain ⟨rfl, rfl⟩ := Prod.mk.inj (Option.some.inj h)
        exact ⟨by rw [hb, List.nil_append], List.not_mem_nil, List.not_mem_nil⟩
      · obtain ⟨⟨x, y⟩, hxy, heq⟩ := Option.map_eq_some_iff.mp h
        obtain ⟨rfl, rfl⟩ := Prod.mk.inj heq
        obtain ⟨hs, hc, h0⟩ := strchrSplit_spec hxy
        exact ⟨by rw [hs, List.cons_append], by simp [hc, Ne.symm hb], by simp [h0, Ne.symm hb0]⟩

lemma strchrSplit_eq {c : UInt8} {s u v : List UInt8} (h : strchrSplit c s = some (u, v)) :
    s = u ++ c :: v :=
  (strchrSplit_spec h).1

/-- What comes before the place of a byte is free of it. -/
lemma strchrSplit_notMem {c : UInt8} {s u v : List UInt8} (h : strchrSplit c s = some (u, v)) :
    c ∉ u :=
  (strchrSplit_spec h).2.1

/-- The search ends at a NUL. -/
lemma strchrSplit_zero {c : UInt8} {s u v : List UInt8} (h : strchrSplit c s = some (u, v)) :
    (0 : UInt8) ∉ u :=
  (strchrSplit_spec h).2.2

lemma strchrSplit_eq_none_iff {c : UInt8} (hc : c ≠ 0) : ∀ {s : List UInt8},
    strchrSplit c s = none ↔ c ∉ s.takeWhile (· != 0)
  | [] => by simp [strchrSplit]
  | b :: s => by
      rw [strchrSplit]
      split_ifs with hb hb0
      · simp [hb, hc]
      · simp [hb0]
      · rw [Option.map_eq_none_iff, strchrSplit_eq_none_iff hc,
          List.takeWhile_cons_of_pos (by simpa using hb0)]
        simp [Ne.symm hb]

/-- A byte without a place is not there. -/
lemma notMem_of_strchrSplit {c : UInt8} : ∀ {s : List UInt8}, (0 : UInt8) ∉ s →
    strchrSplit c s = none → c ∉ s
  | [], _, _ => List.not_mem_nil
  | b :: s, h0, h => by
      have hb0 : b ≠ 0 := fun hb => h0 (by simp [hb])
      rw [strchrSplit, if_neg hb0] at h
      split_ifs at h with hb
      have hs := notMem_of_strchrSplit (fun hs => h0 (List.mem_cons_of_mem b hs))
        (Option.map_eq_none_iff.mp h)
      simp [hs, Ne.symm hb]

lemma strchrSplit_length {c : UInt8} : ∀ {s : List UInt8} {r : List UInt8 × List UInt8},
    strchrSplit c s = some r → r.1.length + r.2.length + 1 = s.length
  | b :: s, r, h => by
      rw [strchrSplit] at h
      split_ifs at h
      · obtain rfl := Option.some.inj h
        simp
      · obtain ⟨q, hq, rfl⟩ := Option.map_eq_some_iff.mp h
        have := strchrSplit_length hq
        simp only [List.length_cons]
        omega

/-- The first place of a byte. -/
lemma append_cons_inj {b : UInt8} {u u' q q' : List UInt8} (hu : b ∉ u) (hu' : b ∉ u')
    (h : u ++ b :: q = u' ++ b :: q') : u = u' ∧ q = q' := by
  have htake : ∀ {x y : List UInt8}, b ∉ x → (x ++ b :: y).takeWhile (· != b) = x := by
    intro x y hx
    rw [List.takeWhile_append_of_pos fun a ha => by simpa using fun h : a = b => hx (h ▸ ha),
      List.takeWhile_cons_of_neg (by simp), List.append_nil]
  have heq := congrArg (List.takeWhile (· != b)) h
  rw [htake hu, htake hu'] at heq
  subst heq
  exact ⟨rfl, (List.cons.inj (List.append_cancel_left h)).2⟩

/-- The bytes before the first `c`, or all of them. -/
def strchrPrefix (c : UInt8) (s : List UInt8) : List UInt8 :=
  ((strchrSplit c s).map Prod.fst).getD s

lemma strchrPrefix_subset (c : UInt8) (s : List UInt8) : strchrPrefix c s ⊆ s := by
  rw [strchrPrefix]
  cases h : strchrSplit c s with
  | none => exact List.Subset.refl s
  | some r =>
      obtain ⟨u, v⟩ := r
      rw [strchrSplit_eq h]
      exact List.subset_append_left u _

end LibCmutils
