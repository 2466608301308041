import LibCmutils.String.Builder

/-!
Parts of a string (`CMUTIL_StringSubstring`, `src/strings.c`).

* `StringInternal.substring`: the sum of offset and length is one of 64 bits.
* `SubstringOk`: the result is the part of the text, or `NULL` when it begins behind the end.

The main result is `substring_iff`.
-/

namespace LibCmutils

namespace StringInternal

/-- `CMUTIL_StringSubstring`; `allocs n` answers for a string whose block has `n` bytes. The
greatest length makes a block of no bytes, and the NUL is written outside of it. -/
def substring (allocs : ℕ → Allocs) (istr : StringInternal) (offset : UInt32) (length : UInt64) :
    Option (Option StringInternal) :=
  if offset.toNat < istr.size then
    let len :=
      if istr.size < (offset.toUInt64 + length).toNat then istr.size - offset.toNat
      else length.toNat
    let capacity := if 0 < len then len else 1
    if capacity + 1 = 2 ^ 64 then
      if (allocs 0).record && (allocs 0).block.isSome then none else some none
    else do
      match ← createInternal (allocs (capacity + 1)) capacity none with
      | none => return none
      | some res =>
          if 0 < len then
            let bytes ← blockRead istr.data offset.toNat len
            let (res, _) ← addNString (allocs (capacity + 1)).grown res (some bytes)
            return some res
          else return some res
  else some none

/-- The part of `l` from `offset` on, as far as it goes, or `NULL` from the end on. -/
structure SubstringOk (allocs : ℕ → Allocs) (s : StringInternal) (l : List UInt8) (offset : UInt32)
    (length : UInt64) : Prop where
  inside : offset.toNat < l.length → ∃ res, substring allocs s offset length = some (some res) ∧
    Holds res ((l.drop offset.toNat).take length.toNat)
  outside : l.length ≤ offset.toNat → substring allocs s offset length = some none

variable {s : StringInternal} {l : List UInt8} {allocs : ℕ → Allocs} {offset : UInt32}
  {length : UInt64}

lemma toNat_offset_add (offset : UInt32) (length : UInt64) :
    (offset.toUInt64 + length).toNat = (offset.toNat + length.toNat) % 2 ^ 64 := by
  rw [UInt64.toNat_add, UInt32.toNat_toUInt64]

lemma substring_outside (h : Holds s l) (hout : l.length ≤ offset.toNat) :
    substring allocs s offset length = some none := by
  rw [substring, if_neg (by rw [h.size_eq]; omega)]

/-- A string is created with the bytes from `offset` on. -/
lemma substring_create (h : Holds s l) {a : Allocs} (hmem : a.record && a.block.isSome)
    {start len : ℕ} (hlen : start + len ≤ l.length) {capacity : ℕ} (hcap : capacity ≠ 0)
    (hle : len ≤ capacity) :
    ∃ res res', createInternal a capacity none = some (some res) ∧ Holds res [] ∧
      (addNString a.grown res (some ((s.data.drop start).take len))).map Prod.fst = some res' ∧
      Holds res' ((l.drop start).take len) := by
  obtain ⟨res, hcreate, hempty, -, hroom⟩ := createInternal_served hmem hcap
  obtain ⟨rest, hdata⟩ := h.split
  have hbytes : (s.data.drop start).take len = (l.drop start).take len := by
    rw [hdata, List.drop_append_of_le_length (by omega),
      List.take_append_of_le_length (by rw [List.length_drop]; omega)]
  have hfits : ((l.drop start).take len).length ≤ capacity :=
    (List.length_take_le _ _).trans hle
  obtain ⟨res', hadd, h'⟩ := addNString_of_room hempty (hroom a.grown _ hfits)
  rw [List.nil_append] at h'
  exact ⟨res, res', hcreate, hempty, by rw [hbytes, hadd]; rfl, h'⟩

/-- When the sum does not wrap around, the part is there. -/
lemma substring_inside (h : Holds s l)
    (hmem : ∀ n ≤ l.length + 1, (allocs n).record && (allocs n).block.isSome)
    (hin : offset.toNat < l.length) (hsum : offset.toNat + length.toNat < 2 ^ 64)
    (hcap : s.capacity < 2 ^ 64) :
    ∃ res, substring allocs s offset length = some (some res) ∧
      Holds res ((l.drop offset.toNat).take length.toNat) := by
  have hlt := h.size_lt
  have hdata := h.capacity_eq
  rw [h.size_eq] at hlt
  obtain ⟨len, hlen⟩ : ∃ len, len = min length.toNat (l.length - offset.toNat) := ⟨_, rfl⟩
  have hclamp : (if s.size < (offset.toUInt64 + length).toNat then s.size - offset.toNat
      else length.toNat) = len := by
    rw [toNat_offset_add, Nat.mod_eq_of_lt hsum, h.size_eq, hlen]
    split <;> omega
  have htake : (l.drop offset.toNat).take len = (l.drop offset.toNat).take length.toNat := by
    rw [hlen, ← List.length_drop, ← List.take_eq_take_min]
  obtain ⟨capacity, hcapacity⟩ : ∃ capacity, capacity = if 0 < len then len else 1 := ⟨_, rfl⟩
  have hbounds : capacity ≠ 0 ∧ len ≤ capacity ∧ capacity ≤ l.length := by
    rw [hcapacity]
    split <;> omega
  obtain ⟨res, res', hcreate, hempty, hadd, h'⟩ := substring_create h
    (hmem (capacity + 1) (by omega)) (show offset.toNat + len ≤ l.length by omega)
    hbounds.1 hbounds.2.1
  rw [← htake]
  have hnowrap : ¬ capacity + 1 = 2 ^ 64 := by omega
  rw [substring, if_pos (by rw [h.size_eq]; exact hin)]
  simp only [hclamp, ← hcapacity, hnowrap, if_false, hcreate, Option.bind_eq_bind, Option.bind_some]
  by_cases hpos : 0 < len
  · have hread : blockRead s.data offset.toNat len = some ((s.data.drop offset.toNat).take len) :=
      if_pos (by omega)
    obtain ⟨⟨r, ir⟩, hr, rfl⟩ := Option.map_eq_some_iff.mp hadd
    exact ⟨r, by simp [hpos, hread, hr], h'⟩
  · have hzero : len = 0 := by omega
    refine ⟨res, by simp [hpos], ?_⟩
    rw [hzero, List.take_zero]
    exact hempty

/-- When the sum wraps around, the length is taken as it is, and there is no string that long. -/
lemma substring_wraps (hlt : offset.toNat < s.size) (hdata : s.data.length < 2 ^ 64)
    (hsize : s.size ≤ s.data.length) (hsum : 2 ^ 64 ≤ offset.toNat + length.toNat)
    (res : StringInternal) : substring allocs s offset length ≠ some (some res) := by
  have hlength := length.toNat_lt
  have hclamp : (if s.size < (offset.toUInt64 + length).toNat then s.size - offset.toNat
      else length.toNat) = length.toNat := by
    rw [toNat_offset_add, if_neg]
    omega
  have hpos : 0 < length.toNat := by omega
  rw [substring, if_pos hlt]
  simp only [hclamp, hpos, if_true]
  split
  · split <;> simp
  · obtain ⟨created, hcreate, -, -⟩ := createInternal_none (allocs (length.toNat + 1)) hpos.ne'
    rw [hcreate, Option.bind_eq_bind, Option.bind_some]
    cases created with
    | none => simp
    | some created =>
        have hread : blockRead s.data offset.toNat length.toNat = none := if_neg (by omega)
        simp [hread]

/-- **Parts of a string.** `CMUTIL_StringSubstring` does what it should exactly when the sum of
offset and length fits into 64 bits, or the part begins behind the end. -/
theorem substring_iff (h : Holds s l) (hcap : s.capacity < 2 ^ 64)
    (hmem : ∀ n ≤ l.length + 1, (allocs n).record && (allocs n).block.isSome)
    (offset : UInt32) (length : UInt64) :
    SubstringOk allocs s l offset length ↔
      l.length ≤ offset.toNat ∨ offset.toNat + length.toNat < 2 ^ 64 := by
  constructor
  · intro hok
    by_contra hcon
    obtain ⟨hin, hsum⟩ := not_or.mp hcon
    obtain ⟨res, hres, -⟩ := hok.inside (not_le.mp hin)
    have hlt := h.size_lt
    have hdata := h.capacity_eq
    exact substring_wraps (by rw [h.size_eq]; omega) (by omega) (by omega) (not_lt.mp hsum) res hres
  · rintro (hout | hsum)
    · exact ⟨fun hin => absurd hin (not_lt.mpr hout), substring_outside h⟩
    · exact ⟨fun hin => substring_inside h hmem hin hsum hcap, substring_outside h⟩

/-- The last two of three bytes. -/
theorem substring_iff_end :
    SubstringOk (fun _ => ⟨true, some fun _ => 0, none⟩) ⟨[0x61, 0x62, 0x63, 0], 4, 3⟩
      [0x61, 0x62, 0x63] 1 7 :=
  (substring_iff (Holds.of_split ⟨[], rfl⟩ rfl rfl) (by norm_num) (fun _ _ => rfl) 1 7).mpr
    (.inr (by decide))

/-- Everything from the second byte on, asked for with the greatest length. -/
theorem substring_fails :
    ¬ SubstringOk (fun _ => ⟨true, some fun _ => 0, none⟩) ⟨[0x61, 0x62, 0], 3, 2⟩ [0x61, 0x62]
      1 0xFFFFFFFFFFFFFFFF := by
  intro hok
  obtain ⟨res, hres, -⟩ := hok.inside (by decide)
  exact substring_wraps (by decide) (by decide) (by decide) (by decide) res hres

end StringInternal

end LibCmutils
