import Mathlib.Data.UInt

/-!
UTF-8.

* `utf8Encode`: the bytes of a code point, as the programs write them: the four length
  classes by the size of the number, surrogates included.
* `utf8Encode_char`: a Unicode scalar value gets its UTF-8 encoding.
* `utf8Bytes`: the UTF-8 encoding of a sequence. `utf8Bytes_cons_ascii` reads an ASCII byte
  of it as a character.
-/

namespace LibCmutils

/-- The UTF-8 encoding of a code point. -/
def utf8Encode (cp : ℕ) : List UInt8 :=
  if cp < 0x80 then [UInt8.ofNat cp]
  else if cp < 0x800 then [UInt8.ofNat (0xC0 ||| cp >>> 6), UInt8.ofNat (0x80 ||| cp &&& 0x3F)]
  else if cp < 0x10000 then
    [UInt8.ofNat (0xE0 ||| cp >>> 12), UInt8.ofNat (0x80 ||| (cp >>> 6) &&& 0x3F),
      UInt8.ofNat (0x80 ||| cp &&& 0x3F)]
  else
    [UInt8.ofNat (0xF0 ||| cp >>> 18), UInt8.ofNat (0x80 ||| (cp >>> 12) &&& 0x3F),
      UInt8.ofNat (0x80 ||| (cp >>> 6) &&& 0x3F), UInt8.ofNat (0x80 ||| cp &&& 0x3F)]

/-- The marker of a leading byte is added to what is left of the number. -/
lemma lor_shiftRight {n b : ℕ} (k a : ℕ) (h : b < 2 ^ (k + n)) :
    2 ^ n * a ||| b >>> k = b / 2 ^ k + 2 ^ n * a := by
  rw [Nat.shiftRight_eq_div_pow, ← Nat.two_pow_add_eq_or_of_lt, Nat.add_comm]
  rw [Nat.div_lt_iff_lt_mul (Nat.two_pow_pos k), ← pow_add]
  rwa [Nat.add_comm n k]

/-- The marker of another byte. -/
lemma lor_land (b : ℕ) : 0x80 ||| b &&& 0x3F = b % 64 + 0x80 := by
  rw [show b &&& 0x3F = b % 64 from Nat.and_two_pow_sub_one_eq_mod b 6]
  rw [← Nat.two_pow_add_eq_or_of_lt (i := 6) (Nat.mod_lt b (by decide)) 2, Nat.add_comm]

/-- The bytes of a code point as numbers. -/
lemma utf8Encode_eq {cp : ℕ} (h : cp < 0x110000) : utf8Encode cp =
    if cp < 0x80 then [UInt8.ofNat cp]
    else if cp < 0x800 then [UInt8.ofNat (cp / 64 + 0xC0), UInt8.ofNat (cp % 64 + 0x80)]
    else if cp < 0x10000 then
      [UInt8.ofNat (cp / 4096 + 0xE0), UInt8.ofNat (cp / 64 % 64 + 0x80),
        UInt8.ofNat (cp % 64 + 0x80)]
    else
      [UInt8.ofNat (cp / 262144 + 0xF0), UInt8.ofNat (cp / 4096 % 64 + 0x80),
        UInt8.ofNat (cp / 64 % 64 + 0x80), UInt8.ofNat (cp % 64 + 0x80)] := by
  simp only [utf8Encode, lor_land]
  split_ifs with h1 h2 h3
  · rfl
  · rw [show 0xC0 ||| cp >>> 6 = cp / 64 + 0xC0 from lor_shiftRight (n := 6) 6 3 (by omega)]
  · rw [show 0xE0 ||| cp >>> 12 = cp / 4096 + 0xE0 from lor_shiftRight (n := 5) 12 7 (by omega)]
    simp only [Nat.shiftRight_eq_div_pow, Nat.reducePow]
  · rw [show 0xF0 ||| cp >>> 18 = cp / 262144 + 0xF0 from lor_shiftRight (n := 4) 18 15 (by omega)]
    simp only [Nat.shiftRight_eq_div_pow, Nat.reducePow]

lemma char_toNat_lt (c : Char) : c.toNat < 0x110000 := by
  have := c.valid
  simp only [UInt32.isValidChar, Nat.isValidChar, ← Char.toNat_val] at this ⊢
  omega

/-- A Unicode scalar value has its UTF-8 encoding. -/
lemma utf8Encode_char (c : Char) : utf8Encode c.toNat = String.utf8EncodeChar c := by
  have hc : c.val.toNat < 0x110000 := char_toNat_lt c
  rw [← Char.toNat_val, utf8Encode_eq hc, String.utf8EncodeChar]
  generalize c.val.toNat = v at hc
  have hlt (n : ℕ) : v ≤ n ↔ v < n + 1 := Nat.lt_succ_iff.symm
  simp only [hlt, Nat.reduceAdd]
  split_ifs with h1 h2 h3
  · rfl
  · rw [show v / 64 % 0x20 = v / 64 from Nat.mod_eq_of_lt (by omega)]
  · rw [show v / 4096 % 0x10 = v / 4096 from Nat.mod_eq_of_lt (by omega)]
  · rw [show v / 262144 % 8 = v / 262144 from Nat.mod_eq_of_lt (by omega)]

/-- The bytes of a code point above ASCII are above ASCII. -/
lemma le_of_mem_utf8Encode {cp : ℕ} (h : 0x80 ≤ cp) (hlt : cp < 0x110000) :
    ∀ b ∈ utf8Encode cp, 0x80 ≤ b := by
  have hbyte {n : ℕ} (h1 : 0x80 ≤ n) (h2 : n < 256) : (0x80 : UInt8) ≤ UInt8.ofNat n := by
    rw [UInt8.le_iff_toNat_le, UInt8.toNat_ofNat_of_lt' h2]
    exact h1
  have htail (k : ℕ) : (0x80 : UInt8) ≤ UInt8.ofNat (k % 64 + 0x80) := hbyte (by omega) (by omega)
  rw [utf8Encode_eq hlt, if_neg (not_lt.mpr h)]
  split_ifs with h2 h3
  · exact List.forall_mem_cons.mpr ⟨hbyte (by omega) (by omega),
      List.forall_mem_cons.mpr ⟨htail _, nofun⟩⟩
  · exact List.forall_mem_cons.mpr ⟨hbyte (by omega) (by omega),
      List.forall_mem_cons.mpr ⟨htail _, List.forall_mem_cons.mpr ⟨htail _, nofun⟩⟩⟩
  · exact List.forall_mem_cons.mpr ⟨hbyte (by omega) (by omega),
      List.forall_mem_cons.mpr ⟨htail _, List.forall_mem_cons.mpr ⟨htail _,
        List.forall_mem_cons.mpr ⟨htail _, nofun⟩⟩⟩⟩

/-! ### Sequences -/

/-- The UTF-8 encoding of a sequence. -/
def utf8Bytes (cs : List Char) : List UInt8 := cs.flatMap String.utf8EncodeChar

lemma utf8Bytes_cons (c : Char) (cs : List Char) :
    utf8Bytes (c :: cs) = String.utf8EncodeChar c ++ utf8Bytes cs := rfl

lemma utf8Bytes_append (cs cs' : List Char) :
    utf8Bytes (cs ++ cs') = utf8Bytes cs ++ utf8Bytes cs' := List.flatMap_append

/-- A character is one ASCII byte, or bytes above ASCII. -/
lemma utf8EncodeChar_cases (c : Char) : (∃ b : UInt8, b < 0x80 ∧ String.utf8EncodeChar c = [b]) ∨
    ∀ b ∈ String.utf8EncodeChar c, 0x80 ≤ b := by
  rw [← utf8Encode_char]
  by_cases h : c.toNat < 0x80
  · refine .inl ⟨UInt8.ofNat c.toNat, ?_, by rw [utf8Encode, if_pos h]⟩
    rw [UInt8.lt_iff_toNat_lt, UInt8.toNat_ofNat_of_lt' (h.trans (by decide))]
    exact h
  · exact .inr (le_of_mem_utf8Encode (not_lt.mp h) (char_toNat_lt c))

/-- An ASCII byte at the head of a sequence is its first character. -/
lemma utf8Bytes_cons_ascii {cs : List Char} {b : UInt8} {l : List UInt8} (hb : b < 0x80)
    (h : utf8Bytes cs = b :: l) :
    ∃ c cs', cs = c :: cs' ∧ String.utf8EncodeChar c = [b] ∧ utf8Bytes cs' = l := by
  cases cs with
  | nil => cases h
  | cons c cs =>
      rw [utf8Bytes_cons] at h
      rcases utf8EncodeChar_cases c with ⟨b', -, hc⟩ | hall
      · rw [hc, List.singleton_append] at h
        obtain ⟨rfl, rfl⟩ := List.cons.inj h
        exact ⟨c, cs, rfl, hc, rfl⟩
      · obtain ⟨b', l', hc⟩ := List.exists_cons_of_ne_nil
          (List.ne_nil_of_length_pos (by simp [Char.utf8Size_pos] :
            0 < (String.utf8EncodeChar c).length))
        rw [hc, List.cons_append] at h
        obtain rfl := (List.cons.inj h).1
        exact absurd (hall b' (by simp [hc])) (UInt8.not_le.mpr hb)

end LibCmutils
