import LibCmutils.Xml.Scanner

/-!
Entities and character references in XML text (`CMUTIL_XmlUnescape`, `src/nanoxml.c`).

* `XmlReferenceTo`: the entities and the references `&#d;` and `&#xh;`, with the character
  they stand for. `XmlReplaced`: a text and what it stands for.
* `XmlSlip`: a number that `strtoul` accepts though it is no such reference.
  `xmlReference_ok`: nothing else is let through.
* `XmlUnescapes`, `xmlUnescape_ok_iff`: what the loop makes of a text.
* `XmlSlips`: the texts that are accepted with a slip, or with a NUL that is not kept.

The main result is `xmlUnescape_references_iff`.
-/

namespace LibCmutils

/-! ### References -/

/-- What stands between `#` and the digits, and the base of the digits. -/
inductive XmlRadix : List UInt8 → ℕ → Prop
  | decimal : XmlRadix [] 10
  | hex {x : UInt8} : x = 0x78 ∨ x = 0x58 → XmlRadix [x] 16

/-- One digit at least. -/
def XmlDigits (base : ℕ) (ds : List UInt8) : Prop := ds ≠ [] ∧ ∀ c ∈ ds, isDigit base c = true

/-- A known entity, or a number made of digits only that denotes a Unicode scalar value other
than 0, and the character. -/
inductive XmlReferenceTo : List UInt8 → Char → Prop
  | entity {name : List UInt8} {c : Char} : (name, String.utf8EncodeChar c) ∈ xmlEscapes →
      XmlReferenceTo name c
  | number {m ds : List UInt8} {base : ℕ} {c : Char} : XmlRadix m base → XmlDigits base ds →
      digitsValue base ds = c.toNat → c.toNat ≠ 0 → XmlReferenceTo (0x23 :: (m ++ ds)) c

/-- A text, and the text with each reference replaced. -/
inductive XmlReplaced : List UInt8 → List UInt8 → Prop
  | nil : XmlReplaced [] []
  | char {c : UInt8} {s t : List UInt8} : c ≠ 0x26 → XmlReplaced s t → XmlReplaced (c :: s) (c :: t)
  | reference {name s t : List UInt8} {c : Char} : XmlReferenceTo name c → XmlReplaced s t →
      XmlReplaced (0x26 :: (name ++ 0x3B :: s)) (String.utf8EncodeChar c ++ t)

/-- What `strtoul` skips before the digits: white space, a plus sign, and `0x` in base 16. -/
inductive XmlPadding (base : ℕ) : List UInt8 → Prop
  | mk {w plus hex : List UInt8} : (∀ c ∈ w, isspace c = true) → (plus = [] ∨ plus = [0x2B]) →
      (hex = [] ∨ base = 16 ∧ (hex = [0x30, 0x78] ∨ hex = [0x30, 0x58])) →
      XmlPadding base (w ++ plus ++ hex)

/-- A number in range whose digits come after something else, or that denotes a surrogate. -/
inductive XmlSlip : List UInt8 → Prop
  | mk {m pad ds : List UInt8} {base : ℕ} : XmlRadix m base → XmlPadding base pad →
      XmlDigits base ds → 0 < digitsValue base ds → digitsValue base ds ≤ 0x10FFFF →
      (pad ≠ [] ∨ 0xD800 ≤ digitsValue base ds ∧ digitsValue base ds ≤ 0xDFFF) →
      XmlSlip (0x23 :: (m ++ (pad ++ ds)))

set_option maxRecDepth 8000 in
lemma isDigit_sixteen : ∀ c : UInt8, isDigit 16 c = true → isspace c = false ∧ c ≠ 0x2D ∧
    c ≠ 0x2B ∧ c ≠ 0x78 ∧ c ≠ 0x58 ∧ c ≠ 0x3B ∧ c ≠ 0x26 ∧ c ≠ 0 ∧ c < 0x80 := by
  decide

set_option maxRecDepth 8000 in
lemma isspace_reference : ∀ c : UInt8, isspace c = true →
    isDigit 16 c = false ∧ c ≠ 0x2B ∧ c ≠ 0x78 ∧ c ≠ 0x58 ∧ c ≠ 0x3B ∧ c ≠ 0 := by
  decide

/-- The prefix that is skipped. -/
lemma dropHexPrefix_cases (base : ℕ) (s : List UInt8) : ∃ hex, s = hex ++ dropHexPrefix base s ∧
    (hex = [] ∨ base = 16 ∧ (hex = [0x30, 0x78] ∨ hex = [0x30, 0x58])) := by
  unfold dropHexPrefix
  split
  · rename_i x c s
    split_ifs with h
    · obtain ⟨hbase, hx, -⟩ := h
      exact ⟨[0x30, x], rfl, .inr ⟨hbase, by simpa using hx⟩⟩
    · exact ⟨[], rfl, .inl rfl⟩
  · exact ⟨[], rfl, .inl rfl⟩

section Numbers

variable {base : ℕ} {m pad ds : List UInt8}

lemma XmlRadix.base_le (h : XmlRadix m base) : base = 10 ∨ base = 16 := by
  cases h with
  | decimal => exact .inl rfl
  | hex => exact .inr rfl

lemma XmlDigits.sixteen (h : XmlDigits base ds) (hbase : base = 10 ∨ base = 16) :
    ∀ c ∈ ds, isDigit 16 c = true := by
  intro c hc
  have hlt : digitValue c < base := by simpa [isDigit] using h.2 c hc
  rw [isDigit, decide_eq_true_eq]
  omega

/-- Digits begin with no prefix. -/
lemma dropHexPrefix_digits (hds : ∀ c ∈ ds, isDigit 16 c = true) : dropHexPrefix base ds = ds := by
  unfold dropHexPrefix
  split
  · rename_i x c s
    obtain ⟨-, -, -, hx, hX, -⟩ := isDigit_sixteen x (hds x (by simp))
    rw [if_neg (by rintro ⟨-, rfl | rfl, -⟩ <;> contradiction)]
  · rfl

/-- What `strtoul` reads behind the padding. -/
lemma strtoul_padding (hbase : base = 10 ∨ base = 16) (hpad : XmlPadding base pad)
    (hds : XmlDigits base ds) (hlt : digitsValue base ds < 2 ^ 64) :
    strtoul base (pad ++ ds) = some (digitsValue base ds, []) := by
  have h16 := hds.sixteen hbase
  obtain ⟨c, k, hck⟩ := List.exists_cons_of_ne_nil hds.1
  obtain ⟨hspace, hminus, hplus, -⟩ := isDigit_sixteen c (h16 c (by simp [hck]))
  obtain @⟨w, plus, hex, hw, hplus', hhex⟩ := hpad
  -- the digits behind the sign, with or without their prefix
  have hdigits : scanDigits base (hex ++ ds) = some (digitsValue base ds, []) := by
    have hdrop : dropHexPrefix base (hex ++ ds) = ds := by
      rcases hhex with rfl | ⟨rfl, rfl | rfl⟩
      · exact dropHexPrefix_digits h16
      · rw [hck]
        simp [dropHexPrefix, h16 c (by simp [hck])]
      · rw [hck]
        simp [dropHexPrefix, h16 c (by simp [hck])]
    have htake := List.takeWhile_eq_self_iff.mpr hds.2
    have hrest := List.dropWhile_eq_nil_iff.mpr hds.2
    simp only [scanDigits, hdrop, htake, hrest, hds.1, if_false]
  -- the first byte behind the white space
  have hhead : ∀ b ∈ (hex ++ ds).head?, isspace b = false ∧ b ≠ 0x2D ∧ b ≠ 0x2B := by
    rcases hhex with rfl | ⟨-, rfl | rfl⟩
    · rw [hck]
      simp [hspace, hminus, hplus]
    · simp
      decide
    · simp
      decide
  have hsign : scanSign ((w ++ plus ++ hex ++ ds).dropWhile isspace) = (false, hex ++ ds) := by
    rw [List.append_assoc, List.append_assoc, List.dropWhile_append_of_pos hw]
    obtain ⟨b, l, hbl⟩ := List.exists_cons_of_ne_nil
      (show hex ++ ds ≠ [] from fun h => hds.1 (List.append_eq_nil_iff.mp h).2)
    obtain ⟨hb, hb1, hb2⟩ := hhead b (by simp [hbl])
    rcases hplus' with rfl | rfl
    · rw [List.nil_append, hbl, List.dropWhile_cons_of_neg (by simp [hb]), scanSign, if_neg hb1,
        if_neg hb2]
    · rfl
  rw [strtoul, scanInt]
  simp only [hsign, hdigits, Option.map_some, Bool.false_eq_true, if_false, Int.natAbs_natCast]
  rw [if_neg (not_le.mpr hlt)]
  congr 2
  omega

/-- What `strtoul` makes a number in range of. A minus sign makes it too great. -/
lemma strtoul_eq_some {d : List UInt8} {cp : ℕ} (hbase : base = 10 ∨ base = 16)
    (hlen : base ^ d.length ≤ 2 ^ 64) (h : strtoul base d = some (cp, [])) (hpos : 0 < cp)
    (hle : cp ≤ 0x10FFFF) : ∃ pad ds, d = pad ++ ds ∧ XmlPadding base pad ∧ XmlDigits base ds ∧
      digitsValue base ds = cp := by
  obtain ⟨⟨n, r⟩, hscan, hcp⟩ := Option.map_eq_some_iff.mp h
  obtain ⟨hcp, rfl⟩ := Prod.mk.inj hcp
  obtain ⟨⟨k, r⟩, hdigits, hn⟩ := Option.map_eq_some_iff.mp hscan
  obtain ⟨hn, rfl⟩ := Prod.mk.inj hn
  obtain ⟨sign, hsign, hneg⟩ := scanSign_eq (d.dropWhile isspace)
  -- the prefix, and the digits that are all of the rest
  obtain ⟨hex, hrest, hhex⟩ := dropHexPrefix_cases base (scanSign (d.dropWhile isspace)).2
  simp only [scanDigits] at hdigits
  split_ifs at hdigits with hnil
  obtain ⟨hk, hend⟩ := Prod.mk.inj (Option.some.inj hdigits)
  have hall := List.dropWhile_eq_nil_iff.mp hend
  rw [List.takeWhile_eq_self_iff.mpr hall] at hnil hk
  generalize dropHexPrefix base (scanSign (d.dropWhile isspace)).2 = ds at *
  have hd : d = d.takeWhile isspace ++ sign ++ hex ++ ds := by
    rw [List.append_assoc, List.append_assoc, ← hrest, ← hsign, List.takeWhile_append_dropWhile]
  have hlength := congrArg List.length hd
  simp only [List.length_append] at hlength
  have hpow : base ^ (ds.length + sign.length) ≤ 2 ^ 64 :=
    (Nat.pow_le_pow_right (by omega) (by omega)).trans hlen
  have hlt := digitsValue_lt hall
  rw [hk] at hlt
  rcases hneg with ⟨rfl, hneg⟩ | ⟨hplus, hneg⟩
  · -- a number that wraps around
    rw [hneg, if_pos rfl] at hn
    rw [List.length_singleton, pow_succ] at hpow
    have h10 : base ^ ds.length * 10 ≤ base ^ ds.length * base := by
      refine Nat.mul_le_mul_left _ ?_
      omega
    subst hn
    rw [if_neg (by omega)] at hcp
    omega
  · rw [hneg] at hn
    simp only [Bool.false_eq_true, if_false] at hn
    subst hn
    have hlt' : k < 2 ^ 64 :=
      hlt.trans_le ((Nat.pow_le_pow_right (by omega) (Nat.le_add_right _ _)).trans hpow)
    rw [if_neg (by omega)] at hcp
    exact ⟨_, ds, hd, .mk (fun c => List.mem_takeWhile_imp) hplus hhex, ⟨hnil, hall⟩, by omega⟩

lemma XmlPadding.byte (h : XmlPadding base pad) {c : UInt8} (hc : c ∈ pad) :
    c ≠ 0x3B ∧ c ≠ 0 := by
  obtain @⟨w, plus, hex, hw, hplus, hhex⟩ := h
  rcases List.mem_append.mp hc with hc | hc
  · rcases List.mem_append.mp hc with hc | hc
    · obtain ⟨-, -, -, -, hsemi, hzero⟩ := isspace_reference c (hw c hc)
      exact ⟨hsemi, hzero⟩
    · rcases hplus with rfl | rfl
      · cases hc
      · obtain rfl := List.mem_singleton.mp hc
        decide
  · rcases hhex with rfl | ⟨-, rfl | rfl⟩
    · cases hc
    · rcases List.mem_pair.mp hc with rfl | rfl <;> decide
    · rcases List.mem_pair.mp hc with rfl | rfl <;> decide

/-- Padding of a decimal number. -/
lemma XmlPadding.decimal (h : XmlPadding 10 pad) {c : UInt8} (hc : c ∈ pad) :
    c ≠ 0x78 ∧ c ≠ 0x58 := by
  obtain @⟨w, plus, hex, hw, hplus, hhex⟩ := h
  obtain rfl : hex = [] := hhex.resolve_right (by omega)
  rcases List.mem_append.mp (List.append_nil _ ▸ hc) with hc | hc
  · obtain ⟨-, -, hx, hX, -⟩ := isspace_reference c (hw c hc)
    exact ⟨hx, hX⟩
  · rcases hplus with rfl | rfl
    · cases hc
    · obtain rfl := List.mem_singleton.mp hc
      decide

/-- Padding is not made of digits. -/
lemma XmlPadding.eq_nil (h : XmlPadding base pad) (hdigit : ∀ c ∈ pad, isDigit 16 c = true) :
    pad = [] := by
  obtain @⟨w, plus, hex, hw, hplus, hhex⟩ := h
  have hnot : ∀ c ∈ w ++ plus ++ hex, c ≠ 0x2B ∧ c ≠ 0x78 ∧ c ≠ 0x58 := fun c hc => by
    obtain ⟨-, -, hp, hx, hX, -⟩ := isDigit_sixteen c (hdigit c hc)
    exact ⟨hp, hx, hX⟩
  have hwnil : w = [] := List.eq_nil_iff_forall_not_mem.mpr fun c hc => by
    have := hdigit c (by simp [hc])
    rw [(isspace_reference c (hw c hc)).1] at this
    cases this
  subst hwnil
  rcases hplus with rfl | rfl
  · rcases hhex with rfl | ⟨-, rfl | rfl⟩
    · rfl
    · exact absurd rfl (hnot 0x78 (by simp)).2.1
    · exact absurd rfl (hnot 0x58 (by simp)).2.2
  · exact absurd rfl (hnot 0x2B (by simp)).1

end Numbers

/-! ### What is let through -/

section Names

variable {name v : List UInt8} {c : Char}

/-- The entities stand for ASCII characters. -/
lemma xmlEscapes_char (h : (name, v) ∈ xmlEscapes) : ∃ c : Char, v = String.utf8EncodeChar c := by
  simp only [xmlEscapes, List.mem_cons, Prod.mk.injEq, List.not_mem_nil, or_false] at h
  rcases h with ⟨-, rfl⟩ | ⟨-, rfl⟩ | ⟨-, rfl⟩ | ⟨-, rfl⟩ | ⟨-, rfl⟩
  · exact ⟨'"', rfl⟩
  · exact ⟨'&', rfl⟩
  · exact ⟨'\'', rfl⟩
  · exact ⟨'<', rfl⟩
  · exact ⟨'>', rfl⟩

/-- An entity begins with a letter, and its name is short. -/
lemma xmlEscapes_name (h : (name, v) ∈ xmlEscapes) : xmlEscapes.lookup name = some v ∧
    name.head? ≠ some 0x23 ∧ ∀ b ∈ name, b ≠ 0x3B ∧ b ≠ 0 ∧ b < 0x80 := by
  simp only [xmlEscapes, List.mem_cons, Prod.mk.injEq, List.not_mem_nil, or_false] at h
  rcases h with ⟨rfl, rfl⟩ | ⟨rfl, rfl⟩ | ⟨rfl, rfl⟩ | ⟨rfl, rfl⟩ | ⟨rfl, rfl⟩ <;>
    exact ⟨rfl, by decide, by simp⟩

lemma mem_of_lookup {l : List (List UInt8 × List UInt8)} (h : l.lookup name = some v) :
    (name, v) ∈ l := by
  induction l with
  | nil => cases h
  | cons e l ih =>
      rw [List.lookup_cons] at h
      split at h
      · rename_i heq
        obtain rfl := Option.some.inj h
        rw [eq_of_beq heq]
        exact List.mem_cons_self
      · exact List.mem_cons_of_mem _ (ih h)

/-- The base and the digits that the program reads behind `#`. -/
lemma XmlRadix.reference {m d : List UInt8} {base : ℕ} (h : XmlRadix m base)
    (hd : base = 10 → ∀ c ∈ d.head?, c ≠ 0x78 ∧ c ≠ 0x58) :
    xmlReferenceBase (m ++ d) = (base, d) := by
  cases h with
  | decimal =>
      cases d with
      | nil => rfl
      | cons c d =>
          obtain ⟨h1, h2⟩ := hd rfl c rfl
          rw [List.nil_append, xmlReferenceBase, if_neg (by rintro (rfl | rfl) <;> contradiction)]
  | hex hx => rw [List.singleton_append, xmlReferenceBase, if_pos hx]

lemma xmlReferenceBase_radix (digits : List UInt8) :
    ∃ m, digits = m ++ (xmlReferenceBase digits).2 ∧ XmlRadix m (xmlReferenceBase digits).1 := by
  cases digits with
  | nil => exact ⟨[], rfl, .decimal⟩
  | cons c s =>
      rw [xmlReferenceBase]
      split_ifs with h
      · exact ⟨[c], rfl, .hex h⟩
      · exact ⟨[], rfl, .decimal⟩

/-- A number in range is let through. -/
lemma xmlReference_number {m pad ds : List UInt8} {base : ℕ} (hm : XmlRadix m base)
    (hpad : XmlPadding base pad) (hds : XmlDigits base ds) (hpos : 0 < digitsValue base ds)
    (hle : digitsValue base ds ≤ 0x10FFFF) :
    xmlReference (0x23 :: (m ++ (pad ++ ds))) = .ok (utf8Encode (digitsValue base ds)) := by
  have hhead : base = 10 → ∀ c ∈ (pad ++ ds).head?, c ≠ 0x78 ∧ c ≠ 0x58 := by
    intro hbase c hc
    have hmem := List.mem_of_mem_head? hc
    rcases List.mem_append.mp hmem with hmem | hmem
    · subst hbase
      exact hpad.decimal hmem
    · obtain ⟨-, -, -, hx, hX, -⟩ := isDigit_sixteen c (hds.sixteen hm.base_le c hmem)
      exact ⟨hx, hX⟩
  rw [xmlReference]
  simp only [hm.reference hhead, strtoul_padding hm.base_le hpad hds (by omega)]
  rw [if_neg (by omega)]
  rfl

lemma XmlReferenceTo.ok (h : XmlReferenceTo name c) :
    xmlReference name = .ok (String.utf8EncodeChar c) := by
  cases h with
  | entity hmem =>
      obtain ⟨hlookup, hhead, -⟩ := xmlEscapes_name hmem
      unfold xmlReference
      split
      · exact absurd rfl hhead
      · rw [hlookup]
  | number hm hds hvalue hne =>
      have hlt := char_toNat_lt c
      have hok := xmlReference_number hm (.mk (w := []) (by simp) (.inl rfl) (.inl rfl)) hds
        (by omega) (by omega)
      rw [hvalue, utf8Encode_char] at hok
      exact hok

/-- Nothing but entities, references and slips is let through. -/
lemma xmlReference_ok (h : xmlReference name = .ok v) (hlen : name.length < 19) :
    (∃ c, XmlReferenceTo name c ∧ v = String.utf8EncodeChar c) ∨ XmlSlip name := by
  unfold xmlReference at h
  split at h
  · rename_i digits
    obtain ⟨m, hdigits, hm⟩ := xmlReferenceBase_radix digits
    split at h
    · rename_i cp hcp
      split_ifs at h with hrange
      have hbase := hm.base_le
      have hpow : (xmlReferenceBase digits).1 ^ (xmlReferenceBase digits).2.length ≤ 2 ^ 64 := by
        generalize (xmlReferenceBase digits).1 = base at *
        generalize (xmlReferenceBase digits).2 = d at *
        subst hdigits
        cases hm with
        | decimal =>
            have hle : d.length ≤ 17 := by simpa [Nat.lt_succ_iff] using hlen
            exact (Nat.pow_le_pow_right (by norm_num) hle).trans (by norm_num)
        | hex =>
            have hle : d.length ≤ 16 := by simpa [Nat.lt_succ_iff] using hlen
            exact (Nat.pow_le_pow_right (by norm_num) hle).trans (by norm_num)
      obtain ⟨pad, ds, hd, hpad, hds, hvalue⟩ :=
        strtoul_eq_some hbase hpow hcp (by omega) (by omega)
      rw [hdigits, hd]
      by_cases hslip : pad ≠ [] ∨ 0xD800 ≤ cp ∧ cp ≤ 0xDFFF
      · exact .inr (.mk hm hpad hds (by omega) (by omega) (by rwa [hvalue]))
      · obtain ⟨hnil, hscalar⟩ := not_or.mp hslip
        obtain rfl : pad = [] := not_not.mp hnil
        obtain ⟨c, rfl⟩ : ∃ c : Char, c.toNat = cp := by
          have hvalid : cp.isValidChar := by
            rw [Nat.isValidChar]
            omega
          exact ⟨Char.ofNatAux cp hvalid, rfl⟩
        refine .inl ⟨c, .number hm hds hvalue (by omega), ?_⟩
        rw [← Except.ok.inj h, xmlAppendUTF8, utf8Encode_char]
    · cases h
  · split at h
    · rename_i hlookup
      obtain rfl := Except.ok.inj h
      have hmem := mem_of_lookup hlookup
      obtain ⟨c, rfl⟩ := xmlEscapes_char hmem
      exact .inl ⟨c, .entity hmem, rfl⟩
    · cases h

lemma XmlSlip.ok (h : XmlSlip name) : ∃ v, xmlReference name = .ok v := by
  cases h with
  | mk hm hpad hds hpos hle => exact ⟨_, xmlReference_number hm hpad hds hpos hle⟩

/-- The name of a reference holds no semicolon and no NUL. -/
lemma XmlRadix.byte {m : List UInt8} {base : ℕ} (h : XmlRadix m base) {b : UInt8} (hb : b ∈ m) :
    b ≠ 0x3B ∧ b ≠ 0 ∧ b < 0x80 ∧ isDigit 16 b = false := by
  cases h with
  | decimal => cases hb
  | hex hx =>
      obtain rfl := List.mem_singleton.mp hb
      rcases hx with rfl | rfl <;> decide

lemma XmlReferenceTo.byte (h : XmlReferenceTo name c) {b : UInt8} (hb : b ∈ name) :
    b ≠ 0x3B ∧ b ≠ 0 ∧ b < 0x80 := by
  cases h with
  | entity hmem => exact (xmlEscapes_name hmem).2.2 b hb
  | number hm hds =>
      rcases List.mem_cons.mp hb with rfl | hb
      · decide
      rcases List.mem_append.mp hb with hb | hb
      · obtain ⟨h1, h2, h3, -⟩ := hm.byte hb
        exact ⟨h1, h2, h3⟩
      · obtain ⟨-, -, -, -, -, h1, -, h2, h3⟩ := isDigit_sixteen b (hds.sixteen hm.base_le b hb)
        exact ⟨h1, h2, h3⟩

lemma XmlSlip.byte (h : XmlSlip name) {b : UInt8} (hb : b ∈ name) : b ≠ 0x3B ∧ b ≠ 0 := by
  obtain @⟨m, pad, ds, base, hm, hpad, hds, -, -, -⟩ := h
  rcases List.mem_cons.mp hb with rfl | hb
  · decide
  rcases List.mem_append.mp hb with hb | hb
  · obtain ⟨h1, h2, -⟩ := hm.byte hb
    exact ⟨h1, h2⟩
  · rcases List.mem_append.mp hb with hb | hb
    · exact hpad.byte hb
    · obtain ⟨-, -, -, -, -, h1, -, h2, -⟩ := isDigit_sixteen b (hds.sixteen hm.base_le b hb)
      exact ⟨h1, h2⟩

/-- A slip is no reference. -/
lemma XmlSlip.not_reference (h : XmlSlip name) : ¬XmlReferenceTo name c := by
  obtain @⟨m, pad, ds, base, hm, hpad, hds, -, -, hslip⟩ := h
  intro h
  generalize hname : (0x23 :: (m ++ (pad ++ ds)) : List UInt8) = name at h
  cases h with
  | entity hmem =>
      rw [← hname] at hmem
      exact (xmlEscapes_name hmem).2.1 rfl
  | @number m' ds' base' c hm' hds' hvalue hne =>
      have hl : m ++ (pad ++ ds) = m' ++ ds' := (List.cons.inj hname).2
      have h16 := hds.sixteen hm.base_le
      have h16' := hds'.sixteen hm'.base_le
      -- both have the same base
      obtain ⟨rfl, hl⟩ : base = base' ∧ pad ++ ds = ds' := by
        cases hm with
        | decimal =>
            cases hm' with
            | decimal => exact ⟨rfl, hl⟩
            | @hex x hx =>
                have hmem : x ∈ pad ++ ds := by
                  rw [List.nil_append] at hl
                  simp [hl]
                have hnot : isDigit 16 x = false := (XmlRadix.hex hx).byte (by simp) |>.2.2.2
                rcases List.mem_append.mp hmem with hmem | hmem
                · exact absurd (hpad.decimal hmem) (by rcases hx with rfl | rfl <;> decide)
                · rw [h16 x hmem] at hnot
                  cases hnot
        | @hex x hx =>
            cases hm' with
            | decimal =>
                have hnot : isDigit 16 x = false := (XmlRadix.hex hx).byte (by simp) |>.2.2.2
                rw [h16' x (by rw [List.nil_append] at hl; simp [← hl])] at hnot
                cases hnot
            | hex => exact ⟨rfl, (List.cons.inj hl).2⟩
      obtain rfl : pad = [] := hpad.eq_nil fun b hb => h16' b (by simp [← hl, hb])
      obtain rfl : ds = ds' := hl
      have hvalid := c.valid
      simp only [UInt32.isValidChar, Nat.isValidChar, Char.toNat_val] at hvalid
      have := hslip.resolve_left (by simp)
      omega

end Names

/-! ### Texts -/

/-- What `CMUTIL_XmlUnescape` makes of a text: the searches for `&` and `;` end at a NUL. -/
inductive XmlUnescapes : List UInt8 → List UInt8 → Prop
  | rest {p : List UInt8} : 0x26 ∉ p.takeWhile (· != 0) →
      XmlUnescapes p (if p.headD 0 = 0 then [] else p)
  | reference {u name s v t : List UInt8} : 0x26 ∉ u → (0 : UInt8) ∉ u → 0x3B ∉ name →
      (0 : UInt8) ∉ name → name.length < 19 → xmlReference name = .ok v → XmlUnescapes s t →
      XmlUnescapes (u ++ 0x26 :: (name ++ 0x3B :: s)) (u ++ v ++ t)

/-- Up to its first NUL, a text with short entities, references and slips only. -/
inductive XmlLetThrough : List UInt8 → Prop
  | rest {p : List UInt8} : 0x26 ∉ p.takeWhile (· != 0) → XmlLetThrough p
  | reference {u name s : List UInt8} : 0x26 ∉ u → (0 : UInt8) ∉ u → name.length < 19 →
      ((∃ c, XmlReferenceTo name c) ∨ XmlSlip name) → XmlLetThrough s →
      XmlLetThrough (u ++ 0x26 :: (name ++ 0x3B :: s))

/-- A text that is let through with a slip, or with a NUL that stands first or right behind a
reference, or that an ampersand follows. -/
inductive XmlSlips : List UInt8 → Prop
  | here {u name s : List UInt8} : 0x26 ∉ u → (0 : UInt8) ∉ u → name.length < 19 →
      XmlSlip name → XmlLetThrough s → XmlSlips (u ++ 0x26 :: (name ++ 0x3B :: s))
  | later {u name s : List UInt8} {c : Char} : 0x26 ∉ u → (0 : UInt8) ∉ u → name.length < 19 →
      XmlReferenceTo name c → XmlSlips s → XmlSlips (u ++ 0x26 :: (name ++ 0x3B :: s))
  | nul {p : List UInt8} : 0x26 ∉ p.takeWhile (· != 0) → (0 : UInt8) ∈ p →
      p.head? = some 0 ∨ 0x26 ∈ p → XmlSlips p

section Texts

variable {s t u name v : List UInt8} {c : Char}

/-- What a text with an ampersand is made of. -/
lemma XmlUnescapes.inv {q : List UInt8} (hu : 0x26 ∉ u) (hu0 : (0 : UInt8) ∉ u)
    (h : XmlUnescapes (u ++ 0x26 :: q) t) : ∃ name s v t', q = name ++ 0x3B :: s ∧ 0x3B ∉ name ∧
      (0 : UInt8) ∉ name ∧ name.length < 19 ∧ xmlReference name = .ok v ∧ XmlUnescapes s t' ∧
      t = u ++ v ++ t' := by
  generalize hp : u ++ 0x26 :: q = p at h
  cases h with
  | rest hrest =>
      rw [← hp] at hrest
      have hnone := (strchrSplit_eq_none_iff (by decide)).mpr hrest
      rw [strchrSplit_append hu hu0] at hnone
      cases hnone
  | @reference u' name s v t hu' hu0' hn hn0 hlen href hs =>
      obtain ⟨rfl, rfl⟩ := append_cons_inj hu hu' hp
      exact ⟨name, s, v, t, rfl, hn, hn0, hlen, href, hs, rfl⟩

lemma xmlUnescapeLoop_ok_iff : ∀ (fuel : ℕ) (p dest out : List UInt8), p.length < fuel →
    (xmlUnescapeLoop fuel p dest = .ok out ↔ ∃ t, XmlUnescapes p t ∧ out = dest ++ t)
  | fuel + 1, p, dest, out, hfuel => by
      rw [xmlUnescapeLoop]
      cases hamp : strchrSplit 0x26 p with
      | none =>
          have hrest := (strchrSplit_eq_none_iff (by decide)).mp hamp
          simp only [Except.ok.injEq]
          constructor
          · rintro rfl
            exact ⟨_, .rest hrest, by split <;> simp⟩
          · rintro ⟨t, ht, rfl⟩
            cases ht with
            | rest => split <;> simp
            | reference hu hu0 =>
                rw [strchrSplit_append hu hu0] at hamp
                cases hamp
      | some r =>
          obtain ⟨u, q⟩ := r
          obtain rfl := strchrSplit_eq hamp
          have hu := strchrSplit_notMem hamp
          have hu0 := strchrSplit_zero hamp
          simp only
          constructor
          · intro h
            cases hsemi : strchrSplit 0x3B q with
            | none =>
                rw [hsemi] at h
                cases h
            | some r =>
                obtain ⟨name, s⟩ := r
                obtain rfl := strchrSplit_eq hsemi
                simp only [hsemi] at h
                split_ifs at h with hlen
                cases href : xmlReference name with
                | error e =>
                    rw [href] at h
                    cases h
                | ok v =>
                    rw [href, except_ok_bind, xmlUnescapeLoop_ok_iff fuel s _ out (by
                      simp only [List.length_append, List.length_cons] at hfuel
                      omega)] at h
                    obtain ⟨t, ht, rfl⟩ := h
                    refine ⟨u ++ v ++ t, ?_, by simp only [List.append_assoc]⟩
                    exact .reference hu hu0 (strchrSplit_notMem hsemi) (strchrSplit_zero hsemi)
                      (by omega) href ht
          · rintro ⟨t, ht, rfl⟩
            obtain ⟨name, s, v, t, rfl, hn, hn0, hlen, href, hs, rfl⟩ := ht.inv hu hu0
            simp only [strchrSplit_append hn hn0, if_pos (show name.length + 1 < 20 by omega), href,
              except_ok_bind]
            rw [xmlUnescapeLoop_ok_iff fuel s _ _ (by
              simp only [List.length_append, List.length_cons] at hfuel
              omega)]
            exact ⟨t, hs, by simp only [List.append_assoc]⟩

/-- **What the loop makes of a text.** -/
lemma xmlUnescape_ok_iff {dest out : List UInt8} {cconv : XmlCharset} :
    xmlUnescape dest s cconv = .ok out ↔
      ∃ t, XmlUnescapes s t ∧ out = xmlApplyCharset (dest ++ t) cconv := by
  have hloop := xmlUnescapeLoop_ok_iff (s.length + 1) s dest
  rw [xmlUnescape]
  cases h : xmlUnescapeLoop (s.length + 1) s dest with
  | error e =>
      rw [except_error_bind]
      refine iff_of_false (by simp) ?_
      rintro ⟨t, ht, -⟩
      have := (hloop (dest ++ t) (by omega)).mpr ⟨t, ht, rfl⟩
      rw [h] at this
      cases this
  | ok r =>
      obtain ⟨t, ht, rfl⟩ := (hloop r (by omega)).mp h
      rw [except_ok_bind, Except.ok.injEq]
      constructor
      · rintro rfl
        exact ⟨t, ht, rfl⟩
      · rintro ⟨t', ht', rfl⟩
        have := (hloop (dest ++ t') (by omega)).mpr ⟨t', ht', rfl⟩
        rw [h] at this
        rw [Except.ok.inj this]

lemma XmlUnescapes.letThrough (h : XmlUnescapes s t) : XmlLetThrough s := by
  induction h with
  | rest hrest => exact .rest hrest
  | reference hu hu0 _ _ hlen href _ ih =>
      refine .reference hu hu0 hlen ?_ ih
      rcases xmlReference_ok href hlen with ⟨c, hc, -⟩ | hslip
      · exact .inl ⟨c, hc⟩
      · exact .inr hslip

lemma XmlLetThrough.unescapes (h : XmlLetThrough s) : ∃ t, XmlUnescapes s t := by
  induction h with
  | rest hrest => exact ⟨_, .rest hrest⟩
  | reference hu hu0 hlen hname _ ih =>
      obtain ⟨t, ht⟩ := ih
      rcases hname with ⟨c, hc⟩ | hslip
      · exact ⟨_, .reference hu hu0 (fun h => (hc.byte h).1 rfl) (fun h => (hc.byte h).2.1 rfl) hlen
          hc.ok ht⟩
      · obtain ⟨v, hv⟩ := hslip.ok
        exact ⟨_, .reference hu hu0 (fun h => (hslip.byte h).1 rfl) (fun h => (hslip.byte h).2 rfl)
          hlen hv ht⟩

/-! ### What a text stands for -/

lemma XmlReplaced.append (hu : 0x26 ∉ u) (h : XmlReplaced s t) : XmlReplaced (u ++ s) (u ++ t) := by
  induction u with
  | nil => exact h
  | cons b u ih =>
      exact .char (fun hb => hu (by simp [hb])) (ih fun hb => hu (List.mem_cons_of_mem b hb))

lemma XmlReplaced.of_append (hu : 0x26 ∉ u) (h : XmlReplaced (u ++ s) t) :
    ∃ t', t = u ++ t' ∧ XmlReplaced s t' := by
  induction u generalizing t with
  | nil => exact ⟨t, rfl, h⟩
  | cons b u ih =>
      generalize hp : b :: u ++ s = p at h
      cases h with
      | nil => cases hp
      | @char b' s' t' _ h =>
          obtain ⟨rfl, rfl⟩ := List.cons.inj hp
          obtain ⟨t', rfl, ht'⟩ := ih (fun hb => hu (List.mem_cons_of_mem b hb)) h
          exact ⟨t', rfl, ht'⟩
      | reference => exact absurd (by rw [(List.cons.inj hp).1]; exact List.mem_cons_self) hu

lemma XmlReplaced.of_name (hn : 0x3B ∉ name) (h : XmlReplaced (0x26 :: (name ++ 0x3B :: s)) t) :
    ∃ c t', XmlReferenceTo name c ∧ XmlReplaced s t' ∧ t = String.utf8EncodeChar c ++ t' := by
  generalize hp : 0x26 :: (name ++ 0x3B :: s) = p at h
  cases h with
  | nil => cases hp
  | char hc => exact absurd (List.cons.inj hp).1.symm hc
  | @reference name' s' t' c href hs =>
      obtain ⟨rfl, rfl⟩ := append_cons_inj hn (fun h => (href.byte h).1 rfl) (List.cons.inj hp).2
      exact ⟨c, t', href, hs, rfl⟩

/-- A reference is longer than its character. -/
lemma XmlReferenceTo.length_lt (h : XmlReferenceTo name c) :
    (String.utf8EncodeChar c).length < name.length + 2 := by
  cases h with
  | entity hmem =>
      simp only [xmlEscapes, List.mem_cons, Prod.mk.injEq, List.not_mem_nil, or_false] at hmem
      rcases hmem with ⟨rfl, h⟩ | ⟨rfl, h⟩ | ⟨rfl, h⟩ | ⟨rfl, h⟩ | ⟨rfl, h⟩ <;> simp [h]
  | @number m ds base c hm hds hvalue =>
      have hpos := List.length_pos_iff.mpr hds.1
      have h4 := Char.utf8Size_le_four c
      simp only [List.length_cons, List.length_append, String.length_utf8EncodeChar]
      by_cases hlong : 1 < m.length + ds.length
      · omega
      · -- one decimal digit
        cases hm with
        | decimal =>
            have hlt := digitsValue_lt hds.2
            rw [hvalue, show ds.length = 1 by simp at hlong; omega, pow_one] at hlt
            have hone : c.utf8Size = 1 := Char.utf8Size_eq_one_iff.mpr (by
              rw [UInt32.le_iff_toNat_le]
              exact le_of_lt (hlt.trans (by decide)))
            omega
        | hex =>
            rw [List.length_singleton] at hlong
            omega

/-- Replacing shortens a text that has an ampersand. -/
lemma XmlReplaced.length (h : XmlReplaced s t) :
    t.length ≤ s.length ∧ (0x26 ∈ s → t.length < s.length) := by
  induction h with
  | nil => simp
  | @char b s t hb _ ih =>
      simp only [List.length_cons, List.mem_cons, Ne.symm hb, false_or]
      exact ⟨by omega, fun h => by have := ih.2 h; omega⟩
  | reference href _ ih =>
      have hlt := href.length_lt
      simp only [List.length_append, List.length_cons]
      exact ⟨by omega, fun _ => by omega⟩

/-- With a slip, the text does not stand for what is made of it. -/
lemma XmlSlips.unescapes (h : XmlSlips s) :
    ∃ t, XmlUnescapes s t ∧ ¬XmlReplaced s t := by
  induction h with
  | @here u name s hu hu0 hlen hslip hs =>
      obtain ⟨t, ht⟩ := hs.unescapes
      obtain ⟨v, hv⟩ := hslip.ok
      have hn : (0x3B : UInt8) ∉ name := fun h => (hslip.byte h).1 rfl
      refine ⟨_, .reference hu hu0 hn (fun h => (hslip.byte h).2 rfl) hlen hv ht, fun h => ?_⟩
      rw [List.append_assoc] at h
      obtain ⟨t', -, h⟩ := h.of_append hu
      obtain ⟨c, -, hc, -⟩ := h.of_name hn
      exact hslip.not_reference hc
  | @later u name s c hu hu0 hlen href _ ih =>
      obtain ⟨t, ht, hnot⟩ := ih
      have hn : (0x3B : UInt8) ∉ name := fun h => (href.byte h).1 rfl
      refine ⟨_, .reference hu hu0 hn (fun h => (href.byte h).2.1 rfl) hlen href.ok ht, fun h => ?_⟩
      rw [List.append_assoc] at h
      obtain ⟨t', heq, h⟩ := h.of_append hu
      obtain ⟨c', t'', hc', hs, rfl⟩ := h.of_name hn
      have hchar := href.ok.symm.trans hc'.ok
      rw [← Except.ok.inj hchar] at heq
      rw [List.append_cancel_left (List.append_cancel_left heq)] at hnot
      exact hnot hs
  | @nul p hrest h0 hnul =>
      refine ⟨_, .rest hrest, fun h => ?_⟩
      cases p with
      | nil => cases h0
      | cons b l =>
          by_cases hb : b = 0
          · subst hb
            cases h
          · rw [if_neg (by simpa using hb)] at h
            have hamp : 0x26 ∈ b :: l := hnul.resolve_left (by simpa using hb)
            exact lt_irrefl _ (h.length.2 hamp)

/-- Without a slip it does. -/
lemma XmlUnescapes.replaced (h : XmlUnescapes s t) (hno : ¬XmlSlips s) : XmlReplaced s t := by
  have hplain : ∀ {p : List UInt8}, 0x26 ∉ p → XmlReplaced p p := fun {p} hp => by
    have := XmlReplaced.nil.append hp
    rwa [List.append_nil] at this
  induction h with
  | @rest p hrest =>
      by_cases h0 : (0 : UInt8) ∈ p
      · obtain ⟨hhead, hamp⟩ := not_or.mp fun hnul => hno (.nul hrest h0 hnul)
        rw [if_neg fun h => hhead ?_]
        · exact hplain hamp
        · cases p with
          | nil => cases h0
          | cons b l => exact congrArg some h
      · have hall : p.takeWhile (· != 0) = p := List.takeWhile_eq_self_iff.mpr fun b hb => by
          have : b ≠ 0 := fun h => h0 (h ▸ hb)
          simpa using this
        rw [hall] at hrest
        cases p with
        | nil => exact .nil
        | cons b l =>
            have hb : b ≠ 0 := fun h => h0 (by simp [h])
            rw [if_neg (by simpa using hb)]
            exact hplain hrest
  | @reference u name s v t hu hu0 hn hn0 hlen href hs ih =>
      rw [List.append_assoc]
      refine XmlReplaced.append hu ?_
      rcases xmlReference_ok href hlen with ⟨c, hc, rfl⟩ | hslip
      · exact .reference hc (ih fun h => hno (.later hu hu0 hlen hc h))
      · exact absurd (.here hu hu0 hlen hslip hs.letThrough) hno

/-! ### UTF-8 -/

/-- ASCII bytes at the head of a sequence are characters. -/
lemma utf8Bytes_ascii {cs : List Char} {u l : List UInt8} (hu : ∀ b ∈ u, b < 0x80)
    (h : utf8Bytes cs = u ++ l) : ∃ cs', utf8Bytes cs' = l ∧ cs'.length + u.length = cs.length := by
  induction u generalizing cs with
  | nil => exact ⟨cs, h, rfl⟩
  | cons b u ih =>
      obtain ⟨c, cs', rfl, -, h'⟩ := utf8Bytes_cons_ascii (hu b (by simp)) h
      obtain ⟨cs'', h'', hlen⟩ := ih (fun b hb => hu b (by simp [hb])) h'
      exact ⟨cs'', h'', by simp only [List.length_cons]; omega⟩

/-- Replacing keeps UTF-8. -/
lemma XmlReplaced.utf8 : ∀ (n : ℕ) (cs : List Char), cs.length ≤ n → ∀ {t : List UInt8},
    XmlReplaced (utf8Bytes cs) t → ∃ cs', t = utf8Bytes cs'
  | _, [], _, _, h => by
      cases h
      exact ⟨[], rfl⟩
  | n + 1, c :: cs, hn, t, h => by
      simp only [List.length_cons] at hn
      rw [utf8Bytes_cons] at h
      by_cases hamp : 0x26 ∈ String.utf8EncodeChar c
      · -- the character is the ampersand
        have hc : String.utf8EncodeChar c = [0x26] := by
          rcases utf8EncodeChar_cases c with ⟨b, -, hb⟩ | hall
          · rw [hb, List.mem_singleton] at hamp
            rw [hb, hamp]
          · exact absurd (hall _ hamp) (by decide)
        rw [hc, List.singleton_append] at h
        generalize hp : 0x26 :: utf8Bytes cs = p at h
        cases h with
        | nil => cases hp
        | char hb => exact absurd (List.cons.inj hp).1.symm hb
        | @reference name s t c' href hs =>
            obtain ⟨cs', rfl, hlen⟩ := utf8Bytes_ascii (u := name ++ [0x3B]) (l := s)
              (fun b hb => by
                rcases List.mem_append.mp hb with hb | hb
                · exact (href.byte hb).2.2
                · rw [List.mem_singleton.mp hb]
                  decide)
              (by rw [(List.cons.inj hp).2]; simp)
            obtain ⟨cs'', rfl⟩ := XmlReplaced.utf8 n cs' (by simp at hlen; omega) hs
            exact ⟨c' :: cs'', rfl⟩
      · obtain ⟨t', rfl, h'⟩ := h.of_append hamp
        obtain ⟨cs', rfl⟩ := XmlReplaced.utf8 n cs (by omega) h'
        exact ⟨c :: cs', rfl⟩

end Texts

/-- **Character references.** What is accepted stands for what is appended, and UTF-8 remains
UTF-8, exactly on the texts without a slip. -/
theorem xmlUnescape_references_iff (s : List UInt8) :
    ((∀ (dest out : List UInt8) (cconv : XmlCharset), xmlUnescape dest s cconv = .ok out →
        ∃ t, XmlReplaced s t ∧ out = xmlApplyCharset (dest ++ t) cconv) ∧
      ∀ (ds cs : List Char) (out : List UInt8), s = utf8Bytes cs →
        xmlUnescape (utf8Bytes ds) s none = .ok out → ∃ cs', out = utf8Bytes cs') ↔
      ¬XmlSlips s := by
  constructor
  · rintro ⟨h, -⟩ hslip
    obtain ⟨t, ht, hnot⟩ := hslip.unescapes
    obtain ⟨t', ht', heq⟩ := h [] t none (xmlUnescape_ok_iff.mpr ⟨t, ht, rfl⟩)
    rw [show t = t' from heq] at hnot
    exact hnot ht'
  · intro hno
    have hreplaced : ∀ (dest out : List UInt8) (cconv : XmlCharset),
        xmlUnescape dest s cconv = .ok out →
          ∃ t, XmlReplaced s t ∧ out = xmlApplyCharset (dest ++ t) cconv := by
      intro dest out cconv h
      obtain ⟨t, ht, rfl⟩ := xmlUnescape_ok_iff.mp h
      exact ⟨t, ht.replaced hno, rfl⟩
    refine ⟨hreplaced, fun ds cs out hs h => ?_⟩
    obtain ⟨t, ht, rfl⟩ := hreplaced _ _ _ h
    rw [hs] at ht
    obtain ⟨cs', rfl⟩ := ht.utf8 cs.length cs le_rfl
    exact ⟨ds ++ cs', (utf8Bytes_append ds cs').symm⟩

/-- The reference `&#xD800;` to a surrogate is accepted. -/
theorem xmlUnescape_references_fails : ∃ s : List UInt8,
    s = [0x26, 0x23, 0x78, 0x44, 0x38, 0x30, 0x30, 0x3B] ∧
      xmlUnescape [] s none = .ok [0xED, 0xA0, 0x80] ∧ ∀ t, ¬XmlReplaced s t := by
  have hm : XmlRadix [0x78] 16 := .hex (.inl rfl)
  have hpad : XmlPadding 16 [] := .mk (w := []) (by simp) (.inl rfl) (.inl rfl)
  have hds : XmlDigits 16 [0x44, 0x38, 0x30, 0x30] :=
    ⟨by simp, List.all_eq_true.mp rfl⟩
  have hslip : XmlSlip [0x23, 0x78, 0x44, 0x38, 0x30, 0x30] :=
    .mk hm hpad hds (by decide) (by decide) (.inr (by decide))
  have hok : xmlReference [0x23, 0x78, 0x44, 0x38, 0x30, 0x30] = .ok [0xED, 0xA0, 0x80] :=
    xmlReference_number hm hpad hds (by decide) (by decide)
  refine ⟨_, rfl, xmlUnescape_ok_iff.mpr ⟨[] ++ [0xED, 0xA0, 0x80] ++ [],
    .reference (u := []) (s := []) (by simp)
      (by simp) (by decide) (by decide) (by decide) hok (.rest (by simp)), rfl⟩, fun t h => ?_⟩
  have hname : 0x3B ∉ ([0x23, 0x78, 0x44, 0x38, 0x30, 0x30] : List UInt8) := by decide
  obtain ⟨c, -, hc, -⟩ := XmlReplaced.of_name (s := []) hname h
  exact hslip.not_reference hc

end LibCmutils
