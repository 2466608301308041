import LibCmutils.String.Basic

/-!
Charset conversion (`CMUTIL_CSConv`, `src/strings.c`).

* `CSConv`, `csConvForward`, `csConvBackward`: a pair of charsets and the conversions between
  them.
* `Iconv.Converts`: what `iconv` makes of an input that it can convert, given room.

The main result is `csConv_iff`: the output is given twice the room of the input.
-/

namespace LibCmutils

/-- `CMUTIL_CSConv_Internal`. -/
structure CSConv where
  frcs : CString
  tocs : CString

/-- `CMUTIL_CSConvForward`. -/
def csConvForward (ic : Iconv) (conv : CSConv) (instr : List UInt8) : Option (List UInt8) :=
  csConvConv ic instr conv.frcs conv.tocs

/-- `CMUTIL_CSConvBackward`. -/
def csConvBackward (ic : Iconv) (conv : CSConv) (instr : List UInt8) : Option (List UInt8) :=
  csConvConv ic instr conv.tocs conv.frcs

/-- `iconv` knows the two charsets, and turns `input` into `converted` where there is room
for all of it; it fails for lack of room otherwise. -/
def Iconv.Converts (ic : Iconv) (tocs frcs : CString) (input converted : List UInt8) : Prop :=
  ∃ convert, ic.iconv tocs frcs = some convert ∧
    ∀ room, convert input room = if converted.length ≤ room then some converted else none

lemma csConvConv_iff {ic : Iconv} {tocs frcs : CString} {input converted : List UInt8}
    (h : ic.Converts tocs frcs input converted) :
    csConvConv ic input frcs tocs = some converted ↔
      0 < input.length ∧ converted.length ≤ input.length * 2 := by
  obtain ⟨convert, hopen, hconvert⟩ := h
  rw [csConvConv, hopen, Option.bind_eq_bind, Option.bind_some]
  by_cases hpos : 0 < input.length * 2
  · have hlen : 0 < input.length := by omega
    have hne : ¬ input.length * 2 = 0 := hpos.ne'
    simp only [hpos, hlen, if_true, stringCreateInternal, hne, if_false, Option.bind_eq_bind,
      Option.bind_some, hconvert, true_and]
    split <;> simp_all
  · have hzero : ¬ 0 < input.length := by omega
    simp [hpos, hzero]

/-- **Charset conversion.** In either direction the result is the converted text exactly when
the input is not empty and the text is at most twice as long. -/
theorem csConv_iff (ic : Iconv) (conv : CSConv) (input converted : List UInt8) :
    (ic.Converts conv.tocs conv.frcs input converted →
      (csConvForward ic conv input = some converted ↔
        0 < input.length ∧ converted.length ≤ input.length * 2)) ∧
    (ic.Converts conv.frcs conv.tocs input converted →
      (csConvBackward ic conv input = some converted ↔
        0 < input.length ∧ converted.length ≤ input.length * 2)) :=
  ⟨csConvConv_iff, csConvConv_iff⟩

/-! ### An example of the system's `iconv` -/

/-- `ISO-8859-15`. -/
def latin9Name : CString :=
  ⟨[0x49, 0x53, 0x4F, 0x2D, 0x38, 0x38, 0x35, 0x39, 0x2D, 0x31, 0x35], by decide⟩

/-- `UTF-8`. -/
def unicodeName : CString := ⟨[0x55, 0x54, 0x46, 0x2D, 0x38], by decide⟩

/-- A character of ISO-8859-15 in UTF-8. -/
def latin9Char (c : UInt8) : List UInt8 :=
  if c = 0xA4 then [0xE2, 0x82, 0xAC]
  else if c = 0xA6 then [0xC5, 0xA0]
  else if c = 0xA8 then [0xC5, 0xA1]
  else if c = 0xB4 then [0xC5, 0xBD]
  else if c = 0xB8 then [0xC5, 0xBE]
  else if c = 0xBC then [0xC5, 0x92]
  else if c = 0xBD then [0xC5, 0x93]
  else if c = 0xBE then [0xC5, 0xB8]
  else if c < 0x80 then [c]
  else [(0xC0 : UInt8) ||| (c >>> 6), (0x80 : UInt8) ||| (c &&& 0x3F)]

/-- The whole text, or nothing without room for it. -/
def latin9Convert (input : List UInt8) (room : ℕ) : Option (List UInt8) :=
  if (input.flatMap latin9Char).length ≤ room then some (input.flatMap latin9Char) else none

/-- An `iconv` that knows these two charsets, in one direction. -/
def latin9Iconv : Iconv where
  iconv tocs frcs := if tocs = unicodeName ∧ frcs = latin9Name then some latin9Convert else none

lemma latin9Iconv_converts (input : List UInt8) :
    latin9Iconv.Converts unicodeName latin9Name input (input.flatMap latin9Char) := by
  have hopen : latin9Iconv.iconv unicodeName latin9Name = some latin9Convert := by
    simp [latin9Iconv]
  exact ⟨latin9Convert, hopen, fun _ => rfl⟩

/-- A small letter with an accent. -/
theorem csConv_iff_accent :
    csConvForward latin9Iconv ⟨latin9Name, unicodeName⟩ [0xE9] = some [0xC3, 0xA9] :=
  ((csConv_iff latin9Iconv ⟨latin9Name, unicodeName⟩ [0xE9] [0xC3, 0xA9]).1
    (latin9Iconv_converts [0xE9])).mpr ⟨by decide, by decide⟩

/-- The euro sign is three bytes long in UTF-8; the empty text has no room at all. -/
theorem csConv_fails :
    latin9Iconv.Converts unicodeName latin9Name [0xA4] [0xE2, 0x82, 0xAC] ∧
      csConvForward latin9Iconv ⟨latin9Name, unicodeName⟩ [0xA4] = none ∧
      latin9Iconv.Converts unicodeName latin9Name [] [] ∧
      csConvForward latin9Iconv ⟨latin9Name, unicodeName⟩ [] = none :=
  ⟨latin9Iconv_converts [0xA4], by decide, latin9Iconv_converts [], by decide⟩

end LibCmutils
