import LibCmutils.Lib.CString

/-!
Functions of `CMUTIL_String` and the string helpers (`src/strings.c`) on the bytes of a
string.

* `stringSelfTrim`: white space is cut at both ends. The right end is cut with
  `strchr`, so NUL bytes are cut there too, and the first byte is left for the left end.
  `stringSelfTrim_pad` is the plain case.
* `strRTrim`, `strLTrim`, `strTrim`, `strSkipSpaces`: the same on plain C strings.
* `stringHexToBytes`: pairs of hexadecimal digits.
* `stringCreateInternal`: the one creation function of strings, `none` for `NULL`.
* `Iconv`, `csConvConv`: charset conversion over the `iconv` of the system.
-/

namespace LibCmutils

/-- `SPACES`, the characters of `" \r\n\t"`. -/
def spaces : List UInt8 := [0x20, 0x0D, 0x0A, 0x09]

/-- The right trim of `CMUTIL_StringSelfTrim`, on the bytes from the last one
down. -/
def selfTrimRight : List UInt8 → List UInt8
  | [] => []
  | [c] => [c]
  | c :: s => if strchr spaces c then selfTrimRight s else c :: s

/-- `CMUTIL_StringSelfTrim`. -/
def stringSelfTrim (s : List UInt8) : List UInt8 :=
  (selfTrimRight s.reverse).reverse.dropWhile fun c => strchr spaces c && c != 0

/-- `CMUTIL_StrRTrim`, which leaves the first byte. -/
def strRTrim (inp : List UInt8) : List UInt8 := (selfTrimRight inp.reverse).reverse

/-- `CMUTIL_StrLTrim`. -/
def strLTrim (inp : List UInt8) : List UInt8 := inp.dropWhile fun c => strchr spaces c && c != 0

/-- `CMUTIL_StrTrim`. -/
def strTrim (inp : List UInt8) : List UInt8 := strLTrim (strRTrim inp)

/-- `CMUTIL_StrSkipSpaces`. -/
def strSkipSpaces (line set : List UInt8) : List UInt8 :=
  line.dropWhile fun c => c != 0 && strchr set c

/-- `CMUTIL_StringHexChar`, `none` for a negative result. -/
def stringHexChar (inp : UInt8) : Option UInt8 :=
  let ic := toupper inp
  if 0x41 ≤ ic ∧ ic ≤ 0x46 then some (10 + (ic - 0x41))
  else if 0x30 ≤ ic ∧ ic ≤ 0x39 then some (ic - 0x30)
  else none

/-- The loop of `CMUTIL_StringHexToBytes` over `pairs` pairs of digits. The end of the
source, a NUL, is padded with `0xFF` and not passed. -/
def hexPairsToBytes : ℕ → List UInt8 → Option (List UInt8)
  | 0, _ => some []
  | pairs + 1, src => do
      if src.headD 0 = 0 then
        let rest ← hexPairsToBytes pairs src
        some (0xFF :: rest)
      else
        let hi ← stringHexChar (src.headD 0)
        let lo ← stringHexChar (src.tail.headD 0)
        let rest ← hexPairsToBytes pairs (src.drop 2)
        some ((hi <<< 4 ||| lo) :: rest)

/-- `CMUTIL_StringHexToBytes`: an odd length puts the first digit in a byte of its
own. -/
def stringHexToBytes (src : List UInt8) (len : ℕ) : Option (List UInt8) :=
  if len % 2 = 1 then do
    let lo ← stringHexChar (src.headD 0)
    let rest ← hexPairsToBytes (len / 2) src.tail
    some (lo :: rest)
  else hexPairsToBytes (len / 2) src

/-! ### Creation and charset conversion -/

/-- `CMUTIL_StringCreateInternal` when memory does not run out: a string without room and
without content is not created. -/
def stringCreateInternal (initcapacity : ℕ) (initcontent : Option CString) :
    Option (List UInt8) :=
  match initcontent with
  | some content => some content.1
  | none => if initcapacity = 0 then none else some []

/-- `iconv` as the system has it: `iconv_open` of a target and a source charset, `none` for
`-1`, and the bytes that `iconv` writes for an input into a buffer of the given size,
`none` for `-1`. -/
structure Iconv where
  iconv : CString → CString → Option (List UInt8 → ℕ → Option (List UInt8))

/-- `CMUTIL_CSConvConv`. -/
def csConvConv (ic : Iconv) (instr : List UInt8) (frcs tocs : CString) : Option (List UInt8) := do
  let convert ← ic.iconv tocs frcs
  let outsz := instr.length * 2
  if 0 < outsz then do
    let _ ← stringCreateInternal outsz none
    convert instr outsz
  else none

/-! ### Trimming -/

lemma selfTrimRight_pad {ws s : List UInt8} (hws : ∀ c ∈ ws, strchr spaces c = true)
    (hs : ∀ c ∈ s.head?, strchr spaces c = false) (hne : s ≠ []) :
    selfTrimRight (ws ++ s) = s := by
  induction ws with
  | nil =>
      cases s with
      | nil => exact absurd rfl hne
      | cons c s =>
          have hc : strchr spaces c = false := hs c (by simp)
          cases s with
          | nil => rfl
          | cons d s => simp [selfTrimRight, hc]
  | cons c ws ih =>
      have hc := hws c (by simp)
      obtain ⟨d, t, ht⟩ := List.exists_cons_of_ne_nil (l := ws ++ s) (by simp [hne])
      rw [List.cons_append, ht, selfTrimRight, if_pos hc, ← ht]
      · exact ih fun c hc => hws c (by simp [hc])
      · simp

/-- White space around a text that neither begins nor ends with it is cut. -/
lemma stringSelfTrim_pad {pre s post : List UInt8}
    (hpre : ∀ c ∈ pre, strchr spaces c = true ∧ c ≠ 0) (hpost : ∀ c ∈ post, strchr spaces c = true)
    (hhead : ∀ c ∈ s.head?, strchr spaces c = false)
    (hlast : ∀ c ∈ s.getLast?, strchr spaces c = false) (hne : s ≠ []) :
    stringSelfTrim (pre ++ s ++ post) = s := by
  have hright : selfTrimRight (pre ++ s ++ post).reverse = (pre ++ s).reverse := by
    rw [List.reverse_append]
    refine selfTrimRight_pad (fun c hc => hpost c (List.mem_reverse.mp hc)) ?_ (by simp [hne])
    rw [List.head?_reverse, List.getLast?_append_of_ne_nil _ hne]
    exact hlast
  obtain ⟨c, t, rfl⟩ := List.exists_cons_of_ne_nil hne
  have hc : strchr spaces c = false := hhead c (by simp)
  have hdrop : ∀ l : List UInt8, (∀ c ∈ l, strchr spaces c = true ∧ c ≠ 0) →
      (l ++ c :: t).dropWhile (fun c => strchr spaces c && c != 0) = c :: t := by
    intro l hl
    induction l with
    | nil => simp [hc]
    | cons d l ih =>
        have hd := hl d (by simp)
        rw [List.cons_append, List.dropWhile_cons_of_pos (by simp [hd.1, hd.2])]
        exact ih fun c hc => hl c (by simp [hc])
  rw [stringSelfTrim, hright, List.reverse_reverse, hdrop pre hpre]

/-- White space at the end makes no difference. -/
lemma stringSelfTrim_append {s : List UInt8} : ∀ {w : List UInt8},
    (∀ c ∈ w, strchr spaces c = true ∧ c ≠ 0) → stringSelfTrim (s ++ w) = stringSelfTrim s := by
  intro w
  induction w using List.reverseRecOn with
  | nil => intro _; rw [List.append_nil]
  | append_singleton w c ih =>
      intro hw
      obtain ⟨hc, hzero⟩ := hw c (by simp)
      rw [← ih fun e he => hw e (by simp [he]), ← List.append_assoc, stringSelfTrim,
        List.reverse_append, List.reverse_singleton, List.singleton_append]
      cases hsw : (s ++ w).reverse with
      | nil =>
          rw [stringSelfTrim, hsw]
          simp [selfTrimRight, hc, hzero]
      | cons d t =>
          rw [selfTrimRight, if_pos hc, ← hsw, stringSelfTrim]
          simp

end LibCmutils
