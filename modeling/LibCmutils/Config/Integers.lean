import LibCmutils.Config.Basic
import LibCmutils.Lib.Block
import LibCmutils.Lib.CNumber

/-!
Integers in a configuration (`src/config.c`).

* `configSetLong`, `configGetLong`: a `long` is printed into a buffer on the stack and set
  as the value of the key, and it is read back from the text.
* `length_printInt_le_iff`: which numbers are printed in a given length.

The main result is `configLong_iff`.
-/

namespace LibCmutils

/-- `CMUTIL_ConfigGetLong`, with a `long` of 64 bits. -/
def configGetLong (conf : Config) (key : CString) : ℤ :=
  match configGet conf key with
  | some v => ((strtoll 10 v.1).map Prod.fst).getD 0
  | none => 0

/-- `CMUTIL_ConfigSetLong`, `none` when `sprintf` writes behind the end of `buf`. What `buf`
holds on entry is left over on the stack. -/
def configSetLong (conf : Config) (buf : List.Vector UInt8 20) (key : CString) (value : Int64) :
    Option Config :=
  (blockWrite buf.toList 0 (printInt value.toInt ++ [0])).map fun buf =>
    configSet conf key (CString.ofBytes buf)

/-! ### The text of a long -/

lemma clampInt64_toInt (v : Int64) : clampInt64 v.toInt = v.toInt := by
  have hle := v.le_toInt
  have hlt := v.toInt_lt
  rw [clampInt64]
  omega

/-- The sign of a negative number takes one character. -/
lemma length_printInt_le_iff {n : ℤ} {k : ℕ} (hk : 0 < k) :
    (printInt n).length ≤ k + 1 ↔ -10 ^ k < n ∧ n < 10 ^ (k + 1) := by
  have hpow : (0 : ℤ) < 10 ^ k := by positivity
  have hpow' : (0 : ℤ) < 10 ^ (k + 1) := by positivity
  rw [printInt]
  split
  next hn =>
    have habs : n.natAbs < 10 ^ k ↔ -10 ^ k < n := by
      zify
      rw [abs_of_neg hn]
      omega
    rw [List.length_cons, Nat.add_le_add_iff_right, length_decimal_le_iff hk, habs]
    omega
  next hn =>
    have habs : n.natAbs < 10 ^ (k + 1) ↔ n < 10 ^ (k + 1) := by
      zify
      rw [abs_of_nonneg (by omega)]
    rw [length_decimal_le_iff (Nat.succ_pos k), habs]
    omega

/-- A text that is written with its terminator is the string in the buffer. -/
lemma ofBytes_append_zero {s : List UInt8} (hs : (0 : UInt8) ∉ s) (rest : List UInt8) :
    CString.ofBytes (s ++ 0 :: rest) = ⟨s, hs⟩ := by
  refine Subtype.ext ?_
  have hall : ∀ c ∈ s, (c != 0) = true := fun c hc => bne_iff_ne.mpr fun h => hs (h ▸ hc)
  calc (s ++ 0 :: rest).takeWhile (· != 0)
      = s ++ (0 :: rest).takeWhile (· != 0) := List.takeWhile_append_of_pos hall
    _ = s := by rw [List.takeWhile_cons_of_neg (by decide), List.append_nil]

/-! ### Setting and getting -/

lemma configGet_configSet (conf : Config) (key value : CString) :
    configGet (configSet conf key value) key = some value := by
  rw [configGet, configSet]
  cases conf.confs.get key with
  | none => exact OrderedMap.get_put_self _ _ _
  | some prev => exact OrderedMap.get_put_self _ _ _

/-- A call that stays in its buffer sets the printed value. -/
lemma configSetLong_eq (conf : Config) (buf : List.Vector UInt8 20) (key : CString)
    (value : Int64) : configSetLong conf buf key value =
      if -10 ^ 18 < value.toInt then
        some (configSet conf key ⟨printInt value.toInt, zero_notMem_printInt _⟩)
      else none := by
  have hlt := value.toInt_lt
  have hlen := length_printInt_le_iff (n := value.toInt) (k := 18) (by norm_num)
  have hbuf := buf.toList_length
  rw [configSetLong, blockWrite, List.length_append, List.length_singleton, hbuf]
  split
  next hfits =>
    rw [if_pos (hlen.mp (by omega)).1, List.take_zero, List.nil_append, Option.map_some,
      List.append_assoc, List.singleton_append, ofBytes_append_zero (zero_notMem_printInt _)]
  next hover =>
    rw [if_neg fun hgt => hover (by have := hlen.mpr ⟨hgt, by omega⟩; omega), Option.map_none]

/-- What is set is read back. -/
lemma configGetLong_printInt (conf : Config) (key : CString) (value : Int64) :
    configGetLong (configSet conf key ⟨printInt value.toInt, zero_notMem_printInt _⟩) key =
      value.toInt := by
  rw [configGetLong, configGet_configSet]
  simp only [strtoll, scanInt_printInt, Option.map_some, Option.getD_some, clampInt64_toInt]

/-- **Integers.** The text and its terminator stay inside the buffer, and the value comes
back, exactly when the number is above `-10 ^ 18`: a sign and nineteen digits leave no place
for the terminator. -/
theorem configLong_iff (conf : Config) (buf : List.Vector UInt8 20) (key : CString)
    (value : Int64) :
    (∃ conf', configSetLong conf buf key value = some conf' ∧
      configGetLong conf' key = value.toInt) ↔ -10 ^ 18 < value.toInt := by
  rw [configSetLong_eq]
  split
  next hgt => exact iff_of_true ⟨_, rfl, configGetLong_printInt conf key value⟩ hgt
  next hgt =>
    refine iff_of_false ?_ hgt
    rintro ⟨conf', hset, -⟩
    exact absurd hset (by simp)

/-- `LONG_MIN` has twenty characters. -/
theorem configLong_fails : ¬ ∃ conf', configSetLong configCreate (.replicate 20 0)
    ⟨[0x6E], by decide⟩ Int64.minValue = some conf' ∧
      configGetLong conf' ⟨[0x6E], by decide⟩ = Int64.minValue.toInt := by
  rw [configSetLong_eq, if_neg (by decide)]
  rintro ⟨conf', hset, -⟩
  exact absurd hset (by simp)

end LibCmutils
