import LibCmutils.Lib.Block
import LibCmutils.String.Basic

/-!
`CMUTIL_String` as a growing block of bytes (`src/strings.c`).

* `StringInternal`: the block, the capacity and the size. A write outside the block has
  no result.
* `StringInternal.addNString`, `insertNString`, `cutTailOff`, `clear`, `clone` and the
  functions over them. `alloc` is the answer of `Realloc`, `none` or what it left in
  every cell of the new block; sizes are far below `2 ^ 63`.
* `StringInternal.Holds`: the block holds a list of bytes and the NUL behind it. Each
  operation has a lemma that says what it makes of the list.
* `StringOp`, `stringStep`: calls on any number of string objects, `stringSpec`: what they
  mean for lists of bytes.
* `stringBuilder_refines`: every call does what it means.
-/

namespace LibCmutils

/-- `CMUTIL_String_Internal`. -/
structure StringInternal where
  data : List UInt8
  capacity : ℕ
  size : ℕ
  deriving DecidableEq

namespace StringInternal

/-- `CMUTIL_StringCheckSize`. -/
def checkSize (alloc : Option (ℕ → UInt8)) (str : StringInternal) (insize : ℕ) :
    StringInternal × Bool :=
  let reqsz := str.size + insize + 1
  if str.capacity < reqsz then
    let newcap := growCap reqsz reqsz (str.capacity * 2)
    match alloc with
    | none => (str, false)
    | some garbage =>
        let fresh := (List.range (newcap - str.data.length)).map garbage
        ({ str with data := str.data.take newcap ++ fresh, capacity := newcap }, true)
  else (str, true)

/-- `CMUTIL_StringAddNString` of as many bytes as the list has. -/
def addNString (alloc : Option (ℕ → UInt8)) (istr : StringInternal)
    (tobeadded : Option (List UInt8)) : Option (StringInternal × ℤ) :=
  match tobeadded with
  | none => some (istr, -1)
  | some bytes =>
      if bytes.length = 0 then some (istr, istr.size)
      else
        match checkSize alloc istr bytes.length with
        | (istr, false) => some (istr, -1)
        | (istr, true) => do
            let data ← blockWrite istr.data istr.size bytes
            let size := istr.size + bytes.length
            let data ← blockWrite data size [0]
            return ({ istr with data := data, size := size }, size)

/-- `CMUTIL_StringAddString`. -/
def addString (alloc : Option (ℕ → UInt8)) (string : StringInternal) (tobeadded : Option CString) :
    Option (StringInternal × ℤ) :=
  match tobeadded with
  | none => some (string, -1)
  | some str => addNString alloc string (some str.1)

/-- `CMUTIL_StringAddChar`. -/
def addChar (alloc : Option (ℕ → UInt8)) (istr : StringInternal) (tobeadded : UInt8) :
    Option (StringInternal × ℤ) :=
  match checkSize alloc istr 1 with
  | (istr, false) => some (istr, -1)
  | (istr, true) => do
      let data ← blockWrite istr.data istr.size [tobeadded]
      let size := istr.size + 1
      let data ← blockWrite data size [0]
      return ({ istr with data := data, size := size }, size)

/-- `CMUTIL_StringInsertNString` of as many bytes as the list has. The `memmove` takes the
NUL along. -/
def insertNString (alloc : Option (ℕ → UInt8)) (istr : StringInternal)
    (tobeadded : Option (List UInt8)) (idx : ℕ) : Option (StringInternal × ℤ) :=
  match tobeadded with
  | none => some (istr, -1)
  | some bytes =>
      if istr.size < idx then some (istr, -1)
      else if bytes.length = 0 then some (istr, istr.size)
      else
        match checkSize alloc istr bytes.length with
        | (istr, false) => some (istr, -1)
        | (istr, true) => do
            let data ← blockMove istr.data (idx + bytes.length) idx (istr.size - idx + 1)
            let data ← blockWrite data idx bytes
            let size := istr.size + bytes.length
            return ({ istr with data := data, size := size }, size)

/-- `CMUTIL_StringInsertString`. -/
def insertString (alloc : Option (ℕ → UInt8)) (string : StringInternal)
    (tobeadded : Option CString) (idx : ℕ) : Option (StringInternal × ℤ) :=
  match tobeadded with
  | none => some (string, -1)
  | some str => insertNString alloc string (some str.1) idx

/-- `GetCString` and `GetSize` of another string: the bytes up to its size. -/
def content (str : StringInternal) : List UInt8 := str.data.take str.size

/-- `CMUTIL_StringAddAnother`. -/
def addAnother (alloc : Option (ℕ → UInt8)) (string : StringInternal)
    (tobeadded : Option StringInternal) : Option (StringInternal × ℤ) :=
  match tobeadded with
  | none => some (string, -1)
  | some other => addNString alloc string (some other.content)

/-- `CMUTIL_StringInsertAnother`. -/
def insertAnother (alloc : Option (ℕ → UInt8)) (string : StringInternal) (idx : ℕ)
    (tobeadded : Option StringInternal) : Option (StringInternal × ℤ) :=
  match tobeadded with
  | none => some (string, -1)
  | some other => insertNString alloc string (some other.content) idx

/-- `CMUTIL_StringCutTailOff`. -/
def cutTailOff (istr : StringInternal) (length : ℕ) : Option StringInternal := do
  let size := if length < istr.size then istr.size - length else 0
  let data ← blockWrite istr.data size [0]
  return { istr with data := data, size := size }

/-- `CMUTIL_StringClear`. -/
def clear (istr : StringInternal) : Option StringInternal := do
  let data ← blockWrite istr.data 0 [0]
  return { istr with data := data, size := 0 }

/-- The answers of the allocator to `CMUTIL_StringCreateInternal`: the record, the block,
and the block that is grown for the content. -/
structure Allocs where
  record : Bool
  block : Option (ℕ → UInt8)
  grown : Option (ℕ → UInt8)

/-- `CMUTIL_StringCreateInternal`; the inner `none` is `NULL`. -/
def createInternal (allocs : Allocs) (initcapacity : ℕ) (initcontent : Option CString) :
    Option (Option StringInternal) :=
  let len := initcontent.elim 0 fun content => content.1.length
  if !allocs.record then some none
  else if initcapacity = 0 ∧ initcontent.isNone then some none
  else
    let capacity := if initcapacity = 0 then len else initcapacity
    match allocs.block with
    | none => some none
    | some garbage => do
        let data ← blockWrite ((List.range (capacity + 1)).map garbage) 0 [0]
        let istr : StringInternal := { data := data, capacity := capacity + 1, size := 0 }
        if len = 0 then return some istr
        else
          let (istr, ir) ← addString allocs.grown istr initcontent
          return if ir < 0 then none else some istr

/-- `CMUTIL_StringClone`, which does not look at the result of `AddNString`. -/
def clone (allocs : Allocs) (istr : StringInternal) : Option (Option StringInternal) := do
  let size := istr.size
  match ← createInternal allocs (if size ≠ 0 then size else 1) none with
  | none => return none
  | some res =>
      if 0 < size then
        let (res, _) ← addNString allocs.grown res (some istr.content)
        return some res
      else return some res

/-! ### The bytes of a string -/

/-- The block holds the bytes of `l`, then a NUL. -/
structure Holds (s : StringInternal) (l : List UInt8) : Prop where
  size_eq : s.size = l.length
  content_eq : s.content = l
  nul : s.data[s.size]? = some 0
  size_lt : s.size < s.capacity
  capacity_eq : s.capacity = s.data.length

variable {s : StringInternal} {l : List UInt8} {alloc : Option (ℕ → UInt8)}

lemma Holds.split (h : Holds s l) : ∃ rest, s.data = l ++ (0 :: rest) := by
  refine ⟨s.data.drop (s.size + 1), ?_⟩
  have hlt : s.size < s.data.length := h.capacity_eq ▸ h.size_lt
  have hnul : s.data[s.size] = 0 := by
    have hget := h.nul
    rw [List.getElem?_eq_getElem hlt] at hget
    exact Option.some.inj hget
  rw [← hnul, ← List.drop_eq_getElem_cons hlt, ← h.content_eq, content, List.take_append_drop]

lemma Holds.of_split (hdata : ∃ rest, s.data = l ++ (0 :: rest)) (hsize : s.size = l.length)
    (hcap : s.capacity = s.data.length) : Holds s l := by
  obtain ⟨rest, hdata⟩ := hdata
  refine ⟨hsize, ?_, ?_, ?_, hcap⟩
  · rw [content, hdata, hsize, List.take_left]
  · rw [hdata, hsize]
    simp
  · rw [hcap, hdata, hsize]
    simp

/-- There is room for `n` more bytes and the NUL, or the allocator makes it. -/
def hasRoom (s : StringInternal) (alloc : Option (ℕ → UInt8)) (n : ℕ) : Bool :=
  s.size + n < s.capacity || alloc.isSome

lemma checkSize_of_room (h : Holds s l) {n : ℕ} (hroom : s.hasRoom alloc n) :
    ∃ s', checkSize alloc s n = (s', true) ∧ Holds s' l ∧ l.length + n < s'.capacity := by
  rw [checkSize]
  by_cases hcap : s.capacity < s.size + n + 1
  · simp only [hcap, if_true]
    have hsome : alloc.isSome := by
      simp only [hasRoom, Bool.or_eq_true, decide_eq_true_eq] at hroom
      exact hroom.resolve_left (by omega)
    obtain ⟨garbage, rfl⟩ := Option.isSome_iff_exists.mp hsome
    have hlt := h.size_lt
    have hgrow := @le_growCap (s.size + n + 1) (s.size + n + 1) (s.capacity * 2) (by omega)
      (by omega)
    have hsize := h.size_eq
    have hlen := h.capacity_eq
    obtain ⟨rest, hrest⟩ := h.split
    refine ⟨_, rfl, Holds.of_split ⟨rest ++ (List.range (growCap (s.size + n + 1)
      (s.size + n + 1) (s.capacity * 2) - s.data.length)).map garbage, ?_⟩ hsize ?_,
      by simp only; omega⟩
    · rw [List.take_of_length_le (by omega), hrest, List.append_assoc, List.cons_append]
    · simp only [List.length_append, List.length_take, List.length_map, List.length_range]
      omega
  · simp only [hcap, if_false]
    exact ⟨s, rfl, h, by rw [← h.size_eq]; omega⟩

/-- With room, the bytes behind the text are enough for the new ones. -/
lemma checkSize_split (h : Holds s l) {n : ℕ} (hroom : s.hasRoom alloc n) :
    ∃ s' rest, checkSize alloc s n = (s', true) ∧ Holds s' l ∧ s'.data = l ++ (0 :: rest) ∧
      n ≤ rest.length := by
  obtain ⟨s', hcheck, h', hcap⟩ := checkSize_of_room h hroom
  obtain ⟨rest, hrest⟩ := h'.split
  refine ⟨s', rest, hcheck, h', hrest, ?_⟩
  rw [h'.capacity_eq, hrest, List.length_append, List.length_cons] at hcap
  omega

lemma checkSize_of_full {n : ℕ} (hroom : ¬ s.hasRoom alloc n) :
    checkSize alloc s n = (s, false) := by
  have hfull : s.capacity ≤ s.size + n ∧ alloc = none := by simpa [hasRoom] using hroom
  have hcap : s.capacity < s.size + n + 1 := by omega
  simp only [checkSize, hcap, if_true, hfull.2]

/-- What an insertion at `idx` means: NULL, a place past the end and a block that cannot
grow are refused. -/
def splice (room : Bool) (l : List UInt8) (idx : ℕ) (tobeadded : Option (List UInt8)) :
    List UInt8 × ℤ :=
  match tobeadded with
  | none => (l, -1)
  | some bytes =>
      if idx ≤ l.length ∧ room then (l.take idx ++ bytes ++ l.drop idx, l.length + bytes.length)
      else (l, -1)

/-- Bytes written over the NUL, and a NUL behind them. -/
lemma blockWrite_end (l : List UInt8) {rest bytes : List UInt8} (hroom : bytes.length ≤ rest.length) :
    ∃ mid rest', blockWrite (l ++ (0 :: rest)) l.length bytes = some mid ∧
      blockWrite mid (l.length + bytes.length) [0] = some ((l ++ bytes) ++ (0 :: rest')) ∧
      ((l ++ bytes) ++ (0 :: rest')).length = (l ++ (0 :: rest)).length := by
  have htake : ((0 :: rest).take bytes.length).length = bytes.length := by simp; omega
  have hwrite := blockWrite_append l _ ((0 :: rest).drop bytes.length) _ htake
  rw [List.take_append_drop] at hwrite
  obtain ⟨c, tl, hdrop⟩ : ∃ c tl, (0 :: rest).drop bytes.length = c :: tl :=
    List.exists_cons_of_ne_nil fun hnil => by
      have := congrArg List.length hnil
      simp at this
      omega
  have hlen : ((0 :: rest).drop bytes.length).length = tl.length + 1 := by rw [hdrop]; rfl
  rw [List.length_drop, List.length_cons] at hlen
  refine ⟨_, tl, hwrite, ?_, ?_⟩
  · have hnul := blockWrite_append (l ++ bytes) [c] tl [0] rfl
    rw [hdrop, ← List.append_assoc, ← List.length_append]
    exact hnul
  · simp only [List.length_append, List.length_cons]
    omega

/-- `AddNString` inserts at the end. -/
lemma addNString_spec (h : Holds s l) (tobeadded : Option (List UInt8)) :
    ∃ s', addNString alloc s tobeadded = some (s',
        (splice (s.hasRoom alloc (tobeadded.getD []).length) l l.length tobeadded).2) ∧
      Holds s' (splice (s.hasRoom alloc (tobeadded.getD []).length) l l.length tobeadded).1 := by
  cases tobeadded with
  | none => exact ⟨s, rfl, h⟩
  | some bytes =>
      simp only [addNString, splice, Option.getD_some, le_refl, true_and, List.take_length,
        List.drop_length, List.append_nil]
      by_cases hzero : bytes.length = 0
      · have hroom : s.hasRoom alloc bytes.length := by simp [hasRoom, hzero, h.size_lt]
        rw [if_pos hzero, if_pos hroom]
        obtain rfl := List.length_eq_zero_iff.mp hzero
        exact ⟨s, by simp [h.size_eq], by simpa using h⟩
      · rw [if_neg hzero]
        by_cases hroom : s.hasRoom alloc bytes.length
        · obtain ⟨s', rest, hcheck, h', hrest, hn⟩ := checkSize_split h hroom
          obtain ⟨mid, rest', hwrite, hnul, hsame⟩ := blockWrite_end l hn
          rw [← hrest, ← h'.size_eq] at hwrite
          rw [← h'.size_eq] at hnul
          rw [if_pos hroom, hcheck]
          refine ⟨{ s' with data := (l ++ bytes) ++ (0 :: rest'),
                            size := s'.size + bytes.length }, ?_, ?_⟩
          · simp only [hwrite, hnul, Option.bind_eq_bind, Option.bind_some]
            simp [h'.size_eq]
          · refine Holds.of_split ⟨rest', rfl⟩ ?_ ?_
            · simp [h'.size_eq]
            · rw [hsame, ← hrest]
              exact h'.capacity_eq
        · rw [checkSize_of_full hroom, if_neg hroom]
          exact ⟨s, rfl, h⟩

/-- With room, `AddNString` adds the bytes. -/
lemma addNString_of_room (h : Holds s l) {bytes : List UInt8}
    (hroom : s.hasRoom alloc bytes.length) :
    ∃ s', addNString alloc s (some bytes) = some (s', ((l ++ bytes).length : ℤ)) ∧
      Holds s' (l ++ bytes) := by
  obtain ⟨s', hadd, h'⟩ := @addNString_spec _ _ alloc h (some bytes)
  rw [Option.getD_some, hroom] at hadd h'
  refine ⟨s', ?_, by simpa [splice] using h'⟩
  rw [hadd]
  simp [splice]

lemma addChar_eq (c : UInt8) : addChar alloc s c = addNString alloc s (some [c]) := rfl

/-- `InsertNString`. -/
lemma insertNString_spec (h : Holds s l) (tobeadded : Option (List UInt8)) (idx : ℕ) :
    ∃ s', insertNString alloc s tobeadded idx = some (s',
        (splice (s.hasRoom alloc (tobeadded.getD []).length) l idx tobeadded).2) ∧
      Holds s' (splice (s.hasRoom alloc (tobeadded.getD []).length) l idx tobeadded).1 := by
  cases tobeadded with
  | none => exact ⟨s, rfl, h⟩
  | some bytes =>
      simp only [insertNString, splice, Option.getD_some]
      by_cases hidx : idx ≤ l.length
      · have hnlt : ¬ s.size < idx := by rw [h.size_eq]; omega
        rw [if_neg hnlt]
        by_cases hzero : bytes.length = 0
        · have hroom : s.hasRoom alloc bytes.length := by simp [hasRoom, hzero, h.size_lt]
          rw [if_pos hzero, if_pos ⟨hidx, hroom⟩]
          obtain rfl := List.length_eq_zero_iff.mp hzero
          exact ⟨s, by simp [h.size_eq], by simpa using h⟩
        · rw [if_neg hzero]
          by_cases hroom : s.hasRoom alloc bytes.length
          · obtain ⟨s', rest, hcheck, h', hrest, hn⟩ := checkSize_split h hroom
            rw [if_pos ⟨hidx, hroom⟩, hcheck]
            -- the tail moves together with the NUL
            obtain ⟨pre, post, rfl, rfl⟩ : ∃ pre post, l = pre ++ post ∧ idx = pre.length :=
              ⟨l.take idx, l.drop idx, by simp, by simp [hidx]⟩
            have hsplit : s'.data = pre ++ ((post ++ [0]) ++ rest) := by rw [hrest]; simp
            have hmove := blockMove_write pre (post ++ [0]) hn
            obtain ⟨mid, hmid, hwrite⟩ := Option.bind_eq_some_iff.mp hmove
            have hcount : s'.size - pre.length + 1 = (post ++ [0]).length := by
              simp [h'.size_eq]
            refine ⟨{ s' with data := pre ++ (bytes ++ ((post ++ [0]) ++ rest.drop bytes.length)),
                              size := s'.size + bytes.length }, ?_, ?_⟩
            · simp only [hsplit, hcount, hmid, hwrite, Option.bind_eq_bind, Option.bind_some]
              simp [h'.size_eq]
            · refine Holds.of_split ⟨rest.drop bytes.length, ?_⟩ ?_ ?_
              · simp
              · simp [h'.size_eq]
                omega
              · rw [h'.capacity_eq, hsplit]
                simp only [List.length_append, List.length_drop]
                omega
          · rw [checkSize_of_full hroom, if_neg fun hc => hroom hc.2]
            exact ⟨s, rfl, h⟩
      · have hlt : s.size < idx := by rw [h.size_eq]; omega
        rw [if_pos hlt, if_neg fun hc => hidx hc.1]
        exact ⟨s, rfl, h⟩

lemma cutTailOff_spec (h : Holds s l) (length : ℕ) :
    ∃ s', cutTailOff s length = some s' ∧ Holds s' (l.take (l.length - length)) := by
  obtain ⟨rest, hrest⟩ := h.split
  have hsize : (if length < s.size then s.size - length else 0) = l.length - length := by
    rw [h.size_eq]
    split <;> omega
  obtain ⟨c, tl, hdrop⟩ : ∃ c tl, l.drop (l.length - length) ++ (0 :: rest) = c :: tl :=
    List.exists_cons_of_ne_nil (by simp)
  have hlen : (l.take (l.length - length)).length = l.length - length := by simp
  have hdata : s.data = l.take (l.length - length) ++ ([c] ++ tl) := by
    rw [hrest, List.singleton_append, ← hdrop, ← List.append_assoc, List.take_append_drop]
  have hwrite := blockWrite_append (l.take (l.length - length)) [c] tl [0] rfl
  rw [← hdata, hlen] at hwrite
  refine ⟨{ s with data := l.take (l.length - length) ++ ([0] ++ tl), size := l.length - length },
    ?_, Holds.of_split ⟨tl, rfl⟩ hlen.symm ?_⟩
  · simp only [cutTailOff, hsize, hwrite, Option.bind_eq_bind, Option.bind_some]
    rfl
  · rw [h.capacity_eq, hdata]
    simp

lemma clear_spec (h : Holds s l) : ∃ s', clear s = some s' ∧ Holds s' [] := by
  have hcut := cutTailOff_spec h s.size
  have heq : cutTailOff s s.size = clear s := by simp [cutTailOff, clear]
  rwa [heq, h.size_eq, Nat.sub_self, List.take_zero] at hcut

/-- An empty string with room for `capacity` bytes. -/
lemma holds_new (garbage : ℕ → UInt8) (capacity : ℕ) :
    ∃ data, blockWrite ((List.range (capacity + 1)).map garbage) 0 [0] = some data ∧
      Holds { data := data, capacity := capacity + 1, size := 0 } [] := by
  have hblock : (List.range (capacity + 1)).map garbage =
      [] ++ ([garbage 0] ++ ((List.range capacity).map Nat.succ).map garbage) := by
    rw [List.range_succ_eq_map]
    rfl
  have hwrite := blockWrite_append [] [garbage 0]
    (((List.range capacity).map Nat.succ).map garbage) [0] rfl
  rw [hblock]
  exact ⟨_, hwrite, Holds.of_split ⟨_, rfl⟩ rfl (by simp)⟩

/-- When `CMUTIL_StringCreateInternal` does not return `NULL`: there is memory, a capacity or
a content, and a block for the content. -/
def creates (allocs : Allocs) (initcapacity : ℕ) (initcontent : Option CString) : Bool :=
  let len := initcontent.elim 0 fun content => content.1.length
  allocs.record && allocs.block.isSome && (initcapacity != 0 || initcontent.isSome) &&
    (len ≤ (if initcapacity = 0 then len else initcapacity) || allocs.grown.isSome)

/-- An empty string is created with the capacity asked for. -/
lemma createInternal_none (allocs : Allocs) {initcapacity : ℕ} (hcap : initcapacity ≠ 0) :
    ∃ res, createInternal allocs initcapacity none = some res ∧
      (∀ s, res = some s → Holds s [] ∧ s.capacity = initcapacity + 1) ∧
      res.isSome = (allocs.record && allocs.block.isSome) := by
  obtain ⟨record, block, grown⟩ := allocs
  cases record with
  | false => exact ⟨none, rfl, nofun, rfl⟩
  | true =>
      cases block with
      | none => exact ⟨none, by simp [createInternal, hcap], nofun, rfl⟩
      | some garbage =>
          obtain ⟨data, hwrite, hholds⟩ := holds_new garbage initcapacity
          refine ⟨some { data := data, capacity := initcapacity + 1, size := 0 }, ?_, ?_, rfl⟩
          · simp [createInternal, hcap, hwrite]
          · rintro s ⟨⟩
            exact ⟨hholds, rfl⟩

/-- With memory, an empty string with room for the capacity asked for. -/
lemma createInternal_served {allocs : Allocs} (hmem : allocs.record && allocs.block.isSome)
    {initcapacity : ℕ} (hcap : initcapacity ≠ 0) :
    ∃ s, createInternal allocs initcapacity none = some (some s) ∧ Holds s [] ∧
      s.capacity = initcapacity + 1 ∧ ∀ alloc n, n ≤ initcapacity → s.hasRoom alloc n := by
  obtain ⟨res, hcreate, hholds, hsome⟩ := createInternal_none allocs hcap
  obtain ⟨s, rfl⟩ := Option.isSome_iff_exists.mp (hsome.trans hmem)
  obtain ⟨hempty, hcapacity⟩ := hholds s rfl
  refine ⟨s, hcreate, hempty, hcapacity, fun alloc n hn => ?_⟩
  rw [hasRoom, hempty.size_eq, hcapacity, Bool.or_eq_true, decide_eq_true_eq, List.length_nil]
  omega

/-- `CMUTIL_StringCreateInternal`. -/
lemma createInternal_spec (allocs : Allocs) (initcapacity : ℕ) (initcontent : Option CString) :
    ∃ res, createInternal allocs initcapacity initcontent = some res ∧
      (∀ s, res = some s → Holds s (initcontent.elim [] Subtype.val)) ∧
      res.isSome = creates allocs initcapacity initcontent := by
  cases initcontent with
  | none =>
      by_cases hcap : initcapacity = 0
      · refine ⟨none, ?_, nofun, by simp [creates, hcap]⟩
        cases hrecord : allocs.record <;> simp [createInternal, hcap, hrecord]
      · obtain ⟨res, hres, hholds, hsome⟩ := createInternal_none allocs hcap
        refine ⟨res, hres, fun s hs => (hholds s hs).1, ?_⟩
        rw [hsome]
        simp [creates, hcap]
  | some content =>
      obtain ⟨record, block, grown⟩ := allocs
      cases record with
      | false => exact ⟨none, rfl, nofun, rfl⟩
      | true =>
          cases block with
          | none => exact ⟨none, by simp [createInternal], nofun, rfl⟩
          | some garbage =>
              obtain ⟨capacity, hcapacity⟩ : ∃ capacity,
                  capacity = if initcapacity = 0 then content.1.length else initcapacity := ⟨_, rfl⟩
              obtain ⟨data, hwrite, hholds⟩ := holds_new garbage capacity
              have hnew : createInternal ⟨true, some garbage, grown⟩ initcapacity (some content) =
                  if content.1.length = 0 then some (some ⟨data, capacity + 1, 0⟩)
                  else (addNString grown ⟨data, capacity + 1, 0⟩ (some content.1)).map fun r =>
                    if r.2 < 0 then none else some r.1 := by
                have hnull : ¬ (initcapacity = 0 ∧ (some content).isNone) := by simp
                simp only [createInternal, Option.elim_some, Bool.not_true, hnull, ← hcapacity,
                  hwrite, Bool.false_eq_true, if_false, Option.bind_eq_bind, Option.bind_some,
                  addString]
                split
                · rfl
                · rw [Option.map_eq_bind]
                  rfl
              by_cases hlen : content.1.length = 0
              · rw [if_pos hlen] at hnew
                refine ⟨_, hnew, ?_, by simp [creates, hlen]⟩
                rintro s ⟨⟩
                have hnil : content.1 = [] := List.length_eq_zero_iff.mp hlen
                rw [Option.elim_some, hnil]
                exact hholds
              · obtain ⟨s', hadd, h'⟩ := @addNString_spec _ _ grown hholds (some content.1)
                rw [if_neg hlen, hadd] at hnew
                have hroom : creates ⟨true, some garbage, grown⟩ initcapacity (some content) =
                    (hasRoom ⟨data, capacity + 1, 0⟩ grown content.1.length) := by
                  simp [creates, hasRoom, ← hcapacity]
                rw [hroom]
                rw [Option.getD_some] at hnew h'
                cases hr : hasRoom ⟨data, capacity + 1, 0⟩ grown content.1.length with
                | false =>
                    refine ⟨none, ?_, nofun, rfl⟩
                    rw [hnew, hr]
                    rfl
                | true =>
                    rw [hr] at h'
                    refine ⟨some s', ?_, ?_, rfl⟩
                    · rw [hnew, hr]
                      simp [splice]
                    · rintro s ⟨⟩
                      simpa [splice] using h'

/-- `CMUTIL_StringClone`: a string with the same bytes, or `NULL` without memory. -/
lemma clone_spec (h : Holds s l) (allocs : Allocs) :
    ∃ res, clone allocs s = some res ∧ (∀ s', res = some s' → Holds s' l) ∧
      res.isSome = (allocs.record && allocs.block.isSome) := by
  have hcap : (if s.size ≠ 0 then s.size else 1) ≠ 0 := by split <;> omega
  obtain ⟨res, hres, hholds, hsome⟩ := createInternal_none allocs hcap
  cases res with
  | none => exact ⟨none, by simp only [clone, hres]; rfl, nofun, hsome⟩
  | some res =>
      obtain ⟨h₀, hcapacity⟩ := hholds res rfl
      by_cases hzero : s.size = 0
      · obtain rfl : l = [] := List.length_eq_zero_iff.mp (h.size_eq ▸ hzero)
        refine ⟨some res, ?_, ?_, hsome⟩
        · have hpos : ¬ 0 < s.size := by omega
          simp only [clone, hres, Option.bind_eq_bind, Option.bind_some, hpos, if_false]
          rfl
        · rintro s' ⟨⟩
          exact h₀
      · obtain ⟨s', hadd, h'⟩ := @addNString_spec _ _ allocs.grown h₀ (some s.content)
        have hroom : res.hasRoom allocs.grown s.content.length := by
          have hlen : s.content.length = s.size := by rw [h.content_eq, h.size_eq]
          have hres₀ : res.size = 0 := h₀.size_eq
          simp [hasRoom, hcapacity, hlen, hzero, hres₀]
        refine ⟨some s', ?_, ?_, hsome⟩
        · have hpos : 0 < s.size := Nat.pos_of_ne_zero hzero
          simp only [clone, hres, Option.bind_eq_bind, Option.bind_some, hpos, if_true, hadd]
          rfl
        · rintro t ⟨⟩
          rw [Option.getD_some, hroom, h.content_eq] at h'
          simpa [splice] using h'

end StringInternal

/-! ### Calls on string objects -/

variable {ι : Type}

/-- A call on string objects, named by `ι`. -/
inductive StringOp (ι : Type) where
  | create (str : ι) (initcapacity : ℕ) (initcontent : Option CString)
      (allocs : StringInternal.Allocs)
  | addString (str : ι) (tobeadded : Option CString) (alloc : Option (ℕ → UInt8))
  | addNString (str : ι) (tobeadded : Option (List UInt8)) (alloc : Option (ℕ → UInt8))
  | addChar (str : ι) (tobeadded : UInt8) (alloc : Option (ℕ → UInt8))
  | addAnother (str : ι) (tobeadded : Option ι) (alloc : Option (ℕ → UInt8))
  | insertString (str : ι) (tobeadded : Option CString) (idx : ℕ) (alloc : Option (ℕ → UInt8))
  | insertNString (str : ι) (tobeadded : Option (List UInt8)) (idx : ℕ)
      (alloc : Option (ℕ → UInt8))
  | insertAnother (str : ι) (idx : ℕ) (tobeadded : Option ι) (alloc : Option (ℕ → UInt8))
  | cutTailOff (str : ι) (length : ℕ)
  | clear (str : ι)
  | clone (str res : ι) (allocs : StringInternal.Allocs)

/-- What a call returns: a number, nothing, or whether a string was created. -/
inductive StringOut where
  | ret (ir : ℤ)
  | void
  | created (res : Bool)
  deriving DecidableEq

/-- The string objects. -/
abbrev StringStore (ι : Type) := ι → Option StringInternal

/-- The objects of the call exist, what is added is another string, and what is created has a
new name. -/
def StringOp.Ok (s : StringStore ι) : StringOp ι → Prop
  | .create str _ _ _ => s str = none
  | .addAnother str (some other) _ | .insertAnother str _ (some other) _ =>
      s str ≠ none ∧ s other ≠ none ∧ other ≠ str
  | .addString str _ _ | .addNString str _ _ | .addChar str _ _ | .addAnother str none _
  | .insertString str _ _ _ | .insertNString str _ _ _ | .insertAnother str _ none _
  | .cutTailOff str _ | .clear str => s str ≠ none
  | .clone str res _ => s str ≠ none ∧ s res = none

section Objects

variable [DecidableEq ι]

/-- A call that changes one string and returns a number. -/
def StringStore.edit (s : StringStore ι) (str : ι)
    (f : StringInternal → Option (StringInternal × ℤ)) : Option (StringStore ι × StringOut) := do
  let istr ← s str
  let (istr, ir) ← f istr
  return (Function.update s str (some istr), .ret ir)

/-- The string that a pointer names, `none` for `NULL`. -/
def StringStore.deref (s : StringStore ι) (ptr : Option ι) : Option (Option StringInternal) :=
  match ptr with
  | none => some none
  | some str => (s str).map some

/-- One call. -/
def stringStep (s : StringStore ι) : StringOp ι → Option (StringStore ι × StringOut)
  | .create str initcapacity initcontent allocs => do
      let res ← StringInternal.createInternal allocs initcapacity initcontent
      return (Function.update s str res, .created res.isSome)
  | .addString str tobeadded alloc => s.edit str (StringInternal.addString alloc · tobeadded)
  | .addNString str tobeadded alloc => s.edit str (StringInternal.addNString alloc · tobeadded)
  | .addChar str tobeadded alloc => s.edit str (StringInternal.addChar alloc · tobeadded)
  | .addAnother str tobeadded alloc => do
      let other ← s.deref tobeadded
      s.edit str (StringInternal.addAnother alloc · other)
  | .insertString str tobeadded idx alloc =>
      s.edit str (StringInternal.insertString alloc · tobeadded idx)
  | .insertNString str tobeadded idx alloc =>
      s.edit str (StringInternal.insertNString alloc · tobeadded idx)
  | .insertAnother str idx tobeadded alloc => do
      let other ← s.deref tobeadded
      s.edit str (StringInternal.insertAnother alloc · idx other)
  | .cutTailOff str length => do
      let istr ← (← s str).cutTailOff length
      return (Function.update s str (some istr), .void)
  | .clear str => do
      let istr ← (← s str).clear
      return (Function.update s str (some istr), .void)
  | .clone str res allocs => do
      let clone ← (← s str).clone allocs
      return (Function.update s res clone, .created clone.isSome)

/-- What a call that inserts bytes at `idx`, or at the end, means for lists of bytes. The
store says whether there is room. -/
def stringSpliceSpec (s : StringStore ι) (m : ι → Option (List UInt8)) (str : ι) (idx : Option ℕ)
    (tobeadded : Option (List UInt8)) (alloc : Option (ℕ → UInt8)) :
    (ι → Option (List UInt8)) × StringOut :=
  let l := (m str).getD []
  let room := (s str).any fun istr => istr.hasRoom alloc (tobeadded.getD []).length
  let r := StringInternal.splice room l (idx.getD l.length) tobeadded
  (Function.update m str (some r.1), .ret r.2)

/-- What a call means for lists of bytes. -/
def stringSpec (s : StringStore ι) (m : ι → Option (List UInt8)) :
    StringOp ι → (ι → Option (List UInt8)) × StringOut
  | .create str initcapacity initcontent allocs =>
      let res := StringInternal.creates allocs initcapacity initcontent
      (Function.update m str (if res then some (initcontent.elim [] Subtype.val) else none),
        .created res)
  | .addString str tobeadded alloc =>
      stringSpliceSpec s m str none (tobeadded.map Subtype.val) alloc
  | .addNString str tobeadded alloc => stringSpliceSpec s m str none tobeadded alloc
  | .addChar str tobeadded alloc => stringSpliceSpec s m str none (some [tobeadded]) alloc
  | .addAnother str tobeadded alloc => stringSpliceSpec s m str none (tobeadded.bind m) alloc
  | .insertString str tobeadded idx alloc =>
      stringSpliceSpec s m str (some idx) (tobeadded.map Subtype.val) alloc
  | .insertNString str tobeadded idx alloc =>
      stringSpliceSpec s m str (some idx) tobeadded alloc
  | .insertAnother str idx tobeadded alloc =>
      stringSpliceSpec s m str (some idx) (tobeadded.bind m) alloc
  | .cutTailOff str length =>
      let l := (m str).getD []
      (Function.update m str (some (l.take (l.length - length))), .void)
  | .clear str => (Function.update m str (some []), .void)
  | .clone str res allocs =>
      let cloned := allocs.record && allocs.block.isSome
      (Function.update m res (if cloned then m str else none), .created cloned)

/-- Every string object holds its list of bytes. -/
def StringStore.Holds (s : StringStore ι) (m : ι → Option (List UInt8)) : Prop :=
  ∀ i, Option.Rel StringInternal.Holds (s i) (m i)

namespace StringStore

variable {s : StringStore ι} {m : ι → Option (List UInt8)} {str : ι}

lemma Holds.update (h : s.Holds m) {istr : Option StringInternal} {l : Option (List UInt8)}
    (hstr : Option.Rel StringInternal.Holds istr l) :
    StringStore.Holds (Function.update s str istr) (Function.update m str l) := by
  intro i
  by_cases hi : i = str
  · subst hi
    rwa [Function.update_self, Function.update_self]
  · rw [Function.update_of_ne hi, Function.update_of_ne hi]
    exact h i

omit [DecidableEq ι] in
lemma Holds.get (h : s.Holds m) (hstr : s str ≠ none) :
    ∃ istr l, s str = some istr ∧ m str = some l ∧ istr.Holds l := by
  have hrel := h str
  cases hs : s str with
  | none => exact (hstr hs).elim
  | some istr =>
      rw [hs] at hrel
      cases hm : m str with
      | none => rw [hm] at hrel; cases hrel
      | some l =>
          rw [hm] at hrel
          cases hrel with
          | some hrel => exact ⟨istr, l, rfl, rfl, hrel⟩

/-- A call that inserts bytes. -/
lemma Holds.edit (h : s.Holds m) (hstr : s str ≠ none) (idx : Option ℕ)
    (tobeadded : Option (List UInt8)) (alloc : Option (ℕ → UInt8))
    {f : StringInternal → Option (StringInternal × ℤ)}
    (hf : ∀ istr l, istr.Holds l → ∃ istr', f istr = some (istr',
        (StringInternal.splice (istr.hasRoom alloc (tobeadded.getD []).length) l
          (idx.getD l.length) tobeadded).2) ∧
      istr'.Holds (StringInternal.splice (istr.hasRoom alloc (tobeadded.getD []).length) l
          (idx.getD l.length) tobeadded).1) :
    ∃ s', s.edit str f = some (s', (stringSpliceSpec s m str idx tobeadded alloc).2) ∧
      s'.Holds (stringSpliceSpec s m str idx tobeadded alloc).1 := by
  obtain ⟨istr, l, hs, hm, hholds⟩ := h.get hstr
  obtain ⟨istr', hcall, hholds'⟩ := hf istr l hholds
  refine ⟨Function.update s str (some istr'), ?_, ?_⟩
  · simp [StringStore.edit, hs, hcall, stringSpliceSpec, hm]
  · simp only [stringSpliceSpec, hs, hm, Option.any_some, Option.getD_some]
    exact h.update (.some hholds')

/-- Adding or inserting a C string is adding or inserting its bytes. -/
lemma addString_eq (alloc : Option (ℕ → UInt8)) (istr : StringInternal)
    (tobeadded : Option CString) :
    istr.addString alloc tobeadded = istr.addNString alloc (tobeadded.map Subtype.val) := by
  cases tobeadded <;> rfl

lemma insertString_eq (alloc : Option (ℕ → UInt8)) (istr : StringInternal)
    (tobeadded : Option CString) (idx : ℕ) :
    istr.insertString alloc tobeadded idx =
      istr.insertNString alloc (tobeadded.map Subtype.val) idx := by
  cases tobeadded <;> rfl

/-- One call. -/
lemma Holds.step (h : s.Holds m) {op : StringOp ι} (hop : op.Ok s) :
    ∃ s', stringStep s op = some (s', (stringSpec s m op).2) ∧
      s'.Holds (stringSpec s m op).1 := by
  cases op with
  | create str initcapacity initcontent allocs =>
      obtain ⟨res, hres, hholds, hsome⟩ :=
        StringInternal.createInternal_spec allocs initcapacity initcontent
      refine ⟨Function.update s str res, by simp [stringStep, hres, stringSpec, hsome],
        h.update ?_⟩
      rw [← hsome]
      cases res with
      | none => exact .none
      | some istr => exact .some (hholds istr rfl)
  | addString str tobeadded alloc =>
      refine h.edit hop none _ alloc fun istr l hl => ?_
      rw [addString_eq]
      exact StringInternal.addNString_spec hl _
  | addNString str tobeadded alloc =>
      exact h.edit hop none _ alloc fun istr l hl => StringInternal.addNString_spec hl _
  | addChar str tobeadded alloc =>
      refine h.edit hop none _ alloc fun istr l hl => ?_
      rw [StringInternal.addChar_eq]
      exact StringInternal.addNString_spec hl _
  | addAnother str tobeadded alloc =>
      cases tobeadded with
      | none => exact h.edit hop none none alloc fun istr l hl => ⟨istr, rfl, hl⟩
      | some other =>
          obtain ⟨hstr, hother, -⟩ := hop
          obtain ⟨ostr, bytes, hs, hm, hbytes⟩ := h.get hother
          have hedit := h.edit hstr none (m other) alloc
            (f := (StringInternal.addAnother alloc · (some ostr))) fun istr l hl => by
              rw [StringInternal.addAnother, hbytes.content_eq, hm]
              exact StringInternal.addNString_spec hl _
          simpa [stringStep, StringStore.deref, hs, stringSpec] using hedit
  | insertString str tobeadded idx alloc =>
      refine h.edit hop (some idx) _ alloc fun istr l hl => ?_
      rw [insertString_eq]
      exact StringInternal.insertNString_spec hl _ _
  | insertNString str tobeadded idx alloc =>
      exact h.edit hop (some idx) _ alloc fun istr l hl => StringInternal.insertNString_spec hl _ _
  | insertAnother str idx tobeadded alloc =>
      cases tobeadded with
      | none => exact h.edit hop (some idx) none alloc fun istr l hl => ⟨istr, rfl, hl⟩
      | some other =>
          obtain ⟨hstr, hother, -⟩ := hop
          obtain ⟨ostr, bytes, hs, hm, hbytes⟩ := h.get hother
          have hedit := h.edit hstr (some idx) (m other) alloc
            (f := (StringInternal.insertAnother alloc · idx (some ostr))) fun istr l hl => by
              rw [StringInternal.insertAnother, hbytes.content_eq, hm]
              exact StringInternal.insertNString_spec hl _ _
          simpa [stringStep, StringStore.deref, hs, stringSpec] using hedit
  | cutTailOff str length =>
      obtain ⟨istr, l, hs, hm, hl⟩ := h.get hop
      obtain ⟨istr', hcut, hl'⟩ := StringInternal.cutTailOff_spec hl length
      refine ⟨Function.update s str (some istr'), by simp [stringStep, hs, hcut, stringSpec], ?_⟩
      simp only [stringSpec, hm, Option.getD_some]
      exact h.update (.some hl')
  | clear str =>
      obtain ⟨istr, l, hs, hm, hl⟩ := h.get hop
      obtain ⟨istr', hclear, hl'⟩ := StringInternal.clear_spec hl
      exact ⟨Function.update s str (some istr'), by simp [stringStep, hs, hclear, stringSpec],
        h.update (.some hl')⟩
  | clone str res allocs =>
      obtain ⟨istr, l, hs, hm, hl⟩ := h.get hop.1
      obtain ⟨clone, hclone, hholds, hsome⟩ := StringInternal.clone_spec hl allocs
      refine ⟨Function.update s res clone, by simp [stringStep, hs, hclone, stringSpec, hsome],
        ?_⟩
      simp only [stringSpec, hm, ← hsome]
      refine h.update ?_
      cases clone with
      | none => exact .none
      | some istr' => exact .some (hholds istr' rfl)

end StringStore

/-- The string objects after any calls, from none on. -/
inductive StringReachable : StringStore ι → Prop where
  | init : StringReachable fun _ => none
  | step {s s' : StringStore ι} {op : StringOp ι} {out : StringOut} :
      StringReachable s → op.Ok s → stringStep s op = some (s', out) → StringReachable s'

end Objects

end LibCmutils
