import LibCmutils.Lib.Block

/-!
`CMUTIL_ByteBuffer` (`src/strings.c`).

* `ByteBufferInternal`: the block, the size and the capacity. An access outside the block, or
  outside the source of a copy, has no result.
* `ByteBufferInternal.addByte`, `addBytes`, `addBytesPart`, `insertByteAt`, `insertBytesAt`;
  `alloc` is the answer of `Realloc`, sizes are far below `2 ^ 63`. The flag of the result
  says whether the buffer is returned, or `NULL`.
* `ByteBufferInternal.Holds`: the block begins with a list of bytes, and the capacity is its
  length.
* `ByteOp`, `byteStep`: calls; `byteSpec`: what they mean for the list.

The main result is `byteBuffer_refines`.
-/

namespace LibCmutils

/-- `CMUTIL_ByteBuffer_Internal`. -/
structure ByteBufferInternal where
  buffer : List UInt8
  size : ℕ
  capacity : ℕ
  deriving DecidableEq

namespace ByteBufferInternal

/-- `CMUTIL_ByteBufferCheckSize`. -/
def checkSize (alloc : Option (ℕ → UInt8)) (bbi : ByteBufferInternal) (insize : ℕ) :
    ByteBufferInternal × Bool :=
  let reqsz := bbi.size + insize
  if bbi.capacity < reqsz then
    let ncapa := growCap reqsz reqsz (if 0 < bbi.capacity then bbi.capacity * 2 else 16)
    match alloc with
    | none => (bbi, false)
    | some garbage =>
        let fresh := (List.range (ncapa - bbi.buffer.length)).map garbage
        ({ bbi with buffer := bbi.buffer.take ncapa ++ fresh, capacity := ncapa }, true)
  else (bbi, true)

/-- `CMUTIL_ByteBufferAddByte`. -/
def addByte (alloc : Option (ℕ → UInt8)) (bbi : ByteBufferInternal) (b : UInt8) :
    Option (ByteBufferInternal × Bool) :=
  match checkSize alloc bbi 1 with
  | (bbi, false) => some (bbi, false)
  | (bbi, true) => do
      let buffer ← blockWrite bbi.buffer bbi.size [b]
      return ({ bbi with buffer := buffer, size := bbi.size + 1 }, true)

/-- `CMUTIL_ByteBufferAddBytesPart`. -/
def addBytesPart (alloc : Option (ℕ → UInt8)) (bbi : ByteBufferInternal)
    (bytes : Option (List UInt8)) (offset length : UInt32) : Option (ByteBufferInternal × Bool) :=
  match bytes with
  | none => some (bbi, false)
  | some bytes =>
      if 0 < length then
        match checkSize alloc bbi length.toNat with
        | (bbi, false) => some (bbi, false)
        | (bbi, true) => do
            let part ← blockRead bytes offset.toNat length.toNat
            let buffer ← blockWrite bbi.buffer bbi.size part
            return ({ bbi with buffer := buffer, size := bbi.size + length.toNat }, true)
      else some (bbi, false)

/-- `CMUTIL_ByteBufferAddBytes`. -/
def addBytes (alloc : Option (ℕ → UInt8)) (bbi : ByteBufferInternal)
    (bytes : Option (List UInt8)) (length : UInt32) : Option (ByteBufferInternal × Bool) :=
  addBytesPart alloc bbi bytes 0 length

/-- `CMUTIL_ByteBufferInsertBytesAt`. -/
def insertBytesAt (alloc : Option (ℕ → UInt8)) (bbi : ByteBufferInternal) (index : UInt32)
    (bytes : Option (List UInt8)) (length : UInt32) : Option (ByteBufferInternal × Bool) :=
  match bytes with
  | none => some (bbi, false)
  | some bytes =>
      if 0 < length then
        if bbi.size < index.toNat then some (bbi, false)
        else if index.toNat = bbi.size then addBytes alloc bbi (some bytes) length
        else
          match checkSize alloc bbi length.toNat with
          | (bbi, false) => some (bbi, false)
          | (bbi, true) => do
              let buffer ← blockMove bbi.buffer (index.toNat + length.toNat) index.toNat
                (bbi.size - index.toNat)
              let part ← blockRead bytes 0 length.toNat
              let buffer ← blockWrite buffer index.toNat part
              return ({ bbi with buffer := buffer, size := bbi.size + length.toNat }, true)
      else some (bbi, false)

/-- `CMUTIL_ByteBufferInsertByteAt`. -/
def insertByteAt (alloc : Option (ℕ → UInt8)) (bbi : ByteBufferInternal) (index : UInt32)
    (b : UInt8) : Option (ByteBufferInternal × Bool) :=
  insertBytesAt alloc bbi index (some [b]) 1

/-- `CMUTIL_ByteBufferCreateInternal` with the block that it was given. -/
def create (garbage : ℕ → UInt8) (initcapacity : ℕ) : ByteBufferInternal :=
  { buffer := (List.range initcapacity).map garbage, size := 0, capacity := initcapacity }

/-! ### The bytes of a buffer -/

/-- The block begins with `l`. -/
structure Holds (bbi : ByteBufferInternal) (l : List UInt8) : Prop where
  size_eq : bbi.size = l.length
  split : ∃ rest, bbi.buffer = l ++ rest
  capacity_eq : bbi.capacity = bbi.buffer.length

/-- There is room for `n` more bytes, or the allocator makes it. -/
def hasRoom (bbi : ByteBufferInternal) (alloc : Option (ℕ → UInt8)) (n : ℕ) : Bool :=
  bbi.size + n ≤ bbi.capacity || alloc.isSome

variable {bbi : ByteBufferInternal} {l : List UInt8} {alloc : Option (ℕ → UInt8)}

lemma Holds.size_le (h : Holds bbi l) : bbi.size ≤ bbi.capacity := by
  obtain ⟨rest, hrest⟩ := h.split
  rw [h.size_eq, h.capacity_eq, hrest, List.length_append]
  exact Nat.le_add_right _ _

lemma holds_create (garbage : ℕ → UInt8) (initcapacity : ℕ) :
    Holds (create garbage initcapacity) [] :=
  ⟨rfl, ⟨_, rfl⟩, by simp [create]⟩

lemma checkSize_of_room (h : Holds bbi l) {n : ℕ} (hroom : bbi.hasRoom alloc n) :
    ∃ bbi', checkSize alloc bbi n = (bbi', true) ∧ Holds bbi' l ∧ l.length + n ≤ bbi'.capacity := by
  have hsize := h.size_eq
  have hcapacity := h.capacity_eq
  rw [checkSize]
  by_cases hcap : bbi.capacity < bbi.size + n
  · simp only [hcap, if_true]
    have hsome : alloc.isSome := by
      simp only [hasRoom, Bool.or_eq_true, decide_eq_true_eq] at hroom
      exact hroom.resolve_left (by omega)
    obtain ⟨garbage, rfl⟩ := Option.isSome_iff_exists.mp hsome
    have hstart : bbi.capacity < (if 0 < bbi.capacity then bbi.capacity * 2 else 16) := by
      split <;> omega
    have hgrow := @le_growCap (bbi.size + n) (bbi.size + n) _ (Nat.zero_lt_of_lt hstart)
      (Nat.le_add_left _ _)
    obtain ⟨rest, hrest⟩ := h.split
    refine ⟨_, rfl, ⟨hsize, ?_, ?_⟩, by simp only; omega⟩
    · simp only
      rw [List.take_of_length_le (by omega), hrest, List.append_assoc]
      exact ⟨_, rfl⟩
    · simp only [List.length_append, List.length_take, List.length_map, List.length_range]
      omega
  · simp only [hcap, if_false]
    exact ⟨bbi, rfl, h, by omega⟩

lemma checkSize_of_full {n : ℕ} (hroom : ¬ bbi.hasRoom alloc n) :
    checkSize alloc bbi n = (bbi, false) := by
  have hfull : bbi.capacity < bbi.size + n ∧ alloc = none := by simpa [hasRoom] using hroom
  simp only [checkSize, hfull.1, if_true, hfull.2]

/-- Bytes written behind the others. -/
lemma Holds.write (h : Holds bbi l) {part : List UInt8}
    (hroom : l.length + part.length ≤ bbi.capacity) :
    ∃ buffer, blockWrite bbi.buffer bbi.size part = some buffer ∧
      Holds { bbi with buffer := buffer, size := bbi.size + part.length } (l ++ part) := by
  obtain ⟨rest, hrest⟩ := h.split
  have hlen := congrArg List.length hrest
  rw [← h.capacity_eq, List.length_append] at hlen
  have htake : (rest.take part.length).length = part.length := by
    rw [List.length_take]
    omega
  have hwrite := blockWrite_append l _ (rest.drop part.length) _ htake
  rw [List.take_append_drop, ← hrest, ← h.size_eq] at hwrite
  refine ⟨_, hwrite, ⟨?_, ⟨_, by rw [List.append_assoc]⟩, ?_⟩⟩
  · rw [List.length_append, h.size_eq]
  · simp only [List.length_append, List.length_drop]
    omega

/-- Bytes moved up, and others written where they began. -/
lemma Holds.insert (h : Holds bbi l) {part : List UInt8} {idx : ℕ} (hidx : idx ≤ l.length)
    (hroom : l.length + part.length ≤ bbi.capacity) :
    ∃ buffer, (blockMove bbi.buffer (idx + part.length) idx (bbi.size - idx)).bind
        (blockWrite · idx part) = some buffer ∧
      Holds { bbi with buffer := buffer, size := bbi.size + part.length }
        (l.take idx ++ part ++ l.drop idx) := by
  obtain ⟨pre, post, rfl, rfl⟩ : ∃ pre post, l = pre ++ post ∧ idx = pre.length :=
    ⟨l.take idx, l.drop idx, by simp, by simp [hidx]⟩
  obtain ⟨rest, hrest⟩ := h.split
  have hlen := congrArg List.length hrest
  rw [← h.capacity_eq, List.length_append] at hlen
  rw [List.append_assoc] at hrest
  have hcount : bbi.size - pre.length = post.length := by
    rw [h.size_eq, List.length_append]
    omega
  have hmove := blockMove_write pre post (show part.length ≤ rest.length by omega)
  rw [hrest, hcount, hmove, List.take_left, List.drop_left]
  refine ⟨_, rfl, ⟨?_, ⟨rest.drop part.length, by simp⟩, ?_⟩⟩
  · simp only [List.length_append, h.size_eq]
    omega
  · rw [h.capacity_eq, hrest]
    rw [List.length_append] at hlen hroom
    simp only [List.length_append, List.length_drop]
    omega

/-! ### What the functions do -/

/-- What an insertion at `idx` means: `NULL`, nothing, a place past the end and a block that
cannot grow are refused. -/
def splice (room : Bool) (l : List UInt8) (idx : ℕ) (part : Option (List UInt8)) :
    List UInt8 × Bool :=
  match part with
  | none => (l, false)
  | some part =>
      if part ≠ [] ∧ idx ≤ l.length ∧ room then (l.take idx ++ part ++ l.drop idx, true)
      else (l, false)

/-- The result of a call is as said: the list, the flag, and the same buffer when it is
refused. -/
def Does (bbi : ByteBufferInternal) (res : Option (ByteBufferInternal × Bool))
    (said : List UInt8 × Bool) : Prop :=
  ∃ bbi', res = some (bbi', said.2) ∧ Holds bbi' said.1 ∧ (said.2 = false → bbi' = bbi)

lemma does_refused (h : Holds bbi l) : Does bbi (some (bbi, false)) (l, false) :=
  ⟨bbi, rfl, h, fun _ => rfl⟩

lemma splice_refused {room : Bool} {idx : ℕ} {part : List UInt8}
    (h : ¬ (part ≠ [] ∧ idx ≤ l.length ∧ room)) : splice room l idx (some part) = (l, false) :=
  if_neg h

lemma blockRead_length {bytes : List UInt8} {offset n : ℕ} (hok : offset + n ≤ bytes.length) :
    blockRead bytes offset n = some ((bytes.drop offset).take n) ∧
      ((bytes.drop offset).take n).length = n := by
  refine ⟨if_pos hok, ?_⟩
  rw [List.length_take, List.length_drop]
  omega

/-- The part is empty exactly if the call asks for no byte. -/
lemma part_ne_nil_iff {part : List UInt8} {length : UInt32} (hlen : part.length = length.toNat) :
    part ≠ [] ↔ 0 < length := by
  rw [← List.length_pos_iff, hlen, UInt32.lt_iff_toNat_lt, UInt32.toNat_zero]

/-- `CMUTIL_ByteBufferAddBytesPart` inserts at the end. -/
lemma addBytesPart_does (h : Holds bbi l) (bytes : Option (List UInt8)) (offset length : UInt32)
    (hok : ∀ b, bytes = some b → offset.toNat + length.toNat ≤ b.length) :
    Does bbi (addBytesPart alloc bbi bytes offset length)
      (splice (bbi.hasRoom alloc length.toNat) l l.length
        (bytes.map fun b => (b.drop offset.toNat).take length.toNat)) := by
  cases bytes with
  | none => exact does_refused h
  | some bytes =>
      obtain ⟨hread, hlen⟩ := blockRead_length (hok bytes rfl)
      rw [Option.map_some, addBytesPart]
      by_cases hpos : 0 < length
      · have hne := (part_ne_nil_iff hlen).mpr hpos
        simp only [hpos, if_true]
        by_cases hroom : bbi.hasRoom alloc length.toNat
        · obtain ⟨bbi', hcheck, h', hcap⟩ := checkSize_of_room h hroom
          obtain ⟨buffer, hwrite, h''⟩ := h'.write (by rw [hlen]; exact hcap)
          rw [hlen] at h''
          rw [splice, if_pos ⟨hne, le_rfl, hroom⟩, List.take_length, List.drop_length,
            List.append_nil]
          exact ⟨_, by simp [hcheck, hread, hwrite], h'', nofun⟩
        · rw [splice_refused fun hc => hroom hc.2.2, checkSize_of_full hroom]
          exact does_refused h
      · rw [splice_refused fun hc => hpos ((part_ne_nil_iff hlen).mp hc.1), if_neg hpos]
        exact does_refused h

/-- `CMUTIL_ByteBufferAddBytes`. -/
lemma addBytes_does (h : Holds bbi l) (bytes : Option (List UInt8)) (length : UInt32)
    (hok : ∀ b, bytes = some b → length.toNat ≤ b.length) :
    Does bbi (addBytes alloc bbi bytes length)
      (splice (bbi.hasRoom alloc length.toNat) l l.length
        (bytes.map fun b => b.take length.toNat)) :=
  addBytesPart_does h bytes 0 length fun b hb => by
    rw [UInt32.toNat_zero, Nat.zero_add]
    exact hok b hb

/-- `CMUTIL_ByteBufferInsertBytesAt`. -/
lemma insertBytesAt_does (h : Holds bbi l) (index : UInt32) (bytes : Option (List UInt8))
    (length : UInt32) (hok : ∀ b, bytes = some b → length.toNat ≤ b.length) :
    Does bbi (insertBytesAt alloc bbi index bytes length)
      (splice (bbi.hasRoom alloc length.toNat) l index.toNat
        (bytes.map fun b => b.take length.toNat)) := by
  cases bytes with
  | none => exact does_refused h
  | some bytes =>
      have hbound : 0 + length.toNat ≤ bytes.length := by simpa using hok bytes rfl
      obtain ⟨hread, hlen⟩ := blockRead_length hbound
      rw [List.drop_zero] at hread hlen
      rw [Option.map_some, insertBytesAt]
      by_cases hpos : 0 < length
      · have hne := (part_ne_nil_iff hlen).mpr hpos
        simp only [hpos, if_true]
        by_cases hpast : bbi.size < index.toNat
        · rw [if_pos hpast, splice_refused fun hc => by rw [h.size_eq] at hpast; omega]
          exact does_refused h
        · rw [if_neg hpast]
          rw [h.size_eq, not_lt] at hpast
          by_cases hend : index.toNat = bbi.size
          · rw [if_pos hend, hend, h.size_eq]
            exact addBytes_does h (some bytes) length hok
          · rw [if_neg hend]
            by_cases hroom : bbi.hasRoom alloc length.toNat
            · obtain ⟨bbi', hcheck, h', hcap⟩ := checkSize_of_room h hroom
              obtain ⟨buffer, hinsert, h''⟩ := h'.insert hpast (by rw [hlen]; exact hcap)
              rw [hlen] at hinsert h''
              obtain ⟨moved, hmove, hwrite⟩ := Option.bind_eq_some_iff.mp hinsert
              rw [splice, if_pos ⟨hne, hpast, hroom⟩]
              exact ⟨_, by simp [hcheck, hmove, hread, hwrite], h'', nofun⟩
            · rw [splice_refused fun hc => hroom hc.2.2, checkSize_of_full hroom]
              exact does_refused h
      · rw [splice_refused fun hc => hpos ((part_ne_nil_iff hlen).mp hc.1), if_neg hpos]
        exact does_refused h

lemma addByte_eq (b : UInt8) : addByte alloc bbi b = addBytesPart alloc bbi (some [b]) 0 1 := rfl

/-- Inserting at the end is appending. -/
lemma insertBytesAt_end {index : UInt32} (hend : index.toNat = bbi.size)
    (bytes : Option (List UInt8)) (length : UInt32) :
    insertBytesAt alloc bbi index bytes length = addBytes alloc bbi bytes length := by
  cases bytes with
  | none => rfl
  | some bytes =>
      rw [insertBytesAt]
      by_cases hpos : 0 < length
      · rw [if_pos hpos, if_neg (by omega), if_pos hend]
      · rw [if_neg hpos, addBytes, addBytesPart, if_neg hpos]

end ByteBufferInternal

/-! ### Calls -/

open ByteBufferInternal (splice)

/-- A call, with the answer of the allocator. -/
inductive ByteOp where
  | addByte (b : UInt8) (alloc : Option (ℕ → UInt8))
  | addBytes (bytes : Option (List UInt8)) (length : UInt32) (alloc : Option (ℕ → UInt8))
  | addBytesPart (bytes : Option (List UInt8)) (offset length : UInt32)
      (alloc : Option (ℕ → UInt8))
  | insertByteAt (index : UInt32) (b : UInt8) (alloc : Option (ℕ → UInt8))
  | insertBytesAt (index : UInt32) (bytes : Option (List UInt8)) (length : UInt32)
      (alloc : Option (ℕ → UInt8))

/-- The source has the bytes that the call asks for. -/
def ByteOp.Ok : ByteOp → Prop
  | .addBytes (some bytes) length _ | .insertBytesAt _ (some bytes) length _ =>
      length.toNat ≤ bytes.length
  | .addBytesPart (some bytes) offset length _ => offset.toNat + length.toNat ≤ bytes.length
  | .addByte _ _ | .insertByteAt _ _ _ | .addBytes none _ _ | .insertBytesAt _ none _ _
  | .addBytesPart none _ _ _ => True

/-- One call. -/
def byteStep (bbi : ByteBufferInternal) : ByteOp → Option (ByteBufferInternal × Bool)
  | .addByte b alloc => bbi.addByte alloc b
  | .addBytes bytes length alloc => bbi.addBytes alloc bytes length
  | .addBytesPart bytes offset length alloc => bbi.addBytesPart alloc bytes offset length
  | .insertByteAt index b alloc => bbi.insertByteAt alloc index b
  | .insertBytesAt index bytes length alloc => bbi.insertBytesAt alloc index bytes length

/-- What a call means for the list of bytes. The buffer says whether there is room. -/
def byteSpec (bbi : ByteBufferInternal) (l : List UInt8) : ByteOp → List UInt8 × Bool
  | .addByte b alloc => splice (bbi.hasRoom alloc 1) l l.length (some [b])
  | .addBytes bytes length alloc =>
      splice (bbi.hasRoom alloc length.toNat) l l.length (bytes.map fun b => b.take length.toNat)
  | .addBytesPart bytes offset length alloc =>
      splice (bbi.hasRoom alloc length.toNat) l l.length
        (bytes.map fun b => (b.drop offset.toNat).take length.toNat)
  | .insertByteAt index b alloc => splice (bbi.hasRoom alloc 1) l index.toNat (some [b])
  | .insertBytesAt index bytes length alloc =>
      splice (bbi.hasRoom alloc length.toNat) l index.toNat
        (bytes.map fun b => b.take length.toNat)

lemma byteStep_does {bbi : ByteBufferInternal} {l : List UInt8} (h : bbi.Holds l) {op : ByteOp}
    (hop : op.Ok) : bbi.Does (byteStep bbi op) (byteSpec bbi l op) := by
  cases op with
  | addByte b alloc =>
      rw [byteStep, ByteBufferInternal.addByte_eq]
      exact ByteBufferInternal.addBytesPart_does h (some [b]) 0 1 fun c hc => by
        obtain rfl := Option.some.inj hc
        exact le_rfl
  | addBytes bytes length alloc =>
      exact ByteBufferInternal.addBytes_does h bytes length fun c hc => by
        subst hc
        exact hop
  | addBytesPart bytes offset length alloc =>
      exact ByteBufferInternal.addBytesPart_does h bytes offset length fun c hc => by
        subst hc
        exact hop
  | insertByteAt index b alloc =>
      exact ByteBufferInternal.insertBytesAt_does h index (some [b]) 1 fun c hc => by
        obtain rfl := Option.some.inj hc
        exact le_rfl
  | insertBytesAt index bytes length alloc =>
      exact ByteBufferInternal.insertBytesAt_does h index bytes length fun c hc => by
        subst hc
        exact hop

/-- A buffer after any calls, with the list that they mean, from its creation on. -/
inductive ByteReachable : ByteBufferInternal → List UInt8 → Prop where
  | create (garbage : ℕ → UInt8) (initcapacity : ℕ) :
      ByteReachable (.create garbage initcapacity) []
  | step {bbi bbi' : ByteBufferInternal} {l : List UInt8} {op : ByteOp} {ret : Bool} :
      ByteReachable bbi l → op.Ok → byteStep bbi op = some (bbi', ret) →
        ByteReachable bbi' (byteSpec bbi l op).1

lemma ByteReachable.holds {bbi : ByteBufferInternal} {l : List UInt8} (h : ByteReachable bbi l) :
    bbi.Holds l := by
  induction h with
  | create garbage initcapacity => exact ByteBufferInternal.holds_create garbage initcapacity
  | step _ hop hstep ih =>
      obtain ⟨bbi', hstep', h', -⟩ := byteStep_does ih hop
      rw [hstep'] at hstep
      obtain ⟨rfl, -⟩ := Prod.mk.inj (Option.some.inj hstep)
      exact h'

end LibCmutils
