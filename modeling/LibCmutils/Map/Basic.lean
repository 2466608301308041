import LibCmutils.Array.Basic
import LibCmutils.Lib.CString

/-!
`CMUTIL_Map` (`src/maps.c`): a hash map whose items are listed a second time in
the order they were put.

* `MapItem`, `MapInternal`: an item with its key, value, hash and sequence
  number; the bucket table, the keyset, the counters. The items of a bucket are
  sorted by key, those of the keyset by sequence number. A bucket that was never
  used is `none`, a `NULL` pointer.
* `mapHash`, `mapHashUpper`: the hash functions, on 32-bit words. `char` is
  signed.
* `mapPutBase`, `mapRebuild`, `mapPut`, `mapPutAll`, `mapGet`, `mapRemove`,
  `mapClearBase`, `mapDestroy`, `mapGetKeys`, `mapGetPairs`, `mapGetSize`, `mapGetAt`,
  `mapRemoveAt` and the iterator: the interface.

The load factor enters through one test, `(double)n / (double)bucket_size >
load_factor`; `overload` is that test for the given load factor, on 32-bit `n` and
`bucket_size`, whatever the float is. An operation is `none` where the program is
stuck: a remainder by zero, or an item read through `NULL`.
-/

namespace LibCmutils

variable {V : Type}

/-- `CMUTIL_MapItem`. -/
structure MapItem (V : Type) where
  key : CString
  value : Option V
  hash : UInt32
  order : ℤ
  deriving DecidableEq

/-- `CMUTIL_Map_Internal`. -/
structure MapInternal (V : Type) where
  buckets : UInt32 → Option (ArrayInternal (MapItem V))
  size : ℕ
  keyset : ArrayInternal (MapItem V)
  freecb : Bool
  is_ucase : Bool
  bucket_size : UInt32
  use_count : UInt32
  order_seq : ℤ
  overload : UInt32 → UInt32 → Bool

/-! ### Hashing and comparing -/

/-- One round of the hash loop on the widened character `c`. -/
def mapHashStep (h c : UInt32) : UInt32 :=
  let h := (h <<< 4) + c
  let g := h &&& 0xf0000000
  if g ≠ 0 then (h ^^^ (g >>> 24)) ^^^ g else h

/-- A `char` cast to `uint32_t`, the sign bit extended. -/
def charToUInt32 (c : UInt8) : UInt32 := if c < 0x80 then c.toUInt32 else c.toUInt32 + 0xffffff00

/-- `CMUTIL_MapHash`. -/
def mapHash (key : CString) : UInt32 :=
  key.1.foldl (fun h c => mapHashStep h (charToUInt32 c)) 0

/-- `CMUTIL_MapHashUpper`. -/
def mapHashUpper (key : CString) : UInt32 :=
  key.1.foldl (fun h c => mapHashStep h (toupper c).toUInt32) 0

/-- The hash of a key, by the case mode of the map. -/
def mapHashKey (is_ucase : Bool) (key : CString) : UInt32 :=
  if is_ucase then mapHashUpper key else mapHash key

/-- The key as it is stored, `CMUTIL_MapToUpper` applied when the map ignores
case. -/
def mapKey (is_ucase : Bool) (key : CString) : CString :=
  if is_ucase then key.upper else key

/-- `CMUTIL_MapComparator`. -/
def mapComparator (ia ib : MapItem V) : ℤ := strcmp ia.key ib.key

/-- `CMUTIL_MapCompareOrder`. -/
def mapCompareOrder (a b : MapItem V) : ℤ := a.order - b.order

/-- `CMUTIL_MapCreateInternal`. -/
def mapCreateInternal (bucketsize : UInt32) (isucase freecb : Bool)
    (overload : UInt32 → UInt32 → Bool) : MapInternal V where
  buckets := fun _ => none
  size := 0
  keyset := arrayCreateInternal bucketsize.toNat (some mapCompareOrder) false true
  freecb := freecb
  is_ucase := isucase
  bucket_size := bucketsize
  use_count := 0
  order_seq := 0
  overload := overload

/-- A bucket as `CMUTIL_ArrayCreateInternal` makes it. -/
def mapNewBucket : ArrayInternal (MapItem V) := arrayCreateInternal 5 (some mapComparator) false true

/-- `hash % bucket_size`, stuck on a table of size zero. -/
def mapIndex (hash bucket_size : UInt32) : Option UInt32 :=
  if bucket_size = 0 then none else some (hash % bucket_size)

variable [DecidableEq V]

/-! ### Put -/

/-- One round of the first loop of `CMUTIL_MapRebuild`: an item of the keyset
goes to its new bucket. -/
def mapRebuildItem (newbucketsize : UInt32)
    (st : (UInt32 → Option (ArrayInternal (MapItem V))) × UInt32) (item : MapItem V) :
    Option ((UInt32 → Option (ArrayInternal (MapItem V))) × UInt32) := do
  let index ← mapIndex item.hash newbucketsize
  let (bucket, usecount) := match st.1 index with
    | some bucket => (bucket, st.2)
    | none => (mapNewBucket, st.2 + 1)
  let (bucket, _) ← arrayAdd true bucket item false
  some (Function.update st.1 index (some bucket), usecount)

/-- `CMUTIL_MapRebuild`: the table is doubled, in 32-bit arithmetic. -/
def mapRebuild (imap : MapInternal V) : Option (MapInternal V) := do
  let newbucketsize := imap.bucket_size * 2
  let items ← arrayItems imap.keyset
  let (buckets, usecount) ← items.foldlM (mapRebuildItem newbucketsize) (fun _ => none, 0)
  some { imap with buckets := buckets, bucket_size := newbucketsize, use_count := usecount }

/-- The load test of `CMUTIL_MapPutBase` before an empty slot is filled. -/
def mapPutRebuild (imap : MapInternal V) : Option (MapInternal V) :=
  -- Rebuild the map to reduce the collision rate
  if imap.overload (imap.use_count + 1) imap.bucket_size then mapRebuild imap else some imap

/-- The part of `CMUTIL_MapPutBase` that finds the bucket for a hash: an empty
slot may trigger a rebuild, which may populate the slot, and gets a bucket
otherwise. -/
def mapPutBucket (imap : MapInternal V) (hash : UInt32) :
    Option (MapInternal V × UInt32 × ArrayInternal (MapItem V)) := do
  let index ← mapIndex hash imap.bucket_size
  match imap.buckets index with
  | some bucket => some (imap, index, bucket)
  | none =>
      let imap ← mapPutRebuild imap
      let index ← mapIndex hash imap.bucket_size
      match imap.buckets index with
      | some bucket => some (imap, index, bucket)
      | none => some ({ imap with use_count := imap.use_count + 1 }, index, mapNewBucket)

/-- `CMUTIL_MapPutBase`: the map, the new item (`NULL` when the bucket does not
take it) and the value replaced. -/
def mapPutBase (imap : MapInternal V) (key : CString) (value : Option V) :
    Option (MapInternal V × Option (MapItem V) × Option V) := do
  let hash := mapHashKey imap.is_ucase key
  let (imap, index, bucket) ← mapPutBucket imap hash
  let item : MapItem V :=
    { key := mapKey imap.is_ucase key, value := value, hash := hash, order := imap.order_seq }
  let (bucket, out) ← arrayAdd true bucket item true
  let imap := { imap with
    buckets := Function.update imap.buckets index (some bucket)
    order_seq := imap.order_seq + 1 }
  if out.result then
    match out.ret with
    | some ires =>
        let (keyset, _) ← arrayRemove imap.keyset ires
        some ({ imap with keyset := keyset }, some item, ires.value)
    | none => some ({ imap with size := imap.size + 1 }, some item, none)
  else some (imap, none, none)

/-- `CMUTIL_MapGet`. -/
def mapGet (imap : MapInternal V) (key : CString) : Option (Option V) := do
  let index ← mapIndex (mapHashKey imap.is_ucase key) imap.bucket_size
  match imap.buckets index with
  | none => some none
  | some bucket =>
      let item : MapItem V :=
        { key := mapKey imap.is_ucase key, value := none, hash := 0, order := 0 }
      let ires ← arrayFind bucket item
      some (ires.bind fun r => r.1.value)

/-- `CMUTIL_MapRemove`: the map and the value removed. The size goes down only
with a non-`NULL` value. -/
def mapRemove (imap : MapInternal V) (key : CString) : Option (MapInternal V × Option V) := do
  let index ← mapIndex (mapHashKey imap.is_ucase key) imap.bucket_size
  match imap.buckets index with
  | none => some (imap, none)
  | some bucket =>
      let item : MapItem V :=
        { key := mapKey imap.is_ucase key, value := none, hash := 0, order := 0 }
      let (bucket, ires) ← arrayRemove bucket item
      let imap := { imap with buckets := Function.update imap.buckets index (some bucket) }
      match ires with
      | none => some (imap, none)
      | some ires =>
          let (keyset, _) ← arrayRemove imap.keyset ires
          some ({ imap with
            keyset := keyset
            size := if ires.value.isSome then imap.size - 1 else imap.size }, ires.value)

/-- `CMUTIL_MapPut`: the map, its result and the value stored in `*prev`. -/
def mapPut (imap : MapInternal V) (key : CString) (value : Option V) :
    Option (MapInternal V × Bool × Option V) := do
  let (imap, item, prev) ← mapPutBase imap key value
  match item with
  | none => some (imap, false, prev)
  | some item =>
      let (keyset, out) ← arrayAdd true imap.keyset item false
      let imap := { imap with keyset := keyset }
      if out.result then some (imap, true, prev)
      else
        let (imap, _) ← mapRemove imap key
        some (imap, false, prev)

/-- One round of the loop of `CMUTIL_MapPutAll`: a replaced value goes to the
free callback. -/
def mapPutAllItem (st : MapInternal V × List V) (item : MapItem V) :
    Option (MapInternal V × List V) := do
  let (imap, _, prev) ← mapPut st.1 item.key item.value
  some (imap, if imap.freecb then st.2 ++ prev.toList else st.2)

/-- `CMUTIL_MapPutAll` from another map: the map and the values given to the free
callback. -/
def mapPutAll (imap smap : MapInternal V) : Option (MapInternal V × List V) := do
  let items ← arrayItems smap.keyset
  items.foldlM mapPutAllItem (imap, [])

/-! ### Listing and clearing -/

/-- `CMUTIL_MapGetPairs`: the keyset, as the list of its pairs. -/
def mapGetPairs (imap : MapInternal V) : Option (List (CString × Option V)) := do
  let items ← arrayItems imap.keyset
  some (items.map fun item => (item.key, item.value))

/-- `CMUTIL_MapGetKeys`. -/
def mapGetKeys (imap : MapInternal V) : Option (List CString) := do
  let items ← arrayItems imap.keyset
  some (items.map MapItem.key)

/-- `CMUTIL_MapGetSize`. -/
def mapGetSize (imap : MapInternal V) : ℕ := imap.size

/-- `CMUTIL_MapIterHasNext`, on the index of the iterator. -/
def mapIterHasNext (imap : MapInternal V) (index : ℕ) : Bool := index < arrayGetSize imap.keyset

/-- `CMUTIL_MapIterNext`: the value and the next index. -/
def mapIterNext (imap : MapInternal V) (index : ℕ) : Option V × ℕ :=
  match arrayGetAt imap.keyset index with
  | some item => (item.value, index + 1)
  | none => (none, index)

/-- The loop that calls `Next` while `HasNext` is true, for at most `fuel`
rounds. -/
def mapIterate (imap : MapInternal V) : ℕ → ℕ → List (Option V)
  | 0, _ => []
  | fuel + 1, index =>
      if mapIterHasNext imap index then
        (mapIterNext imap index).1 :: mapIterate imap fuel (mapIterNext imap index).2
      else []

/-- `CMUTIL_MapGetAt`. -/
def mapGetAt (imap : MapInternal V) (index : ℕ) : Option (Option V) :=
  if index < imap.size then do
    let item ← arrayGetAt imap.keyset index
    mapGet imap item.key
  else some none

/-- `CMUTIL_MapRemoveAt`. -/
def mapRemoveAt (imap : MapInternal V) (index : ℕ) : Option (MapInternal V × Option V) :=
  if index < imap.size then do
    let item ← arrayGetAt imap.keyset index
    mapRemove imap item.key
  else some (imap, none)

/-- The items of one slot. -/
def mapSlotItems (imap : MapInternal V) (index : UInt32) : Option (List (MapItem V)) :=
  match imap.buckets index with
  | none => some []
  | some bucket => arrayItems bucket

/-- The items of all buckets, slot by slot. -/
def mapBucketItems (imap : MapInternal V) : Option (List (MapItem V)) := do
  let bss ← (List.range imap.bucket_size.toNat).mapM fun i => mapSlotItems imap (UInt32.ofNat i)
  some bss.flatten

/-- `CMUTIL_MapClearBase`: the map and the values given to the free callback. -/
def mapClearBase (imap : MapInternal V) (freedata : Bool) :
    Option (MapInternal V × List (Option V)) := do
  let items ← mapBucketItems imap
  some ({ imap with
      buckets := fun i => (imap.buckets i).map fun bucket => (arrayClear bucket).1
      keyset := (arrayClear imap.keyset).1
      size := 0 },
    if imap.freecb && freedata then items.map MapItem.value else [])

/-- `CMUTIL_MapClear`. -/
def mapClear (imap : MapInternal V) : Option (MapInternal V × List (Option V)) :=
  mapClearBase imap true

/-- `CMUTIL_MapClearLink`. -/
def mapClearLink (imap : MapInternal V) : Option (MapInternal V × List (Option V)) :=
  mapClearBase imap false

/-- `CMUTIL_MapDestroy`: the values given to the free callback. -/
def mapDestroy (imap : MapInternal V) : Option (List (Option V)) := do
  let items ← mapBucketItems imap
  some (if imap.freecb then items.map MapItem.value else [])

end LibCmutils
