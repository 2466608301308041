import LibCmutils.Lib.CNumber
import LibCmutils.Lib.OrderedMap

/-!
JSON trees and their text (`src/nanojson.c`).

* `Json`: values with their type and text, arrays, and objects. An object is a
  `CMUTIL_Map` from names to members, here the entries of the ordered map it
  refines.
* `JsonBuilt`: the trees that the setters, `Add`, `Put` and `Remove` build, doubles
  left out. `JsonBuilt.wellFormed`: the text of a value is the text its setter
  writes, and the names of an object are distinct.
* `jsonToString`: the printer.
-/

namespace LibCmutils

/-- `CMJsonValueType`. -/
inductive JsonValueType
  | long
  | double
  | string
  | boolean
  | null
  deriving DecidableEq

/-- `CMUTIL_Json`. -/
inductive Json
  | value (type : JsonValueType) (data : CString)
  | object (entries : List (CString × Json))
  | array (items : List Json)

/-! ### Setters -/

/-- `CMUTIL_JsonValueSetLong`. -/
def jsonValueSetLong (value : ℤ) : Json := .value .long (CString.ofBytes (printInt value))

/-- `CMUTIL_JsonValueSetDouble`, on the text that `%.17g` gives. -/
def jsonValueSetDouble (text : CString) : Json := .value .double text

/-- `CMUTIL_JsonValueSetString`. -/
def jsonValueSetString (value : CString) : Json := .value .string value

/-- The text `true`. -/
def trueText : List UInt8 := [0x74, 0x72, 0x75, 0x65]

/-- The text `false`. -/
def falseText : List UInt8 := [0x66, 0x61, 0x6C, 0x73, 0x65]

/-- The text `null`. -/
def nullText : List UInt8 := [0x6E, 0x75, 0x6C, 0x6C]

/-- `CMUTIL_JsonValueSetBoolean`. -/
def jsonValueSetBoolean (value : Bool) : Json :=
  .value .boolean (CString.ofBytes (if value then trueText else falseText))

/-- `CMUTIL_JsonValueSetNull`. -/
def jsonValueSetNull : Json := .value .null (CString.ofBytes nullText)

/-- The text of a value, which the getters read. -/
def Json.text : Json → Option CString
  | .value _ data => some data
  | _ => none

/-- `CMUTIL_JsonObjectPut`: the map keeps the order of the most recent puts. -/
def jsonObjectPut (entries : List (CString × Json)) (key : CString) (json : Json) :
    List (CString × Json) :=
  entries.filter (·.1 ≠ key) ++ [(key, json)]

/-- `CMUTIL_JsonObjectRemove`. -/
def jsonObjectRemove (entries : List (CString × Json)) (key : CString) : List (CString × Json) :=
  entries.filter (·.1 ≠ key)

/-- `CMUTIL_JsonObjectGet`. -/
def jsonObjectGet (entries : List (CString × Json)) (key : CString) : Option Json :=
  (entries.find? (·.1 = key)).map Prod.snd

/-- `CMUTIL_JsonArrayAdd`. -/
def jsonArrayAdd (items : List Json) (json : Json) : List Json := items ++ [json]

/-- `CMUTIL_JsonArrayRemove`. -/
def jsonArrayRemove (items : List Json) (index : ℕ) : List Json := items.eraseIdx index

/-- An object is the ordered map of its entries. -/
lemma jsonObjectPut_eq (m : OrderedMap CString Json) (key : CString) (json : Json) :
    jsonObjectPut m.entries key json = (m.put key json).entries := rfl

lemma jsonObjectGet_eq (m : OrderedMap CString Json) (key : CString) :
    jsonObjectGet m.entries key = m.get key := rfl

lemma jsonObjectRemove_eq (m : OrderedMap CString Json) (key : CString) :
    jsonObjectRemove m.entries key = (m.erase key).entries := rfl

lemma jsonObjectPut_of_notMem {entries : List (CString × Json)} {key : CString}
    (h : key ∉ entries.map Prod.fst) (json : Json) :
    jsonObjectPut entries key json = entries ++ [(key, json)] := by
  rw [jsonObjectPut, List.filter_eq_self.mpr]
  intro e he
  simpa using fun hk : e.1 = key => h (hk ▸ List.mem_map_of_mem he)

/-! ### Trees built through the interface -/

/-- A tree that the interface builds from longs, strings, booleans and nulls. -/
inductive JsonBuilt : Json → Prop
  | setLong (n : ℤ) (hn : -2 ^ 63 ≤ n ∧ n < 2 ^ 63) : JsonBuilt (jsonValueSetLong n)
  | setString (s : CString) : JsonBuilt (jsonValueSetString s)
  | setBoolean (b : Bool) : JsonBuilt (jsonValueSetBoolean b)
  | setNull : JsonBuilt jsonValueSetNull
  | arrayCreate : JsonBuilt (.array [])
  | arrayAdd {items : List Json} {json : Json} :
      JsonBuilt (.array items) → JsonBuilt json → JsonBuilt (.array (jsonArrayAdd items json))
  | arrayRemove {items : List Json} (index : ℕ) :
      JsonBuilt (.array items) → JsonBuilt (.array (jsonArrayRemove items index))
  | objectCreate : JsonBuilt (.object [])
  | objectPut {entries : List (CString × Json)} {json : Json} (key : CString) :
      JsonBuilt (.object entries) → JsonBuilt json →
      JsonBuilt (.object (jsonObjectPut entries key json))
  | objectRemove {entries : List (CString × Json)} (key : CString) :
      JsonBuilt (.object entries) → JsonBuilt (.object (jsonObjectRemove entries key))

/-- A tree whose values carry the text of their setter and whose objects name each
member once. -/
inductive JsonWellFormed : Json → Prop
  | long (n : ℤ) (hn : -2 ^ 63 ≤ n ∧ n < 2 ^ 63) : JsonWellFormed (jsonValueSetLong n)
  | string (s : CString) : JsonWellFormed (jsonValueSetString s)
  | boolean (b : Bool) : JsonWellFormed (jsonValueSetBoolean b)
  | null : JsonWellFormed jsonValueSetNull
  | array {items : List Json} : (∀ json ∈ items, JsonWellFormed json) →
      JsonWellFormed (.array items)
  | object {entries : List (CString × Json)} : (entries.map Prod.fst).Nodup →
      (∀ e ∈ entries, JsonWellFormed e.2) → JsonWellFormed (.object entries)

lemma JsonBuilt.wellFormed {j : Json} (h : JsonBuilt j) : JsonWellFormed j := by
  induction h with
  | setLong n hn => exact .long n hn
  | setString s => exact .string s
  | setBoolean b => exact .boolean b
  | setNull => exact .null
  | arrayCreate => exact .array (by simp)
  | arrayAdd _ _ ih ihj =>
      cases ih with
      | array hitems =>
          refine .array fun json hjson => ?_
          rcases List.mem_append.mp hjson with hjson | hjson
          · exact hitems json hjson
          · rw [List.mem_singleton.mp hjson]
            exact ihj
  | arrayRemove index _ ih =>
      cases ih with
      | array hitems => exact .array fun json hjson => hitems json (List.mem_of_mem_eraseIdx hjson)
  | objectCreate => exact .object (by simp) (by simp)
  | @objectPut entries json key _ _ ih ihj =>
      cases ih with
      | object hnodup hentries =>
          refine .object ?_ fun e he => ?_
          · exact (OrderedMap.put ⟨entries, hnodup⟩ key json).nodup
          · rcases List.mem_append.mp he with he | he
            · exact hentries e (List.mem_filter.mp he).1
            · rw [List.mem_singleton.mp he]
              exact ihj
  | @objectRemove entries key _ ih =>
      cases ih with
      | object hnodup hentries =>
          exact .object (OrderedMap.erase ⟨entries, hnodup⟩ key).nodup
            fun e he => hentries e (List.mem_filter.mp he).1

/-! ### Printing -/

/-- A hexadecimal digit of `%X`. -/
def hexDigit (d : UInt8) : UInt8 := if d < 10 then 0x30 + d else 0x41 + (d - 10)

/-- What `CMUTIL_JsonValueStringToStr` writes for one byte. -/
def jsonEscapeChar (c : UInt8) : List UInt8 :=
  if c = 0x08 then [0x5C, 0x62]
  else if c = 0x0C then [0x5C, 0x66]
  else if c = 0x0D then [0x5C, 0x72]
  else if c = 0x0A then [0x5C, 0x6E]
  else if c = 0x09 then [0x5C, 0x74]
  else if c = 0x22 then [0x5C, 0x22]
  else if c = 0x5C then [0x5C, 0x5C]
  else if c < 0x20 then [0x5C, 0x75, 0x30, 0x30, hexDigit (c >>> 4), hexDigit (c &&& 0xF)]
  else [c]

/-- `CMUTIL_JsonValueStringToStr`. -/
def jsonValueStringToStr (data : CString) : List UInt8 :=
  0x22 :: data.1.flatMap jsonEscapeChar ++ [0x22]

/-- `CMUTIL_JsonIndent`. -/
def jsonIndent (depth : ℕ) : List UInt8 := (List.replicate depth [0x20, 0x20]).flatten

/-- `CMUTIL_JsonValueToStringInternal`. -/
def jsonValueToString : JsonValueType → CString → List UInt8
  | .string, data => jsonValueStringToStr data
  | _, data => data.1

mutual

/-- `CMUTIL_JsonToStringInternal`: the text appended to the buffer. -/
def jsonToStringInternal (pretty : Bool) (depth : ℕ) : Json → List UInt8
  | .value type data => jsonValueToString type data
  | .object entries => 0x7B :: jsonMembersToString pretty depth true entries ++
      (if pretty && !entries.isEmpty then 0x0A :: jsonIndent depth else []) ++ [0x7D]
  | .array items => 0x5B :: jsonItemsToString pretty depth true items ++ [0x5D]

/-- The loop of `CMUTIL_JsonObjectToStringInternal`; `first` says that the index is
zero. Names are listed once, so the member looked up under a name is its own. -/
def jsonMembersToString (pretty : Bool) (depth : ℕ) (first : Bool) :
    List (CString × Json) → List UInt8
  | [] => []
  | (key, item) :: entries =>
      (if first then [] else [0x2C]) ++
      (if pretty then 0x0A :: jsonIndent (depth + 1) else []) ++
      jsonValueStringToStr key ++
      (if pretty then [0x3A, 0x20] else [0x3A]) ++
      jsonToStringInternal pretty (depth + 1) item ++
      jsonMembersToString pretty depth false entries

/-- The loop of `CMUTIL_JsonArrayToStringInternal`. -/
def jsonItemsToString (pretty : Bool) (depth : ℕ) (first : Bool) : List Json → List UInt8
  | [] => []
  | item :: items =>
      (if first then [] else if pretty then [0x2C, 0x20] else [0x2C]) ++
      jsonToStringInternal pretty (depth + 1) item ++
      jsonItemsToString pretty depth false items

end

/-- `CMUTIL_JsonToString`. -/
def jsonToString (json : Json) (pretty : Bool) : List UInt8 := jsonToStringInternal pretty 0 json

mutual

/-- The height of a tree, leaves counted. -/
def Json.height : Json → ℕ
  | .value _ _ => 1
  | .object entries => Json.membersHeight entries + 1
  | .array items => Json.itemsHeight items + 1

/-- The height of the highest member. -/
def Json.membersHeight : List (CString × Json) → ℕ
  | [] => 0
  | (_, item) :: entries => max item.height (Json.membersHeight entries)

/-- The height of the highest item. -/
def Json.itemsHeight : List Json → ℕ
  | [] => 0
  | item :: items => max item.height (Json.itemsHeight items)

end

lemma Json.membersHeight_le_iff {n : ℕ} : ∀ {entries : List (CString × Json)},
    Json.membersHeight entries ≤ n ↔ ∀ e ∈ entries, e.2.height ≤ n
  | [] => by simp [Json.membersHeight]
  | e :: entries => by
      rw [Json.membersHeight, max_le_iff, Json.membersHeight_le_iff, List.forall_mem_cons]

lemma Json.itemsHeight_le_iff {n : ℕ} : ∀ {items : List Json},
    Json.itemsHeight items ≤ n ↔ ∀ item ∈ items, item.height ≤ n
  | [] => by simp [Json.itemsHeight]
  | item :: items => by
      rw [Json.itemsHeight, max_le_iff, Json.itemsHeight_le_iff, List.forall_mem_cons]

end LibCmutils
