import LibCmutils.Json.Value
import LibCmutils.Lib.Utf8
import LibCmutils.String.Basic

/-!
The JSON parser (`src/nanojson.c`).

* `JsonParser`: `curr` is the text from the cursor on, without its terminating NUL,
  and `remain` the byte counter that the program keeps beside it. The line counter
  and the messages are left out.
* `jsonParseConsume`, `jsonSkipSpaces`, `jsonParseEscape`, `jsonParseString`,
  `jsonParseConst`, `jsonParseValue`: the scanner.
* `jsonParseBase`, `jsonParseObject`, `jsonParseArray`: the recursive descent, for at
  most `fuel` calls. `jsonParse` is `CMUTIL_JsonParse`.

A function is `none` where the program is stuck: the fuel is spent, or a byte behind
the terminating NUL is read. A parser that fails returns `NULL`, which is `none` next
to the state it fails in.
-/

namespace LibCmutils

/-- `double` as the C library has it: `strtod`, `none` when no characters are
converted, and the text of `%.17g`. -/
structure CDouble where
  carrier : Type
  strtod : CString → Option carrier
  print : carrier → CString

/-- `CMUTIL_JsonParser`. -/
structure JsonParser where
  curr : List UInt8
  remain : ℤ
  depth : ℕ
  deriving DecidableEq

/-- `*(pctx->curr + k)`. -/
def JsonParser.deref (pctx : JsonParser) (k : ℕ) : Option UInt8 := (pctx.curr ++ [0])[k]?

/-- `JSN_SPACES`, the characters of `" \t\r\n"`. -/
def jsnSpaces : List UInt8 := [0x20, 0x09, 0x0D, 0x0A]

/-- `JSN_DELIMS`, the characters of `":,[]{}"`. -/
def jsnDelims : List UInt8 := [0x3A, 0x2C, 0x5B, 0x5D, 0x7B, 0x7D]

/-- The line ends of a line comment, the characters of `"\r\n"`. -/
def jsnLineEnds : List UInt8 := [0x0D, 0x0A]

/-! ### Spaces and comments -/

/-- `CMUTIL_JsonParseConsume`. -/
def jsonParseConsume (pctx : JsonParser) (count : ℤ) : Option JsonParser :=
  let count := if pctx.remain < count then pctx.remain else count
  if 0 ≤ count ∧ count ≤ pctx.curr.length then
    some { pctx with curr := pctx.curr.drop count.toNat, remain := pctx.remain - count }
  else none

/-- `CMUTIL_JsonStartsWith`, on the text from the cursor `q` on. -/
def jsonStartsWith : List UInt8 → List UInt8 → Bool
  | [], _ => true
  | _ :: _, [] => false
  | p :: ps, q :: qs => p = q && jsonStartsWith ps qs

/-- The loop `while (test && remain > 0) Consume(1)`. -/
def jsonConsumeWhile (test : JsonParser → Option Bool) : ℕ → JsonParser → Option JsonParser
  | 0, _ => none
  | fuel + 1, pctx => do
      let goon ← test pctx
      if goon && 0 < pctx.remain then do
        let pctx ← jsonParseConsume pctx 1
        jsonConsumeWhile test fuel pctx
      else some pctx

/-- The part of `CMUTIL_JsonSkipSpaces` that skips one comment, `none` when there is
none at the cursor. -/
def jsonSkipComment (pctx : JsonParser) : Option (Option JsonParser) := do
  let fuel := pctx.remain.toNat + 1
  let c ← pctx.deref 0
  if 0 < pctx.remain && c = 0x2F then do
    let c ← pctx.deref 1
    if c = 0x2F then do
      -- line comment
      let pctx ← jsonParseConsume pctx 2
      let pctx ← jsonConsumeWhile (fun p => (p.deref 0).map fun c => !strchr jsnLineEnds c) fuel pctx
      some (some pctx)
    else if c = 0x2A then do
      -- block comment
      let pctx ← jsonParseConsume pctx 2
      let pctx ← jsonConsumeWhile (fun p => some !jsonStartsWith [0x2A, 0x2F] p.curr) fuel pctx
      let pctx ← if 0 < pctx.remain then jsonParseConsume pctx 2 else some pctx
      some (some pctx)
    else some none
  else some none

/-- The rounds of `CMUTIL_JsonSkipSpaces` from `RETRYPOINT` on. -/
def jsonSkipRounds : ℕ → JsonParser → Option (JsonParser × Bool)
  | 0, _ => none
  | fuel + 1, pctx => do
      let pctx ← jsonConsumeWhile (fun p => (p.deref 0).map (strchr jsnSpaces))
        (pctx.remain.toNat + 1) pctx
      match ← jsonSkipComment pctx with
      | some pctx => jsonSkipRounds fuel pctx
      | none => some (pctx, 0 < pctx.remain)

/-- `CMUTIL_JsonSkipSpaces`. -/
def jsonSkipSpaces (pctx : JsonParser) : Option (JsonParser × Bool) :=
  jsonSkipRounds (pctx.remain.toNat + 1) pctx

/-! ### Strings -/

/-- `CMUTIL_JsonAppendUTF8`. -/
def jsonAppendUTF8 (cp : ℕ) : List UInt8 := utf8Encode cp

/-- The number that four hexadecimal digits at a place of the text write. -/
def jsonHex4 (src : List UInt8) : Option ℕ :=
  match stringHexToBytes src 4 with
  | some [hi, lo] => some (hi.toNat * 256 + lo.toNat)
  | _ => none

/-- The low surrogate that must follow the high surrogate `cp`. The cursor goes from the
last digit of the one to the last digit of the other. -/
def jsonParseLowSurrogate (pctx : JsonParser) (cp : ℕ) (sbuf : List UInt8) :
    Option (JsonParser × Option (List UInt8)) :=
  if pctx.remain < 7 then some (pctx, none)
  else do
    let c1 ← pctx.deref 1
    let c2 ← pctx.deref 2
    if c1 ≠ 0x5C ∨ c2 ≠ 0x75 then some (pctx, none)
    else match jsonHex4 (pctx.curr.drop 3) with
      | none => some (pctx, none)
      | some lo =>
          if lo < 0xDC00 ∨ 0xDFFF < lo then some (pctx, none)
          else do
            let pctx ← jsonParseConsume pctx 6
            some (pctx, some (sbuf ++
              jsonAppendUTF8 (0x10000 + (cp - 0xD800) * 1024 + (lo - 0xDC00))))

/-- The case `'u'` of `CMUTIL_JsonParseEscape`, with the cursor on the `u`. It ends with
the cursor on the last digit. -/
def jsonParseUnicode (pctx : JsonParser) (sbuf : List UInt8) :
    Option (JsonParser × Option (List UInt8)) :=
  if pctx.remain < 5 then some (pctx, none)
  else match jsonHex4 (pctx.curr.drop 1) with
    | none => some (pctx, none)
    | some cp => do
        let pctx ← jsonParseConsume pctx 4
        if 0xD800 ≤ cp ∧ cp ≤ 0xDBFF then jsonParseLowSurrogate pctx cp sbuf
        else if 0xDC00 ≤ cp ∧ cp ≤ 0xDFFF then some (pctx, none)
        else some (pctx, some (sbuf ++ jsonAppendUTF8 cp))

/-- The byte a one-letter escape stands for. -/
def jsonEscapeByte (c : UInt8) : UInt8 :=
  if c = 0x62 then 0x08
  else if c = 0x66 then 0x0C
  else if c = 0x74 then 0x09
  else if c = 0x72 then 0x0D
  else if c = 0x6E then 0x0A
  else c

/-- `CMUTIL_JsonParseEscape`, from the backslash to the last byte of the escape. -/
def jsonParseEscape (pctx : JsonParser) (sbuf : List UInt8) :
    Option (JsonParser × Option (List UInt8)) := do
  let pctx ← jsonParseConsume pctx 1
  if pctx.remain ≤ 0 then some (pctx, none)
  else do
    let c ← pctx.deref 0
    if c = 0x75 then jsonParseUnicode pctx sbuf
    else some (pctx, some (sbuf ++ [jsonEscapeByte c]))

/-- The loop of `CMUTIL_JsonParseString`. It also ends when the text does. -/
def jsonParseStringLoop (isstquot : Bool) : ℕ → JsonParser → List UInt8 →
    Option (JsonParser × Option (List UInt8))
  | 0, _, _ => none
  | fuel + 1, pctx, sbuf =>
      if 0 < pctx.remain then do
        let c ← pctx.deref 0
        if c = 0x5C then do
          -- escape sequence
          let (pctx, res) ← jsonParseEscape pctx sbuf
          match res with
          | none => some (pctx, none)
          | some sbuf => do
              let pctx ← jsonParseConsume pctx 1
              jsonParseStringLoop isstquot fuel pctx sbuf
        else if isstquot && c = 0x22 then do
          let pctx ← jsonParseConsume pctx 1
          some (pctx, some sbuf)
        else if !isstquot && strchr jsnDelims c then some (pctx, some sbuf)
        else do
          let pctx ← jsonParseConsume pctx 1
          jsonParseStringLoop isstquot fuel pctx (sbuf ++ [c])
      else some (pctx, some sbuf)

/-- `CMUTIL_JsonParseString`: the string and `*isconst`. -/
def jsonParseString (pctx : JsonParser) : Option (JsonParser × Option (List UInt8 × Bool)) := do
  let (pctx, more) ← jsonSkipSpaces pctx
  if more then do
    let c ← pctx.deref 0
    let isstquot := c = 0x22
    let pctx ← if isstquot then jsonParseConsume pctx 1 else some pctx
    let (pctx, res) ← jsonParseStringLoop isstquot (pctx.remain.toNat + 1) pctx []
    some (pctx, res.map fun sbuf => (sbuf, !isstquot))
  else some (pctx, none)

/-- `CMUTIL_JsonParseConst`: the value set, `none` for a failure. -/
def jsonParseConst (cd : CDouble) (str : List UInt8) : Option Json :=
  let str := stringSelfTrim str
  let cstr := CString.ofBytes str
  let istrue := strcasecmpEq cstr (CString.ofBytes trueText)
  let isfalse := strcasecmpEq cstr (CString.ofBytes falseText)
  let isnull := strcasecmpEq cstr (CString.ofBytes nullText)
  if str.length < 5 && istrue then some (jsonValueSetBoolean true)
  else if str.length < 5 && isfalse then some (jsonValueSetBoolean false)
  else if str.length < 5 && isnull then some jsonValueSetNull
  else if strchr [0x74, 0x54, 0x66, 0x46] (cstr.1.headD 0) then
    if istrue then some (jsonValueSetBoolean true)
    else if isfalse then some (jsonValueSetBoolean false)
    else none
  else if strchr [0x6E, 0x4E] (cstr.1.headD 0) then
    if isnull then some jsonValueSetNull else none
  else if 0x2E ∈ cstr.1 then (cd.strtod cstr).map fun value => jsonValueSetDouble (cd.print value)
  else (strtoll 10 cstr.1).map fun r => jsonValueSetLong r.1

/-- `CMUTIL_JsonParseValue`. -/
def jsonParseValue (cd : CDouble) (pctx : JsonParser) : Option (JsonParser × Option Json) := do
  let (pctx, more) ← jsonSkipSpaces pctx
  if more then do
    let (pctx, res) ← jsonParseString pctx
    match res with
    | none => some (pctx, none)
    | some (sbuf, isconst) =>
        if isconst then some (pctx, jsonParseConst cd sbuf)
        else some (pctx, some (jsonValueSetString (CString.ofBytes sbuf)))
  else some (pctx, none)

/-! ### Arrays and objects -/

/-- The head of a round in `CMUTIL_JsonParseObject` and `CMUTIL_JsonParseArray`: spaces,
and whether the closing bracket follows. `none` when the text ends. -/
def jsonParseClose (close : UInt8) (pctx : JsonParser) : Option (JsonParser × Option Bool) := do
  let (pctx, more) ← jsonSkipSpaces pctx
  if more then do
    let c ← pctx.deref 0
    if c = close then do
      let pctx ← jsonParseConsume pctx 1
      some (pctx, some true)
    else some (pctx, some false)
  else some (pctx, none)

/-- The tail of a round: spaces, and the closing bracket (`true`) or a comma
(`false`). `none` when the text ends or goes on otherwise. -/
def jsonParseNext (close : UInt8) (pctx : JsonParser) : Option (JsonParser × Option Bool) := do
  let (pctx, more) ← jsonSkipSpaces pctx
  if more then do
    let c ← pctx.deref 0
    if c = close then do
      let pctx ← jsonParseConsume pctx 1
      some (pctx, some true)
    else if c = 0x2C then do
      let pctx ← jsonParseConsume pctx 1
      some (pctx, some false)
    else some (pctx, none)
  else some (pctx, none)

/-- The name of a member up to its colon. -/
def jsonParseName (pctx : JsonParser) : Option (JsonParser × Option CString) := do
  let (pctx, name) ← jsonParseString pctx
  match name with
  | none => some (pctx, none)
  | some (name, _) => do
      let (pctx, more) ← jsonSkipSpaces pctx
      if more then do
        let c ← pctx.deref 0
        if c = 0x3A then do
          let pctx ← jsonParseConsume pctx 1
          some (pctx, some (CString.ofBytes name))
        else some (pctx, none)
      else some (pctx, none)

mutual

/-- `CMUTIL_JsonParseBase`. -/
def jsonParseBase (cd : CDouble) : ℕ → JsonParser → Option (JsonParser × Option Json)
  | 0, _ => none
  | fuel + 1, pctx =>
      if 512 ≤ pctx.depth then some (pctx, none)
      else do
        let (pctx, more) ← jsonSkipSpaces { pctx with depth := pctx.depth + 1 }
        if more then do
          let c ← pctx.deref 0
          let (pctx, res) ← (if c = 0x7B then jsonParseObject cd fuel pctx
            else if c = 0x5B then jsonParseArray cd fuel pctx
            else jsonParseValue cd pctx)
          some ({ pctx with depth := pctx.depth - 1 }, res)
        else some ({ pctx with depth := pctx.depth - 1 }, none)

/-- `CMUTIL_JsonParseObject`. -/
def jsonParseObject (cd : CDouble) : ℕ → JsonParser → Option (JsonParser × Option Json)
  | 0, _ => none
  | fuel + 1, pctx => do
      let c ← pctx.deref 0
      if c = 0x7B then do
        let pctx ← jsonParseConsume pctx 1
        jsonParseMembers cd fuel pctx []
      else some (pctx, none)

/-- The loop of `CMUTIL_JsonParseObject`. It also ends when the text does. -/
def jsonParseMembers (cd : CDouble) :
    ℕ → JsonParser → List (CString × Json) → Option (JsonParser × Option Json)
  | 0, _, _ => none
  | fuel + 1, pctx, entries =>
      if 0 < pctx.remain then do
        let (pctx, close) ← jsonParseClose 0x7D pctx
        match close with
        | none => some (pctx, none)
        | some true => some (pctx, some (.object entries))
        | some false => do
            let (pctx, name) ← jsonParseName pctx
            match name with
            | none => some (pctx, none)
            | some name => do
                let (pctx, value) ← jsonParseBase cd fuel pctx
                match value with
                | none => some (pctx, none)
                | some value => do
                    let entries := jsonObjectPut entries name value
                    let (pctx, next) ← jsonParseNext 0x7D pctx
                    match next with
                    | none => some (pctx, none)
                    | some true => some (pctx, some (.object entries))
                    | some false => jsonParseMembers cd fuel pctx entries
      else some (pctx, some (.object entries))

/-- `CMUTIL_JsonParseArray`. -/
def jsonParseArray (cd : CDouble) : ℕ → JsonParser → Option (JsonParser × Option Json)
  | 0, _ => none
  | fuel + 1, pctx => do
      let c ← pctx.deref 0
      if c = 0x5B then do
        let pctx ← jsonParseConsume pctx 1
        jsonParseItems cd fuel pctx []
      else some (pctx, none)

/-- The loop of `CMUTIL_JsonParseArray`. It also ends when the text does. -/
def jsonParseItems (cd : CDouble) :
    ℕ → JsonParser → List Json → Option (JsonParser × Option Json)
  | 0, _, _ => none
  | fuel + 1, pctx, items =>
      if 0 < pctx.remain then do
        let (pctx, close) ← jsonParseClose 0x5D pctx
        match close with
        | none => some (pctx, none)
        | some true => some (pctx, some (.array items))
        | some false => do
            let (pctx, item) ← jsonParseBase cd fuel pctx
            match item with
            | none => some (pctx, none)
            | some item => do
                let items := jsonArrayAdd items item
                let (pctx, next) ← jsonParseNext 0x5D pctx
                match next with
                | none => some (pctx, none)
                | some true => some (pctx, some (.array items))
                | some false => jsonParseItems cd fuel pctx items
      else some (pctx, some (.array items))

end

/-- `CMUTIL_JsonParseInternal`: the final state of the parser and its result. -/
def jsonParseInternal (cd : CDouble) (jsonstr : List UInt8) : Option (JsonParser × Option Json) :=
  jsonParseBase cd (3 * jsonstr.length + 1) { curr := jsonstr, remain := jsonstr.length, depth := 0 }

/-- `CMUTIL_JsonParse`. -/
def jsonParse (cd : CDouble) (jsonstr : List UInt8) : Option (Option Json) :=
  (jsonParseInternal cd jsonstr).map Prod.snd

end LibCmutils
