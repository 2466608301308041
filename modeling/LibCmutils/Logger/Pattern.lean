import LibCmutils.Lib.TimeFormat
import LibCmutils.Logger.Appender
import LibCmutils.Logger.Basic
import LibCmutils.String.Split

/-!
Log patterns (`src/logger.c`): what an appender makes of its pattern when it is created, and
of a message when one is logged.

* `logPatternParse`: the items of a pattern. `logPatternSpec` reads one conversion, and
  `logPatternItems` is the `switch` that makes its items.
* `logPatternAppend`, `logAppenderLine`: the text of an item, and of all of them.
* `concatTexts`: texts that can fail, one behind the other; `concatTexts_eq_ok`.
* `logPatternParse_ne_stuck`: the fuel of the loop is enough.

A write outside of a buffer, and a call through `NULL`, are an error of their own. `long` has
64 bits, and memory does not run out. What the functions log themselves is left out. `strftime`
is `formatText` over a parameter, the text of each of its conversions.
-/

namespace LibCmutils

/-! ### Data -/

/-- `CMUTIL_LogFormatType`. -/
inductive LogFormatType where
  | dateTime | loggerName | threadId | processId | fileName | lineNumber | logLevel | message
  | environment | hostName | stack | lineSeparator
  deriving DecidableEq

/-- `CMUTIL_LogFormatItemType`, without the one that no item has. -/
inductive LogFormatItemType where
  | dateTime | millisec | string | loggerName | threadId | fileName | lineNumber | logLevel
  | message | stack
  deriving DecidableEq

/-- `CMUTIL_LogAppenderFormatItem`. `precision` is the part of the array that was written, and
`anything` lists what was put in the map of the levels, the latest first. -/
structure LogAppenderFormatItem where
  type : LogFormatItemType
  padleft : Bool
  precision : List ℕ
  precisioncnt : ℕ
  hasext : Bool
  length : ℕ
  limit : ℤ
  data : List UInt8
  anything : List (List UInt8 × List UInt8)
  zero : Bool
  deriving DecidableEq

/-- The reasons to reject a pattern, a memory error, and the end of the fuel. -/
inductive LogPatternError where
  | unknownPattern
  | braceMismatch
  | invalidDate
  | outOfBounds
  | stuck
  deriving DecidableEq

/-- What a pattern asks the system for. -/
structure LogEnvironment where
  pid : ℤ
  getenv : List UInt8 → Option (List UInt8)
  hostname : Option (List UInt8)

/-- `CMUTIL_LogPatternAppendFuncParam`, with the name of the thread. A stack that is `NULL`
is empty. -/
structure LogPatternAppendFuncParam where
  level : LogLevel
  linenum : ℤ
  fullname : List UInt8
  namepath : List (List UInt8)
  stack : List (List UInt8)
  logtm : Tm
  millis : ℕ
  fname : List UInt8
  thread : List UInt8
  logmsg : List UInt8
  linenum_range : -2 ^ 31 ≤ linenum ∧ linenum < 2 ^ 31
  millis_lt : millis < 1000
  fname_ne : fname ≠ []
  namepath_ne : namepath ≠ []

/-- `g_cmutil_log_item_map`: `d`, `date`, `c`, `logger`, and so on. -/
def logItemMap : List (List UInt8 × LogFormatType) :=
  [ ([0x64], .dateTime),
    ([0x64, 0x61, 0x74, 0x65], .dateTime),
    ([0x63], .loggerName),
    ([0x6C, 0x6F, 0x67, 0x67, 0x65, 0x72], .loggerName),
    ([0x74], .threadId),
    ([0x74, 0x69, 0x64], .threadId),
    ([0x74, 0x68, 0x72, 0x65, 0x61, 0x64], .threadId),
    ([0x50], .processId),
    ([0x70, 0x69, 0x64], .processId),
    ([0x70, 0x72, 0x6F, 0x63, 0x65, 0x73, 0x73], .processId),
    ([0x46], .fileName),
    ([0x66, 0x69, 0x6C, 0x65], .fileName),
    ([0x4C], .lineNumber),
    ([0x6C, 0x69, 0x6E, 0x65], .lineNumber),
    ([0x70], .logLevel),
    ([0x6C, 0x65, 0x76, 0x65, 0x6C], .logLevel),
    ([0x6D], .message),
    ([0x6D, 0x73, 0x67], .message),
    ([0x6D, 0x65, 0x73, 0x73, 0x61, 0x67, 0x65], .message),
    ([0x65], .environment),
    ([0x65, 0x6E, 0x76], .environment),
    ([0x65, 0x6E, 0x76, 0x69, 0x72, 0x6F, 0x6E, 0x6D, 0x65, 0x6E, 0x74], .environment),
    ([0x65, 0x78], .stack),
    ([0x73], .stack),
    ([0x73, 0x74, 0x61, 0x63, 0x6B], .stack),
    ([0x6E], .lineSeparator) ]

/-- `g_cmutil_log_datefmt_map`: `DEFAULT`, `ISO8601`, `ISO8601_BASIC`, `ABSOLUTE`, `DATE`,
`COMPACT`, `GENERAL` and `UNIX`. -/
def logDatefmtMap : List (List UInt8 × List UInt8) :=
  -- `%F %T.%Q`
  [ ([0x44, 0x45, 0x46, 0x41, 0x55, 0x4C, 0x54],
      [0x25, 0x46, 0x20, 0x25, 0x54, 0x2E, 0x25, 0x51]),
    -- `%FT%T.%Q`
    ([0x49, 0x53, 0x4F, 0x38, 0x36, 0x30, 0x31],
      [0x25, 0x46, 0x54, 0x25, 0x54, 0x2E, 0x25, 0x51]),
    -- `%Y%m%dT%H%M%S.%Q`
    ([0x49, 0x53, 0x4F, 0x38, 0x36, 0x30, 0x31, 0x5F, 0x42, 0x41, 0x53, 0x49, 0x43],
      [0x25, 0x59, 0x25, 0x6D, 0x25, 0x64, 0x54, 0x25, 0x48, 0x25, 0x4D, 0x25, 0x53, 0x2E, 0x25,
       0x51]),
    -- `%T.%Q`
    ([0x41, 0x42, 0x53, 0x4F, 0x4C, 0x55, 0x54, 0x45],
      [0x25, 0x54, 0x2E, 0x25, 0x51]),
    -- `%d %b %Y %T.%Q`
    ([0x44, 0x41, 0x54, 0x45],
      [0x25, 0x64, 0x20, 0x25, 0x62, 0x20, 0x25, 0x59, 0x20, 0x25, 0x54, 0x2E, 0x25, 0x51]),
    -- `%Y%m%d%H%M%S.%Q`
    ([0x43, 0x4F, 0x4D, 0x50, 0x41, 0x43, 0x54],
      [0x25, 0x59, 0x25, 0x6D, 0x25, 0x64, 0x25, 0x48, 0x25, 0x4D, 0x25, 0x53, 0x2E, 0x25,
       0x51]),
    -- `%Y%m%d %H%M%S.%Q`
    ([0x47, 0x45, 0x4E, 0x45, 0x52, 0x41, 0x4C],
      [0x25, 0x59, 0x25, 0x6D, 0x25, 0x64, 0x20, 0x25, 0x48, 0x25, 0x4D, 0x25, 0x53, 0x2E, 0x25,
       0x51]),
    -- `%s%Q`
    ([0x55, 0x4E, 0x49, 0x58],
      [0x25, 0x73, 0x25, 0x51]) ]

/-- `g_cmutil_log_levels`. -/
def LogLevel.text : LogLevel → List UInt8
  | .trace => [0x54, 0x52, 0x41, 0x43, 0x45]
  | .debug => [0x44, 0x45, 0x42, 0x55, 0x47]
  | .info => [0x49, 0x4E, 0x46, 0x4F]
  | .warn => [0x57, 0x41, 0x52, 0x4E]
  | .error => [0x45, 0x52, 0x52, 0x4F, 0x52]
  | .fatal => [0x46, 0x41, 0x54, 0x41, 0x4C]

/-! ### Numbers -/

/-- `atoi`, stored in 32 bits without a sign. -/
def atoiUnsigned (s : List UInt8) : ℕ := (intStrtol s % 2 ^ 32).toNat

/-- A printed number as 32 bits without a sign. -/
lemma atoiUnsigned_decimal (n : ℕ) : atoiUnsigned (decimal n) = min n (2 ^ 63 - 1) % 2 ^ 32 := by
  rw [atoiUnsigned, intStrtol_decimal]
  rw [Int.bmod_def]
  omega

/-- The conversions `%*d` and `%*s` of `printf`, `%-*d` and `%-*s` with `left`. A negative
width is the flag and a width, and one that is too large for an `int` is an error. -/
def printfField (left : Bool) (width : ℤ) (text : List UInt8) : Option (List UInt8) :=
  let fill := List.replicate (width.natAbs - text.length) 0x20
  if 2 ^ 31 ≤ width.natAbs then none
  else if left || width < 0 then some (text ++ fill)
  else some (fill ++ text)

/-- The conversion `%0*d`. -/
def printfZero (width n : ℤ) : Option (List UInt8) :=
  let sign := if n < 0 then [0x2D] else []
  let zeros := List.replicate (width.natAbs - (printInt n).length) 0x30
  if width < 0 then printfField true width (printInt n)
  else if 2 ^ 31 ≤ width.natAbs then none
  else some (sign ++ zeros ++ decimal n.natAbs)

/-! ### Reading a pattern -/

/-- `CMUTIL_StrNextToken`: the token, and what follows it. -/
def strNextToken (buflen : ℕ) (src delim : List UInt8) : List UInt8 × List UInt8 :=
  let dest := (src.takeWhile fun c => !strchr delim c).take (buflen - 1)
  (dest, src.drop dest.length)

/-- A conversion: its type, the numbers before its name, and the text in braces. -/
structure LogPatternSpec where
  type : LogFormatType
  length : ℕ
  limit : ℤ
  padleft : Bool
  zero : Bool
  ext : Option (List UInt8)
  deriving DecidableEq

/-- `+-0123456789`. -/
def logPatternNumberChars : List UInt8 :=
  [0x2B, 0x2D, 0x30, 0x31, 0x32, 0x33, 0x34, 0x35, 0x36, 0x37, 0x38, 0x39]

/-- The numbers of a conversion: length, limit, `padleft` and `zero`, and what follows. A limit
that is not given is -1. -/
def logPatternWidth : List UInt8 → (ℕ × ℤ × Bool × Bool) × List UInt8
  | [] => ((0, -1, false, false), [])
  | c :: q =>
      if logPatternNumberChars.contains c then
        let p := if c = 0x2B ∨ c = 0x2D then q else c :: q
        -- digits and points, as many as `buf` holds
        let buf := (p.takeWhile fun d => d == 0x2E || isDigit 10 d).take 127
        let number := strchrPrefix 0x2E buf
        let limit := ((strchrSplit 0x2E buf).map fun r => intStrtol r.2).getD (-1)
        ((atoiUnsigned number, limit, c == 0x2D, number.head? == some 0x30), p.drop buf.length)
      else ((0, -1, false, false), c :: q)

/-- The text in braces behind the name of a conversion. It is copied to `buf`. -/
def logPatternExt : List UInt8 → Except LogPatternError (Option (List UInt8) × List UInt8)
  | [] => .ok (none, [])
  | c :: r =>
      if c = 0x7B then
        match strchrSplit 0x7D r with
        | none => .error .braceMismatch
        | some (ext, q) =>
            if ext.length < 128 then .ok (some ext, q) else .error .outOfBounds
      else .ok (none, c :: r)

/-- The delimiters of the name of a conversion. -/
def logPatternDelims : List UInt8 :=
  [0x20, 0x09, 0x0D, 0x0A, 0x7B, 0x7D, 0x5B, 0x5D, 0x3A, 0x3B, 0x2C, 0x2E, 0x21, 0x40, 0x23,
   0x24, 0x25, 0x5E, 0x26, 0x2A, 0x28, 0x29, 0x2D, 0x2B, 0x5F, 0x3D, 0x2F, 0x5C, 0x7C]

/-- The conversion behind a percent sign, and what follows it. -/
def logPatternSpec (q : List UInt8) : Except LogPatternError (LogPatternSpec × List UInt8) :=
  let width := logPatternWidth q
  let token := strNextToken 20 width.2 logPatternDelims
  match logItemMap.lookup token.1 with
  | none => .error .unknownPattern
  | some type =>
      (logPatternExt token.2).map fun r =>
        (⟨type, width.1.1, width.1.2.1, width.1.2.2.1, width.1.2.2.2, r.1⟩, r.2)

/-! ### Items -/

/-- `CMUTIL_LogAppenderItemCreate`. -/
def logAppenderItemCreate (type : LogFormatItemType) : LogAppenderFormatItem where
  type := type
  padleft := false
  precision := []
  precisioncnt := 0
  hasext := false
  length := 0
  limit := 0
  data := []
  anything := []
  zero := false

/-- `CMUTIL_LogAppenderItemString`. -/
def logAppenderItemString (a : List UInt8) : LogAppenderFormatItem :=
  { logAppenderItemCreate .string with data := a }

/-- What a conversion without a case of its own does to its item. -/
def LogPatternSpec.item (spec : LogPatternSpec) (item : LogAppenderFormatItem) :
    LogAppenderFormatItem :=
  { item with
    length := spec.length
    limit := spec.limit
    padleft := spec.padleft
    hasext := spec.ext.isSome
    zero := spec.zero }

/-- The item of a part of a date format, when there is something in it. -/
def logDateItem (s : List UInt8) : List LogAppenderFormatItem :=
  if s = [] then [] else [{ logAppenderItemCreate .dateTime with data := s }]

/-- The item of the milliseconds. -/
def logMillisItem (hasext : Bool) : LogAppenderFormatItem :=
  { logAppenderItemCreate .millisec with hasext := hasext }

/-- The loop over the parts of a date format. -/
def logDatePieceItems (hasext : Bool) : List (List UInt8) → List LogAppenderFormatItem
  | [] => []
  | [s] => logDateItem s
  | s :: arr => logDateItem s ++ logMillisItem hasext :: logDatePieceItems hasext arr

/-- The conversion of milliseconds in a date format, `q` or `Q`. The one that is looked for
first is the only one that counts. -/
def logDateMilli (buf : List UInt8) : Option UInt8 :=
  if (strstrSplit [0x25, 0x71] buf).isSome then some 0x71
  else if (strstrSplit [0x25, 0x51] buf).isSome then some 0x51
  else none

/-- A date format, by its name when no percent sign is in it. -/
def logDateFormat (buf : List UInt8) : Option (List UInt8) :=
  if buf.contains 0x25 then some buf else logDatefmtMap.lookup buf

/-- The case `LogType_DateTime`. -/
def logDateItems : Option (List UInt8) → Except LogPatternError (List LogAppenderFormatItem)
  -- `%F %T.`
  | none => .ok [{ logAppenderItemCreate .dateTime with
      data := [0x25, 0x46, 0x20, 0x25, 0x54, 0x2E], hasext := true }, logMillisItem true]
  | some buf =>
      match logDateFormat buf with
      | none => .error .invalidDate
      | some dfmt =>
          match logDateMilli dfmt with
          | some c => .ok (logDatePieceItems (c == 0x51) (stringSplitInternal dfmt [0x25, c]))
          | none => .ok [{ logAppenderItemCreate .dateTime with data := dfmt }]

/-- The numbers between points in the braces of a logger name, and how many there is room
for. -/
def logPrecisions : ℕ → List UInt8 → List ℕ
  | 0, _ => []
  | pmax + 1, p =>
      match strchrSplit 0x2E p with
      | none => []
      | some (s, q) => (if s = [] then 0 else atoiUnsigned (s.take 9)) :: logPrecisions pmax q

/-- The case `LogType_LoggerName`, with the text in braces. -/
def logLoggerNameItem (buf : List UInt8) : LogAppenderFormatItem :=
  let precision := logPrecisions 9 buf
  let precision := if precision = [] then [atoiUnsigned buf] else precision ++ [0]
  { logAppenderItemCreate .loggerName with
    precision := precision
    precisioncnt := precision.length }

/-- `CMUTIL_LogTokenPillOff`. A string of one quote has no size without it, and one of two
characters is not created again. -/
def logTokenPillOff : List UInt8 → Except LogPatternError (List UInt8)
  | [] => .ok []
  | c :: s =>
      if c = 0x27 ∨ c = 0x22 then
        if s.length < 2 then .error .outOfBounds else .ok s.dropLast
      else .ok (c :: s)

/-- The texts of the levels that have none yet. -/
def logLevelTexts (map : List (List UInt8 × List UInt8)) (text : List UInt8 → List UInt8) :
    List (List UInt8 × List UInt8) :=
  [LogLevel.trace, .debug, .info, .warn, .error, .fatal].foldl
    (fun map level =>
      if (map.lookup level.text).isSome then map else (level.text, text level.text) :: map) map

/-- An entry of the braces of a level: `length`, `lowerCase`, or the name of a level. -/
def logLevelEntry (map : List (List UInt8 × List UInt8)) (str : List UInt8) :
    Except LogPatternError (List (List UInt8 × List UInt8)) :=
  match stringSplitInternal str [0x3D] with
  | [ks, vs] =>
      if ks.map tolower = [0x6C, 0x65, 0x6E, 0x67, 0x74, 0x68] then
        let slen := ((strtoll 10 vs).map Prod.fst).getD 0
        if 0 < slen then .ok (logLevelTexts map (List.take (slen % 2 ^ 32).toNat)) else .ok map
      else if ks.map tolower = [0x6C, 0x6F, 0x77, 0x65, 0x72, 0x63, 0x61, 0x73, 0x65] then
        .ok (logLevelTexts map (List.map tolower))
      else (logTokenPillOff vs).map fun val => (ks, val) :: map
  | _ => .ok map

/-- `CMUTIL_LogPatternLogLevelParse`. -/
def logPatternLogLevelParse (extra : List UInt8) :
    Except LogPatternError (List (List UInt8 × List UInt8)) :=
  (stringSplitInternal extra [0x2C]).foldlM logLevelEntry []

/-- The text of a process number, which is the same in every line. -/
def logProcessIdText (spec : LogPatternSpec) (pid : ℤ) : List UInt8 :=
  if spec.length ≠ 0 then
    if spec.zero then (printfZero (toInt spec.length) pid).getD []
    else (printfField (!spec.padleft) (toInt spec.length) (printInt pid)).getD []
  else printInt pid

/-- The text of an environment variable. -/
def logEnvironmentText (spec : LogPatternSpec) (value : Option (List UInt8)) : List UInt8 :=
  if spec.length ≠ 0 then
    (printfField (!spec.padleft) (toInt spec.length) (value.getD [])).getD []
  else value.getD []

/-- The items of a conversion. -/
def logPatternItems (env : LogEnvironment) (spec : LogPatternSpec) :
    Except LogPatternError (List LogAppenderFormatItem) :=
  match spec.type with
  | .dateTime => logDateItems spec.ext
  | .loggerName => .ok [spec.item ((spec.ext.map logLoggerNameItem).getD
      (logAppenderItemCreate .loggerName))]
  | .threadId => .ok [spec.item (logAppenderItemCreate .threadId)]
  | .processId => .ok [spec.item (logAppenderItemString (logProcessIdText spec env.pid))]
  | .fileName => .ok [spec.item (logAppenderItemCreate .fileName)]
  | .lineNumber => .ok [spec.item (logAppenderItemCreate .lineNumber)]
  | .logLevel =>
      match spec.ext with
      | none => .ok [spec.item (logAppenderItemCreate .logLevel)]
      | some buf => (logPatternLogLevelParse buf).map fun map =>
          [spec.item { logAppenderItemCreate .logLevel with anything := map }]
  | .message => .ok [spec.item (logAppenderItemCreate .message)]
  | .environment =>
      match spec.ext with
      | none => .ok []
      | some buf =>
          .ok [spec.item (logAppenderItemString (logEnvironmentText spec (env.getenv buf)))]
  -- `unknown`
  | .hostName => .ok [spec.item (logAppenderItemString
      (env.hostname.getD [0x75, 0x6E, 0x6B, 0x6E, 0x6F, 0x77, 0x6E]))]
  | .stack => .ok [spec.item { logAppenderItemCreate .stack with
      precisioncnt := (spec.ext.map atoiUnsigned).getD 0 }]
  | .lineSeparator => .ok [spec.item (logAppenderItemString [0x0A])]

/-- The loop of `CMUTIL_LogPatternParse`: it goes on while there is a percent sign. -/
def logPatternLoop (env : LogEnvironment) : ℕ → List UInt8 →
    Except LogPatternError (List LogAppenderFormatItem)
  | 0, _ => .error .stuck
  | fuel + 1, p =>
      match strchrSplit 0x25 p with
      | none => .ok []
      | some (s, q) =>
          let former := if s = [] then [] else [logAppenderItemString s]
          if q.head? = some 0x25 then
            (logPatternLoop env fuel q.tail).map fun rest =>
              former ++ logAppenderItemString [0x25] :: rest
          else do
            let r ← logPatternSpec q
            let items ← logPatternItems env r.1
            let rest ← logPatternLoop env fuel r.2
            .ok (former ++ (items ++ rest))

/-- `CMUTIL_LogPatternParse`. -/
def logPatternParse (env : LogEnvironment) (pattern : CString) :
    Except LogPatternError (List LogAppenderFormatItem) :=
  logPatternLoop env (pattern.1.length + 1) pattern.1

/-! ### Lines -/

/-- `CMUTIL_LogPatternAppendPadding`, with 183 spaces. -/
def logPatternAppendPadding (item : LogAppenderFormatItem) (data : List UInt8) : List UInt8 :=
  if data.length < item.length then
    let padsz := min (item.length - data.length) 183
    if item.padleft then List.replicate padsz 0x20 ++ data
    else data ++ List.replicate padsz 0x20
  else if 0 < item.limit ∧ item.limit < data.length then
    if item.padleft then data.drop (data.length - item.limit.toNat)
    else data.take item.limit.toNat
  else data

/-- `strftime`, with a buffer of 50 bytes. -/
def logStrftime (conv : List UInt8 → Tm → List UInt8) (fmt : List UInt8) (tm : Tm) :
    List UInt8 :=
  let text := formatText (fun spec => conv spec tm) none fmt
  if text.length < 50 then text else []

/-- `%03ld`. -/
def logMillisText (millis : ℕ) : List UInt8 := (printfZero 3 millis).getD []

/-- The name that `CMUTIL_LogPatternAppendLoggerName` puts together. Sizes and indices are
`uint32_t`; `last` is `tsize - 1`. -/
def logLoggerNameText (item : LogAppenderFormatItem) (fullname : List UInt8)
    (namepath : List (List UInt8)) : List UInt8 :=
  let tsize := namepath.length % 2 ^ 32
  let last := (tsize + 2 ^ 32 - 1) % 2 ^ 32
  let precision := item.precision.getD 0 0
  match item.precisioncnt with
  | 1 =>
      let first := (tsize + 2 ^ 32 - precision) % 2 ^ 32
      ((List.range' first (last - first)).flatMap fun i => namepath.getD i [] ++ [0x2E])
        ++ namepath.getD last []
  | 2 =>
      ((List.range last).flatMap fun i => (namepath.getD i []).take precision ++ [0x2E])
        ++ namepath.getD last []
  | _ => fullname

/-- The characters that `CMUTIL_LogPatternAppendFileName` looks for. -/
def isPathSeparator (c : UInt8) : Bool := c == 0x2F || c == 0x5C

/-- The part of a path that `CMUTIL_LogPatternAppendFileName` prints: its loop goes back to a
separator or to the first character, which is not counted. The size is a `uint32_t`; `last` is
`tsize - 1`. -/
def logFileNameText (fname : List UInt8) : List UInt8 :=
  let last := (fname.length % 2 ^ 32 + 2 ^ 32 - 1) % 2 ^ 32
  let size :=
    ((fname.take (last + 1)).reverse.dropLast.takeWhile fun c => !isPathSeparator c).length
  let p := fname.drop (last - size)
  (if isPathSeparator (p.headD 0) then p.tail else p).take size

/-- `CMUTIL_LogPatternAppendLineNumber` up to the padding, with a buffer of 20 bytes. -/
def logLineNumberText (item : LogAppenderFormatItem) (linenum : ℤ) :
    Except LogPatternError (List UInt8) :=
  match if item.zero then printfZero (toInt item.length) linenum else some (printInt linenum) with
  | none => .error .outOfBounds
  | some buf => if buf.length < 20 then .ok buf else .error .outOfBounds

/-- The text that `CMUTIL_LogPatternAppendLogLevel` chooses. -/
def logLevelText (item : LogAppenderFormatItem) (level : LogLevel) : List UInt8 :=
  if item.hasext then (item.anything.lookup level.text).getD level.text else level.text

/-- `CMUTIL_LogPatternAppendStack`. -/
def logStackText (item : LogAppenderFormatItem) (stack : List (List UInt8)) : List UInt8 :=
  if stack = [] then []
  else (List.range (if item.hasext then item.precisioncnt else stack.length)).flatMap fun i =>
    0x0A :: stack.getD i []

/-- `g_cmutil_log_pattern_funcs`: what an item appends to the line. -/
def logPatternAppend (conv : List UInt8 → Tm → List UInt8) (param : LogPatternAppendFuncParam)
    (item : LogAppenderFormatItem) : Except LogPatternError (List UInt8) :=
  match item.type with
  | .dateTime => .ok (logPatternAppendPadding item (logStrftime conv item.data param.logtm))
  | .millisec => .ok (logMillisText param.millis)
  | .string => .ok (logPatternAppendPadding item item.data)
  | .loggerName =>
      .ok (logPatternAppendPadding item (logLoggerNameText item param.fullname param.namepath))
  | .threadId => .ok (logPatternAppendPadding item param.thread)
  | .fileName => .ok (logPatternAppendPadding item (logFileNameText param.fname))
  | .lineNumber => (logLineNumberText item param.linenum).map (logPatternAppendPadding item)
  | .logLevel => .ok (logPatternAppendPadding item (logLevelText item param.level))
  | .message => .ok (logPatternAppendPadding item param.logmsg)
  | .stack => .ok (logStackText item param.stack)

/-- A text behind another one, when both succeed. -/
def appendTexts (x y : Except LogPatternError (List UInt8)) :
    Except LogPatternError (List UInt8) := do
  let text ← x
  let rest ← y
  .ok (text ++ rest)

/-- Texts one behind the other. -/
def concatTexts : List (Except LogPatternError (List UInt8)) → Except LogPatternError (List UInt8)
  | [] => .ok []
  | x :: xs => appendTexts x (concatTexts xs)

/-- The line that `CMUTIL_LogAppenderBaseAppend` creates from the items of its pattern. -/
def logAppenderLine (conv : List UInt8 → Tm → List UInt8) (param : LogPatternAppendFuncParam)
    (pattern : List LogAppenderFormatItem) : Except LogPatternError (List UInt8) :=
  concatTexts (pattern.map (logPatternAppend conv param))

/-! ### Texts one behind the other -/

/-- The text of a success. -/
def okText : Except LogPatternError (List UInt8) → List UInt8
  | .ok text => text
  | .error _ => []

@[simp] lemma okText_ok (text : List UInt8) : okText (.ok text) = text := rfl

lemma concatTexts_eq_ok {l : List (Except LogPatternError (List UInt8))} {text : List UInt8} :
    concatTexts l = .ok text ↔ (∀ x ∈ l, ∃ t, x = .ok t) ∧ text = l.flatMap okText := by
  induction l generalizing text with
  | nil => simp [concatTexts, eq_comm]
  | cons x l ih =>
      cases x with
      | error e => simp [concatTexts, appendTexts, bind, Except.bind]
      | ok t =>
          cases hl : concatTexts l with
          | error e =>
              have hno : ¬ ∀ x ∈ l, ∃ t, x = .ok t := fun h => by
                have := ih.mpr ⟨h, rfl⟩
                rw [hl] at this
                exact absurd this (by simp)
              simp only [concatTexts, appendTexts, bind, Except.bind, hl, reduceCtorEq,
                List.mem_cons, forall_eq_or_imp, false_iff, not_and]
              exact fun h => absurd h.2 hno
          | ok rest =>
              obtain ⟨hall, hrest⟩ := ih.mp hl
              simp only [concatTexts, appendTexts, bind, Except.bind, hl, Except.ok.injEq,
                List.mem_cons, forall_eq_or_imp, List.flatMap_cons, okText, hrest]
              exact ⟨fun h => ⟨⟨⟨t, rfl⟩, hall⟩, h.symm⟩, fun h => h.2.symm⟩

lemma concatTexts_append (l₁ l₂ : List (Except LogPatternError (List UInt8))) :
    concatTexts (l₁ ++ l₂) = appendTexts (concatTexts l₁) (concatTexts l₂) := by
  induction l₁ with
  | nil => cases h : concatTexts l₂ <;> simp [concatTexts, appendTexts, bind, Except.bind, h]
  | cons x l₁ ih =>
      rw [List.cons_append, concatTexts, ih, concatTexts]
      cases x with
      | error e => rfl
      | ok t =>
          cases concatTexts l₁ with
          | error e => rfl
          | ok text =>
              cases concatTexts l₂ with
              | error e => rfl
              | ok rest => simp [appendTexts, bind, Except.bind]

/-- The lines of two lists of items. -/
lemma logAppenderLine_append (conv : List UInt8 → Tm → List UInt8)
    (param : LogPatternAppendFuncParam) (l₁ l₂ : List LogAppenderFormatItem) :
    logAppenderLine conv param (l₁ ++ l₂)
      = appendTexts (logAppenderLine conv param l₁) (logAppenderLine conv param l₂) := by
  rw [logAppenderLine, List.map_append, concatTexts_append]
  rfl

lemma logAppenderLine_cons (conv : List UInt8 → Tm → List UInt8)
    (param : LogPatternAppendFuncParam) (item : LogAppenderFormatItem)
    (l : List LogAppenderFormatItem) :
    logAppenderLine conv param (item :: l)
      = appendTexts (logPatternAppend conv param item) (logAppenderLine conv param l) :=
  rfl

lemma logAppenderLine_singleton (conv : List UInt8 → Tm → List UInt8)
    (param : LogPatternAppendFuncParam) (item : LogAppenderFormatItem) :
    logAppenderLine conv param [item] = logPatternAppend conv param item := by
  rw [logAppenderLine_cons, logAppenderLine]
  cases logPatternAppend conv param item with
  | error e => rfl
  | ok text => simp [concatTexts, appendTexts, bind, Except.bind]

/-- An item without a width or a limit prints its text as it is. -/
lemma logPatternAppendPadding_plain {item : LogAppenderFormatItem} (hlength : item.length = 0)
    (hlimit : item.limit ≤ 0) (data : List UInt8) : logPatternAppendPadding item data = data := by
  rw [logPatternAppendPadding, if_neg (by omega), if_neg (by omega)]

lemma logPatternAppend_string (conv : List UInt8 → Tm → List UInt8)
    (param : LogPatternAppendFuncParam) (s : List UInt8) :
    logPatternAppend conv param (logAppenderItemString s) = .ok s :=
  congrArg Except.ok (logPatternAppendPadding_plain rfl le_rfl s)

/-! ### The fuel of the loop -/

lemma logPatternExt_suffix {q : List UInt8} {r : Option (List UInt8) × List UInt8}
    (h : logPatternExt q = .ok r) : r.2 <:+ q := by
  cases q with
  | nil =>
      rw [logPatternExt, Except.ok.injEq] at h
      rw [← h]
  | cons c q =>
      rw [logPatternExt] at h
      split_ifs at h with hc
      · cases hs : strchrSplit 0x7D q with
        | none =>
            rw [hs] at h
            exact absurd h (by simp)
        | some p =>
            obtain ⟨ext, rest⟩ := p
            rw [hs] at h
            simp only at h
            split_ifs at h with hext
            rw [Except.ok.injEq] at h
            rw [← h, strchrSplit_eq hs]
            exact ⟨c :: (ext ++ [0x7D]), by simp⟩
      · rw [Except.ok.injEq] at h
        rw [← h]

lemma logPatternWidth_suffix (q : List UInt8) : (logPatternWidth q).2 <:+ q := by
  cases q with
  | nil => exact List.suffix_refl _
  | cons c q =>
      by_cases hc : logPatternNumberChars.contains c = true
      · rw [logPatternWidth, if_pos hc]
        by_cases hsign : c = 0x2B ∨ c = 0x2D
        · simp only [if_pos hsign]
          exact (List.drop_suffix _ _).trans (List.suffix_cons c q)
        · simp only [if_neg hsign]
          exact List.drop_suffix _ _
      · rw [logPatternWidth, if_neg hc]

/-- A conversion that is read: its numbers, its type and what is in braces behind it. -/
lemma logPatternSpec_eq_ok {q : List UInt8} {r : LogPatternSpec × List UInt8}
    (h : logPatternSpec q = .ok r) :
    ∃ type ext,
      logItemMap.lookup (strNextToken 20 (logPatternWidth q).2 logPatternDelims).1 = some type ∧
      logPatternExt (strNextToken 20 (logPatternWidth q).2 logPatternDelims).2 = .ok ext ∧
      r = (⟨type, (logPatternWidth q).1.1, (logPatternWidth q).1.2.1, (logPatternWidth q).1.2.2.1,
        (logPatternWidth q).1.2.2.2, ext.1⟩, ext.2) := by
  simp only [logPatternSpec] at h
  cases hmap : logItemMap.lookup (strNextToken 20 (logPatternWidth q).2 logPatternDelims).1 with
  | none =>
      rw [hmap] at h
      exact absurd h (by simp)
  | some type =>
      rw [hmap] at h
      cases hext : logPatternExt (strNextToken 20 (logPatternWidth q).2 logPatternDelims).2 with
      | error e =>
          rw [hext] at h
          exact absurd h (by simp [Except.map])
      | ok ext =>
          rw [hext] at h
          exact ⟨type, ext, rfl, rfl, (Except.ok.inj h).symm⟩

/-- What follows a conversion is an end of what it was read from. -/
lemma logPatternSpec_suffix {q : List UInt8} {r : LogPatternSpec × List UInt8}
    (h : logPatternSpec q = .ok r) : r.2 <:+ q := by
  obtain ⟨type, ext, -, hext, rfl⟩ := logPatternSpec_eq_ok h
  exact (logPatternExt_suffix hext).trans
    ((List.drop_suffix _ _).trans (logPatternWidth_suffix q))

section Stuck

variable {α β : Type}

lemma map_ne_stuck {x : Except LogPatternError α} (h : x ≠ .error .stuck) (f : α → β) :
    x.map f ≠ .error .stuck := by
  cases x with
  | error e => simpa [Except.map] using h
  | ok a => simp [Except.map]

lemma bind_ne_stuck {x : Except LogPatternError α} {f : α → Except LogPatternError β}
    (hx : x ≠ .error .stuck) (hf : ∀ a, x = .ok a → f a ≠ .error .stuck) :
    x >>= f ≠ .error .stuck := by
  cases x with
  | error e => simpa [bind, Except.bind] using hx
  | ok a => exact hf a rfl

end Stuck

lemma logPatternExt_ne_stuck (q : List UInt8) : logPatternExt q ≠ .error .stuck := by
  cases q with
  | nil => simp [logPatternExt]
  | cons c q =>
      rw [logPatternExt]
      split_ifs
      · cases strchrSplit 0x7D q with
        | none => simp
        | some r =>
            simp only
            split_ifs <;> simp
      · simp

lemma logPatternSpec_ne_stuck (q : List UInt8) : logPatternSpec q ≠ .error .stuck := by
  simp only [logPatternSpec]
  cases logItemMap.lookup (strNextToken 20 (logPatternWidth q).2 logPatternDelims).1 with
  | none => simp
  | some type => exact map_ne_stuck (logPatternExt_ne_stuck _) _

lemma logTokenPillOff_ne_stuck (src : List UInt8) : logTokenPillOff src ≠ .error .stuck := by
  cases src with
  | nil => simp [logTokenPillOff]
  | cons c s =>
      rw [logTokenPillOff]
      split_ifs <;> simp

lemma logLevelEntry_ne_stuck (map : List (List UInt8 × List UInt8)) (str : List UInt8) :
    logLevelEntry map str ≠ .error .stuck := by
  rw [logLevelEntry]
  split
  · split_ifs
    · simp only
      split_ifs <;> simp
    · simp
    · exact map_ne_stuck (logTokenPillOff_ne_stuck _) _
  · simp

lemma foldlM_logLevelEntry_ne_stuck (l : List (List UInt8))
    (map : List (List UInt8 × List UInt8)) : l.foldlM logLevelEntry map ≠ .error .stuck := by
  induction l generalizing map with
  | nil => simp [pure, Except.pure]
  | cons str l ih =>
      rw [List.foldlM_cons]
      exact bind_ne_stuck (logLevelEntry_ne_stuck map str) fun map' _ => ih map'

lemma logDateItems_ne_stuck (ext : Option (List UInt8)) : logDateItems ext ≠ .error .stuck := by
  cases ext with
  | none => simp [logDateItems]
  | some buf =>
      rw [logDateItems]
      cases logDateFormat buf with
      | none => simp
      | some dfmt =>
          simp only
          cases logDateMilli dfmt <;> simp

lemma logPatternItems_ne_stuck (env : LogEnvironment) (spec : LogPatternSpec) :
    logPatternItems env spec ≠ .error .stuck := by
  obtain ⟨type, length, limit, padleft, zero, ext⟩ := spec
  cases type with
  | dateTime => exact logDateItems_ne_stuck ext
  | logLevel =>
      cases ext with
      | none => simp [logPatternItems]
      | some buf => exact map_ne_stuck (foldlM_logLevelEntry_ne_stuck _ _) _
  | environment => cases ext <;> simp [logPatternItems]
  | _ => simp [logPatternItems]

/-- The loop ends before its fuel does. -/
lemma logPatternLoop_ne_stuck (env : LogEnvironment) : ∀ {fuel : ℕ} {p : List UInt8},
    p.length < fuel → logPatternLoop env fuel p ≠ .error .stuck
  | 0, _, hfuel => absurd hfuel (by omega)
  | fuel + 1, p, hfuel => by
      rw [logPatternLoop]
      cases hs : strchrSplit 0x25 p with
      | none => simp
      | some r =>
          obtain ⟨s, q⟩ := r
          have hlen := strchrSplit_length hs
          simp only at hlen ⊢
          by_cases hq : q.head? = some 0x25
          · rw [if_pos hq]
            refine map_ne_stuck (logPatternLoop_ne_stuck env ?_) _
            rw [List.length_tail]
            omega
          · rw [if_neg hq]
            refine bind_ne_stuck (logPatternSpec_ne_stuck q) fun r hr => ?_
            have hle := (logPatternSpec_suffix hr).length_le
            refine bind_ne_stuck (logPatternItems_ne_stuck env r.1) fun items _ => ?_
            refine bind_ne_stuck (logPatternLoop_ne_stuck env (by omega)) fun rest _ => ?_
            simp

/-- Every pattern is read to its end, rejected, or writes out of a buffer. -/
theorem logPatternParse_ne_stuck (env : LogEnvironment) (pattern : CString) :
    logPatternParse env pattern ≠ .error .stuck :=
  logPatternLoop_ne_stuck env (Nat.lt_succ_self _)

end LibCmutils
