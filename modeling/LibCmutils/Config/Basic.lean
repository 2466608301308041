import LibCmutils.Lib.OrderedMap
import LibCmutils.String.Basic
import Mathlib.Data.List.DropRight

/-!
Configuration files (`src/config.c`).

* `ConfItem`, `Config`: the lines of a configuration in order, the values and the lines by
  key. The two maps are the finite maps that `CMUTIL_Map` stands for.
* `configSet`, `configGet`: the interface. `configPairs` lists keys and values in the order
  of the lines.
* `configSave`: the bytes of the file. `configLoad`: the configuration read from bytes,
  with `fgets` on what is left of the file.

A string is the list of its bytes before the NUL.
-/

namespace LibCmutils

/-- `CMUTIL_ConfType`. -/
inductive ConfType where
  | comment | pair
  deriving DecidableEq

/-- `CMUTIL_ConfItem`, with the address it has. -/
structure ConfItem where
  ptr : ℕ
  key : Option CString
  comment : Option (List UInt8)
  type : ConfType
  index : ℕ
  deriving DecidableEq

/-- `CMUTIL_Config_Internal`, and the first address that was not used. -/
structure Config where
  confs : OrderedMap CString CString
  sequence : List ConfItem
  revconf : OrderedMap CString ℕ
  maxkeylen : ℕ
  next : ℕ

/-- `CMUTIL_ConfigCreateInternal`. -/
def configCreate : Config where
  confs := .empty
  sequence := []
  revconf := .empty
  maxkeylen := 0
  next := 0

/-- `CMUTIL_ConfigGet`. -/
def configGet (conf : Config) (key : CString) : Option CString := conf.confs.get key

/-- `CMUTIL_ConfigSet`: only a new key gets a line. -/
def configSet (conf : Config) (key value : CString) : Config :=
  let prev := conf.confs.get key
  let conf := { conf with
    confs := conf.confs.put key value
    maxkeylen := max conf.maxkeylen key.1.length }
  match prev with
  | some _ => conf
  | none =>
      let item := { ptr := conf.next, key := some key, comment := none, type := .pair, index := 0 }
      { conf with
        sequence := conf.sequence ++ [item]
        revconf := conf.revconf.put key item.ptr
        next := conf.next + 1 }

/-! ### Saving -/

/-- The conversion `%{width}s`. -/
def padLeft (width : ℕ) (s : List UInt8) : List UInt8 :=
  List.replicate (width - s.length) 0x20 ++ s

/-- The line of an item. -/
def configSaveItem (conf : Config) (item : ConfItem) : List UInt8 :=
  match item.type with
  | .pair =>
      let key := (item.key.map Subtype.val).getD []
      let v := ((item.key.bind conf.confs.get).map Subtype.val).getD []
      match item.comment with
      | some comment =>
          padLeft conf.maxkeylen key ++ [0x20, 0x3D, 0x20] ++ v ++ [0x20] ++ comment ++ [0x0A]
      | none => padLeft conf.maxkeylen key ++ [0x20, 0x3D, 0x20] ++ v ++ [0x0A]
  | .comment =>
      match item.comment with
      | some comment => comment ++ [0x0A]
      | none => [0x0A]

/-- `CMUTIL_ConfigSave`, the bytes it writes. -/
def configSave (conf : Config) : List UInt8 := conf.sequence.flatMap (configSaveItem conf)

/-! ### Loading -/

/-- The bytes up to a line feed, not more than `n`, and what is left. -/
def fgetsLine : ℕ → List UInt8 → List UInt8 × List UInt8
  | 0, f => ([], f)
  | _ + 1, [] => ([], [])
  | n + 1, c :: f =>
      if c = 0x0A then ([c], f)
      else
        let r := fgetsLine n f
        (c :: r.1, r.2)

/-- `fgets` with a buffer of `size` bytes. -/
def fgets (size : ℕ) (f : List UInt8) : Option (List UInt8 × List UInt8) :=
  match f with
  | [] => none
  | f => some (fgetsLine (size - 1) f)

/-- `CMUTIL_AppendTrimmedLine`: the string, and whether the line goes on. -/
def appendTrimmedLine (rstr input set : List UInt8) : List UInt8 × Bool :=
  let line := (input.takeWhile (· != 0)).rdropWhile fun c => strchr set c
  match line.getLast? with
  | none => (rstr, false)
  | some c => if c = 0x5C then (rstr ++ line.dropLast, true) else (rstr ++ line, false)

/-- The loop of `CMUTIL_NextTermBefore` behind the byte `prev`. -/
def nextTermLoop (delim : List UInt8) (escapechar : UInt8) :
    ℕ → Option UInt8 → List UInt8 → List UInt8 × List UInt8
  | _, _, [] => ([], [])
  | 0, _, p => ([], p)
  | maxlen + 1, prev, c :: p =>
      if !strchr delim c || prev == some escapechar then
        let r := nextTermLoop delim escapechar maxlen (some c) p
        (c :: r.1, r.2)
      else ([], c :: p)

/-- `CMUTIL_NextTermBefore`: the term, and the rest of the line. -/
def nextTermBefore (line delim : List UInt8) (escapechar : UInt8) (maxlen : ℕ) :
    List UInt8 × List UInt8 :=
  nextTermLoop delim escapechar maxlen none line

/-- The characters `" =\t"`. -/
def configSeparators : List UInt8 := [0x20, 0x3D, 0x09]

/-- The rest of the loop of `CMUTIL_ConfigLoadInternal`, for a line that is complete. -/
def configLoadItem (res : Config) (str : List UInt8) : Config :=
  let p := strSkipSpaces str spaces
  let index := res.sequence.length
  match p with
  | [] =>
      let item := { ptr := res.next, key := none, comment := none, type := .comment, index := index }
      { res with sequence := res.sequence ++ [item], next := res.next + 1 }
  | 0x23 :: _ =>
      let item := { ptr := res.next, key := none, comment := some (strRTrim p), type := .comment,
                    index := index }
      { res with sequence := res.sequence ++ [item], next := res.next + 1 }
  | p =>
      let (name, p) := nextTermBefore p configSeparators 0x5C 1024
      let p := strSkipSpaces p configSeparators
      let (value, p) := nextTermBefore p [0x23, 0x0A] 0x5C 2048
      let v := strTrim value
      let comment := if p.head? = some 0x23 then some (strRTrim p) else none
      let name := CString.ofBytes name
      let previtem := res.revconf.get name
      let sequence := res.sequence.filter fun it => some it.ptr ≠ previtem
      let item := { ptr := res.next, key := some name, comment := comment, type := .pair,
                    index := sequence.length }
      { confs := res.confs.put name (CString.ofBytes v)
        sequence := sequence ++ [item]
        revconf := res.revconf.put name item.ptr
        maxkeylen := max res.maxkeylen name.1.length
        next := res.next + 1 }

/-- The loop of `CMUTIL_ConfigLoadInternal`, run on fuel. -/
def configLoadLoop : ℕ → Config → List UInt8 → List UInt8 → Config
  | 0, res, _, _ => res
  | fuel + 1, res, str, f =>
      match fgets 4096 f with
      | none => res
      | some (line, f) =>
          match appendTrimmedLine str line [0x20, 0x0D, 0x09, 0x0A] with
          | (str, true) => configLoadLoop fuel res str f
          | (str, false) => configLoadLoop fuel (configLoadItem res str) [] f

/-- `CMUTIL_ConfigLoadInternal` of a file with the bytes `f`. Every line takes a byte. -/
def configLoad (f : List UInt8) : Config := configLoadLoop (f.length + 1) configCreate [] f

/-! ### What a configuration holds -/

/-- The keys and values, in the order of the lines. -/
def configPairs (conf : Config) : List (CString × CString) :=
  conf.sequence.filterMap fun item => item.key.bind fun key => (conf.confs.get key).map (key, ·)

/-- A configuration built by `Set` calls from an empty one. -/
def configOf (sets : List (CString × CString)) : Config :=
  sets.foldl (fun conf e => configSet conf e.1 e.2) configCreate

end LibCmutils
