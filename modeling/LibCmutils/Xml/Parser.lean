import LibCmutils.Lib.CNumber
import LibCmutils.Lib.Utf8
import LibCmutils.Xml.Node

/-!
The XML parser (`src/nanoxml.c`).

* `XmlParseCtx`: `pos` is the text from the cursor on, and `remain` the byte counter that
  the program keeps beside it. The stack is its size: a node on it is the result of a call
  in progress, which gets its children when they are read.
* `xmlUnescape`, `xmlApplyCharset`: entities, character references, and the conversion from
  the charset of the document.
* `xmlParseHeader`, `xmlParseAttributes`: the declaration, and the attributes of a tag.
* `xmlParseItem`: what `CMUTIL_XmlParseNode` reads before it calls itself. `xmlParseNode`,
  `xmlParseNext`, `xmlParseChildren`: the recursive descent, for at most `fuel` calls.
* `xmlParseString`: `CMUTIL_XmlParseString`.

A function that does not return its result ends in an `XmlFault`. Messages are left out.
-/

namespace LibCmutils

/-- How a function ends without its result. -/
inductive XmlFault
  /-- It returns `CMFalse` or `NULL`. -/
  | failed
  /-- It uses the `NULL` that a creation function returned. -/
  | nullDeref
  /-- It reads behind the text. -/
  | overread
  /-- The model has run out of fuel. -/
  | fuel
  deriving DecidableEq

/-- `CMUTIL_XmlParseCtx`, without the name of the encoding, which only the header is about.
`cconv` is its method `Forward`. -/
structure XmlParseCtx where
  pos : List UInt8
  remain : ℤ
  stack : ℕ
  cconv : Option (List UInt8 → Option (List UInt8))

/-- `*(ctx->pos)`. -/
def XmlParseCtx.deref (ctx : XmlParseCtx) : Except XmlFault UInt8 :=
  match ctx.pos with
  | [] => .error .overread
  | c :: _ => .ok c

/-- `DO_BOOL` and `DO_OBJ` of a test. -/
def xmlRequire (test : Bool) : Except XmlFault Unit := if test then .ok () else .error .failed

/-- The use of a created object. -/
def xmlUse {α : Type} : Option α → Except XmlFault α
  | some x => .ok x
  | none => .error .nullDeref

/-- `g_cmutil_spaces`, the characters of `" \t\r\n"`. -/
def xmlSpaces : List UInt8 := [0x20, 0x09, 0x0D, 0x0A]

/-- `g_cmutil_delims`, the spaces and the characters of `<>&=/"'`. -/
def xmlDelims : List UInt8 :=
  [0x20, 0x09, 0x0D, 0x0A, 0x3C, 0x3E, 0x26, 0x3D, 0x2F, 0x22, 0x27]

/-- `*p && strchr(g_cmutil_spaces, *p)`. -/
def xmlIsSpace (c : UInt8) : Bool := c != 0 && strchr xmlSpaces c

/-- `*p && !strchr(g_cmutil_delims, *p)`. -/
def xmlIsToken (c : UInt8) : Bool := c != 0 && !strchr xmlDelims c

/-- `UTF-8`. -/
def utf8Name : CString := CString.ofBytes [0x55, 0x54, 0x46, 0x2D, 0x38]

/-! ### Searching -/

/-- `CMUTIL_XmlFindChar`: the distance to the byte found, `none` for `NULL`. -/
def xmlFindChar (c : UInt8) : List UInt8 → ℤ → Except XmlFault (Option ℕ)
  | [], remain => if 0 < remain then .error .overread else .ok none
  | b :: s, remain =>
      if 0 < remain then
        if b = c then .ok (some 0) else do
          let found ← xmlFindChar c s (remain - 1)
          .ok (found.map (· + 1))
      else .ok none

/-- `CMUTIL_XmlStartsWith`. -/
def xmlStartsWith (a : List UInt8) (remain : ℤ) (b : List UInt8) : Except XmlFault Bool :=
  if remain < b.length then .ok false
  else if a.length < b.length then .error .overread
  else .ok (a.take b.length = b)

/-- `CMUTIL_XmlFindStr`. -/
def xmlFindStr (needle : List UInt8) : List UInt8 → ℤ → Except XmlFault (Option ℕ)
  | [], remain => do
      let found ← xmlStartsWith [] remain needle
      .ok (if found then some 0 else none)
  | b :: s, remain => do
      if ← xmlStartsWith (b :: s) remain needle then .ok (some 0)
      else if remain < needle.length then .ok none
      else do
        let found ← xmlFindStr needle s (remain - 1)
        .ok (found.map (· + 1))

/-! ### Entities and charsets -/

/-- `CMUTIL_XmlApplyCharset` with the `cconv` of the context: what `dest` holds
afterwards. -/
def xmlApplyCharset (dest : List UInt8) (cconv : Option (List UInt8 → Option (List UInt8))) :
    List UInt8 :=
  match cconv with
  | none => dest
  | some forward => (forward dest).getD dest

/-- `CMUTIL_XmlAppendUTF8`. -/
def xmlAppendUTF8 (codepoint : ℕ) : List UInt8 := utf8Encode codepoint

/-- `g_cmutil_xml_escapes`. -/
def xmlEscapes : List (List UInt8 × List UInt8) :=
  [([0x71, 0x75, 0x6F, 0x74], [0x22]),     -- quot
    ([0x61, 0x6D, 0x70], [0x26]),          -- amp
    ([0x61, 0x70, 0x6F, 0x73], [0x27]),    -- apos
    ([0x6C, 0x74], [0x3C]),                -- lt
    ([0x67, 0x74], [0x3E])]                -- gt

/-- The base and the digits of a character reference, after its `#`. -/
def xmlReferenceBase : List UInt8 → ℕ × List UInt8
  | [] => (10, [])
  | c :: s => if c = 0x78 ∨ c = 0x58 then (16, s) else (10, c :: s)

/-- What stands for the reference with the name `keybuf`. -/
def xmlReference (keybuf : List UInt8) : Except XmlFault (List UInt8) :=
  match keybuf with
  | 0x23 :: digits =>
      -- numeric character reference
      match strtoul (xmlReferenceBase digits).1 (xmlReferenceBase digits).2 with
      | some (cp, []) =>
          if cp = 0 ∨ 0x10FFFF < cp then .error .failed else .ok (xmlAppendUTF8 cp)
      | _ => .error .failed
  | _ =>
      match xmlEscapes.lookup keybuf with
      | some v => .ok v
      | none => .error .failed

/-- The loop of `CMUTIL_XmlUnescape` and the rest of the source after it. The searches end
at a NUL, the rest does not. -/
def xmlUnescapeLoop : ℕ → List UInt8 → List UInt8 → Except XmlFault (List UInt8)
  | 0, _, _ => .error .fuel
  | fuel + 1, p, dest =>
      match strchrSplit 0x26 p with
      | none => .ok (if p.headD 0 = 0 then dest else dest ++ p)
      | some (before, q) =>
          match strchrSplit 0x3B q with
          | none => .error .failed
          | some (keybuf, r) =>
              if keybuf.length + 1 < 20 then do
                let v ← xmlReference keybuf
                xmlUnescapeLoop fuel r (dest ++ before ++ v)
              else .error .failed

/-- `CMUTIL_XmlUnescape` with the `cconv` of the context: what `dest` holds afterwards. -/
def xmlUnescape (dest src : List UInt8) (cconv : Option (List UInt8 → Option (List UInt8))) :
    Except XmlFault (List UInt8) := do
  let dest ← xmlUnescapeLoop (src.length + 1) src dest
  .ok (xmlApplyCharset dest cconv)

/-! ### The cursor -/

/-- The loop of `CMUTIL_XmlSkipSpaces`. -/
def xmlSkipSpacesLoop : List UInt8 → ℤ → Except XmlFault (List UInt8 × ℤ)
  | [], remain => if 0 < remain then .error .overread else .ok ([], remain)
  | c :: p, remain =>
      if 0 < remain ∧ xmlIsSpace c then xmlSkipSpacesLoop p (remain - 1) else .ok (c :: p, remain)

/-- `CMUTIL_XmlSkipSpaces`. -/
def xmlSkipSpaces (ctx : XmlParseCtx) : Except XmlFault XmlParseCtx := do
  let (p, remain) ← xmlSkipSpacesLoop ctx.pos ctx.remain
  if 0 ≤ remain then .ok { ctx with pos := p, remain := remain } else .error .failed

/-- `CMUTIL_XmlNextSub`: the cursor behind the next `len` bytes, and the string that they
are in `buf`. -/
def xmlNextSub (ctx : XmlParseCtx) (len : ℕ) : Except XmlFault (XmlParseCtx × CString) :=
  if ctx.remain < len then .error .failed
  else if ctx.pos.length < len then .error .overread
  else .ok ({ ctx with pos := ctx.pos.drop len, remain := ctx.remain - len },
    CString.ofBytes (ctx.pos.take len))

/-- `CMUTIL_XmlNextSub` where the caller does not look at its result. -/
def xmlSkipSub (ctx : XmlParseCtx) (len : ℕ) : Except XmlFault XmlParseCtx :=
  if ctx.remain < len then .ok ctx
  else do
    let (ctx, _) ← xmlNextSub ctx len
    .ok ctx

/-- `CMUTIL_XmlNextChar`. -/
def xmlNextChar (ctx : XmlParseCtx) : Except XmlFault (XmlParseCtx × UInt8) := do
  xmlRequire (0 < ctx.remain)
  let c ← ctx.deref
  .ok ({ ctx with pos := ctx.pos.drop 1, remain := ctx.remain - 1 }, c)

/-- The loop of `CMUTIL_XmlNextToken`. -/
def xmlNextTokenLoop (bufsz : ℕ) : List UInt8 → ℤ → List UInt8 →
    Except XmlFault (List UInt8 × ℤ × List UInt8)
  | [], remain, buf => if 0 < remain then .error .overread else .ok ([], remain, buf)
  | c :: p, remain, buf =>
      if 0 < remain ∧ xmlIsToken c then
        if bufsz ≤ buf.length + 1 then .error .failed
        else xmlNextTokenLoop bufsz p (remain - 1) (buf ++ [c])
      else .ok (c :: p, remain, buf)

/-- `CMUTIL_XmlNextToken`: the cursor behind the token, and the token. -/
def xmlNextToken (bufsz : ℕ) (ctx : XmlParseCtx) : Except XmlFault (XmlParseCtx × CString) := do
  let (p, remain, buf) ← xmlNextTokenLoop bufsz ctx.pos ctx.remain []
  .ok ({ ctx with pos := p, remain := remain }, CString.ofBytes buf)

/-! ### The header -/

/-- `encoding`. -/
def encodingName : CString :=
  CString.ofBytes [0x65, 0x6E, 0x63, 0x6F, 0x64, 0x69, 0x6E, 0x67]

/-- What a round of `CMUTIL_XmlParseHeader` does with the name and the value read: an
encoding ends the loop at the next `?`. -/
def xmlHeaderEntry (ctx : XmlParseCtx) (name value encoding : CString) :
    Except XmlFault (XmlParseCtx × CString) :=
  if name = encodingName then do
    match ← xmlFindChar 0x3F ctx.pos ctx.remain with
    | none => .error .failed
    | some n =>
        if 20 ≤ value.1.length then .error .failed
        else do
          let ctx ← xmlSkipSub ctx n
          .ok (ctx, value)
  else do
    let ctx ← xmlSkipSub ctx 1
    .ok (ctx, encoding)

/-- One round of the loop of `CMUTIL_XmlParseHeader`, with `ctx->encoding`. -/
def xmlHeaderRound (ctx : XmlParseCtx) (encoding : CString) :
    Except XmlFault (XmlParseCtx × CString) := do
  let (ctx, name) ← xmlNextToken 64 ctx
  let (ctx, _) ← xmlNextSub ctx 2
  let (ctx, value) ← xmlNextToken 64 ctx
  xmlHeaderEntry ctx name value encoding

/-- The loop of `CMUTIL_XmlParseHeader`, with `ctx->encoding`. -/
def xmlHeaderLoop : ℕ → XmlParseCtx → CString → Except XmlFault (XmlParseCtx × CString)
  | 0, _, _ => .error .fuel
  | fuel + 1, ctx, encoding =>
      if 0 < ctx.remain then do
        let c ← ctx.deref
        if c = 0x3F then .ok (ctx, encoding)
        else do
          let (ctx, encoding) ← xmlHeaderRound ctx encoding
          xmlHeaderLoop fuel ctx encoding
      else .ok (ctx, encoding)

/-- `CMUTIL_XmlParseHeader`, with `ctx->encoding`. -/
def xmlParseHeader (ctx : XmlParseCtx) (encoding : CString) :
    Except XmlFault (XmlParseCtx × CString) := do
  let ctx ← xmlSkipSpaces ctx
  let (ctx, buf) ← xmlNextSub ctx 2
  if buf = CString.ofBytes [0x3C, 0x3F] then do
    let ctx ← xmlSkipSpaces ctx
    let (ctx, _) ← xmlNextToken 64 ctx
    let ctx ← xmlSkipSpaces ctx
    let (ctx, encoding) ← xmlHeaderLoop (ctx.remain.toNat + 1) ctx encoding
    xmlRequire (0 < ctx.remain)
    let (ctx, _) ← xmlNextSub ctx 2
    .ok (ctx, encoding)
  else .error .failed

/-! ### Attributes -/

/-- `true`, the value of an attribute without one. -/
def attributeTrue : CString := CString.ofBytes [0x74, 0x72, 0x75, 0x65]

/-- The value of an attribute from its quote on, which is any byte. -/
def xmlQuotedValue (ctx : XmlParseCtx) : Except XmlFault (XmlParseCtx × CString) := do
  let (ctx, openc) ← xmlNextChar ctx
  match ← xmlFindChar openc ctx.pos ctx.remain with
  | none => .error .failed
  | some vlen =>
      if 1024 ≤ vlen then .error .failed
      else do
        let attvalue := CString.ofBytes (ctx.pos.take vlen)
        let (ctx, _) ← xmlNextSub ctx (vlen + 1)
        .ok (ctx, attvalue)

/-- The value of an attribute, after its name. -/
def xmlAttributeValue (ctx : XmlParseCtx) : Except XmlFault (XmlParseCtx × CString) := do
  let ctx ← xmlSkipSpaces ctx
  xmlRequire (0 < ctx.remain)
  let c ← ctx.deref
  if c = 0x3D then do
    let (ctx, _) ← xmlNextSub ctx 1
    let ctx ← xmlSkipSpaces ctx
    xmlQuotedValue ctx
  else .ok (ctx, attributeTrue)

/-- One round of the loop of `CMUTIL_XmlParseAttributes`: the name and the value. -/
def xmlParseAttribute (ctx : XmlParseCtx) :
    Except XmlFault (XmlParseCtx × CString × List UInt8) := do
  let itstart := ctx.pos
  let (ctx, attname) ← xmlNextToken 1024 ctx
  let (ctx, attvalue) ← xmlAttributeValue ctx
  let bfval ← xmlUse (stringCreateInternal 0 (some attvalue))
  let afval ← xmlUse (stringCreateInternal (bfval.length + 1) none)
  let afval ← xmlUnescape afval bfval ctx.cconv
  let ctx ← xmlSkipSpaces ctx
  -- guard against rounds that make no progress
  if ctx.pos = itstart then .error .failed else .ok (ctx, attname, afval)

/-- The loop of `CMUTIL_XmlParseAttributes`. The search for the byte in `"/>"` finds a NUL
too. -/
def xmlAttributesLoop : ℕ → XmlParseCtx → OrderedMap CString (List UInt8) →
    Except XmlFault (XmlParseCtx × OrderedMap CString (List UInt8))
  | 0, _, _ => .error .fuel
  | fuel + 1, ctx, attributes =>
      if 0 < ctx.remain then do
        let c ← ctx.deref
        if strchr [0x2F, 0x3E] c then .ok (ctx, attributes)
        else do
          let (ctx, attname, afval) ← xmlParseAttribute ctx
          xmlAttributesLoop fuel ctx (attributes.put attname afval)
      else .ok (ctx, attributes)

/-- `CMUTIL_XmlParseAttributes`, for a node without attributes. -/
def xmlParseAttributes (ctx : XmlParseCtx) :
    Except XmlFault (XmlParseCtx × OrderedMap CString (List UInt8)) := do
  let ctx ← xmlSkipSpaces ctx
  let (ctx, attributes) ← xmlAttributesLoop (ctx.remain.toNat + 1) ctx .empty
  xmlRequire (0 < ctx.remain)
  .ok (ctx, attributes)

/-! ### Nodes -/

/-- `CMUTIL_XmlNodeCreateWithLenInternal` when memory does not run out: the name of the
node. -/
def xmlNodeCreateWithLen (tagname : List UInt8) : Except XmlFault (List UInt8) := do
  let name ← xmlUse (stringCreateInternal tagname.length none)
  .ok (name ++ tagname)

/-- What stands at the cursor. -/
inductive XmlItem
  /-- a part in `<!` and `>` that is no `CDATA` section -/
  | ignored
  /-- a close tag -/
  | close
  /-- a text node -/
  | leaf (node : XmlNode)
  /-- a tag up to the end of its attributes -/
  | start (name : List UInt8) (attributes : OrderedMap CString (List UInt8))

/-- `[CDATA[`. -/
def cdataOpen : List UInt8 := [0x5B, 0x43, 0x44, 0x41, 0x54, 0x41, 0x5B]

/-- `]]>`. -/
def cdataClose : List UInt8 := [0x5D, 0x5D, 0x3E]

/-- The case `'/'` of `CMUTIL_XmlParseNode`, from the slash on. -/
def xmlParseClose (ctx : XmlParseCtx) : Except XmlFault (XmlParseCtx × XmlItem) := do
  match ← xmlFindChar 0x3E ctx.pos ctx.remain with
  | none => .error .failed
  | some n => do
      let ctx ← xmlSkipSub ctx (n + 1)
      .ok (ctx, .close)

/-- A `CDATA` section, from the `[` on. It needs a parent. -/
def xmlParseCData (ctx : XmlParseCtx) : Except XmlFault (XmlParseCtx × XmlItem) := do
  let ctx ← xmlSkipSub ctx 7
  match ← xmlFindStr cdataClose ctx.pos ctx.remain with
  | none => .error .failed
  | some n =>
      if ctx.stack = 0 then .error .failed
      else do
        let afval ← xmlUse (stringCreateInternal 10 none)
        let afval := xmlApplyCharset (afval ++ ctx.pos.take n) ctx.cconv
        let name ← xmlNodeCreateWithLen afval
        let ctx ← xmlSkipSub ctx (n + 3)
        .ok (ctx, .leaf (.text name))

/-- What is ignored, from behind the `!` on. The search for its end leaves out the first
byte. -/
def xmlParseIgnored (ctx : XmlParseCtx) : Except XmlFault (XmlParseCtx × XmlItem) := do
  let found ← if 1 < ctx.remain then xmlFindChar 0x3E (ctx.pos.drop 1) (ctx.remain - 1)
    else .ok none
  match found with
  | none => .error .failed
  | some n => do
      let ctx ← xmlSkipSub ctx (n + 2)
      .ok (ctx, .ignored)

/-- A tag from its name to the end of its attributes. The new node goes onto the stack. -/
def xmlParseStart (ctx : XmlParseCtx) : Except XmlFault (XmlParseCtx × XmlItem) := do
  let (ctx, tagname) ← xmlNextToken 128 ctx
  let name ← xmlNodeCreateWithLen tagname.1
  let (ctx, attributes) ← xmlParseAttributes { ctx with stack := ctx.stack + 1 }
  .ok (ctx, .start name attributes)

/-- The text up to the next tag. -/
def xmlParseText (ctx : XmlParseCtx) : Except XmlFault (XmlParseCtx × XmlItem) := do
  match ← xmlFindChar 0x3C ctx.pos ctx.remain with
  | none => .error .failed
  | some textlen => do
      let bfval ← xmlUse (stringCreateInternal 10 none)
      let bfval := bfval ++ ctx.pos.take textlen
      let afval ← xmlUse (stringCreateInternal (bfval.length + 1) none)
      let afval ← xmlUnescape afval bfval ctx.cconv
      let name ← xmlNodeCreateWithLen afval
      let ctx ← xmlSkipSub ctx textlen
      .ok (ctx, .leaf (.text name))

/-- `CMUTIL_XmlParseNode` from `PARSE_NEXT` up to a jump, a call of itself or its end. -/
def xmlParseItem (ctx : XmlParseCtx) : Except XmlFault (XmlParseCtx × XmlItem) := do
  let ctx ← xmlSkipSpaces ctx
  xmlRequire (0 < ctx.remain)
  let c ← ctx.deref
  if c = 0x3C then do
    let (ctx, _) ← xmlNextChar ctx
    xmlRequire (0 < ctx.remain)
    let c ← ctx.deref
    if c = 0x2F then xmlParseClose ctx
    else if c = 0x21 then do
      let (ctx, _) ← xmlNextChar ctx
      if ← xmlStartsWith ctx.pos ctx.remain cdataOpen then xmlParseCData ctx
      else xmlParseIgnored ctx
    else xmlParseStart ctx
  else if ctx.stack = 0 then .error .failed
  else xmlParseText ctx

mutual

/-- `CMUTIL_XmlParseNode`: the child, or `none` for the parent after a close tag. -/
def xmlParseNode : ℕ → XmlParseCtx → Except XmlFault (XmlParseCtx × Option XmlNode)
  | 0, _ => .error .fuel
  | fuel + 1, ctx => if 256 ≤ ctx.stack then .error .failed else xmlParseNext fuel ctx

/-- `CMUTIL_XmlParseNode` from `PARSE_NEXT` on. -/
def xmlParseNext : ℕ → XmlParseCtx → Except XmlFault (XmlParseCtx × Option XmlNode)
  | 0, _ => .error .fuel
  | fuel + 1, ctx => do
      let (ctx, item) ← xmlParseItem ctx
      match item with
      | .ignored => xmlParseNext fuel ctx
      | .close => .ok (ctx, none)
      | .leaf node => .ok (ctx, some node)
      | .start name attributes => do
          if ← xmlStartsWith ctx.pos ctx.remain [0x2F, 0x3E] then do
            -- no children
            let ctx ← xmlSkipSub ctx 2
            .ok ({ ctx with stack := ctx.stack - 1 }, some (.tag name attributes []))
          else do
            let c ← ctx.deref
            if c = 0x3E then do
              let ctx ← xmlSkipSub ctx 1
              let (ctx, children) ← xmlParseChildren fuel ctx []
              .ok ({ ctx with stack := ctx.stack - 1 }, some (.tag name attributes children))
            else .error .failed

/-- The loop of `CMUTIL_XmlParseNode` up to the close tag. -/
def xmlParseChildren :
    ℕ → XmlParseCtx → List XmlNode → Except XmlFault (XmlParseCtx × List XmlNode)
  | 0, _, _ => .error .fuel
  | fuel + 1, ctx, children => do
      let (ctx, child) ← xmlParseNode fuel ctx
      match child with
      | none => .ok (ctx, children)
      | some child => xmlParseChildren fuel ctx (children ++ [child])

end

/-- The part of `CMUTIL_XmlParseStringInternal` after the header. A close tag in the place
of the root gives the parent, which is `NULL`. -/
def xmlParseRoot (ctx : XmlParseCtx) : Except XmlFault XmlNode := do
  let (ctx, res) ← xmlParseNode (3 * ctx.remain.toNat + 3) ctx
  -- the bottom of a stack that is not empty is destroyed
  if ctx.stack ≠ 0 then .error .failed
  else match res with
    | none => .error .failed
    | some node => .ok node

/-- `ctx.cconv` for the encoding of the header. -/
def xmlCharset (ic : Iconv) (encoding : CString) : Option (List UInt8 → Option (List UInt8)) :=
  if encoding.1 ≠ [] ∧ strcasecmpEq encoding utf8Name = false then
    some fun instr => csConvConv ic instr encoding utf8Name
  else none

/-- The state in which `CMUTIL_XmlParseStringInternal` calls the header. -/
def xmlParseInit (xmlstr : List UInt8) : XmlParseCtx :=
  { pos := xmlstr, remain := xmlstr.length, stack := 0, cconv := none }

/-- `CMUTIL_XmlParseStringInternal` and the functions that only call it. -/
def xmlParseString (ic : Iconv) (xmlstr : List UInt8) : Except XmlFault XmlNode := do
  let (ctx, encoding) ← xmlParseHeader (xmlParseInit xmlstr) utf8Name
  xmlParseRoot { ctx with cconv := xmlCharset ic encoding }

end LibCmutils
