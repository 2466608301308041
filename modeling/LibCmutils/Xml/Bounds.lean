import LibCmutils.Xml.Robust
import LibCmutils.Lib.Traced

/-!
What the XML parser (`src/nanoxml.c`) visits on any bytes.

* `XmlVisit`: a move of the cursor with its byte counter, or a call of `CMUTIL_XmlParseNode`
  with the number of calls of it that are under way.
* `xmlSkipSpacesT` to `xmlParseStringT`: the functions of the parser with a record of what they
  visit. `xmlParseStringT_result`: without the record they are the parser.
* `XmlInBounds`: the cursor and the byte counter agree and stay inside the text, and at most
  256 calls are under way.
* `xmlSkipSpacesT_runs` to `xmlParseT_runs`: every function stays in bounds.

The main result is `xmlParseString_bounds`.
-/

namespace LibCmutils

open Traced

/-- What the parser passes: a place of the cursor, or a call of `CMUTIL_XmlParseNode` inside
`depth` other ones. -/
inductive XmlVisit where
  | cursor (pos : List UInt8) (remain : ℤ)
  | call (depth : ℕ)

/-- A computation of the parser with what it visits. -/
abbrev XmlTraced := Traced XmlVisit XmlFault

/-! ### The functions with a record -/

/-- The cursor has moved. -/
def xmlMovedT (ctx : XmlParseCtx) : XmlTraced Unit := visit (.cursor ctx.pos ctx.remain)

/-- The loop of `CMUTIL_XmlSkipSpaces`. -/
def xmlSkipSpacesLoopT : List UInt8 → ℤ → XmlTraced (List UInt8 × ℤ)
  | [], remain => if 0 < remain then fail .overread else return ([], remain)
  | c :: p, remain =>
      if 0 < remain ∧ xmlIsSpace c then do
        visit (.cursor p (remain - 1))
        xmlSkipSpacesLoopT p (remain - 1)
      else return (c :: p, remain)

/-- `CMUTIL_XmlSkipSpaces`. -/
def xmlSkipSpacesT (ctx : XmlParseCtx) : XmlTraced XmlParseCtx := do
  let (p, remain) ← xmlSkipSpacesLoopT ctx.pos ctx.remain
  if 0 ≤ remain then return { ctx with pos := p, remain := remain } else fail .failed

/-- `CMUTIL_XmlNextSub`. -/
def xmlNextSubT (ctx : XmlParseCtx) (len : ℕ) : XmlTraced (XmlParseCtx × CString) := do
  let (ctx, buf) ← xmlNextSub ctx len
  xmlMovedT ctx
  return (ctx, buf)

/-- `CMUTIL_XmlNextSub` where the caller does not look at its result. -/
def xmlSkipSubT (ctx : XmlParseCtx) (len : ℕ) : XmlTraced XmlParseCtx := do
  let ctx ← xmlSkipSub ctx len
  xmlMovedT ctx
  return ctx

/-- `CMUTIL_XmlNextChar`. -/
def xmlNextCharT (ctx : XmlParseCtx) : XmlTraced (XmlParseCtx × UInt8) := do
  let (ctx, c) ← xmlNextChar ctx
  xmlMovedT ctx
  return (ctx, c)

/-- The loop of `CMUTIL_XmlNextToken`. -/
def xmlNextTokenLoopT (bufsz : ℕ) : List UInt8 → ℤ → List UInt8 →
    XmlTraced (List UInt8 × ℤ × List UInt8)
  | [], remain, buf => if 0 < remain then fail .overread else return ([], remain, buf)
  | c :: p, remain, buf =>
      if 0 < remain ∧ xmlIsToken c then
        if bufsz ≤ buf.length + 1 then fail .failed
        else do
          visit (.cursor p (remain - 1))
          xmlNextTokenLoopT bufsz p (remain - 1) (buf ++ [c])
      else return (c :: p, remain, buf)

/-- `CMUTIL_XmlNextToken`. -/
def xmlNextTokenT (bufsz : ℕ) (ctx : XmlParseCtx) : XmlTraced (XmlParseCtx × CString) := do
  let (p, remain, buf) ← xmlNextTokenLoopT bufsz ctx.pos ctx.remain []
  return ({ ctx with pos := p, remain := remain }, CString.ofBytes buf)

/-- What a round of `CMUTIL_XmlParseHeader` does with the name and the value read. -/
def xmlHeaderEntryT (ctx : XmlParseCtx) (name value encoding : CString) :
    XmlTraced (XmlParseCtx × CString) :=
  if name = encodingName then do
    match ← xmlFindChar 0x3F ctx.pos ctx.remain with
    | none => fail .failed
    | some n =>
        if 20 ≤ value.1.length then fail .failed
        else do
          let ctx ← xmlSkipSubT ctx n
          return (ctx, value)
  else do
    let ctx ← xmlSkipSubT ctx 1
    return (ctx, encoding)

/-- One round of the loop of `CMUTIL_XmlParseHeader`. -/
def xmlHeaderRoundT (ctx : XmlParseCtx) (encoding : CString) : XmlTraced (XmlParseCtx × CString) := do
  let (ctx, name) ← xmlNextTokenT 64 ctx
  let (ctx, _) ← xmlNextSubT ctx 2
  let (ctx, value) ← xmlNextTokenT 64 ctx
  xmlHeaderEntryT ctx name value encoding

/-- The loop of `CMUTIL_XmlParseHeader`. -/
def xmlHeaderLoopT : ℕ → XmlParseCtx → CString → XmlTraced (XmlParseCtx × CString)
  | 0, _, _ => fail .fuel
  | fuel + 1, ctx, encoding =>
      if 0 < ctx.remain then do
        let c ← ctx.deref
        if c = 0x3F then return (ctx, encoding)
        else do
          let (ctx, encoding) ← xmlHeaderRoundT ctx encoding
          xmlHeaderLoopT fuel ctx encoding
      else return (ctx, encoding)

/-- `CMUTIL_XmlParseHeader`. -/
def xmlParseHeaderT (ctx : XmlParseCtx) (encoding : CString) :
    XmlTraced (XmlParseCtx × CString) := do
  let ctx ← xmlSkipSpacesT ctx
  let (ctx, buf) ← xmlNextSubT ctx 2
  if buf = CString.ofBytes [0x3C, 0x3F] then do
    let ctx ← xmlSkipSpacesT ctx
    let (ctx, _) ← xmlNextTokenT 64 ctx
    let ctx ← xmlSkipSpacesT ctx
    let (ctx, encoding) ← xmlHeaderLoopT (ctx.remain.toNat + 1) ctx encoding
    xmlRequire (0 < ctx.remain)
    let (ctx, _) ← xmlNextSubT ctx 2
    return (ctx, encoding)
  else fail .failed

/-- The value of an attribute from its quote on. -/
def xmlQuotedValueT (ctx : XmlParseCtx) : XmlTraced (XmlParseCtx × CString) := do
  let (ctx, openc) ← xmlNextCharT ctx
  match ← xmlFindChar openc ctx.pos ctx.remain with
  | none => fail .failed
  | some vlen =>
      if 1024 ≤ vlen then fail .failed
      else do
        let attvalue := CString.ofBytes (ctx.pos.take vlen)
        let (ctx, _) ← xmlNextSubT ctx (vlen + 1)
        return (ctx, attvalue)

/-- The value of an attribute, after its name. -/
def xmlAttributeValueT (ctx : XmlParseCtx) : XmlTraced (XmlParseCtx × CString) := do
  let ctx ← xmlSkipSpacesT ctx
  xmlRequire (0 < ctx.remain)
  let c ← ctx.deref
  if c = 0x3D then do
    let (ctx, _) ← xmlNextSubT ctx 1
    let ctx ← xmlSkipSpacesT ctx
    xmlQuotedValueT ctx
  else return (ctx, attributeTrue)

/-- One round of the loop of `CMUTIL_XmlParseAttributes`. -/
def xmlParseAttributeT (ctx : XmlParseCtx) : XmlTraced (XmlParseCtx × CString × List UInt8) := do
  let itstart := ctx.pos
  let (ctx, attname) ← xmlNextTokenT 1024 ctx
  let (ctx, attvalue) ← xmlAttributeValueT ctx
  let bfval ← xmlUse (stringCreateInternal 0 (some attvalue))
  let afval ← xmlUse (stringCreateInternal (bfval.length + 1) none)
  let afval ← xmlUnescape afval bfval ctx.cconv
  let ctx ← xmlSkipSpacesT ctx
  if ctx.pos = itstart then fail .failed else return (ctx, attname, afval)

/-- The loop of `CMUTIL_XmlParseAttributes`. -/
def xmlAttributesLoopT : ℕ → XmlParseCtx → OrderedMap CString (List UInt8) →
    XmlTraced (XmlParseCtx × OrderedMap CString (List UInt8))
  | 0, _, _ => fail .fuel
  | fuel + 1, ctx, attributes =>
      if 0 < ctx.remain then do
        let c ← ctx.deref
        if strchr [0x2F, 0x3E] c then return (ctx, attributes)
        else do
          let (ctx, attname, afval) ← xmlParseAttributeT ctx
          xmlAttributesLoopT fuel ctx (attributes.put attname afval)
      else return (ctx, attributes)

/-- `CMUTIL_XmlParseAttributes`. -/
def xmlParseAttributesT (ctx : XmlParseCtx) :
    XmlTraced (XmlParseCtx × OrderedMap CString (List UInt8)) := do
  let ctx ← xmlSkipSpacesT ctx
  let (ctx, attributes) ← xmlAttributesLoopT (ctx.remain.toNat + 1) ctx .empty
  xmlRequire (0 < ctx.remain)
  return (ctx, attributes)

/-- The case `'/'` of `CMUTIL_XmlParseNode`. -/
def xmlParseCloseT (ctx : XmlParseCtx) : XmlTraced (XmlParseCtx × XmlItem) := do
  match ← xmlFindChar 0x3E ctx.pos ctx.remain with
  | none => fail .failed
  | some n => do
      let ctx ← xmlSkipSubT ctx (n + 1)
      return (ctx, .close)

/-- A `CDATA` section. -/
def xmlParseCDataT (ctx : XmlParseCtx) : XmlTraced (XmlParseCtx × XmlItem) := do
  let ctx ← xmlSkipSubT ctx 7
  match ← xmlFindStr cdataClose ctx.pos ctx.remain with
  | none => fail .failed
  | some n =>
      if ctx.stack = 0 then fail .failed
      else do
        let afval ← xmlUse (stringCreateInternal 10 none)
        let afval := xmlApplyCharset (afval ++ ctx.pos.take n) ctx.cconv
        let name ← xmlNodeCreateWithLen afval
        let ctx ← xmlSkipSubT ctx (n + 3)
        return (ctx, .leaf (.text name))

/-- What is ignored. -/
def xmlParseIgnoredT (ctx : XmlParseCtx) : XmlTraced (XmlParseCtx × XmlItem) := do
  let found ← if 1 < ctx.remain then xmlFindChar 0x3E (ctx.pos.drop 1) (ctx.remain - 1)
    else pure none
  match found with
  | none => fail .failed
  | some n => do
      let ctx ← xmlSkipSubT ctx (n + 2)
      return (ctx, .ignored)

/-- A tag from its name to the end of its attributes. -/
def xmlParseStartT (ctx : XmlParseCtx) : XmlTraced (XmlParseCtx × XmlItem) := do
  let (ctx, tagname) ← xmlNextTokenT 128 ctx
  let name ← xmlNodeCreateWithLen tagname.1
  let (ctx, attributes) ← xmlParseAttributesT { ctx with stack := ctx.stack + 1 }
  return (ctx, .start name attributes)

/-- The text up to the next tag. -/
def xmlParseTextT (ctx : XmlParseCtx) : XmlTraced (XmlParseCtx × XmlItem) := do
  match ← xmlFindChar 0x3C ctx.pos ctx.remain with
  | none => fail .failed
  | some textlen => do
      let bfval ← xmlUse (stringCreateInternal 10 none)
      let bfval := bfval ++ ctx.pos.take textlen
      let afval ← xmlUse (stringCreateInternal (bfval.length + 1) none)
      let afval ← xmlUnescape afval bfval ctx.cconv
      let name ← xmlNodeCreateWithLen afval
      let ctx ← xmlSkipSubT ctx textlen
      return (ctx, .leaf (.text name))

/-- `CMUTIL_XmlParseNode` from `PARSE_NEXT` up to a jump, a call of itself or its end. -/
def xmlParseItemT (ctx : XmlParseCtx) : XmlTraced (XmlParseCtx × XmlItem) := do
  let ctx ← xmlSkipSpacesT ctx
  xmlRequire (0 < ctx.remain)
  let c ← ctx.deref
  if c = 0x3C then do
    let (ctx, _) ← xmlNextCharT ctx
    xmlRequire (0 < ctx.remain)
    let c ← ctx.deref
    if c = 0x2F then xmlParseCloseT ctx
    else if c = 0x21 then do
      let (ctx, _) ← xmlNextCharT ctx
      if ← xmlStartsWith ctx.pos ctx.remain cdataOpen then xmlParseCDataT ctx
      else xmlParseIgnoredT ctx
    else xmlParseStartT ctx
  else if ctx.stack = 0 then fail .failed
  else xmlParseTextT ctx

mutual

/-- `CMUTIL_XmlParseNode`, inside `depth` calls of it. -/
def xmlParseNodeT : ℕ → ℕ → XmlParseCtx → XmlTraced (XmlParseCtx × Option XmlNode)
  | 0, _, _ => fail .fuel
  | fuel + 1, depth, ctx => do
      visit (.call depth)
      if 256 ≤ ctx.stack then fail .failed else xmlParseNextT fuel depth ctx

/-- `CMUTIL_XmlParseNode` from `PARSE_NEXT` on. -/
def xmlParseNextT : ℕ → ℕ → XmlParseCtx → XmlTraced (XmlParseCtx × Option XmlNode)
  | 0, _, _ => fail .fuel
  | fuel + 1, depth, ctx => do
      let (ctx, item) ← xmlParseItemT ctx
      match item with
      | .ignored => xmlParseNextT fuel depth ctx
      | .close => return (ctx, none)
      | .leaf node => return (ctx, some node)
      | .start name attributes => do
          if ← xmlStartsWith ctx.pos ctx.remain [0x2F, 0x3E] then do
            -- no children
            let ctx ← xmlSkipSubT ctx 2
            return ({ ctx with stack := ctx.stack - 1 }, some (.tag name attributes []))
          else do
            let c ← ctx.deref
            if c = 0x3E then do
              let ctx ← xmlSkipSubT ctx 1
              let (ctx, children) ← xmlParseChildrenT fuel (depth + 1) ctx []
              return ({ ctx with stack := ctx.stack - 1 }, some (.tag name attributes children))
            else fail .failed

/-- The loop of `CMUTIL_XmlParseNode` up to the close tag, with its calls inside `depth` ones. -/
def xmlParseChildrenT :
    ℕ → ℕ → XmlParseCtx → List XmlNode → XmlTraced (XmlParseCtx × List XmlNode)
  | 0, _, _, _ => fail .fuel
  | fuel + 1, depth, ctx, children => do
      let (ctx, child) ← xmlParseNodeT fuel depth ctx
      match child with
      | none => return (ctx, children)
      | some child => xmlParseChildrenT fuel depth ctx (children ++ [child])

end

/-- The part of `CMUTIL_XmlParseStringInternal` after the header. -/
def xmlParseRootT (ctx : XmlParseCtx) : XmlTraced XmlNode := do
  let (ctx, res) ← xmlParseNodeT (3 * ctx.remain.toNat + 3) 0 ctx
  if ctx.stack ≠ 0 then fail .failed
  else match res with
    | none => fail .failed
    | some node => return node

/-- `CMUTIL_XmlParseStringInternal`. -/
def xmlParseStringT (ic : Iconv) (xmlstr : List UInt8) : XmlTraced XmlNode := do
  xmlMovedT (xmlParseInit xmlstr)
  let (ctx, encoding) ← xmlParseHeaderT (xmlParseInit xmlstr) utf8Name
  xmlParseRootT { ctx with cconv := xmlCharset ic encoding }

/-! ### Without the record -/

lemma xmlSkipSpacesLoopT_result : ∀ (p : List UInt8) (remain : ℤ),
    (xmlSkipSpacesLoopT p remain).result = xmlSkipSpacesLoop p remain
  | [], _ => by
      rw [xmlSkipSpacesLoopT, xmlSkipSpacesLoop, result_ite]
      rfl
  | c :: p, remain => by
      have ih := xmlSkipSpacesLoopT_result p (remain - 1)
      rw [xmlSkipSpacesLoopT, xmlSkipSpacesLoop, result_ite, result_bind, ih]
      rfl

@[simp] lemma xmlSkipSpacesT_result (ctx : XmlParseCtx) :
    (xmlSkipSpacesT ctx).result = xmlSkipSpaces ctx := by
  rw [xmlSkipSpacesT, xmlSkipSpaces, result_bind, xmlSkipSpacesLoopT_result]
  exact bind_congr fun r => result_ite _ _

@[simp] lemma xmlNextSubT_result (ctx : XmlParseCtx) (len : ℕ) :
    (xmlNextSubT ctx len).result = xmlNextSub ctx len := by
  rw [xmlNextSubT, result_bind, result_lift]
  cases xmlNextSub ctx len <;> rfl

@[simp] lemma xmlSkipSubT_result (ctx : XmlParseCtx) (len : ℕ) :
    (xmlSkipSubT ctx len).result = xmlSkipSub ctx len := by
  rw [xmlSkipSubT, result_bind, result_lift]
  cases xmlSkipSub ctx len <;> rfl

@[simp] lemma xmlNextCharT_result (ctx : XmlParseCtx) :
    (xmlNextCharT ctx).result = xmlNextChar ctx := by
  rw [xmlNextCharT, result_bind, result_lift]
  cases xmlNextChar ctx <;> rfl

lemma xmlNextTokenLoopT_result (bufsz : ℕ) : ∀ (p : List UInt8) (remain : ℤ) (buf : List UInt8),
    (xmlNextTokenLoopT bufsz p remain buf).result = xmlNextTokenLoop bufsz p remain buf
  | [], _, _ => by
      rw [xmlNextTokenLoopT, xmlNextTokenLoop, result_ite]
      rfl
  | c :: p, remain, buf => by
      have ih := xmlNextTokenLoopT_result bufsz p (remain - 1) (buf ++ [c])
      rw [xmlNextTokenLoopT, xmlNextTokenLoop, result_ite, result_ite, result_bind, ih]
      rfl

@[simp] lemma xmlNextTokenT_result (bufsz : ℕ) (ctx : XmlParseCtx) :
    (xmlNextTokenT bufsz ctx).result = xmlNextToken bufsz ctx := by
  rw [xmlNextTokenT, xmlNextToken, result_bind, xmlNextTokenLoopT_result]
  rfl

@[simp] lemma xmlHeaderEntryT_result (ctx : XmlParseCtx) (name value encoding : CString) :
    (xmlHeaderEntryT ctx name value encoding).result = xmlHeaderEntry ctx name value encoding := by
  simp only [xmlHeaderEntryT, xmlHeaderEntry, result_ite, result_bind, result_lift, xmlSkipSubT_result]
  refine if_congr Iff.rfl (bind_congr fun found => ?_) rfl
  cases found with
  | none => rfl
  | some n => simp only [result_ite, result_bind, xmlSkipSubT_result]; rfl

@[simp] lemma xmlHeaderRoundT_result (ctx : XmlParseCtx) (encoding : CString) :
    (xmlHeaderRoundT ctx encoding).result = xmlHeaderRound ctx encoding := by
  simp only [xmlHeaderRoundT, xmlHeaderRound, result_bind, xmlNextTokenT_result, xmlNextSubT_result, xmlHeaderEntryT_result]

lemma xmlHeaderLoopT_result : ∀ (fuel : ℕ) (ctx : XmlParseCtx) (encoding : CString),
    (xmlHeaderLoopT fuel ctx encoding).result = xmlHeaderLoop fuel ctx encoding
  | 0, _, _ => rfl
  | fuel + 1, ctx, encoding => by
      simp only [xmlHeaderLoopT, xmlHeaderLoop, result_ite, result_bind, result_lift,
        xmlHeaderRoundT_result, xmlHeaderLoopT_result fuel]
      rfl

@[simp] lemma xmlParseHeaderT_result (ctx : XmlParseCtx) (encoding : CString) :
    (xmlParseHeaderT ctx encoding).result = xmlParseHeader ctx encoding := by
  simp only [xmlParseHeaderT, xmlParseHeader, result_ite, result_bind, result_lift,
    xmlSkipSpacesT_result, xmlNextSubT_result, xmlNextTokenT_result, xmlHeaderLoopT_result]
  rfl

@[simp] lemma xmlQuotedValueT_result (ctx : XmlParseCtx) :
    (xmlQuotedValueT ctx).result = xmlQuotedValue ctx := by
  simp only [xmlQuotedValueT, xmlQuotedValue, result_bind, result_lift, xmlNextCharT_result]
  refine bind_congr fun r => bind_congr fun found => ?_
  cases found with
  | none => rfl
  | some n =>
      simp only [result_ite, result_bind, xmlNextSubT_result]
      rfl

@[simp] lemma xmlAttributeValueT_result (ctx : XmlParseCtx) :
    (xmlAttributeValueT ctx).result = xmlAttributeValue ctx := by
  simp only [xmlAttributeValueT, xmlAttributeValue, result_ite, result_bind, result_lift,
    xmlSkipSpacesT_result, xmlNextSubT_result, xmlQuotedValueT_result]
  rfl

@[simp] lemma xmlParseAttributeT_result (ctx : XmlParseCtx) :
    (xmlParseAttributeT ctx).result = xmlParseAttribute ctx := by
  simp only [xmlParseAttributeT, xmlParseAttribute, result_ite, result_bind, result_lift,
    xmlSkipSpacesT_result, xmlNextTokenT_result, xmlAttributeValueT_result]
  rfl

lemma xmlAttributesLoopT_result :
    ∀ (fuel : ℕ) (ctx : XmlParseCtx) (attributes : OrderedMap CString (List UInt8)),
      (xmlAttributesLoopT fuel ctx attributes).result = xmlAttributesLoop fuel ctx attributes
  | 0, _, _ => rfl
  | fuel + 1, ctx, attributes => by
      simp only [xmlAttributesLoopT, xmlAttributesLoop, result_ite, result_bind, result_lift,
        xmlParseAttributeT_result, xmlAttributesLoopT_result fuel]
      rfl

@[simp] lemma xmlParseAttributesT_result (ctx : XmlParseCtx) :
    (xmlParseAttributesT ctx).result = xmlParseAttributes ctx := by
  simp only [xmlParseAttributesT, xmlParseAttributes, result_bind, result_lift,
    xmlSkipSpacesT_result, xmlAttributesLoopT_result]
  rfl

lemma xmlParseCloseT_result (ctx : XmlParseCtx) :
    (xmlParseCloseT ctx).result = xmlParseClose ctx := by
  simp only [xmlParseCloseT, xmlParseClose, result_bind, result_lift]
  refine bind_congr fun found => ?_
  cases found with
  | none => rfl
  | some n => simp only [result_bind, xmlSkipSubT_result]; rfl

lemma xmlParseCDataT_result (ctx : XmlParseCtx) :
    (xmlParseCDataT ctx).result = xmlParseCData ctx := by
  simp only [xmlParseCDataT, xmlParseCData, result_bind, result_lift, xmlSkipSubT_result]
  refine bind_congr fun ctx => bind_congr fun found => ?_
  cases found with
  | none => rfl
  | some n => simp only [result_ite, result_bind, result_lift, xmlSkipSubT_result]; rfl

lemma xmlParseIgnoredT_result (ctx : XmlParseCtx) :
    (xmlParseIgnoredT ctx).result = xmlParseIgnored ctx := by
  rw [xmlParseIgnoredT, xmlParseIgnored]
  refine (result_ite _ _).trans (if_congr Iff.rfl ?_ rfl)
  rw [result_bind, result_lift]
  refine bind_congr fun found => ?_
  cases found with
  | none => rfl
  | some n => simp only [result_bind, xmlSkipSubT_result]; rfl

lemma xmlParseStartT_result (ctx : XmlParseCtx) :
    (xmlParseStartT ctx).result = xmlParseStart ctx := by
  simp only [xmlParseStartT, xmlParseStart, result_bind, result_lift, xmlNextTokenT_result,
    xmlParseAttributesT_result]
  rfl

lemma xmlParseTextT_result (ctx : XmlParseCtx) :
    (xmlParseTextT ctx).result = xmlParseText ctx := by
  simp only [xmlParseTextT, xmlParseText, result_bind, result_lift]
  refine bind_congr fun found => ?_
  cases found with
  | none => rfl
  | some n => simp only [result_bind, result_lift, xmlSkipSubT_result]; rfl

@[simp] lemma xmlParseItemT_result (ctx : XmlParseCtx) :
    (xmlParseItemT ctx).result = xmlParseItem ctx := by
  simp only [xmlParseItemT, xmlParseItem, result_ite, result_bind, result_lift,
    xmlSkipSpacesT_result, xmlNextCharT_result, xmlParseCloseT_result, xmlParseCDataT_result,
    xmlParseIgnoredT_result, xmlParseStartT_result, xmlParseTextT_result]
  rfl

/-- The descent without the record. -/
lemma xmlParseT_result : ∀ fuel : ℕ,
    (∀ depth ctx, (xmlParseNodeT fuel depth ctx).result = xmlParseNode fuel ctx) ∧
    (∀ depth ctx, (xmlParseNextT fuel depth ctx).result = xmlParseNext fuel ctx) ∧
    (∀ depth ctx children,
      (xmlParseChildrenT fuel depth ctx children).result = xmlParseChildren fuel ctx children)
  | 0 => ⟨fun _ _ => rfl, fun _ _ => rfl, fun _ _ _ => rfl⟩
  | fuel + 1 => by
      obtain ⟨ihnode, ihnext, ihchildren⟩ := xmlParseT_result fuel
      refine ⟨fun depth ctx => ?_, fun depth ctx => ?_, fun depth ctx children => ?_⟩
      · simp only [xmlParseNodeT, xmlParseNode, result_bind, result_ite, result_visit, ihnext]
        rfl
      · simp only [xmlParseNextT, xmlParseNext, result_bind, xmlParseItemT_result]
        refine bind_congr fun r => ?_
        obtain ⟨ctx, item⟩ := r
        cases item with
        | ignored => exact ihnext depth ctx
        | close => rfl
        | leaf node => rfl
        | start name attributes =>
            simp only [result_bind, result_ite, result_lift, xmlSkipSubT_result, ihchildren]
            rfl
      · simp only [xmlParseChildrenT, xmlParseChildren, result_bind, ihnode]
        refine bind_congr fun r => ?_
        obtain ⟨ctx, _ | child⟩ := r
        · rfl
        · exact ihchildren depth ctx _

lemma xmlParseRootT_result (ctx : XmlParseCtx) :
    (xmlParseRootT ctx).result = xmlParseRoot ctx := by
  simp only [xmlParseRootT, xmlParseRoot, result_bind, (xmlParseT_result _).1]
  refine bind_congr fun r => ?_
  obtain ⟨ctx, _ | node⟩ := r
  · exact result_ite _ _
  · exact result_ite _ _

/-- Without the record it is the parser. -/
lemma xmlParseStringT_result (ic : Iconv) (xmlstr : List UInt8) :
    (xmlParseStringT ic xmlstr).result = xmlParseString ic xmlstr := by
  simp only [xmlParseStringT, xmlParseString, xmlMovedT, result_bind, result_visit,
    xmlParseHeaderT_result, xmlParseRootT_result]
  rfl

/-! ### In bounds -/

/-- The cursor is `len - remain` bytes behind the start of the text, `remain` is between 0 and
`len`, and a call is inside at most 256 other ones. -/
def XmlInBounds (xmlstr : List UInt8) : XmlVisit → Prop
  | .cursor pos remain => 0 ≤ remain ∧ remain ≤ xmlstr.length ∧
      pos = xmlstr.drop (xmlstr.length - remain.toNat)
  | .call depth => depth ≤ 256

/-- A computation that visits what is in bounds only. -/
abbrev XmlRuns {α : Type} (xmlstr : List UInt8) (x : XmlTraced α) (Q : α → Prop) : Prop :=
  Runs (XmlInBounds xmlstr) (fun _ => True) x Q

/-- A context further on in the text. -/
def XmlAt (q : List UInt8) (d : ℕ) (cv : XmlCharset) (ctx : XmlParseCtx) : Prop :=
  ∃ r, ctx = .at r d cv ∧ r <:+ q

variable {xmlstr q : List UInt8} {d : ℕ} {cv : XmlCharset}

lemma XmlAt.refl (q : List UInt8) (d : ℕ) (cv : XmlCharset) : XmlAt q d cv (.at q d cv) :=
  ⟨q, rfl, List.suffix_rfl⟩

lemma XmlAt.trans {r : List UInt8} {ctx : XmlParseCtx} (h : XmlAt r d cv ctx) (hr : r <:+ q) :
    XmlAt q d cv ctx := by
  obtain ⟨s, hs, hsuffix⟩ := h
  exact ⟨s, hs, hsuffix.trans hr⟩

lemma xmlInBounds_cursor (hq : q <:+ xmlstr) : XmlInBounds xmlstr (.cursor q q.length) := by
  have hle := hq.length_le
  refine ⟨by omega, by omega, ?_⟩
  rw [Int.toNat_natCast]
  exact List.suffix_iff_eq_drop.mp hq

/-- What does not move the cursor. -/
lemma xmlRuns_lift {α : Type} (y : Except XmlFault α) :
    XmlRuns xmlstr (liftM y) fun _ => True :=
  .lift (fun _ _ => trivial) fun _ _ => trivial

lemma xmlRuns_fail {α : Type} {Q : α → Prop} (e : XmlFault) : XmlRuns xmlstr (fail e) Q :=
  .fail trivial

lemma xmlMovedT_runs (hq : q <:+ xmlstr) :
    XmlRuns xmlstr (xmlMovedT (.at q d cv)) fun _ => True :=
  .visit (xmlInBounds_cursor hq)

/-! ### The cursor -/

lemma xmlSkipSpacesLoopT_runs : ∀ q : List UInt8, q <:+ xmlstr →
    XmlRuns xmlstr (xmlSkipSpacesLoopT q q.length) fun res => ∃ r, res = (r, ↑r.length) ∧ r <:+ q
  | [], _ => by
      rw [xmlSkipSpacesLoopT]
      exact .ite (fun _ => xmlRuns_fail _) fun _ => .pure ⟨[], rfl, List.suffix_rfl⟩
  | c :: p, hq => by
      have hlen : ((c :: p).length : ℤ) - 1 = p.length := by simp
      have hp : p <:+ xmlstr := (List.suffix_cons c p).trans hq
      rw [xmlSkipSpacesLoopT, hlen]
      refine .ite (fun _ => .visit_bind (xmlInBounds_cursor hp) ?_) fun _ =>
        .pure ⟨c :: p, rfl, List.suffix_rfl⟩
      refine (xmlSkipSpacesLoopT_runs p hp).mono ?_
      rintro _ ⟨r, rfl, hr⟩
      exact ⟨r, rfl, hr.trans (List.suffix_cons c p)⟩

/-- `CMUTIL_XmlSkipSpaces`. -/
lemma xmlSkipSpacesT_runs (hq : q <:+ xmlstr) :
    XmlRuns xmlstr (xmlSkipSpacesT (.at q d cv)) (XmlAt q d cv) := by
  rw [xmlSkipSpacesT]
  refine (xmlSkipSpacesLoopT_runs q hq).bind ?_
  rintro _ ⟨r, rfl, hr⟩
  exact .ite (fun _ => .pure ⟨r, rfl, hr⟩) fun _ => xmlRuns_fail _

/-- `CMUTIL_XmlNextSub`. -/
lemma xmlNextSubT_runs (hq : q <:+ xmlstr) (n : ℕ) :
    XmlRuns xmlstr (xmlNextSubT (.at q d cv) n) fun res => XmlAt q d cv res.1 := by
  rw [xmlNextSubT]
  rcases xmlNextSub_cases d cv q n with ⟨r, s, hr, hsuffix, -⟩ | ⟨-, hr⟩
  · rw [hr]
    exact (xmlMovedT_runs (hsuffix.trans hq)).bind fun _ _ => .pure ⟨r, rfl, hsuffix⟩
  · rw [hr]
    exact xmlRuns_fail _

/-- `CMUTIL_XmlNextSub` where the caller does not look at its result. -/
lemma xmlSkipSubT_runs (hq : q <:+ xmlstr) (n : ℕ) :
    XmlRuns xmlstr (xmlSkipSubT (.at q d cv) n) (XmlAt q d cv) := by
  obtain ⟨r, hr, hsuffix⟩ := xmlSkipSub_cases d cv q n
  rw [xmlSkipSubT, hr]
  exact (xmlMovedT_runs (hsuffix.trans hq)).bind fun _ _ => .pure ⟨r, rfl, hsuffix⟩

/-- `CMUTIL_XmlNextChar`. -/
lemma xmlNextCharT_runs (hq : q <:+ xmlstr) :
    XmlRuns xmlstr (xmlNextCharT (.at q d cv)) fun res => XmlAt q d cv res.1 := by
  rw [xmlNextCharT]
  cases q with
  | nil =>
      rw [xmlNextChar_nil]
      exact xmlRuns_fail _
  | cons c p =>
      have hp : p <:+ c :: p := List.suffix_cons c p
      rw [xmlNextChar_cons]
      exact (xmlMovedT_runs (hp.trans hq)).bind fun _ _ => .pure ⟨p, rfl, hp⟩

lemma xmlNextTokenLoopT_runs (bufsz : ℕ) : ∀ q buf : List UInt8, q <:+ xmlstr →
    XmlRuns xmlstr (xmlNextTokenLoopT bufsz q q.length buf) fun res =>
      ∃ r out, res = (r, ↑r.length, out) ∧ r <:+ q
  | [], buf, _ => by
      rw [xmlNextTokenLoopT]
      exact .ite (fun _ => xmlRuns_fail _) fun _ => .pure ⟨[], buf, rfl, List.suffix_rfl⟩
  | c :: p, buf, hq => by
      have hlen : ((c :: p).length : ℤ) - 1 = p.length := by simp
      have hp : p <:+ xmlstr := (List.suffix_cons c p).trans hq
      rw [xmlNextTokenLoopT, hlen]
      refine .ite (fun _ => .ite (fun _ => xmlRuns_fail _) fun _ =>
        .visit_bind (xmlInBounds_cursor hp) ?_) fun _ => .pure ⟨c :: p, buf, rfl, List.suffix_rfl⟩
      refine (xmlNextTokenLoopT_runs bufsz p _ hp).mono ?_
      rintro _ ⟨r, out, rfl, hr⟩
      exact ⟨r, out, rfl, hr.trans (List.suffix_cons c p)⟩

/-- `CMUTIL_XmlNextToken`. -/
lemma xmlNextTokenT_runs (bufsz : ℕ) (hq : q <:+ xmlstr) :
    XmlRuns xmlstr (xmlNextTokenT bufsz (.at q d cv)) fun res => XmlAt q d cv res.1 := by
  rw [xmlNextTokenT]
  refine (xmlNextTokenLoopT_runs bufsz q [] hq).bind ?_
  rintro _ ⟨r, out, rfl, hr⟩
  exact .pure ⟨r, rfl, hr⟩

/-! ### The header -/

lemma xmlHeaderEntryT_runs (hq : q <:+ xmlstr) (name value e : CString) :
    XmlRuns xmlstr (xmlHeaderEntryT (.at q d cv) name value e) fun res => XmlAt q d cv res.1 := by
  rw [xmlHeaderEntryT]
  refine .ite (fun _ => (xmlRuns_lift _).bind fun found _ => ?_) fun _ =>
    (xmlSkipSubT_runs hq 1).bind fun ctx hctx => .pure hctx
  cases found with
  | none => exact xmlRuns_fail _
  | some n =>
      exact .ite (fun _ => xmlRuns_fail _) fun _ =>
        (xmlSkipSubT_runs hq n).bind fun ctx hctx => .pure hctx

lemma xmlHeaderRoundT_runs (hq : q <:+ xmlstr) (e : CString) :
    XmlRuns xmlstr (xmlHeaderRoundT (.at q d cv) e) fun res => XmlAt q d cv res.1 := by
  rw [xmlHeaderRoundT]
  refine (xmlNextTokenT_runs 64 hq).bind ?_
  rintro ⟨_, name⟩ ⟨r, rfl, hr⟩
  refine (xmlNextSubT_runs (hr.trans hq) 2).bind ?_
  rintro ⟨_, -⟩ ⟨s, rfl, hs⟩
  have hsq := hs.trans hr
  refine (xmlNextTokenT_runs 64 (hsq.trans hq)).bind ?_
  rintro ⟨_, value⟩ ⟨t, rfl, ht⟩
  have htq := ht.trans hsq
  exact (xmlHeaderEntryT_runs (htq.trans hq) name value e).mono fun res h => h.trans htq

lemma xmlHeaderLoopT_runs : ∀ (fuel : ℕ) (q : List UInt8) (e : CString), q <:+ xmlstr →
    XmlRuns xmlstr (xmlHeaderLoopT fuel (.at q d cv) e) fun res => XmlAt q d cv res.1
  | 0, _, _, _ => xmlRuns_fail _
  | fuel + 1, q, e, hq => by
      rw [xmlHeaderLoopT]
      refine .ite (fun _ => (xmlRuns_lift _).bind fun c _ => ?_) fun _ => .pure (.refl q d cv)
      refine .ite (fun _ => .pure (.refl q d cv)) fun _ => (xmlHeaderRoundT_runs hq e).bind ?_
      rintro ⟨_, e⟩ ⟨r, rfl, hr⟩
      exact (xmlHeaderLoopT_runs fuel r e (hr.trans hq)).mono fun res h => h.trans hr

/-- `CMUTIL_XmlParseHeader`. -/
lemma xmlParseHeaderT_runs (hq : q <:+ xmlstr) (e : CString) :
    XmlRuns xmlstr (xmlParseHeaderT (.at q d cv) e) fun res => XmlAt q d cv res.1 := by
  rw [xmlParseHeaderT]
  refine (xmlSkipSpacesT_runs hq).bind ?_
  rintro _ ⟨r, rfl, hr⟩
  refine (xmlNextSubT_runs (hr.trans hq) 2).bind ?_
  rintro ⟨_, buf⟩ ⟨s, rfl, hs⟩
  have hsq := hs.trans hr
  refine .ite (fun _ => (xmlSkipSpacesT_runs (hsq.trans hq)).bind ?_) fun _ => xmlRuns_fail _
  rintro _ ⟨t, rfl, ht⟩
  have htq := ht.trans hsq
  refine (xmlNextTokenT_runs 64 (htq.trans hq)).bind ?_
  rintro ⟨_, -⟩ ⟨u, rfl, hu⟩
  have huq := hu.trans htq
  refine (xmlSkipSpacesT_runs (huq.trans hq)).bind ?_
  rintro _ ⟨v, rfl, hv⟩
  have hvq := hv.trans huq
  refine (xmlHeaderLoopT_runs _ v e (hvq.trans hq)).bind ?_
  rintro ⟨_, e⟩ ⟨w, rfl, hw⟩
  have hwq := hw.trans hvq
  refine (xmlRuns_lift _).bind fun _ _ => (xmlNextSubT_runs (hwq.trans hq) 2).bind fun res hres => ?_
  exact .pure (hres.trans hwq)

/-! ### Attributes -/

lemma xmlQuotedValueT_runs (hq : q <:+ xmlstr) :
    XmlRuns xmlstr (xmlQuotedValueT (.at q d cv)) fun res => XmlAt q d cv res.1 := by
  rw [xmlQuotedValueT]
  refine (xmlNextCharT_runs hq).bind ?_
  rintro ⟨_, openc⟩ ⟨r, rfl, hr⟩
  refine (xmlRuns_lift _).bind fun found _ => ?_
  cases found with
  | none => exact xmlRuns_fail _
  | some n =>
      refine .ite (fun _ => xmlRuns_fail _) fun _ => ?_
      exact (xmlNextSubT_runs (hr.trans hq) _).bind fun res hres => .pure (hres.trans hr)

lemma xmlAttributeValueT_runs (hq : q <:+ xmlstr) :
    XmlRuns xmlstr (xmlAttributeValueT (.at q d cv)) fun res => XmlAt q d cv res.1 := by
  rw [xmlAttributeValueT]
  refine (xmlSkipSpacesT_runs hq).bind ?_
  rintro _ ⟨r, rfl, hr⟩
  refine (xmlRuns_lift _).bind fun _ _ => (xmlRuns_lift _).bind fun c _ => ?_
  refine .ite (fun _ => (xmlNextSubT_runs (hr.trans hq) 1).bind ?_) fun _ => .pure ⟨r, rfl, hr⟩
  rintro ⟨_, -⟩ ⟨s, rfl, hs⟩
  have hsq := hs.trans hr
  refine (xmlSkipSpacesT_runs (hsq.trans hq)).bind ?_
  rintro _ ⟨t, rfl, ht⟩
  have htq := ht.trans hsq
  exact (xmlQuotedValueT_runs (htq.trans hq)).mono fun res h => h.trans htq

lemma xmlParseAttributeT_runs (hq : q <:+ xmlstr) :
    XmlRuns xmlstr (xmlParseAttributeT (.at q d cv)) fun res => XmlAt q d cv res.1 := by
  rw [xmlParseAttributeT]
  refine (xmlNextTokenT_runs 1024 hq).bind ?_
  rintro ⟨_, attname⟩ ⟨r, rfl, hr⟩
  refine (xmlAttributeValueT_runs (hr.trans hq)).bind ?_
  rintro ⟨_, attvalue⟩ ⟨s, rfl, hs⟩
  have hsq := hs.trans hr
  refine (xmlRuns_lift _).bind fun bfval _ => (xmlRuns_lift _).bind fun afval _ =>
    (xmlRuns_lift _).bind fun afval _ => (xmlSkipSpacesT_runs (hsq.trans hq)).bind fun ctx hctx => ?_
  exact .ite (fun _ => xmlRuns_fail _) fun _ => .pure (hctx.trans hsq)

lemma xmlAttributesLoopT_runs : ∀ (fuel : ℕ) (q : List UInt8)
    (attributes : OrderedMap CString (List UInt8)), q <:+ xmlstr →
    XmlRuns xmlstr (xmlAttributesLoopT fuel (.at q d cv) attributes) fun res => XmlAt q d cv res.1
  | 0, _, _, _ => xmlRuns_fail _
  | fuel + 1, q, attributes, hq => by
      rw [xmlAttributesLoopT]
      refine .ite (fun _ => (xmlRuns_lift _).bind fun c _ => ?_) fun _ => .pure (.refl q d cv)
      refine .ite (fun _ => .pure (.refl q d cv)) fun _ => (xmlParseAttributeT_runs hq).bind ?_
      rintro ⟨_, attname, afval⟩ ⟨r, rfl, hr⟩
      exact (xmlAttributesLoopT_runs fuel r _ (hr.trans hq)).mono fun res h => h.trans hr

/-- `CMUTIL_XmlParseAttributes`. -/
lemma xmlParseAttributesT_runs (hq : q <:+ xmlstr) :
    XmlRuns xmlstr (xmlParseAttributesT (.at q d cv)) fun res => XmlAt q d cv res.1 := by
  rw [xmlParseAttributesT]
  refine (xmlSkipSpacesT_runs hq).bind ?_
  rintro _ ⟨r, rfl, hr⟩
  refine (xmlAttributesLoopT_runs _ r .empty (hr.trans hq)).bind ?_
  rintro ⟨_, attributes⟩ ⟨s, rfl, hs⟩
  exact (xmlRuns_lift _).bind fun _ _ => .pure ⟨s, rfl, hs.trans hr⟩

/-! ### Nodes -/

/-- The context behind an item, with one more open tag behind a start tag. -/
def XmlPassed (q : List UInt8) (d : ℕ) (cv : XmlCharset) (res : XmlParseCtx × XmlItem) : Prop :=
  XmlAt q (d + res.2.opened) cv res.1

lemma xmlParseCloseT_runs (hq : q <:+ xmlstr) :
    XmlRuns xmlstr (xmlParseCloseT (.at q d cv)) (XmlPassed q d cv) := by
  rw [xmlParseCloseT]
  refine (xmlRuns_lift _).bind fun found _ => ?_
  cases found with
  | none => exact xmlRuns_fail _
  | some n => exact (xmlSkipSubT_runs hq _).bind fun ctx hctx => .pure hctx

lemma xmlParseCDataT_runs (hq : q <:+ xmlstr) :
    XmlRuns xmlstr (xmlParseCDataT (.at q d cv)) (XmlPassed q d cv) := by
  rw [xmlParseCDataT]
  refine (xmlSkipSubT_runs hq 7).bind ?_
  rintro _ ⟨r, rfl, hr⟩
  refine (xmlRuns_lift _).bind fun found _ => ?_
  cases found with
  | none => exact xmlRuns_fail _
  | some n =>
      refine .ite (fun _ => xmlRuns_fail _) fun _ => (xmlRuns_lift _).bind fun afval _ =>
        (xmlRuns_lift _).bind fun name _ => ?_
      exact (xmlSkipSubT_runs (hr.trans hq) _).bind fun ctx hctx => .pure (hctx.trans hr)

lemma xmlParseIgnoredT_runs (hq : q <:+ xmlstr) :
    XmlRuns xmlstr (xmlParseIgnoredT (.at q d cv)) (XmlPassed q d cv) := by
  rw [xmlParseIgnoredT]
  refine .ite (fun _ => (xmlRuns_lift _).bind fun found _ => ?_) fun _ => xmlRuns_fail _
  cases found with
  | none => exact xmlRuns_fail _
  | some n => exact (xmlSkipSubT_runs hq _).bind fun ctx hctx => .pure hctx

lemma xmlParseStartT_runs (hq : q <:+ xmlstr) :
    XmlRuns xmlstr (xmlParseStartT (.at q d cv)) (XmlPassed q d cv) := by
  rw [xmlParseStartT]
  refine (xmlNextTokenT_runs 128 hq).bind ?_
  rintro ⟨_, tagname⟩ ⟨r, rfl, hr⟩
  refine (xmlRuns_lift _).bind fun name _ => ?_
  have hattributes : XmlRuns xmlstr (xmlParseAttributesT (.at r (d + 1) cv)) fun res =>
    XmlAt r (d + 1) cv res.1 := xmlParseAttributesT_runs (hr.trans hq)
  exact hattributes.bind fun res hres => .pure (hres.trans hr)

lemma xmlParseTextT_runs (hq : q <:+ xmlstr) :
    XmlRuns xmlstr (xmlParseTextT (.at q d cv)) (XmlPassed q d cv) := by
  rw [xmlParseTextT]
  refine (xmlRuns_lift _).bind fun found _ => ?_
  cases found with
  | none => exact xmlRuns_fail _
  | some n =>
      exact (xmlRuns_lift _).bind fun bfval _ => (xmlRuns_lift _).bind fun afval _ =>
        (xmlRuns_lift _).bind fun afval _ => (xmlRuns_lift _).bind fun name _ =>
          (xmlSkipSubT_runs hq n).bind fun ctx hctx => .pure hctx

lemma xmlParseItemT_runs (hq : q <:+ xmlstr) :
    XmlRuns xmlstr (xmlParseItemT (.at q d cv)) (XmlPassed q d cv) := by
  rw [xmlParseItemT]
  refine (xmlSkipSpacesT_runs hq).bind ?_
  rintro _ ⟨r, rfl, hr⟩
  have hrq := hr.trans hq
  refine (xmlRuns_lift _).bind fun _ _ => (xmlRuns_lift _).bind fun c _ => .ite (fun _ => ?_)
    fun _ => .ite (fun _ => xmlRuns_fail _) fun _ => ?_
  · refine (xmlNextCharT_runs hrq).bind ?_
    rintro ⟨_, -⟩ ⟨s, rfl, hs⟩
    have hsq := hs.trans hr
    refine (xmlRuns_lift _).bind fun _ _ => (xmlRuns_lift _).bind fun c _ => .ite (fun _ => ?_)
      fun _ => .ite (fun _ => ?_) fun _ => ?_
    · exact (xmlParseCloseT_runs (hsq.trans hq)).mono fun res h => XmlAt.trans h hsq
    · refine (xmlNextCharT_runs (hsq.trans hq)).bind ?_
      rintro ⟨_, -⟩ ⟨t, rfl, ht⟩
      have htq := ht.trans hsq
      refine (xmlRuns_lift _).bind fun iscdata _ => .ite (fun _ => ?_) fun _ => ?_
      · exact (xmlParseCDataT_runs (htq.trans hq)).mono fun res h => XmlAt.trans h htq
      · exact (xmlParseIgnoredT_runs (htq.trans hq)).mono fun res h => XmlAt.trans h htq
    · exact (xmlParseStartT_runs (hsq.trans hq)).mono fun res h => XmlAt.trans h hsq
  · exact (xmlParseTextT_runs hrq).mono fun res h => XmlAt.trans h hr

/-- **The descent** stays in bounds. The calls under way are the open tags. -/
theorem xmlParseT_runs (xmlstr : List UInt8) (cv : XmlCharset) : ∀ fuel : ℕ,
    (∀ q d, q <:+ xmlstr → d ≤ 256 →
      XmlRuns xmlstr (xmlParseNodeT fuel d (.at q d cv)) fun res => XmlAt q d cv res.1) ∧
    (∀ q d, q <:+ xmlstr → d < 256 →
      XmlRuns xmlstr (xmlParseNextT fuel d (.at q d cv)) fun res => XmlAt q d cv res.1) ∧
    (∀ q d children, q <:+ xmlstr → d ≤ 256 →
      XmlRuns xmlstr (xmlParseChildrenT fuel d (.at q d cv) children) fun res =>
        XmlAt q d cv res.1)
  | 0 => ⟨fun _ _ _ _ => xmlRuns_fail _, fun _ _ _ _ => xmlRuns_fail _,
      fun _ _ _ _ _ => xmlRuns_fail _⟩
  | fuel + 1 => by
      obtain ⟨ihnode, ihnext, ihchildren⟩ := xmlParseT_runs xmlstr cv fuel
      refine ⟨fun q d hq hd => ?_, fun q d hq hd => ?_, fun q d children hq hd => ?_⟩
      · rw [xmlParseNodeT]
        refine .visit_bind hd (.ite (fun _ => xmlRuns_fail _) fun hdepth => ?_)
        exact ihnext q d hq (not_le.mp hdepth)
      · rw [xmlParseNextT]
        refine (xmlParseItemT_runs hq).bind ?_
        rintro ⟨ctx, item⟩ ⟨r, hctx, hr⟩
        obtain rfl : ctx = .at r (d + item.opened) cv := hctx
        have hrq := hr.trans hq
        cases item with
        | ignored => exact (ihnext r d hrq hd).mono fun res h => h.trans hr
        | close => exact .pure ⟨r, rfl, hr⟩
        | leaf node => exact .pure ⟨r, rfl, hr⟩
        | start name attributes =>
            refine (xmlRuns_lift _).bind fun isempty _ => .ite (fun _ => ?_) fun _ =>
              (xmlRuns_lift _).bind fun c _ => .ite (fun _ => ?_) fun _ => xmlRuns_fail _
            · refine (xmlSkipSubT_runs hrq 2).bind ?_
              rintro _ ⟨s, rfl, hs⟩
              exact .pure ⟨s, rfl, hs.trans hr⟩
            · refine (xmlSkipSubT_runs hrq 1).bind ?_
              rintro _ ⟨s, rfl, hs⟩
              have hsq := hs.trans hr
              refine (ihchildren s (d + 1) [] (hsq.trans hq) hd).bind ?_
              rintro ⟨_, children⟩ ⟨t, rfl, ht⟩
              exact .pure ⟨t, rfl, ht.trans hsq⟩
      · rw [xmlParseChildrenT]
        refine (ihnode q d hq hd).bind ?_
        rintro ⟨_, _ | child⟩ ⟨r, rfl, hr⟩
        · exact .pure ⟨r, rfl, hr⟩
        · exact (ihchildren r d _ (hr.trans hq) hd).mono fun res h => h.trans hr

lemma xmlParseStringT_runs (ic : Iconv) (xmlstr : List UInt8) :
    XmlRuns xmlstr (xmlParseStringT ic xmlstr) fun _ => True := by
  rw [xmlParseStringT]
  have hstart : XmlRuns xmlstr (xmlMovedT (.at xmlstr 0 none)) fun _ => True :=
    xmlMovedT_runs List.suffix_rfl
  refine hstart.bind fun _ _ => ?_
  have hheader : XmlRuns xmlstr (xmlParseHeaderT (.at xmlstr 0 none) utf8Name) fun res =>
    XmlAt xmlstr 0 none res.1 := xmlParseHeaderT_runs List.suffix_rfl utf8Name
  refine hheader.bind ?_
  rintro ⟨_, e⟩ ⟨q, rfl, hq⟩
  have hroot : XmlRuns xmlstr (xmlParseRootT (.at q 0 (xmlCharset ic e))) fun _ => True := by
    rw [xmlParseRootT]
    refine ((xmlParseT_runs xmlstr _ _).1 q 0 hq (Nat.zero_le _)).bind ?_
    rintro ⟨ctx, res⟩ -
    refine .ite (fun _ => xmlRuns_fail _) fun _ => ?_
    cases res with
    | none => exact xmlRuns_fail _
    | some node => exact .pure trivial
  exact hroot

/-- **Termination and bounds.** On every text `CMUTIL_XmlParseString` ends: it returns a tree or
`NULL`, or it is stopped by a node that was not created. It reads no byte behind the text,
the cursor agrees with the byte counter at every place it comes to, and a call of
`CMUTIL_XmlParseNode` is inside at most 256 others. -/
theorem xmlParseString_bounds (ic : Iconv) (xmlstr : List UInt8) :
    ((∃ node, xmlParseString ic xmlstr = .ok node) ∨ xmlParseString ic xmlstr = .error .failed ∨
      xmlParseString ic xmlstr = .error .nullDeref) ∧
    (xmlParseStringT ic xmlstr).result = xmlParseString ic xmlstr ∧
    ∀ visit ∈ (xmlParseStringT ic xmlstr).visited, XmlInBounds xmlstr visit :=
  ⟨xmlParseString_cases ic xmlstr, xmlParseStringT_result ic xmlstr,
    (xmlParseStringT_runs ic xmlstr).visited⟩

end LibCmutils
