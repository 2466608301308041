import LibCmutils.Json.Scanner
import LibCmutils.Lib.Traced

/-!
What the JSON parser (`src/nanojson.c`) visits on any string.

* `jsonParseConsumeT` to `jsonParseInternalT`: the functions of the parser with a record of
  the states they pass through, one after every move of the cursor and every change of the
  nesting counter. `jsonParseInternalT_result`: without the record they are the parser.
* `JsonInBounds`: the cursor and its byte counter agree, stay inside the string, and the
  nesting is at most 512.
* `jsonParseConsumeT_runs` to `descentRuns`: no function is stuck, which is where the
  fuel would be spent or a byte behind the terminating NUL would be read, and every state
  visited is in bounds.

The main result is `jsonParse_bounds`.
-/

namespace LibCmutils

open Traced

/-- A computation of the parser with the states it visits. -/
abbrev JsonTraced := Traced JsonParser Unit

/-! ### The functions with a record -/

/-- `CMUTIL_JsonParseConsume`. -/
def jsonParseConsumeT (pctx : JsonParser) (count : ℤ) : JsonTraced JsonParser := do
  let pctx ← jsonParseConsume pctx count
  visit pctx
  return pctx

/-- The loop `while (test && remain > 0) Consume(1)`. -/
def jsonConsumeWhileT (test : JsonParser → Option Bool) : ℕ → JsonParser → JsonTraced JsonParser
  | 0, _ => fail ()
  | fuel + 1, pctx => do
      let goon ← test pctx
      if goon && 0 < pctx.remain then do
        let pctx ← jsonParseConsumeT pctx 1
        jsonConsumeWhileT test fuel pctx
      else return pctx

/-- The part of `CMUTIL_JsonSkipSpaces` that skips one comment. -/
def jsonSkipCommentT (pctx : JsonParser) : JsonTraced (Option JsonParser) := do
  let fuel := pctx.remain.toNat + 1
  let c ← pctx.deref 0
  if 0 < pctx.remain && c = 0x2F then do
    let c ← pctx.deref 1
    if c = 0x2F then do
      -- line comment
      let pctx ← jsonParseConsumeT pctx 2
      let pctx ←
        jsonConsumeWhileT (fun p => (p.deref 0).map fun c => !strchr jsnLineEnds c) fuel pctx
      return some pctx
    else if c = 0x2A then do
      -- block comment
      let pctx ← jsonParseConsumeT pctx 2
      let pctx ← jsonConsumeWhileT (fun p => some !jsonStartsWith [0x2A, 0x2F] p.curr) fuel pctx
      let pctx ← if 0 < pctx.remain then jsonParseConsumeT pctx 2 else pure pctx
      return some pctx
    else return none
  else return none

/-- The rounds of `CMUTIL_JsonSkipSpaces`. -/
def jsonSkipRoundsT : ℕ → JsonParser → JsonTraced (JsonParser × Bool)
  | 0, _ => fail ()
  | fuel + 1, pctx => do
      let pctx ← jsonConsumeWhileT (fun p => (p.deref 0).map (strchr jsnSpaces))
        (pctx.remain.toNat + 1) pctx
      match ← jsonSkipCommentT pctx with
      | some pctx => jsonSkipRoundsT fuel pctx
      | none => return (pctx, 0 < pctx.remain)

/-- `CMUTIL_JsonSkipSpaces`. -/
def jsonSkipSpacesT (pctx : JsonParser) : JsonTraced (JsonParser × Bool) :=
  jsonSkipRoundsT (pctx.remain.toNat + 1) pctx

/-- The low surrogate that must follow a high surrogate. -/
def jsonParseLowSurrogateT (pctx : JsonParser) (cp : ℕ) (sbuf : List UInt8) :
    JsonTraced (JsonParser × Option (List UInt8)) :=
  if pctx.remain < 7 then return (pctx, none)
  else do
    let c1 ← pctx.deref 1
    let c2 ← pctx.deref 2
    if c1 ≠ 0x5C ∨ c2 ≠ 0x75 then return (pctx, none)
    else match jsonHex4 (pctx.curr.drop 3) with
      | none => return (pctx, none)
      | some lo =>
          if lo < 0xDC00 ∨ 0xDFFF < lo then return (pctx, none)
          else do
            let pctx ← jsonParseConsumeT pctx 6
            return (pctx, some (sbuf ++
              jsonAppendUTF8 (0x10000 + (cp - 0xD800) * 1024 + (lo - 0xDC00))))

/-- The case `'u'` of `CMUTIL_JsonParseEscape`. -/
def jsonParseUnicodeT (pctx : JsonParser) (sbuf : List UInt8) :
    JsonTraced (JsonParser × Option (List UInt8)) :=
  if pctx.remain < 5 then return (pctx, none)
  else match jsonHex4 (pctx.curr.drop 1) with
    | none => return (pctx, none)
    | some cp => do
        let pctx ← jsonParseConsumeT pctx 4
        if 0xD800 ≤ cp ∧ cp ≤ 0xDBFF then jsonParseLowSurrogateT pctx cp sbuf
        else if 0xDC00 ≤ cp ∧ cp ≤ 0xDFFF then return (pctx, none)
        else return (pctx, some (sbuf ++ jsonAppendUTF8 cp))

/-- `CMUTIL_JsonParseEscape`. -/
def jsonParseEscapeT (pctx : JsonParser) (sbuf : List UInt8) :
    JsonTraced (JsonParser × Option (List UInt8)) := do
  let pctx ← jsonParseConsumeT pctx 1
  if pctx.remain ≤ 0 then return (pctx, none)
  else do
    let c ← pctx.deref 0
    if c = 0x75 then jsonParseUnicodeT pctx sbuf
    else return (pctx, some (sbuf ++ [jsonEscapeByte c]))

/-- The loop of `CMUTIL_JsonParseString`. -/
def jsonParseStringLoopT (isstquot : Bool) : ℕ → JsonParser → List UInt8 →
    JsonTraced (JsonParser × Option (List UInt8))
  | 0, _, _ => fail ()
  | fuel + 1, pctx, sbuf =>
      if 0 < pctx.remain then do
        let c ← pctx.deref 0
        if c = 0x5C then do
          -- escape sequence
          let (pctx, res) ← jsonParseEscapeT pctx sbuf
          match res with
          | none => return (pctx, none)
          | some sbuf => do
              let pctx ← jsonParseConsumeT pctx 1
              jsonParseStringLoopT isstquot fuel pctx sbuf
        else if isstquot && c = 0x22 then do
          let pctx ← jsonParseConsumeT pctx 1
          return (pctx, some sbuf)
        else if !isstquot && strchr jsnDelims c then return (pctx, some sbuf)
        else do
          let pctx ← jsonParseConsumeT pctx 1
          jsonParseStringLoopT isstquot fuel pctx (sbuf ++ [c])
      else return (pctx, some sbuf)

/-- `CMUTIL_JsonParseString`. -/
def jsonParseStringT (pctx : JsonParser) : JsonTraced (JsonParser × Option (List UInt8 × Bool)) := do
  let (pctx, more) ← jsonSkipSpacesT pctx
  if more then do
    let c ← pctx.deref 0
    let isstquot := c = 0x22
    let pctx ← if isstquot then jsonParseConsumeT pctx 1 else pure pctx
    let (pctx, res) ← jsonParseStringLoopT isstquot (pctx.remain.toNat + 1) pctx []
    return (pctx, res.map fun sbuf => (sbuf, !isstquot))
  else return (pctx, none)

/-- `CMUTIL_JsonParseValue`. -/
def jsonParseValueT (cd : CDouble) (pctx : JsonParser) : JsonTraced (JsonParser × Option Json) := do
  let (pctx, more) ← jsonSkipSpacesT pctx
  if more then do
    let (pctx, res) ← jsonParseStringT pctx
    match res with
    | none => return (pctx, none)
    | some (sbuf, isconst) =>
        if isconst then return (pctx, jsonParseConst cd sbuf)
        else return (pctx, some (jsonValueSetString (CString.ofBytes sbuf)))
  else return (pctx, none)

/-- The head of a round in `CMUTIL_JsonParseObject` and `CMUTIL_JsonParseArray`. -/
def jsonParseCloseT (close : UInt8) (pctx : JsonParser) : JsonTraced (JsonParser × Option Bool) := do
  let (pctx, more) ← jsonSkipSpacesT pctx
  if more then do
    let c ← pctx.deref 0
    if c = close then do
      let pctx ← jsonParseConsumeT pctx 1
      return (pctx, some true)
    else return (pctx, some false)
  else return (pctx, none)

/-- The tail of a round. -/
def jsonParseNextT (close : UInt8) (pctx : JsonParser) : JsonTraced (JsonParser × Option Bool) := do
  let (pctx, more) ← jsonSkipSpacesT pctx
  if more then do
    let c ← pctx.deref 0
    if c = close then do
      let pctx ← jsonParseConsumeT pctx 1
      return (pctx, some true)
    else if c = 0x2C then do
      let pctx ← jsonParseConsumeT pctx 1
      return (pctx, some false)
    else return (pctx, none)
  else return (pctx, none)

/-- The name of a member up to its colon. -/
def jsonParseNameT (pctx : JsonParser) : JsonTraced (JsonParser × Option CString) := do
  let (pctx, name) ← jsonParseStringT pctx
  match name with
  | none => return (pctx, none)
  | some (name, _) => do
      let (pctx, more) ← jsonSkipSpacesT pctx
      if more then do
        let c ← pctx.deref 0
        if c = 0x3A then do
          let pctx ← jsonParseConsumeT pctx 1
          return (pctx, some (CString.ofBytes name))
        else return (pctx, none)
      else return (pctx, none)

/-- The nesting counter is set. -/
def jsonSetDepthT (pctx : JsonParser) (depth : ℕ) : JsonTraced JsonParser := do
  let pctx := { pctx with depth := depth }
  visit pctx
  return pctx

mutual

/-- `CMUTIL_JsonParseBase`. -/
def jsonParseBaseT (cd : CDouble) : ℕ → JsonParser → JsonTraced (JsonParser × Option Json)
  | 0, _ => fail ()
  | fuel + 1, pctx =>
      if 512 ≤ pctx.depth then return (pctx, none)
      else do
        let pctx ← jsonSetDepthT pctx (pctx.depth + 1)
        let (pctx, more) ← jsonSkipSpacesT pctx
        if more then do
          let c ← pctx.deref 0
          let (pctx, res) ← (if c = 0x7B then jsonParseObjectT cd fuel pctx
            else if c = 0x5B then jsonParseArrayT cd fuel pctx
            else jsonParseValueT cd pctx)
          let pctx ← jsonSetDepthT pctx (pctx.depth - 1)
          return (pctx, res)
        else do
          let pctx ← jsonSetDepthT pctx (pctx.depth - 1)
          return (pctx, none)

/-- `CMUTIL_JsonParseObject`. -/
def jsonParseObjectT (cd : CDouble) : ℕ → JsonParser → JsonTraced (JsonParser × Option Json)
  | 0, _ => fail ()
  | fuel + 1, pctx => do
      let c ← pctx.deref 0
      if c = 0x7B then do
        let pctx ← jsonParseConsumeT pctx 1
        jsonParseMembersT cd fuel pctx []
      else return (pctx, none)

/-- The loop of `CMUTIL_JsonParseObject`. -/
def jsonParseMembersT (cd : CDouble) :
    ℕ → JsonParser → List (CString × Json) → JsonTraced (JsonParser × Option Json)
  | 0, _, _ => fail ()
  | fuel + 1, pctx, entries =>
      if 0 < pctx.remain then do
        let (pctx, close) ← jsonParseCloseT 0x7D pctx
        match close with
        | none => return (pctx, none)
        | some true => return (pctx, some (.object entries))
        | some false => do
            let (pctx, name) ← jsonParseNameT pctx
            match name with
            | none => return (pctx, none)
            | some name => do
                let (pctx, value) ← jsonParseBaseT cd fuel pctx
                match value with
                | none => return (pctx, none)
                | some value => do
                    let entries := jsonObjectPut entries name value
                    let (pctx, next) ← jsonParseNextT 0x7D pctx
                    match next with
                    | none => return (pctx, none)
                    | some true => return (pctx, some (.object entries))
                    | some false => jsonParseMembersT cd fuel pctx entries
      else return (pctx, some (.object entries))

/-- `CMUTIL_JsonParseArray`. -/
def jsonParseArrayT (cd : CDouble) : ℕ → JsonParser → JsonTraced (JsonParser × Option Json)
  | 0, _ => fail ()
  | fuel + 1, pctx => do
      let c ← pctx.deref 0
      if c = 0x5B then do
        let pctx ← jsonParseConsumeT pctx 1
        jsonParseItemsT cd fuel pctx []
      else return (pctx, none)

/-- The loop of `CMUTIL_JsonParseArray`. -/
def jsonParseItemsT (cd : CDouble) :
    ℕ → JsonParser → List Json → JsonTraced (JsonParser × Option Json)
  | 0, _, _ => fail ()
  | fuel + 1, pctx, items =>
      if 0 < pctx.remain then do
        let (pctx, close) ← jsonParseCloseT 0x5D pctx
        match close with
        | none => return (pctx, none)
        | some true => return (pctx, some (.array items))
        | some false => do
            let (pctx, item) ← jsonParseBaseT cd fuel pctx
            match item with
            | none => return (pctx, none)
            | some item => do
                let items := jsonArrayAdd items item
                let (pctx, next) ← jsonParseNextT 0x5D pctx
                match next with
                | none => return (pctx, none)
                | some true => return (pctx, some (.array items))
                | some false => jsonParseItemsT cd fuel pctx items
      else return (pctx, some (.array items))

end

/-- `CMUTIL_JsonParseInternal`. -/
def jsonParseInternalT (cd : CDouble) (jsonstr : List UInt8) :
    JsonTraced (JsonParser × Option Json) := do
  let pctx : JsonParser := { curr := jsonstr, remain := jsonstr.length, depth := 0 }
  visit pctx
  jsonParseBaseT cd (3 * jsonstr.length + 1) pctx

/-! ### Without the record -/

@[simp] lemma jsonParseConsumeT_result (pctx : JsonParser) (count : ℤ) :
    (jsonParseConsumeT pctx count).result = orStuck (jsonParseConsume pctx count) := by
  rw [jsonParseConsumeT, result_bind, result_liftOption]
  cases jsonParseConsume pctx count <;> rfl

@[simp] lemma jsonConsumeWhileT_result (test : JsonParser → Option Bool) :
    ∀ (fuel : ℕ) (pctx : JsonParser),
      (jsonConsumeWhileT test fuel pctx).result = orStuck (jsonConsumeWhile test fuel pctx)
  | 0, _ => rfl
  | fuel + 1, pctx => by
      have ih := jsonConsumeWhileT_result test fuel
      simp [jsonConsumeWhileT, jsonConsumeWhile, ih]

@[simp] lemma jsonSkipCommentT_result (pctx : JsonParser) :
    (jsonSkipCommentT pctx).result = orStuck (jsonSkipComment pctx) := by
  simp [jsonSkipCommentT, jsonSkipComment]

@[simp] lemma jsonSkipRoundsT_result : ∀ (fuel : ℕ) (pctx : JsonParser),
    (jsonSkipRoundsT fuel pctx).result = orStuck (jsonSkipRounds fuel pctx)
  | 0, _ => rfl
  | fuel + 1, pctx => by
      have ih := jsonSkipRoundsT_result fuel
      simp only [jsonSkipRoundsT, jsonSkipRounds, result_bind, Option.bind_eq_bind, orStuck_bind,
        jsonConsumeWhileT_result, jsonSkipCommentT_result]
      refine bind_congr fun p => bind_congr fun r => ?_
      cases r with
      | none => rfl
      | some p => exact ih p

@[simp] lemma jsonSkipSpacesT_result (pctx : JsonParser) :
    (jsonSkipSpacesT pctx).result = orStuck (jsonSkipSpaces pctx) := jsonSkipRoundsT_result _ _

@[simp] lemma jsonParseLowSurrogateT_result (pctx : JsonParser) (cp : ℕ) (sbuf : List UInt8) :
    (jsonParseLowSurrogateT pctx cp sbuf).result = orStuck (jsonParseLowSurrogate pctx cp sbuf) := by
  rw [jsonParseLowSurrogateT, jsonParseLowSurrogate]
  cases jsonHex4 (pctx.curr.drop 3) <;> simp

@[simp] lemma jsonParseUnicodeT_result (pctx : JsonParser) (sbuf : List UInt8) :
    (jsonParseUnicodeT pctx sbuf).result = orStuck (jsonParseUnicode pctx sbuf) := by
  rw [jsonParseUnicodeT, jsonParseUnicode]
  cases jsonHex4 (pctx.curr.drop 1) <;> simp

@[simp] lemma jsonParseEscapeT_result (pctx : JsonParser) (sbuf : List UInt8) :
    (jsonParseEscapeT pctx sbuf).result = orStuck (jsonParseEscape pctx sbuf) := by
  simp [jsonParseEscapeT, jsonParseEscape]

@[simp] lemma jsonParseStringLoopT_result (isstquot : Bool) :
    ∀ (fuel : ℕ) (pctx : JsonParser) (sbuf : List UInt8),
      (jsonParseStringLoopT isstquot fuel pctx sbuf).result =
        orStuck (jsonParseStringLoop isstquot fuel pctx sbuf)
  | 0, _, _ => rfl
  | fuel + 1, pctx, sbuf => by
      have ih := jsonParseStringLoopT_result isstquot fuel
      simp only [jsonParseStringLoopT, jsonParseStringLoop, result_ite, orStuck_ite, result_bind,
        result_liftOption, Option.bind_eq_bind, orStuck_bind, jsonParseEscapeT_result]
      refine if_congr Iff.rfl (bind_congr fun c => if_congr Iff.rfl (bind_congr fun r => ?_) ?_) rfl
      · obtain ⟨pctx, _ | sbuf⟩ := r
        · rfl
        · simp [ih]
      · simp [ih]

@[simp] lemma jsonParseStringT_result (pctx : JsonParser) :
    (jsonParseStringT pctx).result = orStuck (jsonParseString pctx) := by
  simp [jsonParseStringT, jsonParseString]

@[simp] lemma jsonParseValueT_result (cd : CDouble) (pctx : JsonParser) :
    (jsonParseValueT cd pctx).result = orStuck (jsonParseValue cd pctx) := by
  simp only [jsonParseValueT, jsonParseValue, result_ite, orStuck_ite, result_bind,
    Option.bind_eq_bind, orStuck_bind, jsonSkipSpacesT_result, jsonParseStringT_result]
  refine bind_congr fun r => if_congr Iff.rfl (bind_congr fun r => ?_) rfl
  obtain ⟨pctx, _ | ⟨sbuf, isconst⟩⟩ := r
  · rfl
  · simp

@[simp] lemma jsonParseCloseT_result (close : UInt8) (pctx : JsonParser) :
    (jsonParseCloseT close pctx).result = orStuck (jsonParseClose close pctx) := by
  simp [jsonParseCloseT, jsonParseClose]

@[simp] lemma jsonParseNextT_result (close : UInt8) (pctx : JsonParser) :
    (jsonParseNextT close pctx).result = orStuck (jsonParseNext close pctx) := by
  simp [jsonParseNextT, jsonParseNext]

@[simp] lemma jsonParseNameT_result (pctx : JsonParser) :
    (jsonParseNameT pctx).result = orStuck (jsonParseName pctx) := by
  simp only [jsonParseNameT, jsonParseName, result_bind, Option.bind_eq_bind, orStuck_bind,
    jsonParseStringT_result]
  refine bind_congr fun r => ?_
  obtain ⟨pctx, _ | ⟨name, isconst⟩⟩ := r
  · rfl
  · simp

/-- The descent without the record. -/
structure DescentResult (cd : CDouble) (fuel : ℕ) : Prop where
  base : ∀ pctx, (jsonParseBaseT cd fuel pctx).result = orStuck (jsonParseBase cd fuel pctx)
  object : ∀ pctx, (jsonParseObjectT cd fuel pctx).result = orStuck (jsonParseObject cd fuel pctx)
  members : ∀ pctx entries, (jsonParseMembersT cd fuel pctx entries).result =
    orStuck (jsonParseMembers cd fuel pctx entries)
  array : ∀ pctx, (jsonParseArrayT cd fuel pctx).result = orStuck (jsonParseArray cd fuel pctx)
  items : ∀ pctx items, (jsonParseItemsT cd fuel pctx items).result =
    orStuck (jsonParseItems cd fuel pctx items)

lemma descentResult (cd : CDouble) : ∀ fuel, DescentResult cd fuel
  | 0 => ⟨fun _ => rfl, fun _ => rfl, fun _ _ => rfl, fun _ => rfl, fun _ _ => rfl⟩
  | fuel + 1 => by
      obtain ⟨ihbase, ihobject, ihmembers, iharray, ihitems⟩ := descentResult cd fuel
      refine ⟨fun pctx => ?_, fun pctx => ?_, fun pctx entries => ?_, fun pctx => ?_,
        fun pctx items => ?_⟩
      · simp [jsonParseBaseT, jsonParseBase, jsonSetDepthT, ihobject, iharray]
      · simp [jsonParseObjectT, jsonParseObject, ihmembers]
      · simp only [jsonParseMembersT, jsonParseMembers, result_ite, orStuck_ite, result_bind,
          Option.bind_eq_bind, orStuck_bind, jsonParseCloseT_result]
        refine if_congr Iff.rfl (bind_congr fun r => ?_) rfl
        obtain ⟨pctx, _ | _ | _⟩ := r
        · rfl
        · simp only [result_bind, orStuck_bind, jsonParseNameT_result]
          refine bind_congr fun r => ?_
          obtain ⟨pctx, _ | name⟩ := r
          · rfl
          simp only [result_bind, orStuck_bind, ihbase]
          refine bind_congr fun r => ?_
          obtain ⟨pctx, _ | value⟩ := r
          · rfl
          simp only [result_bind, orStuck_bind, jsonParseNextT_result]
          refine bind_congr fun r => ?_
          obtain ⟨pctx, _ | _ | _⟩ := r
          · rfl
          · exact ihmembers _ _
          · rfl
        · rfl
      · simp [jsonParseArrayT, jsonParseArray, ihitems]
      · simp only [jsonParseItemsT, jsonParseItems, result_ite, orStuck_ite, result_bind,
          Option.bind_eq_bind, orStuck_bind, jsonParseCloseT_result]
        refine if_congr Iff.rfl (bind_congr fun r => ?_) rfl
        obtain ⟨pctx, _ | _ | _⟩ := r
        · rfl
        · simp only [result_bind, orStuck_bind, ihbase]
          refine bind_congr fun r => ?_
          obtain ⟨pctx, _ | item⟩ := r
          · rfl
          simp only [result_bind, orStuck_bind, jsonParseNextT_result]
          refine bind_congr fun r => ?_
          obtain ⟨pctx, _ | _ | _⟩ := r
          · rfl
          · exact ihitems _ _
          · rfl
        · rfl

/-- Without the record it is the parser. -/
lemma jsonParseInternalT_result (cd : CDouble) (jsonstr : List UInt8) :
    (jsonParseInternalT cd jsonstr).result = orStuck (jsonParseInternal cd jsonstr) := by
  simp only [jsonParseInternalT, result_bind, result_visit]
  exact (descentResult cd _).base _

/-! ### In bounds -/

/-- The cursor is `size - remain` bytes behind the start of the string, `remain` is between 0
and the size, and at most 512 levels are open. -/
structure JsonInBounds (orig : List UInt8) (pctx : JsonParser) : Prop where
  nonneg : 0 ≤ pctx.remain
  le : pctx.remain ≤ orig.length
  curr : pctx.curr = orig.drop (orig.length - pctx.remain.toNat)
  depth : pctx.depth ≤ 512

/-- A computation that is not stuck and visits states in bounds only. -/
abbrev JsonRuns {α : Type} (orig : List UInt8) (x : JsonTraced α) (Q : α → Prop) : Prop :=
  Runs (JsonInBounds orig) (fun _ => False) x Q

/-- A state further on in the text. -/
def JsonAt (q : List UInt8) (d : ℕ) (pctx : JsonParser) : Prop := ∃ r, pctx = .at r d ∧ r <:+ q

/-- A state at least one byte further on. -/
def JsonPast (q : List UInt8) (d : ℕ) (pctx : JsonParser) : Prop :=
  ∃ r, pctx = .at r d ∧ r <:+ q ∧ r.length < q.length

lemma jsonInBounds_at {orig q : List UInt8} {d : ℕ} (hq : q <:+ orig) (hd : d ≤ 512) :
    JsonInBounds orig (.at q d) where
  nonneg := by
    rw [JsonParser.at_remain]
    omega
  le := by
    have := hq.length_le
    rw [JsonParser.at_remain]
    omega
  curr := by
    rw [JsonParser.at_remain, Int.toNat_natCast, JsonParser.at_curr]
    exact List.suffix_iff_eq_drop.mp hq
  depth := hd

variable {orig q : List UInt8} {d : ℕ}

lemma jsonParseConsume_at (q : List UInt8) (d : ℕ) {n : ℤ} (hn : 0 ≤ n) :
    jsonParseConsume (.at q d) n = some (.at (q.drop n.toNat) d) := by
  by_cases hlt : (q.length : ℤ) < n
  · rw [jsonParseConsume_over hlt, List.drop_eq_nil_of_le (by omega)]
  · have hlen : (q.take n.toNat).length = n.toNat := by
      rw [List.length_take]
      omega
    have happend := jsonParseConsume_append (q.take n.toNat) (q.drop n.toNat) d
    rw [List.take_append_drop, hlen, Int.toNat_of_nonneg hn] at happend
    exact happend

/-- `CMUTIL_JsonParseConsume`. -/
lemma jsonParseConsumeT_runs (hq : q <:+ orig) (hd : d ≤ 512) {n : ℤ} (hn : 0 < n) :
    JsonRuns orig (jsonParseConsumeT (.at q d) n) fun pctx =>
      JsonAt q d pctx ∧ (q ≠ [] → JsonPast q d pctx) := by
  have hsuffix : q.drop n.toNat <:+ q := List.drop_suffix _ _
  refine (Runs.liftOption (jsonParseConsume_at q d hn.le) rfl).bind ?_
  rintro _ rfl
  refine .visit_bind (jsonInBounds_at (hsuffix.trans hq) hd) (.pure ⟨⟨_, rfl, hsuffix⟩, fun hne => ?_⟩)
  refine ⟨_, rfl, hsuffix, ?_⟩
  have := List.length_pos_iff.mpr hne
  rw [List.length_drop]
  omega

/-- The byte at a place up to the terminating NUL. -/
lemma jsonDeref_runs {k : ℕ} (hk : k ≤ q.length) :
    JsonRuns orig (liftM ((JsonParser.at q d).deref k)) fun _ => True := by
  have hlt : k < (q ++ [0]).length := by
    rw [List.length_append, List.length_singleton]
    omega
  exact .liftOption (List.getElem?_eq_getElem hlt) trivial

/-- A loop that consumes byte after byte. -/
lemma jsonConsumeWhileT_runs (hd : d ≤ 512) {test : JsonParser → Option Bool}
    (htest : ∀ r, ∃ b, test (.at r d) = some b) : ∀ (fuel : ℕ) (q : List UInt8), q <:+ orig →
      q.length < fuel → JsonRuns orig (jsonConsumeWhileT test fuel (.at q d)) (JsonAt q d)
  | fuel + 1, q, hq, hfuel => by
      obtain ⟨b, hb⟩ := htest q
      rw [jsonConsumeWhileT]
      refine (Runs.liftOption hb (Q := fun _ => True) trivial).bind fun goon _ => .ite (fun hgo => ?_) fun _ => ?_
      · rw [Bool.and_eq_true, decide_eq_true_iff, JsonParser.at_remain] at hgo
        have hne : q ≠ [] := List.ne_nil_of_length_pos (by omega)
        refine (jsonParseConsumeT_runs hq hd zero_lt_one).bind ?_
        rintro _ ⟨-, hpast⟩
        obtain ⟨r, rfl, hr, hlt⟩ := hpast hne
        refine (jsonConsumeWhileT_runs hd htest fuel r (hr.trans hq) (by omega)).mono ?_
        rintro _ ⟨s, rfl, hs⟩
        exact ⟨s, rfl, hs.trans hr⟩
      · exact .pure ⟨q, rfl, List.suffix_rfl⟩

/-- A comment takes at least a byte. -/
lemma jsonSkipCommentT_runs (hq : q <:+ orig) (hd : d ≤ 512) :
    JsonRuns orig (jsonSkipCommentT (.at q d)) fun res => ∀ pctx, res = some pctx →
      JsonPast q d pctx := by
  rw [jsonSkipCommentT]
  refine (jsonDeref_runs (Nat.zero_le _)).bind fun c _ => .ite (fun hc => ?_) fun _ => .pure nofun
  rw [Bool.and_eq_true, decide_eq_true_iff, JsonParser.at_remain] at hc
  have hpos : 0 < q.length := by omega
  have hne : q ≠ [] := List.ne_nil_of_length_pos hpos
  refine (jsonDeref_runs hpos).bind fun c _ => .ite (fun _ => ?_) fun _ => .ite (fun _ => ?_) fun _ =>
    .pure nofun
  · -- a line comment
    refine (jsonParseConsumeT_runs hq hd zero_lt_two).bind ?_
    rintro _ ⟨-, hpast⟩
    obtain ⟨r, rfl, hr, hlt⟩ := hpast hne
    refine (jsonConsumeWhileT_runs hd (fun s => ?_) _ r (hr.trans hq) ?_).bind ?_
    · cases s <;> exact ⟨_, rfl⟩
    · rw [JsonParser.at_remain]
      omega
    · rintro _ ⟨s, rfl, hs⟩
      refine .pure fun pctx heq => ⟨s, (Option.some.inj heq).symm, hs.trans hr, ?_⟩
      exact hs.length_le.trans_lt hlt
  · -- a block comment
    refine (jsonParseConsumeT_runs hq hd zero_lt_two).bind ?_
    rintro _ ⟨-, hpast⟩
    obtain ⟨r, rfl, hr, hlt⟩ := hpast hne
    refine (jsonConsumeWhileT_runs hd (fun s => ⟨_, rfl⟩) _ r (hr.trans hq) ?_).bind ?_
    · rw [JsonParser.at_remain]
      omega
    · rintro _ ⟨s, rfl, hs⟩
      have hrest : ∀ p, JsonAt s d p → JsonRuns orig (pure (some p)) fun res => ∀ pctx,
          res = some pctx → JsonPast q d pctx := by
        rintro _ ⟨t, rfl, ht⟩
        refine .pure fun pctx heq => ⟨t, (Option.some.inj heq).symm, ht.trans (hs.trans hr), ?_⟩
        exact (ht.length_le.trans hs.length_le).trans_lt hlt
      exact .ite (fun _ => (jsonParseConsumeT_runs ((hs.trans hr).trans hq) hd zero_lt_two).bind
        fun p hp => hrest p hp.1) fun _ => (Runs.pure ⟨s, rfl, List.suffix_rfl⟩).bind hrest

/-- The result of `CMUTIL_JsonSkipSpaces`: a state further on, and whether bytes remain. -/
def JsonSkipped (q : List UInt8) (d : ℕ) (res : JsonParser × Bool) : Prop :=
  ∃ r, res.1 = .at r d ∧ r <:+ q ∧ (res.2 = true → r ≠ [])

lemma jsonSkipRoundsT_runs (hd : d ≤ 512) : ∀ (fuel : ℕ) (q : List UInt8), q <:+ orig →
    q.length < fuel → JsonRuns orig (jsonSkipRoundsT fuel (.at q d)) (JsonSkipped q d)
  | fuel + 1, q, hq, hfuel => by
      rw [jsonSkipRoundsT]
      refine (jsonConsumeWhileT_runs hd (fun s => ?_) _ q hq ?_).bind ?_
      · cases s <;> exact ⟨_, rfl⟩
      · rw [JsonParser.at_remain]
        omega
      rintro _ ⟨r, rfl, hr⟩
      refine (jsonSkipCommentT_runs (hr.trans hq) hd).bind fun res hres => ?_
      cases res with
      | none =>
          refine .pure ⟨r, rfl, hr, fun hmore => ?_⟩
          rw [decide_eq_true_iff, JsonParser.at_remain] at hmore
          exact List.ne_nil_of_length_pos (by omega)
      | some pctx =>
          obtain ⟨s, rfl, hs, hlt⟩ := hres pctx rfl
          have hle := hr.length_le
          refine (jsonSkipRoundsT_runs hd fuel s ((hs.trans hr).trans hq) (by omega)).mono ?_
          rintro ⟨pctx, more⟩ ⟨t, ht, hsuffix, hmore⟩
          exact ⟨t, ht, hsuffix.trans (hs.trans hr), hmore⟩

/-- `CMUTIL_JsonSkipSpaces`. -/
lemma jsonSkipSpacesT_runs (hq : q <:+ orig) (hd : d ≤ 512) :
    JsonRuns orig (jsonSkipSpacesT (.at q d)) (JsonSkipped q d) := by
  refine jsonSkipRoundsT_runs hd _ q hq ?_
  rw [JsonParser.at_remain]
  omega

/-! ### Strings -/

lemma jsonParseLowSurrogateT_runs (hq : q <:+ orig) (hd : d ≤ 512) (cp : ℕ) (sbuf : List UInt8) :
    JsonRuns orig (jsonParseLowSurrogateT (.at q d) cp sbuf) fun res => JsonAt q d res.1 := by
  have hsame : JsonAt q d (.at q d) := ⟨q, rfl, List.suffix_rfl⟩
  rw [jsonParseLowSurrogateT]
  refine .ite (fun _ => .pure hsame) fun hlong => ?_
  rw [JsonParser.at_remain] at hlong
  refine (jsonDeref_runs (by omega)).bind fun c1 _ => (jsonDeref_runs (by omega)).bind fun c2 _ =>
    .ite (fun _ => .pure hsame) fun _ => ?_
  cases jsonHex4 ((JsonParser.at q d).curr.drop 3) with
  | none => exact .pure hsame
  | some lo =>
      refine .ite (fun _ => .pure hsame) fun _ => ?_
      exact (jsonParseConsumeT_runs hq hd (by decide)).bind fun pctx hpctx => .pure hpctx.1

lemma jsonParseUnicodeT_runs (hq : q <:+ orig) (hd : d ≤ 512) (sbuf : List UInt8) :
    JsonRuns orig (jsonParseUnicodeT (.at q d) sbuf) fun res => JsonAt q d res.1 := by
  have hsame : JsonAt q d (.at q d) := ⟨q, rfl, List.suffix_rfl⟩
  rw [jsonParseUnicodeT]
  refine .ite (fun _ => .pure hsame) fun _ => ?_
  cases jsonHex4 ((JsonParser.at q d).curr.drop 1) with
  | none => exact .pure hsame
  | some cp =>
      refine (jsonParseConsumeT_runs hq hd (by decide)).bind ?_
      rintro _ ⟨⟨r, rfl, hr⟩, -⟩
      refine .ite (fun _ => ?_) fun _ => .ite (fun _ => .pure ⟨r, rfl, hr⟩) fun _ =>
        .pure ⟨r, rfl, hr⟩
      refine (jsonParseLowSurrogateT_runs (hr.trans hq) hd cp sbuf).mono ?_
      rintro _ ⟨s, hs, hsuffix⟩
      exact ⟨s, hs, hsuffix.trans hr⟩

/-- An escape takes at least its backslash. -/
lemma jsonParseEscapeT_runs (hq : q <:+ orig) (hd : d ≤ 512) (hne : q ≠ []) (sbuf : List UInt8) :
    JsonRuns orig (jsonParseEscapeT (.at q d) sbuf) fun res => JsonPast q d res.1 := by
  rw [jsonParseEscapeT]
  refine (jsonParseConsumeT_runs hq hd zero_lt_one).bind ?_
  rintro _ ⟨-, hpast⟩
  obtain ⟨r, rfl, hr, hlt⟩ := hpast hne
  refine .ite (fun _ => .pure ⟨r, rfl, hr, hlt⟩) fun _ => ?_
  refine (jsonDeref_runs (Nat.zero_le _)).bind fun c _ => .ite (fun _ => ?_) fun _ =>
    .pure ⟨r, rfl, hr, hlt⟩
  refine (jsonParseUnicodeT_runs (hr.trans hq) hd sbuf).mono ?_
  rintro _ ⟨s, hs, hsuffix⟩
  exact ⟨s, hs, hsuffix.trans hr, hsuffix.length_le.trans_lt hlt⟩

lemma jsonParseStringLoopT_runs (hd : d ≤ 512) (isstquot : Bool) :
    ∀ (fuel : ℕ) (q sbuf : List UInt8), q <:+ orig → q.length < fuel →
      JsonRuns orig (jsonParseStringLoopT isstquot fuel (.at q d) sbuf) fun res => JsonAt q d res.1
  | fuel + 1, q, sbuf, hq, hfuel => by
      have hsame : JsonAt q d (.at q d) := ⟨q, rfl, List.suffix_rfl⟩
      have ih : ∀ (r sbuf : List UInt8), r <:+ q → r.length < q.length →
          JsonRuns orig (jsonParseStringLoopT isstquot fuel (.at r d) sbuf) fun res =>
            JsonAt q d res.1 := by
        intro r sbuf hr hlt
        refine (jsonParseStringLoopT_runs hd isstquot fuel r sbuf (hr.trans hq) (by omega)).mono ?_
        rintro _ ⟨s, hs, hsuffix⟩
        exact ⟨s, hs, hsuffix.trans hr⟩
      rw [jsonParseStringLoopT]
      refine .ite (fun hpos => ?_) fun _ => .pure hsame
      rw [JsonParser.at_remain] at hpos
      have hne : q ≠ [] := List.ne_nil_of_length_pos (by omega)
      refine (jsonDeref_runs (Nat.zero_le _)).bind fun c _ => .ite (fun _ => ?_) fun _ =>
        .ite (fun _ => ?_) fun _ => .ite (fun _ => .pure hsame) fun _ => ?_
      · refine (jsonParseEscapeT_runs hq hd hne sbuf).bind ?_
        rintro ⟨_, _ | sbuf⟩ ⟨r, rfl, hr, hlt⟩
        · exact .pure ⟨r, rfl, hr⟩
        · refine (jsonParseConsumeT_runs (hr.trans hq) hd zero_lt_one).bind ?_
          rintro _ ⟨⟨s, rfl, hs⟩, -⟩
          exact ih s sbuf (hs.trans hr) (hs.length_le.trans_lt hlt)
      · exact (jsonParseConsumeT_runs hq hd zero_lt_one).bind fun pctx hpctx => .pure hpctx.1
      · refine (jsonParseConsumeT_runs hq hd zero_lt_one).bind ?_
        rintro _ ⟨-, hpast⟩
        obtain ⟨r, rfl, hr, hlt⟩ := hpast hne
        exact ih r _ hr hlt

/-- `CMUTIL_JsonParseString`. -/
lemma jsonParseStringT_runs (hq : q <:+ orig) (hd : d ≤ 512) :
    JsonRuns orig (jsonParseStringT (.at q d)) fun res => JsonAt q d res.1 := by
  rw [jsonParseStringT]
  refine (jsonSkipSpacesT_runs hq hd).bind ?_
  rintro ⟨_, more⟩ ⟨r, rfl, hr, -⟩
  refine .ite (fun _ => ?_) fun _ => .pure ⟨r, rfl, hr⟩
  refine (jsonDeref_runs (Nat.zero_le _)).bind fun c _ => ?_
  have hrest : ∀ p, JsonAt r d p → JsonRuns orig (do
      let res ← jsonParseStringLoopT (decide (c = 0x22)) (p.remain.toNat + 1) p []
      return (res.1, res.2.map fun sbuf => (sbuf, !decide (c = 0x22)))) fun res => JsonAt q d res.1 := by
    rintro _ ⟨s, rfl, hs⟩
    refine (jsonParseStringLoopT_runs hd _ _ s [] ((hs.trans hr).trans hq) ?_).bind ?_
    · rw [JsonParser.at_remain]
      omega
    · rintro ⟨_, res⟩ ⟨t, rfl, ht⟩
      exact .pure ⟨t, rfl, ht.trans (hs.trans hr)⟩
  exact .ite (fun _ => (jsonParseConsumeT_runs (hr.trans hq) hd zero_lt_one).bind
    fun p hp => hrest p hp.1) fun _ => (Runs.pure ⟨r, rfl, List.suffix_rfl⟩).bind hrest

/-- `CMUTIL_JsonParseValue`. -/
lemma jsonParseValueT_runs (cd : CDouble) (hq : q <:+ orig) (hd : d ≤ 512) :
    JsonRuns orig (jsonParseValueT cd (.at q d)) fun res => JsonAt q d res.1 := by
  rw [jsonParseValueT]
  refine (jsonSkipSpacesT_runs hq hd).bind ?_
  rintro ⟨_, more⟩ ⟨r, rfl, hr, -⟩
  refine .ite (fun _ => ?_) fun _ => .pure ⟨r, rfl, hr⟩
  refine (jsonParseStringT_runs (hr.trans hq) hd).bind ?_
  rintro ⟨_, _ | ⟨sbuf, isconst⟩⟩ ⟨s, rfl, hs⟩
  · exact .pure ⟨s, rfl, hs.trans hr⟩
  · exact .ite (fun _ => .pure ⟨s, rfl, hs.trans hr⟩) fun _ => .pure ⟨s, rfl, hs.trans hr⟩

/-! ### Arrays and objects -/

/-- The end of a step of a round: a state further on, and behind what a bracket or a comma
takes. -/
def JsonStepped {α : Type} (q : List UInt8) (d : ℕ) (res : JsonParser × Option α) : Prop :=
  JsonAt q d res.1 ∧ (res.2.isSome → JsonPast q d res.1)

lemma JsonAt.stepped {α : Type} {pctx : JsonParser} (h : JsonAt q d pctx) :
    JsonStepped (α := α) q d (pctx, none) := ⟨h, nofun⟩

lemma JsonPast.stepped {α : Type} {r : List UInt8} {pctx : JsonParser} (h : JsonPast r d pctx)
    (hr : r <:+ q) (res : Option α) : JsonStepped q d (pctx, res) := by
  obtain ⟨s, rfl, hs, hlt⟩ := h
  exact ⟨⟨s, rfl, hs.trans hr⟩, fun _ => ⟨s, rfl, hs.trans hr, hlt.trans_le hr.length_le⟩⟩

lemma jsonParseCloseT_runs (close : UInt8) (hq : q <:+ orig) (hd : d ≤ 512) :
    JsonRuns orig (jsonParseCloseT close (.at q d)) fun res => JsonAt q d res.1 := by
  rw [jsonParseCloseT]
  refine (jsonSkipSpacesT_runs hq hd).bind ?_
  rintro ⟨_, more⟩ ⟨r, rfl, hr, -⟩
  refine .ite (fun _ => ?_) fun _ => .pure ⟨r, rfl, hr⟩
  refine (jsonDeref_runs (Nat.zero_le _)).bind fun c _ => .ite (fun _ => ?_) fun _ =>
    .pure ⟨r, rfl, hr⟩
  refine (jsonParseConsumeT_runs (hr.trans hq) hd zero_lt_one).bind ?_
  rintro _ ⟨⟨s, rfl, hs⟩, -⟩
  exact .pure ⟨s, rfl, hs.trans hr⟩

lemma jsonParseNextT_runs (close : UInt8) (hq : q <:+ orig) (hd : d ≤ 512) :
    JsonRuns orig (jsonParseNextT close (.at q d)) (JsonStepped q d) := by
  rw [jsonParseNextT]
  refine (jsonSkipSpacesT_runs hq hd).bind ?_
  rintro ⟨_, more⟩ ⟨r, rfl, hr, hmore⟩
  have hat : JsonAt q d (.at r d) := ⟨r, rfl, hr⟩
  have hconsume := jsonParseConsumeT_runs (hr.trans hq) hd zero_lt_one
  refine .ite (fun hm => ?_) fun _ => .pure hat.stepped
  refine (jsonDeref_runs (Nat.zero_le _)).bind fun c _ => .ite (fun _ => ?_) fun _ =>
    .ite (fun _ => ?_) fun _ => .pure hat.stepped
  · exact hconsume.bind fun pctx hpctx => .pure ((hpctx.2 (hmore hm)).stepped hr _)
  · exact hconsume.bind fun pctx hpctx => .pure ((hpctx.2 (hmore hm)).stepped hr _)

lemma jsonParseNameT_runs (hq : q <:+ orig) (hd : d ≤ 512) :
    JsonRuns orig (jsonParseNameT (.at q d)) (JsonStepped q d) := by
  rw [jsonParseNameT]
  refine (jsonParseStringT_runs hq hd).bind ?_
  rintro ⟨_, _ | ⟨name, isconst⟩⟩ ⟨r, rfl, hr⟩
  · exact .pure (JsonAt.stepped ⟨r, rfl, hr⟩)
  · refine (jsonSkipSpacesT_runs (hr.trans hq) hd).bind ?_
    rintro ⟨_, more⟩ ⟨s, rfl, hs, hmore⟩
    have hat : JsonAt q d (.at s d) := ⟨s, rfl, hs.trans hr⟩
    refine .ite (fun hm => ?_) fun _ => .pure hat.stepped
    refine (jsonDeref_runs (Nat.zero_le _)).bind fun c _ => .ite (fun _ => ?_) fun _ =>
      .pure hat.stepped
    exact (jsonParseConsumeT_runs ((hs.trans hr).trans hq) hd zero_lt_one).bind fun pctx hpctx =>
      .pure ((hpctx.2 (hmore hm)).stepped (hs.trans hr) _)

lemma jsonSetDepthT_runs (hq : q <:+ orig) {n : ℕ} (hn : n ≤ 512) :
    JsonRuns orig (jsonSetDepthT (.at q d) n) fun pctx => pctx = .at q n :=
  .visit_bind (jsonInBounds_at hq hn) (.pure rfl)

/-- The descent at a place of the text, with fuel enough. -/
structure DescentRuns (cd : CDouble) (orig : List UInt8) (fuel : ℕ) : Prop where
  base : ∀ {q d}, q <:+ orig → d ≤ 512 → 3 * q.length + 1 ≤ fuel →
    JsonRuns orig (jsonParseBaseT cd fuel (.at q d)) fun res => JsonAt q d res.1
  object : ∀ {q d}, q <:+ orig → d ≤ 512 → q ≠ [] → 3 * q.length ≤ fuel →
    JsonRuns orig (jsonParseObjectT cd fuel (.at q d)) fun res => JsonAt q d res.1
  members : ∀ {q d} entries, q <:+ orig → d ≤ 512 → 3 * q.length + 2 ≤ fuel →
    JsonRuns orig (jsonParseMembersT cd fuel (.at q d) entries) fun res => JsonAt q d res.1
  array : ∀ {q d}, q <:+ orig → d ≤ 512 → q ≠ [] → 3 * q.length ≤ fuel →
    JsonRuns orig (jsonParseArrayT cd fuel (.at q d)) fun res => JsonAt q d res.1
  items : ∀ {q d} items, q <:+ orig → d ≤ 512 → 3 * q.length + 2 ≤ fuel →
    JsonRuns orig (jsonParseItemsT cd fuel (.at q d) items) fun res => JsonAt q d res.1

variable {cd : CDouble} {fuel : ℕ}

lemma JsonAt.trans {r : List UInt8} {pctx : JsonParser} (h : JsonAt r d pctx) (hr : r <:+ q) :
    JsonAt q d pctx := by
  obtain ⟨s, hs, hsuffix⟩ := h
  exact ⟨s, hs, hsuffix.trans hr⟩

/-- The nesting counter goes up for the call, and down again behind it. -/
lemma DescentRuns.base_succ (ih : DescentRuns cd orig fuel) (hq : q <:+ orig) (hd : d ≤ 512)
    (hfuel : 3 * q.length + 1 ≤ fuel + 1) :
    JsonRuns orig (jsonParseBaseT cd (fuel + 1) (.at q d)) fun res => JsonAt q d res.1 := by
  rw [jsonParseBaseT]
  refine .ite (fun _ => .pure ⟨q, rfl, List.suffix_rfl⟩) fun hdepth => ?_
  have hd' : d + 1 ≤ 512 := not_le.mp hdepth
  refine (jsonSetDepthT_runs hq (show (JsonParser.at q d).depth + 1 ≤ 512 from hd')).bind ?_
  rintro _ rfl
  refine (jsonSkipSpacesT_runs hq hd').bind ?_
  rintro ⟨_, more⟩ ⟨r, rfl, hr, hmore⟩
  have hle := hr.length_le
  have hup : ∀ pctx (res : Option Json), JsonAt r (d + 1) pctx → JsonRuns orig (do
      let pctx ← jsonSetDepthT pctx (pctx.depth - 1)
      return (pctx, res)) fun res => JsonAt q d res.1 := by
    rintro _ res ⟨s, rfl, hs⟩
    refine (jsonSetDepthT_runs ((hs.trans hr).trans hq) (show d + 1 - 1 ≤ 512 by omega)).bind ?_
    rintro _ rfl
    exact .pure ⟨s, rfl, hs.trans hr⟩
  refine .ite (fun hm => ?_) fun _ => hup _ none ⟨r, rfl, List.suffix_rfl⟩
  have hne := hmore hm
  refine (jsonDeref_runs (Nat.zero_le _)).bind fun c _ => ?_
  have hchoice : JsonRuns orig (if c = 0x7B then jsonParseObjectT cd fuel (.at r (d + 1))
      else if c = 0x5B then jsonParseArrayT cd fuel (.at r (d + 1))
      else jsonParseValueT cd (.at r (d + 1))) fun res => JsonAt r (d + 1) res.1 :=
    .ite (fun _ => ih.object (hr.trans hq) hd' hne (by omega)) fun _ =>
      .ite (fun _ => ih.array (hr.trans hq) hd' hne (by omega)) fun _ =>
        jsonParseValueT_runs cd (hr.trans hq) hd'
  exact hchoice.bind fun res hres => hup res.1 res.2 hres

/-- A round of the members takes a colon, and a comma when another round follows. -/
lemma DescentRuns.members_succ (ih : DescentRuns cd orig fuel) (entries : List (CString × Json))
    (hq : q <:+ orig) (hd : d ≤ 512) (hfuel : 3 * q.length + 2 ≤ fuel + 1) :
    JsonRuns orig (jsonParseMembersT cd (fuel + 1) (.at q d) entries) fun res =>
      JsonAt q d res.1 := by
  rw [jsonParseMembersT]
  refine .ite (fun _ => ?_) fun _ => .pure ⟨q, rfl, List.suffix_rfl⟩
  refine (jsonParseCloseT_runs 0x7D hq hd).bind ?_
  rintro ⟨_, _ | _ | _⟩ ⟨r, rfl, hr⟩
  · exact .pure ⟨r, rfl, hr⟩
  · refine (jsonParseNameT_runs (hr.trans hq) hd).bind ?_
    rintro ⟨_, _ | name⟩ ⟨hat, hpast⟩
    · exact .pure (hat.trans hr)
    obtain ⟨s, rfl, hs, hslt⟩ := hpast rfl
    have hsq : s <:+ q := hs.trans hr
    have hrle := hr.length_le
    refine (ih.base (hsq.trans hq) hd (by omega)).bind ?_
    rintro ⟨_, _ | value⟩ ⟨t, rfl, ht⟩
    · exact .pure ⟨t, rfl, ht.trans hsq⟩
    have htq : t <:+ q := ht.trans hsq
    have htle := ht.length_le
    refine (jsonParseNextT_runs 0x7D (htq.trans hq) hd).bind ?_
    rintro ⟨_, _ | _ | _⟩ ⟨hat', hpast'⟩
    · exact .pure (hat'.trans htq)
    · obtain ⟨u, rfl, hu, hult⟩ := hpast' rfl
      refine (ih.members _ ((hu.trans htq).trans hq) hd (by omega)).mono fun res hres => ?_
      exact hres.trans (hu.trans htq)
    · exact .pure (hat'.trans htq)
  · exact .pure ⟨r, rfl, hr⟩

/-- A round of the items takes a comma when another round follows. -/
lemma DescentRuns.items_succ (ih : DescentRuns cd orig fuel) (items : List Json)
    (hq : q <:+ orig) (hd : d ≤ 512) (hfuel : 3 * q.length + 2 ≤ fuel + 1) :
    JsonRuns orig (jsonParseItemsT cd (fuel + 1) (.at q d) items) fun res =>
      JsonAt q d res.1 := by
  rw [jsonParseItemsT]
  refine .ite (fun _ => ?_) fun _ => .pure ⟨q, rfl, List.suffix_rfl⟩
  refine (jsonParseCloseT_runs 0x5D hq hd).bind ?_
  rintro ⟨_, _ | _ | _⟩ ⟨r, rfl, hr⟩
  · exact .pure ⟨r, rfl, hr⟩
  · have hrle := hr.length_le
    refine (ih.base (hr.trans hq) hd (by omega)).bind ?_
    rintro ⟨_, _ | item⟩ ⟨t, rfl, ht⟩
    · exact .pure ⟨t, rfl, ht.trans hr⟩
    have htq : t <:+ q := ht.trans hr
    have htle := ht.length_le
    refine (jsonParseNextT_runs 0x5D (htq.trans hq) hd).bind ?_
    rintro ⟨_, _ | _ | _⟩ ⟨hat', hpast'⟩
    · exact .pure (hat'.trans htq)
    · obtain ⟨u, rfl, hu, hult⟩ := hpast' rfl
      refine (ih.items _ ((hu.trans htq).trans hq) hd (by omega)).mono fun res hres => ?_
      exact hres.trans (hu.trans htq)
    · exact .pure (hat'.trans htq)
  · exact .pure ⟨r, rfl, hr⟩

/-- **The descent** is not stuck, and stays in bounds. -/
theorem descentRuns (cd : CDouble) (orig : List UInt8) : ∀ fuel, DescentRuns cd orig fuel
  | 0 => by
      refine ⟨fun _ _ h => absurd h (by omega), fun _ _ hne h => ?_, fun _ _ _ h => absurd h (by omega),
        fun _ _ hne h => ?_, fun _ _ _ h => absurd h (by omega)⟩
      · exact absurd (List.length_pos_iff.mpr hne) (by omega)
      · exact absurd (List.length_pos_iff.mpr hne) (by omega)
  | fuel + 1 => by
      have ih := descentRuns cd orig fuel
      refine ⟨ih.base_succ, fun {q d} hq hd hne hfuel => ?_, ih.members_succ,
        fun {q d} hq hd hne hfuel => ?_, ih.items_succ⟩
      · rw [jsonParseObjectT]
        refine (jsonDeref_runs (Nat.zero_le _)).bind fun c _ => .ite (fun _ => ?_) fun _ =>
          .pure ⟨q, rfl, List.suffix_rfl⟩
        refine (jsonParseConsumeT_runs hq hd zero_lt_one).bind ?_
        rintro _ ⟨-, hpast⟩
        obtain ⟨r, rfl, hr, hlt⟩ := hpast hne
        exact (ih.members [] (hr.trans hq) hd (by omega)).mono fun res hres => hres.trans hr
      · rw [jsonParseArrayT]
        refine (jsonDeref_runs (Nat.zero_le _)).bind fun c _ => .ite (fun _ => ?_) fun _ =>
          .pure ⟨q, rfl, List.suffix_rfl⟩
        refine (jsonParseConsumeT_runs hq hd zero_lt_one).bind ?_
        rintro _ ⟨-, hpast⟩
        obtain ⟨r, rfl, hr, hlt⟩ := hpast hne
        exact (ih.items [] (hr.trans hq) hd (by omega)).mono fun res hres => hres.trans hr

lemma jsonParseInternalT_runs (cd : CDouble) (jsonstr : List UInt8) :
    JsonRuns jsonstr (jsonParseInternalT cd jsonstr) fun res => JsonAt jsonstr 0 res.1 :=
  .visit_bind (jsonInBounds_at List.suffix_rfl (Nat.zero_le _))
    ((descentRuns cd jsonstr _).base List.suffix_rfl (Nat.zero_le _) le_rfl)

/-- **Termination and bounds.** On every string `CMUTIL_JsonParse` ends, without reading behind
the terminating NUL. In all states it visits the cursor agrees with the byte counter, which stays
between 0 and the size, and at most 512 levels are open; none is when it returns. -/
theorem jsonParse_bounds (cd : CDouble) (jsonstr : List UInt8) :
    ∃ pctx res, jsonParseInternal cd jsonstr = some (pctx, res) ∧
      jsonParse cd jsonstr = some res ∧ pctx.depth = 0 ∧
      (jsonParseInternalT cd jsonstr).result = .ok (pctx, res) ∧
      ∀ state ∈ (jsonParseInternalT cd jsonstr).visited, JsonInBounds jsonstr state := by
  have hruns := jsonParseInternalT_runs cd jsonstr
  have hresult := jsonParseInternalT_result cd jsonstr
  obtain ⟨⟨pctx, res⟩, hrun, ⟨q, rfl, -⟩⟩ := hruns.exists_some hresult
  rw [hrun] at hresult
  exact ⟨_, res, hrun, by rw [jsonParse, hrun]; rfl, rfl, hresult, hruns.visited⟩

end LibCmutils
