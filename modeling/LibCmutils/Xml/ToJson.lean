import LibCmutils.Json.Value
import LibCmutils.Lib.Gathering
import LibCmutils.String.Trim
import LibCmutils.Xml.Node

/-!
XML trees as JSON (`src/nanoxml.c`).

* `XmlNodeInternal`: nodes with the blocks of their names, which `XmlNodeInternal.node` leaves
  out. `xmlToJsonInternal`, `xmlToJson`: the conversion, with the tree that it leaves.
* `XmlNode.json`: the JSON of a node. `xmlToJson_json` says that the conversion finds it.
* `XmlNode.Kept`: a JSON value has all data of an element. `XmlNode.valuesAt`, `Json.valuesAt`:
  the values at a path of names; `XmlNode.Kept.valuesAt` says that they are the same.
* `XmlNode.Data`: the trees of elements with elements or one text. `XmlNode.Separate`: no
  part of such a tree takes the place of another.

The main result is `xmlToJson_kept_iff`.
-/

namespace LibCmutils

/-! ### The conversion -/

/-- `CMUTIL_XmlNode_Internal`. The name is a block of memory. -/
inductive XmlNodeInternal
  | text (tagname : StringInternal)
  | tag (tagname : StringInternal) (attributes : OrderedMap CString (List UInt8))
      (children : List XmlNodeInternal)

/-- `"content"`. -/
def xmlContent : CString := ⟨[0x63, 0x6F, 0x6E, 0x74, 0x65, 0x6E, 0x74], by decide⟩

/-- A value is put under a name; a second one makes an array. The attributes and the nodes are
put so. -/
def xmlJsonAdd (parent : OrderedMap CString Json) (name : CString) (res : Json) :
    OrderedMap CString Json :=
  match parent.get name with
  | some (.array items) => parent.adjust name fun _ => .array (jsonArrayAdd items res)
  | some prev => (parent.erase name).put name (.array (jsonArrayAdd (jsonArrayAdd [] prev) res))
  | none => parent.put name res

/-- The object of the attributes. -/
def xmlJsonAttributes (attributes : OrderedMap CString (List UInt8)) : OrderedMap CString Json :=
  attributes.entries.foldl
    (fun ores e => xmlJsonAdd ores e.1 (jsonValueSetString (CString.ofBytes e.2))) .empty

/-- The JSON of an element whose only child is a text. When nothing is left of it the text is
a child like any other. -/
def xmlJsonText (attributes : OrderedMap CString (List UInt8)) (text : CString) : Json :=
  if 0 < text.1.length then
    if attributes.size = 0 then jsonValueSetString text
    else .object ((xmlJsonAttributes attributes).put xmlContent (jsonValueSetString text)).entries
  else .object (xmlJsonAdd (xmlJsonAttributes attributes) text (.object [])).entries

/-- `CMUTIL_StrTrim` on the name of a text. -/
def xmlTrimText (tagname : StringInternal) : Option (StringInternal × CString) := do
  let data ← strTrimBlock tagname.data
  let text ← cStringAt data 0
  return ({ tagname with data := data }, CString.ofBytes text)

namespace XmlNodeInternal

/-- `GetName`. -/
def getName : XmlNodeInternal → CString
  | .text tagname => CString.ofBytes tagname.data
  | .tag tagname _ _ => CString.ofBytes tagname.data

/-- The text that is the only child. -/
def onlyText : List XmlNodeInternal → Option StringInternal
  | [.text tagname] => some tagname
  | _ => none

end XmlNodeInternal

mutual

/-- `CMUTIL_XmlToJsonInternal`: the node that it leaves, and the object at the top of the
stack. -/
def xmlToJsonInternal : XmlNodeInternal → OrderedMap CString Json →
    Option (XmlNodeInternal × OrderedMap CString Json)
  | .text tagname, parent =>
      some (.text tagname, xmlJsonAdd parent (CString.ofBytes tagname.data) (.object []))
  | .tag tagname attributes children, parent =>
      match XmlNodeInternal.onlyText children with
      | some child => (xmlTrimText child).map fun r =>
          (.tag tagname attributes [.text r.1],
            xmlJsonAdd parent (CString.ofBytes tagname.data) (xmlJsonText attributes r.2))
      | none =>
          (xmlChildrenToJson (children.length % 2 ^ 32) children
            (xmlJsonAttributes attributes)).map fun r =>
              (.tag tagname attributes r.1,
                xmlJsonAdd parent (CString.ofBytes tagname.data) (.object r.2.entries))

/-- The loop of `CMUTIL_XmlToJsonInternal` over the first `ccnt` children. -/
def xmlChildrenToJson (ccnt : ℕ) : List XmlNodeInternal → OrderedMap CString Json →
    Option (List XmlNodeInternal × OrderedMap CString Json)
  | [], res => some ([], res)
  | child :: children, res =>
      if ccnt = 0 then some (child :: children, res)
      else
        (xmlToJsonInternal child res).bind fun r =>
          (xmlChildrenToJson (ccnt - 1) children r.2).map fun r' => (r.1 :: r'.1, r'.2)

end

/-- `CMUTIL_XmlToJson`. -/
def xmlToJson (node : XmlNodeInternal) : Option (XmlNodeInternal × Json) :=
  (xmlToJsonInternal node .empty).map fun r => (r.1, .object r.2.entries)

/-! ### The JSON of a tree -/

namespace XmlNodeInternal

mutual

/-- The tree of the bytes that the blocks hold. -/
def node : XmlNodeInternal → XmlNode
  | .text tagname => .text tagname.content
  | .tag tagname attributes children => .tag tagname.content attributes (nodes children)

/-- The trees of a list. -/
def nodes : List XmlNodeInternal → List XmlNode
  | [] => []
  | child :: children => child.node :: nodes children

end

mutual

/-- Each block holds its bytes and the NUL behind them. -/
def WellFormed : XmlNodeInternal → Prop
  | .text tagname => tagname.Holds tagname.content
  | .tag tagname _ children => tagname.Holds tagname.content ∧ AllWellFormed children

/-- Each tree of a list does so. -/
def AllWellFormed : List XmlNodeInternal → Prop
  | [] => True
  | child :: children => child.WellFormed ∧ AllWellFormed children

end

end XmlNodeInternal

namespace XmlNode

/-- The name as a C string. -/
def getName : XmlNode → CString
  | .text name => CString.ofBytes name
  | .tag name _ _ => CString.ofBytes name

/-- The text that is the only child. -/
def onlyText : List XmlNode → Option CString
  | [.text name] => some (CString.ofBytes name)
  | _ => none

mutual

/-- The JSON of a node. -/
def json : XmlNode → Option Json
  | .text _ => some (.object [])
  | .tag _ attributes children =>
      match onlyText children with
      | some only => (trimAt only.1 (toInt only.1.length)).map fun trimmed =>
          xmlJsonText attributes (CString.ofBytes trimmed)
      | none => (jsons (children.length % 2 ^ 32) children).map fun js =>
          .object ((children.map getName).zip js |>.foldl (fun res e => xmlJsonAdd res e.1 e.2)
            (xmlJsonAttributes attributes)).entries

/-- The JSON of the first `ccnt` nodes. -/
def jsons (ccnt : ℕ) : List XmlNode → Option (List Json)
  | [] => some []
  | child :: children =>
      if ccnt = 0 then some []
      else child.json.bind fun j => (jsons (ccnt - 1) children).map (j :: ·)

end

end XmlNode

section Conversion

variable {s : StringInternal}

/-- The C string of a block is that of its bytes. -/
lemma ofBytes_data (h : s.Holds s.content) : CString.ofBytes s.data = CString.ofBytes s.content := by
  obtain ⟨rest, hdata⟩ := h.split
  refine Subtype.ext ?_
  change s.data.takeWhile _ = s.content.takeWhile _
  rw [hdata]
  by_cases hall : ∀ b ∈ s.content, (b != 0) = true
  · rw [List.takeWhile_append_of_pos hall, List.takeWhile_cons_of_neg (by simp), List.append_nil,
      List.takeWhile_eq_self_iff.mpr hall]
  · rw [List.takeWhile_append, if_neg]
    exact fun hlen => hall (List.takeWhile_eq_self_iff.mp
      ((List.takeWhile_prefix _).eq_of_length hlen))

/-- A block is its C string, a NUL, and the rest. -/
lemma data_split (h : s.Holds s.content) :
    ∃ rest, s.data = (CString.ofBytes s.content).1 ++ 0 :: rest := by
  obtain ⟨rest, hdata⟩ := h.split
  have hmem : (0 : UInt8) ∈ s.data := by
    rw [hdata]
    simp
  have hne : s.data.dropWhile (· != 0) ≠ [] := fun hnil => by
    simpa using List.dropWhile_eq_nil_iff.mp hnil 0 hmem
  obtain ⟨c, rest', hdrop⟩ := List.exists_cons_of_ne_nil hne
  have hc : c = 0 := by
    have hhead := List.head?_dropWhile_not (· != (0 : UInt8)) s.data
    rw [hdrop] at hhead
    simpa using hhead
  subst hc
  refine ⟨rest', ?_⟩
  rw [← ofBytes_data h, ← hdrop]
  exact List.takeWhile_append_dropWhile.symm

/-- The text that is left is that of the bytes. -/
lemma xmlTrimText_text (h : s.Holds s.content) :
    (xmlTrimText s).map Prod.snd = (trimAt (CString.ofBytes s.content).1
      (toInt (CString.ofBytes s.content).1.length)).map CString.ofBytes := by
  obtain ⟨rest, hdata⟩ := data_split h
  rw [← strTrimBlock_eq (CString.ofBytes s.content).2 rest, ← hdata, xmlTrimText]
  cases strTrimBlock s.data with
  | none => rfl
  | some data => cases h : cStringAt data 0 <;> simp [h]

lemma XmlNodeInternal.nodes_eq (children : List XmlNodeInternal) :
    XmlNodeInternal.nodes children = children.map XmlNodeInternal.node := by
  induction children with
  | nil => rfl
  | cons child children ih => rw [XmlNodeInternal.nodes, ih, List.map_cons]

lemma XmlNodeInternal.onlyText_eq_some {children : List XmlNodeInternal} {child : StringInternal} :
    XmlNodeInternal.onlyText children = some child ↔ children = [.text child] := by
  constructor
  · intro h
    unfold XmlNodeInternal.onlyText at h
    split at h
    · rw [Option.some.inj h]
    · cases h
  · rintro rfl
    rfl

/-- The text that is the only child of the tree is that of the blocks. -/
lemma XmlNode.onlyText_nodes (children : List XmlNodeInternal) :
    XmlNode.onlyText (XmlNodeInternal.nodes children) =
      (XmlNodeInternal.onlyText children).map fun child => CString.ofBytes child.content := by
  match children with
  | [] | .tag _ _ _ :: _ | [.text _] | .text _ :: _ :: _ => rfl

mutual

/-- The conversion puts the JSON of the node under its name. -/
lemma xmlToJsonInternal_json : ∀ (t : XmlNodeInternal) (parent : OrderedMap CString Json),
    t.WellFormed → (xmlToJsonInternal t parent).map Prod.snd =
      t.node.json.map (xmlJsonAdd parent t.node.getName)
  | .text tagname, parent, h => by
      rw [xmlToJsonInternal, ofBytes_data h]
      rfl
  | .tag tagname attributes children, parent, h => by
      rw [xmlToJsonInternal, ofBytes_data h.1, XmlNodeInternal.node, XmlNode.json,
        XmlNode.onlyText_nodes]
      cases honly : XmlNodeInternal.onlyText children with
      | some child =>
          obtain rfl := XmlNodeInternal.onlyText_eq_some.mp honly
          have htext := congrArg (Option.map fun text => xmlJsonAdd parent
            (CString.ofBytes tagname.content) (xmlJsonText attributes text))
            (xmlTrimText_text (s := child) h.2.1)
          simpa [Option.map_map, Function.comp_def, XmlNode.getName] using htext
      | none =>
          have hloop := congrArg (Option.map fun res : OrderedMap CString Json => xmlJsonAdd parent
            (CString.ofBytes tagname.content) (.object res.entries))
            (xmlChildrenToJson_json (children.length % 2 ^ 32) children
              (xmlJsonAttributes attributes) h.2)
          simpa [Option.map_map, Function.comp_def, XmlNode.getName,
            XmlNodeInternal.nodes_eq] using hloop

/-- The loop puts the JSON of the children under their names. -/
lemma xmlChildrenToJson_json : ∀ (ccnt : ℕ) (children : List XmlNodeInternal)
    (res : OrderedMap CString Json), XmlNodeInternal.AllWellFormed children →
    (xmlChildrenToJson ccnt children res).map Prod.snd =
      (XmlNode.jsons ccnt (XmlNodeInternal.nodes children)).map fun js =>
        (((XmlNodeInternal.nodes children).map XmlNode.getName).zip js).foldl
          (fun res e => xmlJsonAdd res e.1 e.2) res
  | ccnt, [], res, _ => rfl
  | ccnt, child :: children, res, h => by
      rw [xmlChildrenToJson, XmlNodeInternal.nodes, XmlNode.jsons]
      by_cases hzero : ccnt = 0
      · rw [if_pos hzero, if_pos hzero]
        simp
      · rw [if_neg hzero, if_neg hzero]
        have hchild := xmlToJsonInternal_json child res h.1
        cases hjson : child.node.json with
        | none =>
            rw [hjson, Option.map_none, Option.map_eq_none_iff] at hchild
            rw [hchild]
            rfl
        | some j =>
            rw [hjson, Option.map_some, Option.map_eq_some_iff] at hchild
            obtain ⟨r, hr, hres⟩ := hchild
            rw [hr, Option.bind_some, Option.bind_some, Option.map_map, Option.map_map]
            have hrest := xmlChildrenToJson_json (ccnt - 1) children r.2 h.2
            rw [hres] at hrest
            simpa [Function.comp_def, hres] using hrest

end

/-- The conversion gives an object with the JSON of the root under its name. -/
lemma xmlToJson_json {t : XmlNodeInternal} (h : t.WellFormed) : (xmlToJson t).map Prod.snd =
    t.node.json.map fun j => .object [(t.node.getName, j)] := by
  have hroot := congrArg (Option.map fun res : OrderedMap CString Json => Json.object res.entries)
    (xmlToJsonInternal_json t .empty h)
  have hadd (name : CString) (j : Json) : (xmlJsonAdd .empty name j).entries = [(name, j)] := rfl
  simpa [xmlToJson, Option.map_map, Function.comp_def, hadd] using hroot

end Conversion

/-! ### What is kept -/

mutual

/-- The texts of the values at a path of names. A path goes through the items of an array. -/
def Json.valuesAt : Json → List CString → List CString
  | .value _ data, path => if path = [] then [data] else []
  | .object _, [] => []
  | .object entries, k :: path => Json.membersAt entries k path
  | .array items, path => Json.itemsAt items path

/-- The values of the members with the name `k`. -/
def Json.membersAt : List (CString × Json) → CString → List CString → List CString
  | [], _, _ => []
  | (key, item) :: entries, k, path =>
      (if key = k then item.valuesAt path else []) ++ Json.membersAt entries k path

/-- The values of the items. -/
def Json.itemsAt : List Json → List CString → List CString
  | [], _ => []
  | item :: items, path => item.valuesAt path ++ Json.itemsAt items path

end

/-- The attributes as fields. -/
def xmlAttributeFields (attributes : OrderedMap CString (List UInt8)) : List (CString × Json) :=
  attributes.entries.map fun e => (e.1, jsonValueSetString (CString.ofBytes e.2))

namespace XmlNode

/-- The field of a text. -/
def textField (text : CString) : Json := jsonValueSetString (CString.ofBytes (trimSpaces text.1))

/-- The value of the attribute `k`. -/
def attributesAt (attributes : OrderedMap CString (List UInt8)) (k : CString) : List CString :=
  (attributes.get k).toList.map CString.ofBytes

/-- The JSON has the attributes and the text of an element: the text is the value itself when
there are no attributes, and their `content` else. -/
def TextKept (attributes : OrderedMap CString (List UInt8)) (text : CString) (json : Json) : Prop :=
  if attributes.size = 0 then json = textField text
  else ∃ m : OrderedMap CString Json, json = .object m.entries ∧
    Gathers .array m (xmlAttributeFields attributes ++ [(xmlContent, textField text)])

mutual

/-- The JSON has all data of an element. The attributes and the children are under their names:
a name that comes once has its value, a name that comes again an array of its values in their
order. -/
def Kept : XmlNode → Json → Prop
  | .text _, _ => False
  | .tag _ attributes children, json =>
      match onlyText children with
      | some only => TextKept attributes only json
      | none => ∃ (m : OrderedMap CString Json) (js : List Json), json = .object m.entries ∧
          AllKept children js ∧
          Gathers .array m (xmlAttributeFields attributes ++ (children.map getName).zip js)

/-- The values have all data of the elements. -/
def AllKept : List XmlNode → List Json → Prop
  | [], js => js = []
  | child :: children, js => ∃ j js', js = j :: js' ∧ child.Kept j ∧ AllKept children js'

end

mutual

/-- Each element has only elements as children, or exactly one text that is not blank. -/
def Data : XmlNode → Prop
  | .text _ => False
  | .tag _ _ children =>
      match onlyText children with
      | some only => trimSpaces only.1 ≠ []
      | none => AllData children

/-- Each node is such an element. -/
def AllData : List XmlNode → Prop
  | [] => True
  | child :: children => child.Data ∧ AllData children

end

mutual

/-- No element with a text has an attribute `content`, no text is too long to be trimmed, and
no element has more children than 32 bits count. -/
def Separate : XmlNode → Prop
  | .text _ => True
  | .tag _ attributes children =>
      match onlyText children with
      | some only => xmlContent ∉ attributes.keys ∧ TrimReaches only.1 (toInt only.1.length)
      | none => children.length < 2 ^ 32 ∧ AllSeparate children

/-- The same of each node. -/
def AllSeparate : List XmlNode → Prop
  | [] => True
  | child :: children => child.Separate ∧ AllSeparate children

end

mutual

/-- The attribute values and the trimmed texts at a path of names, in the order of the document. -/
def valuesAt : XmlNode → List CString → List CString
  | .text _, _ => []
  | .tag _ attributes children, [] =>
      match onlyText children with
      | some only => if attributes.size = 0 then [CString.ofBytes (trimSpaces only.1)] else []
      | none => []
  | .tag _ attributes children, k :: path =>
      (if path = [] then attributesAt attributes k else []) ++
        match onlyText children with
        | some only =>
            if path = [] ∧ attributes.size ≠ 0 ∧ k = xmlContent then
              [CString.ofBytes (trimSpaces only.1)]
            else []
        | none => childrenAt children k path

/-- The values of the children with the name `k`. -/
def childrenAt : List XmlNode → CString → List CString → List CString
  | [], _, _ => []
  | child :: children, k, path =>
      (if child.getName = k then child.valuesAt path else []) ++ childrenAt children k path

end

end XmlNode

section Fields

variable {m : OrderedMap CString Json} {fields : List (CString × Json)}

lemma value_notMem_array (type : JsonValueType) (data : CString) :
    Json.value type data ∉ Set.range Json.array := by
  rintro ⟨items, h⟩
  cases h

lemma object_notMem_array (entries : List (CString × Json)) :
    Json.object entries ∉ Set.range Json.array := by
  rintro ⟨items, h⟩
  cases h

/-- A value that is put is gathered. -/
lemma Gathers.xmlJsonAdd (h : Gathers .array m fields)
    (hf : ∀ e ∈ fields, e.2 ∉ Set.range Json.array) (name : CString) (res : Json) :
    Gathers .array (xmlJsonAdd m name res) (fields ++ [(name, res)]) := by
  have hget := h name
  match hvs : valuesOf fields name with
  | [] =>
      rw [hvs] at hget
      have hadd : LibCmutils.xmlJsonAdd m name res = m.put name res := by
        rw [LibCmutils.xmlJsonAdd, hget]
        rfl
      rw [hadd]
      refine h.push ?_ fun l hl => OrderedMap.get_put_of_ne _ _ hl
      rw [hvs, OrderedMap.get_put_self]
      rfl
  | [v] =>
      have hv : v ∉ Set.range Json.array := hf _ (mem_valuesOf.mp (hvs ▸ List.mem_cons_self))
      rw [hvs] at hget
      have hadd : LibCmutils.xmlJsonAdd m name res =
          (m.erase name).put name (.array [v, res]) := by
        rw [LibCmutils.xmlJsonAdd, hget]
        cases v with
        | array items => exact absurd ⟨items, rfl⟩ hv
        | value type data => rfl
        | object entries => rfl
      rw [hadd]
      refine h.push ?_ fun l hl => ?_
      · rw [hvs, OrderedMap.get_put_self]
        rfl
      · rw [OrderedMap.get_put_of_ne _ _ hl, OrderedMap.get_erase_of_ne _ hl]
  | v :: w :: vs =>
      rw [hvs] at hget
      have hadd : LibCmutils.xmlJsonAdd m name res =
          m.adjust name fun _ => .array (jsonArrayAdd (v :: w :: vs) res) := by
        rw [LibCmutils.xmlJsonAdd, hget]
        rfl
      rw [hadd]
      refine h.push ?_ fun l hl => OrderedMap.get_adjust_of_ne _ _ hl
      rw [hvs, OrderedMap.get_adjust_self, hget]
      rfl

/-- Values that are put one after the other are gathered. -/
lemma Gathers.foldl_xmlJsonAdd (h : Gathers .array m fields) (es : List (CString × Json))
    (hf : ∀ e ∈ fields, e.2 ∉ Set.range Json.array) (hes : ∀ e ∈ es, e.2 ∉ Set.range Json.array) :
    Gathers .array (es.foldl (fun res e => LibCmutils.xmlJsonAdd res e.1 e.2) m)
      (fields ++ es) := by
  induction es generalizing m fields with
  | nil => rwa [List.append_nil]
  | cons e es ih =>
      obtain ⟨he, hes⟩ := List.forall_mem_cons.mp hes
      have hadd := ih (h.xmlJsonAdd hf e.1 e.2)
        (List.forall_mem_append.mpr ⟨hf, List.forall_mem_singleton.mpr he⟩) hes
      rwa [List.append_assoc, List.singleton_append] at hadd

variable {attributes : OrderedMap CString (List UInt8)}

lemma xmlAttributeFields_notMem_array : ∀ e ∈ xmlAttributeFields attributes,
    e.2 ∉ Set.range Json.array := by
  intro e he
  obtain ⟨a, -, rfl⟩ := List.mem_map.mp he
  exact value_notMem_array _ _

lemma mem_xmlAttributeFields {k : CString} :
    (∃ v, (k, v) ∈ xmlAttributeFields attributes) ↔ k ∈ attributes.keys := by
  constructor
  · rintro ⟨v, hv⟩
    obtain ⟨e, he, heq⟩ := List.mem_map.mp hv
    exact List.mem_map.mpr ⟨e, he, congrArg Prod.fst heq⟩
  · intro hk
    obtain ⟨e, he, rfl⟩ := List.mem_map.mp hk
    exact ⟨_, List.mem_map_of_mem he⟩

/-- The object of the attributes. -/
lemma gathers_xmlJsonAttributes (attributes : OrderedMap CString (List UInt8)) :
    Gathers .array (xmlJsonAttributes attributes) (xmlAttributeFields attributes) := by
  have hempty : Gathers Json.array (OrderedMap.empty : OrderedMap CString Json) [] := .empty
  have h := hempty.foldl_xmlJsonAdd (xmlAttributeFields attributes) (by simp)
    xmlAttributeFields_notMem_array
  rwa [List.nil_append, xmlAttributeFields, List.foldl_map] at h

lemma push_notMem_array {k : CString} {v : Json} (hf : ∀ e ∈ fields, e.2 ∉ Set.range Json.array)
    (hv : v ∉ Set.range Json.array) : ∀ e ∈ fields ++ [(k, v)], e.2 ∉ Set.range Json.array :=
  List.forall_mem_append.mpr ⟨hf, List.forall_mem_singleton.mpr hv⟩

lemma array_injective : Function.Injective Json.array := fun _ _ h => Json.array.inj h

/-- A value that is put as `content` is one field more when no attribute has that name. -/
lemma gathers_put_content_iff (attributes : OrderedMap CString (List UInt8)) {v w : Json}
    (hv : v ∉ Set.range Json.array) (hw : w ∉ Set.range Json.array) :
    Gathers .array ((xmlJsonAttributes attributes).put xmlContent v)
        (xmlAttributeFields attributes ++ [(xmlContent, w)]) ↔
      xmlContent ∉ attributes.keys ∧ v = w := by
  have hput := (gathers_xmlJsonAttributes attributes).put xmlContent v
  constructor
  · intro h
    -- under the name of the text there is only the text
    have hvalues := hput.valuesOf_eq array_injective h (push_notMem_array
      (fun e he => xmlAttributeFields_notMem_array e (List.mem_filter.mp he).1) hv)
      (push_notMem_array xmlAttributeFields_notMem_array hw) xmlContent
    rw [valuesOf_append, valuesOf_append, valuesOf_filter_ne, if_pos rfl, valuesOf_singleton,
      valuesOf_singleton, if_pos rfl, if_pos rfl] at hvalues
    obtain ⟨hnil, hlast⟩ := List.append_inj' hvalues rfl
    refine ⟨fun hmem => ?_, (List.cons.inj hlast).1⟩
    obtain ⟨u, hu⟩ := mem_xmlAttributeFields.mpr hmem
    exact absurd (hnil ▸ mem_valuesOf.mpr hu) List.not_mem_nil
  · rintro ⟨hmem, rfl⟩
    rwa [List.filter_eq_self.mpr fun e he => by
      simpa using fun hk : e.1 = xmlContent =>
        hmem (mem_xmlAttributeFields.mp ⟨e.2, hk ▸ he⟩)] at hput

/-- A member under another name is no `content`. -/
lemma not_gathers_xmlJsonAdd {name : CString} (hname : name ≠ xmlContent) {v w : Json}
    (hv : v ∉ Set.range Json.array) (hw : w ∉ Set.range Json.array) :
    ¬ Gathers .array (xmlJsonAdd (xmlJsonAttributes attributes) name v)
      (xmlAttributeFields attributes ++ [(xmlContent, w)]) := by
  intro h
  have hadd := (gathers_xmlJsonAttributes attributes).xmlJsonAdd xmlAttributeFields_notMem_array
    name v
  have hvalues := hadd.valuesOf_eq array_injective h
    (push_notMem_array xmlAttributeFields_notMem_array hv)
    (push_notMem_array xmlAttributeFields_notMem_array hw) xmlContent
  rw [valuesOf_append, valuesOf_append, valuesOf_singleton, valuesOf_singleton, if_pos rfl,
    if_neg hname] at hvalues
  exact absurd (congrArg List.length hvalues) (by simp)

end Fields

section Kept

variable {attributes : OrderedMap CString (List UInt8)} {text : CString} {json : Json}

lemma jsonValueSetString_ofBytes_inj {s t : List UInt8} (hs : (0 : UInt8) ∉ s)
    (ht : (0 : UInt8) ∉ t) (h : jsonValueSetString (CString.ofBytes s) =
      jsonValueSetString (CString.ofBytes t)) : s = t := by
  rw [CString.ofBytes_of_notMem hs, CString.ofBytes_of_notMem ht] at h
  exact congrArg Subtype.val (Json.value.inj h).2

/-- A text is kept when it is trimmed as a whole and no attribute has its name. -/
lemma textKept_iff (hblank : trimSpaces text.1 ≠ []) {trimmed : List UInt8}
    (htrim : trimAt text.1 (toInt text.1.length) = some trimmed) :
    XmlNode.TextKept attributes text (xmlJsonText attributes (CString.ofBytes trimmed)) ↔
      xmlContent ∉ attributes.keys ∧ trimmed = trimSpaces text.1 := by
  have hzero : (0 : UInt8) ∉ trimmed := fun h => text.2 ((trimAt_sublist htrim).subset h)
  have hzero' : (0 : UInt8) ∉ trimSpaces text.1 := fun h =>
    text.2 ((trimSpaces_sublist text.1).subset h)
  have hofBytes : (CString.ofBytes trimmed).1 = trimmed := by rw [CString.ofBytes_of_notMem hzero]
  rw [XmlNode.TextKept, xmlJsonText, hofBytes]
  by_cases hempty : attributes.size = 0
  · have hkeys : attributes.keys = [] := by
      rw [OrderedMap.keys, List.eq_nil_of_length_eq_zero hempty, List.map_nil]
    rw [if_pos hempty, if_pos hempty, hkeys]
    split_ifs with hpos
    · refine ⟨fun h => ⟨List.not_mem_nil, jsonValueSetString_ofBytes_inj hzero hzero' h⟩, ?_⟩
      rintro ⟨-, rfl⟩
      rfl
    · refine ⟨fun h => (by cases h), fun h => absurd (List.length_pos_of_ne_nil hblank) (h.2 ▸ hpos)⟩
  · rw [if_neg hempty, if_neg hempty]
    have htext : XmlNode.textField text ∉ Set.range Json.array := value_notMem_array _ _
    split_ifs with hpos
    · have hput := gathers_put_content_iff attributes
        (value_notMem_array .string (CString.ofBytes trimmed)) htext
      constructor
      · rintro ⟨m, hm, hgathers⟩
        obtain rfl := OrderedMap.ext (Json.object.inj hm)
        obtain ⟨hmem, heq⟩ := hput.mp hgathers
        exact ⟨hmem, jsonValueSetString_ofBytes_inj hzero hzero' heq⟩
      · rintro ⟨hmem, rfl⟩
        exact ⟨_, rfl, hput.mpr ⟨hmem, rfl⟩⟩
    · have hnil : trimmed = [] := List.eq_nil_of_length_eq_zero (by omega)
      refine ⟨?_, fun h => absurd (hnil ▸ h.2.symm) hblank⟩
      rintro ⟨m, hm, hgathers⟩
      obtain rfl := OrderedMap.ext (Json.object.inj hm)
      have hname : CString.ofBytes trimmed ≠ xmlContent := by
        rw [hnil]
        decide
      exact absurd hgathers (not_gathers_xmlJsonAdd hname (object_notMem_array _) htext)

end Kept

namespace XmlNode

/-- The JSON of a node is a value or an object. -/
lemma json_notMem_array {node : XmlNode} {j : Json} (h : node.json = some j) :
    j ∉ Set.range Json.array := by
  cases node with
  | text name =>
      obtain rfl := Option.some.inj h
      exact object_notMem_array _
  | tag name attributes children =>
      rw [json] at h
      split at h
      · obtain ⟨trimmed, -, rfl⟩ := Option.map_eq_some_iff.mp h
        rw [xmlJsonText]
        split_ifs
        · exact value_notMem_array _ _
        · exact object_notMem_array _
        · exact object_notMem_array _
      · obtain ⟨js, -, rfl⟩ := Option.map_eq_some_iff.mp h
        exact object_notMem_array _

lemma jsons_spec {ccnt : ℕ} {children : List XmlNode} {js : List Json}
    (h : jsons ccnt children = some js) :
    js.length = min ccnt children.length ∧ ∀ j ∈ js, j ∉ Set.range Json.array := by
  induction children generalizing ccnt js with
  | nil =>
      obtain rfl := Option.some.inj h
      simp
  | cons child children ih =>
      rw [jsons] at h
      split_ifs at h with hzero
      · obtain rfl := Option.some.inj h
        simp [hzero]
      · obtain ⟨j, hj, h⟩ := Option.bind_eq_some_iff.mp h
        obtain ⟨js', hjs', rfl⟩ := Option.map_eq_some_iff.mp h
        obtain ⟨hlen, hplain⟩ := ih hjs'
        refine ⟨?_, List.forall_mem_cons.mpr ⟨json_notMem_array hj, hplain⟩⟩
        rw [List.length_cons, List.length_cons, hlen]
        omega

lemma Kept.notMem_array {node : XmlNode} {j : Json} (h : node.Kept j) :
    j ∉ Set.range Json.array := by
  cases node with
  | text name => exact h.elim
  | tag name attributes children =>
      rw [Kept] at h
      split at h
      · rw [TextKept] at h
        split_ifs at h
        · rw [h]
          exact value_notMem_array _ _
        · obtain ⟨m, rfl, -⟩ := h
          exact object_notMem_array _
      · obtain ⟨m, js, rfl, -⟩ := h
        exact object_notMem_array _

lemma AllKept.spec {children : List XmlNode} {js : List Json} (h : AllKept children js) :
    js.length = children.length ∧ ∀ j ∈ js, j ∉ Set.range Json.array := by
  induction children generalizing js with
  | nil =>
      obtain rfl : js = [] := h
      simp
  | cons child children ih =>
      obtain ⟨j, js', rfl, hj, h⟩ := h
      obtain ⟨hlen, hplain⟩ := ih h
      exact ⟨by rw [List.length_cons, List.length_cons, hlen],
        List.forall_mem_cons.mpr ⟨hj.notMem_array, hplain⟩⟩

/-- The fields of children are plain. -/
lemma zip_notMem_array {names : List CString} {js : List Json}
    (h : ∀ j ∈ js, j ∉ Set.range Json.array) :
    ∀ e ∈ names.zip js, e.2 ∉ Set.range Json.array :=
  fun _ he => h _ (List.of_mem_zip he).2

mutual

/-- The JSON of an element has all its data exactly when its parts are separate. -/
lemma kept_iff : ∀ node : XmlNode, node.Data →
    ((∃ j, node.json = some j ∧ node.Kept j) ↔ node.Separate)
  | .text _, h => h.elim
  | .tag name attributes children, h => by
      rw [Data] at h
      rw [Separate]
      simp only [json, Kept]
      cases honly : onlyText children with
      | some only =>
          simp only [honly] at h ⊢
          rw [← trimAt_iff]
          constructor
          · rintro ⟨j, hj, hkept⟩
            obtain ⟨trimmed, htrim, rfl⟩ := Option.map_eq_some_iff.mp hj
            obtain ⟨hmem, rfl⟩ := (textKept_iff h htrim).mp hkept
            exact ⟨hmem, htrim⟩
          · rintro ⟨hmem, htrim⟩
            exact ⟨_, Option.map_eq_some_iff.mpr ⟨_, htrim, rfl⟩,
              (textKept_iff h htrim).mpr ⟨hmem, rfl⟩⟩
      | none =>
          simp only [honly] at h ⊢
          have hgathers (js : List Json) (hjs : ∀ j ∈ js, j ∉ Set.range Json.array) :=
            (gathers_xmlJsonAttributes attributes).foldl_xmlJsonAdd ((children.map getName).zip js)
              xmlAttributeFields_notMem_array (zip_notMem_array hjs)
          constructor
          · rintro ⟨j, hj, m, js', hm, hall, hkept⟩
            obtain ⟨js, hjs, rfl⟩ := Option.map_eq_some_iff.mp hj
            obtain rfl := OrderedMap.ext (Json.object.inj hm)
            obtain ⟨hlen, hplain⟩ := jsons_spec hjs
            obtain ⟨hlen', hplain'⟩ := hall.spec
            -- the children have the same fields, so that none is left out
            have hvalues (k : CString) : valuesOf ((children.map getName).zip js) k =
                valuesOf ((children.map getName).zip js') k := by
              have heq := (hgathers js hplain).valuesOf_eq array_injective hkept
                (List.forall_mem_append.mpr
                  ⟨xmlAttributeFields_notMem_array, zip_notMem_array hplain⟩)
                (List.forall_mem_append.mpr
                  ⟨xmlAttributeFields_notMem_array, zip_notMem_array hplain'⟩) k
              rw [valuesOf_append, valuesOf_append] at heq
              exact List.append_cancel_left heq
            have hzip := length_eq_of_valuesOf fun k => congrArg List.length (hvalues k)
            rw [List.length_zip, List.length_zip, List.length_map, hlen, hlen'] at hzip
            have hmod := Nat.mod_lt children.length (show 2 ^ 32 > 0 by norm_num)
            have hlt : children.length < 2 ^ 32 := by omega
            rw [Nat.mod_eq_of_lt hlt, min_self] at hlen
            rw [Nat.mod_eq_of_lt hlt] at hjs
            have hfst {ks : List Json} (hks : ks.length = children.length) :
                ((children.map getName).zip ks).map Prod.fst = children.map getName :=
              List.map_fst_zip (by rw [List.length_map, hks])
            have hsnd {ks : List Json} (hks : ks.length = children.length) :
                ((children.map getName).zip ks).map Prod.snd = ks :=
              List.map_snd_zip (by rw [List.length_map, hks])
            have heq := eq_of_valuesOf ((hfst hlen).trans (hfst hlen').symm) hvalues
            obtain rfl : js = js' := by rw [← hsnd hlen, heq, hsnd hlen']
            exact ⟨hlt, (allKept_iff children h).mp ⟨js, hjs, hall⟩⟩
          · rintro ⟨hlt, hall⟩
            obtain ⟨js, hjs, hkept⟩ := (allKept_iff children h).mpr hall
            refine ⟨_, Option.map_eq_some_iff.mpr ⟨js, ?_, rfl⟩, _, js, rfl, hkept,
              hgathers js (jsons_spec hjs).2⟩
            rwa [Nat.mod_eq_of_lt hlt]

/-- The same of the children. -/
lemma allKept_iff : ∀ children : List XmlNode, AllData children →
    ((∃ js, jsons children.length children = some js ∧ AllKept children js) ↔
      AllSeparate children)
  | [], _ => by simp [jsons, AllKept, AllSeparate]
  | child :: children, h => by
      rw [AllSeparate, ← kept_iff child h.1, ← allKept_iff children h.2]
      simp only [jsons, AllKept, List.length_cons, Nat.add_sub_cancel]
      rw [if_neg (Nat.succ_ne_zero _)]
      constructor
      · rintro ⟨js, hjs, j, js', rfl, hkept, hall⟩
        obtain ⟨j', hj', hjs⟩ := Option.bind_eq_some_iff.mp hjs
        obtain ⟨js'', hjs'', heq⟩ := Option.map_eq_some_iff.mp hjs
        obtain ⟨rfl, rfl⟩ := List.cons.inj heq
        exact ⟨⟨_, hj', hkept⟩, _, hjs'', hall⟩
      · rintro ⟨⟨j, hj, hkept⟩, js, hjs, hall⟩
        exact ⟨j :: js, by rw [hj, Option.bind_some, hjs, Option.map_some], j, js, rfl, hkept, hall⟩

end

end XmlNode

/-! ### Paths -/

lemma Json.itemsAt_eq (items : List Json) (path : List CString) :
    Json.itemsAt items path = items.flatMap fun item => item.valuesAt path := by
  induction items with
  | nil => rfl
  | cons item items ih => rw [Json.itemsAt, ih, List.flatMap_cons]

lemma Json.membersAt_eq (entries : List (CString × Json)) (k : CString) (path : List CString) :
    Json.membersAt entries k path = (valuesOf entries k).flatMap fun item => item.valuesAt path := by
  induction entries with
  | nil => rfl
  | cons e entries ih =>
      obtain ⟨key, item⟩ := e
      rw [Json.membersAt, ih]
      by_cases hk : key = k
      · rw [if_pos hk, hk, valuesOf_cons_self, List.flatMap_cons]
      · rw [if_neg hk, valuesOf_cons_of_ne hk, List.nil_append]

/-- The values at a path are those of the fields. -/
lemma Gathers.membersAt {m : OrderedMap CString Json} {fields : List (CString × Json)}
    (h : Gathers .array m fields) (k : CString) (path : List CString) :
    Json.membersAt m.entries k path = (valuesOf fields k).flatMap fun item => item.valuesAt path := by
  rw [Json.membersAt_eq, valuesOf_entries, h k]
  match valuesOf fields k with
  | [] | [_] => rfl
  | v :: w :: vs =>
      rw [gathered, Option.toList_some, List.flatMap_singleton, Json.valuesAt, Json.itemsAt_eq]

/-- The values of the attributes. -/
lemma flatMap_xmlAttributeFields (attributes : OrderedMap CString (List UInt8)) (k : CString)
    (path : List CString) : (valuesOf (xmlAttributeFields attributes) k).flatMap
      (fun item => item.valuesAt path) =
        if path = [] then XmlNode.attributesAt attributes k else [] := by
  have hvalues : valuesOf (xmlAttributeFields attributes) k =
      (valuesOf attributes.entries k).map fun v => jsonValueSetString (CString.ofBytes v) := by
    rw [valuesOf, valuesOf, xmlAttributeFields, List.filter_map, List.map_map, List.map_map]
    rfl
  rw [hvalues, valuesOf_entries, XmlNode.attributesAt]
  cases attributes.get k with
  | none => simp
  | some v => simp [jsonValueSetString, Json.valuesAt]

namespace XmlNode

lemma TextKept.valuesAt {name : List UInt8} {attributes : OrderedMap CString (List UInt8)}
    {children : List XmlNode} {text : CString} {j : Json} (h : TextKept attributes text j)
    (honly : onlyText children = some text) (path : List CString) :
    j.valuesAt path = (XmlNode.tag name attributes children).valuesAt path := by
  rw [TextKept] at h
  split_ifs at h with hsize
  · rw [h, textField, jsonValueSetString, Json.valuesAt]
    cases path with
    | nil =>
        rw [XmlNode.valuesAt, honly]
        simp [hsize]
    | cons k path =>
        have hget : attributes.get k = none := by
          rw [OrderedMap.get, List.eq_nil_of_length_eq_zero hsize]
          rfl
        rw [XmlNode.valuesAt, honly]
        simp [hsize, attributesAt, hget]
  · obtain ⟨m, rfl, hgathers⟩ := h
    cases path with
    | nil =>
        rw [XmlNode.valuesAt, honly]
        simp [Json.valuesAt, hsize]
    | cons k path =>
        rw [Json.valuesAt, hgathers.membersAt, valuesOf_append, List.flatMap_append,
          flatMap_xmlAttributeFields, valuesOf_singleton, XmlNode.valuesAt, honly]
        by_cases hpath : path = [] <;> by_cases hk : k = xmlContent <;>
          simp [hpath, hk, hsize, eq_comm, textField, jsonValueSetString, Json.valuesAt]

mutual

/-- The JSON has at each path the values that the tree has there. -/
lemma Kept.valuesAt : ∀ {node : XmlNode} {j : Json}, node.Kept j → ∀ path,
    j.valuesAt path = node.valuesAt path
  | .text _, _, h, _ => h.elim
  | .tag name attributes children, j, h, path => by
      rw [Kept] at h
      cases honly : onlyText children with
      | some only =>
          simp only [honly] at h
          exact h.valuesAt honly path
      | none =>
          simp only [honly] at h
          obtain ⟨m, js, rfl, hall, hgathers⟩ := h
          cases path with
          | nil =>
              rw [XmlNode.valuesAt, honly]
              rfl
          | cons k path =>
              rw [Json.valuesAt, hgathers.membersAt, valuesOf_append, List.flatMap_append,
                flatMap_xmlAttributeFields, hall.valuesAt, XmlNode.valuesAt, honly]

lemma AllKept.valuesAt : ∀ {children : List XmlNode} {js : List Json}, AllKept children js →
    ∀ k path, (valuesOf ((children.map getName).zip js) k).flatMap (fun j => j.valuesAt path) =
      childrenAt children k path
  | [], _, _, _, _ => by simp [childrenAt]
  | child :: children, js, h, k, path => by
      obtain ⟨j, js', rfl, hj, hall⟩ := h
      rw [List.map_cons, List.zip_cons_cons, childrenAt, ← hall.valuesAt k path]
      by_cases hk : child.getName = k
      · rw [if_pos hk, hk, valuesOf_cons_self, List.flatMap_cons, hj.valuesAt path]
      · rw [if_neg hk, valuesOf_cons_of_ne hk, List.nil_append]

end

end XmlNode

/-- **XML to JSON.** For a tree of elements with attributes, and with elements or one text as
children, the conversion keeps all data exactly when no element with a text has an attribute
`content`, the texts are trimmed as a whole, and 32 bits count the children. -/
theorem xmlToJson_kept_iff {t : XmlNodeInternal} (h : t.WellFormed) (hdata : t.node.Data) :
    (∃ t' j, xmlToJson t = some (t', .object [(t.node.getName, j)]) ∧ t.node.Kept j ∧
      ∀ path, j.valuesAt path = t.node.valuesAt path) ↔ t.node.Separate := by
  have hjson := xmlToJson_json h
  rw [← XmlNode.kept_iff t.node hdata]
  constructor
  · rintro ⟨t', j, hrun, hkept, -⟩
    rw [hrun, Option.map_some] at hjson
    obtain ⟨j', hj', heq⟩ := Option.map_eq_some_iff.mp hjson.symm
    obtain ⟨-, rfl⟩ := Prod.mk.inj (List.cons.inj (Json.object.inj heq)).1
    exact ⟨_, hj', hkept⟩
  · rintro ⟨j, hj, hkept⟩
    rw [hj, Option.map_some] at hjson
    obtain ⟨⟨t', _⟩, hrun, rfl⟩ := Option.map_eq_some_iff.mp hjson
    exact ⟨t', j, hrun, hkept, hkept.valuesAt⟩

/-- The name `a` in a block. -/
def xmlNameA : StringInternal := ⟨[0x61, 0], 2, 1⟩

/-- `<a x="1">a</a>`, with the name `x` of the attribute as given. -/
def xmlAttributeAndText (x : CString) : XmlNodeInternal :=
  .tag xmlNameA (OrderedMap.empty.put x [0x31]) [.text xmlNameA]

lemma xmlNameA_holds : xmlNameA.Holds xmlNameA.content := .of_split ⟨[], rfl⟩ rfl rfl

lemma xmlAttributeAndText_wellFormed (x : CString) : (xmlAttributeAndText x).WellFormed :=
  And.intro xmlNameA_holds (And.intro xmlNameA_holds trivial)

lemma xmlAttributeAndText_data (x : CString) : (xmlAttributeAndText x).node.Data := by
  change trimSpaces [0x61] ≠ []
  decide

/-- An attribute `x` and a text. -/
theorem xmlToJson_kept_x : ∃ t' j, xmlToJson (xmlAttributeAndText ⟨[0x78], by decide⟩) =
      some (t', .object [((xmlAttributeAndText ⟨[0x78], by decide⟩).node.getName, j)]) ∧
    (xmlAttributeAndText ⟨[0x78], by decide⟩).node.Kept j ∧ ∀ path,
      j.valuesAt path = (xmlAttributeAndText ⟨[0x78], by decide⟩).node.valuesAt path := by
  refine (xmlToJson_kept_iff (xmlAttributeAndText_wellFormed _)
    (xmlAttributeAndText_data _)).mpr ?_
  refine And.intro ?_ (Or.inr ?_)
  · decide
  · exact ⟨by decide, fun c hc => absurd hc List.not_mem_nil⟩

/-- An attribute `content` and a text: the attribute is lost. -/
theorem xmlToJson_kept_fails : ∃ t : XmlNodeInternal, t.WellFormed ∧ t.node.Data ∧
    xmlToJson t = some (t, .object [(t.node.getName, .object [(xmlContent,
      jsonValueSetString (CString.ofBytes [0x61]))])]) ∧
    ¬ ∃ t' j, xmlToJson t = some (t', .object [(t.node.getName, j)]) ∧ t.node.Kept j ∧
      ∀ path, j.valuesAt path = t.node.valuesAt path := by
  have hrun : xmlToJson (xmlAttributeAndText xmlContent) = some (xmlAttributeAndText xmlContent,
      .object [((xmlAttributeAndText xmlContent).node.getName, .object [(xmlContent,
        jsonValueSetString (CString.ofBytes [0x61]))])]) := rfl
  refine ⟨xmlAttributeAndText xmlContent, xmlAttributeAndText_wellFormed _,
    xmlAttributeAndText_data _, hrun, ?_⟩
  rintro ⟨t', j, h, -, hvalues⟩
  rw [hrun] at h
  obtain ⟨-, h⟩ := Prod.mk.inj (Option.some.inj h)
  obtain ⟨-, rfl⟩ := Prod.mk.inj (List.cons.inj (Json.object.inj h)).1
  exact absurd (hvalues [xmlContent]) (by decide)

end LibCmutils
