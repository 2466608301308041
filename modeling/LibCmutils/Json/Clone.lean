import LibCmutils.Json.Value
import LibCmutils.Lib.Heap
import LibCmutils.Lib.Transition

/-!
Copies of JSON trees (`src/nanojson.c`).

* `JsonCell`: what a JSON tree consists of in memory. `JsonHeap.read`, `JsonHeap.toString`: the
  tree at a node, and its text.
* `JsonHeap.clone`: `CMUTIL_JsonClone`, with a function for each kind of node.
* `JsonCall`, `JsonHeap.call`: the calls that change a tree.
* `JsonIn`: a tree stands at a node, in cells of a given set.

The main result is `jsonClone_separate`.
-/

namespace LibCmutils

/-! ### Trees in memory -/

/-- A `CMUTIL_String`, or a node. The map of an object and the array of an array belong to it. -/
inductive JsonCell
  | string (data : CString)
  | value (type : JsonValueType) (data : ℕ)
  | object (map : OrderedMap CString ℕ)
  | array (arr : List ℕ)

/-- What a cell points to. -/
def JsonCell.pointers : JsonCell → List ℕ
  | .string _ => []
  | .value _ data => [data]
  | .object map => map.entries.map Prod.snd
  | .array arr => arr

lemma JsonCell.pointers_erase {map : OrderedMap CString ℕ} {key : CString} {p : ℕ}
    (hp : p ∈ (JsonCell.object (map.erase key)).pointers) : p ∈ (JsonCell.object map).pointers :=
  (List.filter_sublist.map Prod.snd).subset hp

lemma JsonCell.pointers_put {map : OrderedMap CString ℕ} {key : CString} {json p : ℕ}
    (hp : p ∈ (JsonCell.object (map.put key json)).pointers) :
    p ∈ (JsonCell.object map).pointers ∨ p = json := by
  rw [JsonCell.pointers, OrderedMap.entries_put, List.map_append] at hp
  rcases List.mem_append.mp hp with hp | hp
  · exact .inl (JsonCell.pointers_erase hp)
  · exact .inr (List.mem_singleton.mp hp)

/-- The memory of JSON trees. -/
abbrev JsonHeap := Heap JsonCell

namespace JsonHeap

/-- The tree at a node, to a depth of `fuel`. -/
def read (h : JsonHeap) : ℕ → ℕ → Option Json
  | 0, _ => none
  | fuel + 1, json =>
      match h.cells json with
      | some (.value type data) =>
          match h.cells data with
          | some (.string text) => some (.value type text)
          | _ => none
      | some (.object map) =>
          (map.entries.mapM fun e => (read h fuel e.2).map fun item => (e.1, item)).map .object
      | some (.array arr) => (arr.mapM (read h fuel)).map .array
      | _ => none

/-- `ToString`: the text of the tree at a node. -/
def toString (h : JsonHeap) (fuel : ℕ) (json : ℕ) (pretty : Bool) : Option (List UInt8) :=
  (read h fuel json).map fun tree => jsonToString tree pretty

/-! ### The calls -/

/-- `CMUTIL_JsonDestroy`, to a depth of `fuel`. -/
def destroy : ℕ → JsonHeap → ℕ → Option JsonHeap
  | 0, _, _ => none
  | fuel + 1, h, json =>
      match h.cells json with
      | some (.value _ data) => (h.release data).bind (·.release json)
      | some (.object map) =>
          ((map.entries.map Prod.snd).foldlM (destroy fuel) h).bind (·.release json)
      | some (.array arr) => (arr.foldlM (destroy fuel) h).bind (·.release json)
      | _ => none

/-- `CMUTIL_JsonValueCreate`. -/
def valueCreate (A : Allocator JsonCell) (h : JsonHeap) : JsonHeap × ℕ :=
  let (h, data) := h.alloc A (.string .empty)
  h.alloc A (.value .long data)

/-- `CMUTIL_JsonObjectCreate`. -/
def objectCreate (A : Allocator JsonCell) (h : JsonHeap) : JsonHeap × ℕ := h.alloc A (.object .empty)

/-- `CMUTIL_JsonArrayCreate`. -/
def arrayCreate (A : Allocator JsonCell) (h : JsonHeap) : JsonHeap × ℕ := h.alloc A (.array [])

/-- `CMUTIL_JsonValueSetBase`: the string is changed in its place. -/
def valueSetBase (h : JsonHeap) (jval : ℕ) (buf : CString) (type : JsonValueType) :
    Option JsonHeap :=
  match h.cells jval with
  | some (.value _ data) =>
      match h.cells data with
      | some (.string _) =>
          some ((h.update data (some (.string buf))).update jval (some (.value type data)))
      | _ => none
  | _ => none

/-- `CMUTIL_JsonObjectPut`. The item that had the key is destroyed. -/
def objectPut (h : JsonHeap) (jobj : ℕ) (key : CString) (json : ℕ) : Option JsonHeap :=
  match h.cells jobj with
  | some (.object map) =>
      let h := h.update jobj (some (.object (map.put key json)))
      match map.get key with
      | some prev => destroy h.top h prev
      | none => some h
  | _ => none

/-- `CMUTIL_JsonObjectRemove`, with the item. -/
def objectRemove (h : JsonHeap) (jobj : ℕ) (key : CString) : Option (JsonHeap × Option ℕ) :=
  match h.cells jobj with
  | some (.object map) => some (h.update jobj (some (.object (map.erase key))), map.get key)
  | _ => none

/-- `CMUTIL_JsonObjectDelete`. -/
def objectDelete (h : JsonHeap) (jobj : ℕ) (key : CString) : Option JsonHeap := do
  match ← objectRemove h jobj key with
  | (h, some item) => destroy h.top h item
  | (h, none) => some h

/-- `CMUTIL_JsonArrayAdd`. -/
def arrayAdd (h : JsonHeap) (jarr json : ℕ) : Option JsonHeap :=
  match h.cells jarr with
  | some (.array arr) => some (h.update jarr (some (.array (arr ++ [json]))))
  | _ => none

/-- `CMUTIL_JsonArrayRemove`, with the item. -/
def arrayRemove (h : JsonHeap) (jarr index : ℕ) : Option (JsonHeap × Option ℕ) :=
  match h.cells jarr with
  | some (.array arr) => some (h.update jarr (some (.array (arr.eraseIdx index))), arr[index]?)
  | _ => none

/-- `CMUTIL_JsonArrayDelete`, which does not look whether there is an item. -/
def arrayDelete (h : JsonHeap) (jarr index : ℕ) : Option JsonHeap := do
  match ← arrayRemove h jarr index with
  | (h, some item) => destroy h.top h item
  | (_, none) => none

/-! ### Copies -/

/-- `CMUTIL_JsonValueClone`. The copy of the record points to the string of the original until
the string is copied. -/
def valueClone (A : Allocator JsonCell) (h : JsonHeap) (type : JsonValueType) (data : ℕ) :
    Option (JsonHeap × ℕ) :=
  let (h, res) := h.alloc A (.value type data)
  match h.cells data with
  | some (.string text) =>
      let (h, copy) := h.alloc A (.string text)
      some (h.update res (some (.value type copy)), res)
  | _ => none

/-- `CMUTIL_JsonObjectClone`. -/
def objectClone (A : Allocator JsonCell) (clone : JsonHeap → ℕ → Option (JsonHeap × ℕ))
    (h : JsonHeap) (map : OrderedMap CString ℕ) : Option (JsonHeap × ℕ) :=
  let (h, res) := objectCreate A h
  (map.entries.foldlM (fun h pair => (clone h pair.2).bind fun r =>
    objectPut r.1 res pair.1 r.2) h).map fun h => (h, res)

/-- `CMUTIL_JsonArrayClone`. -/
def arrayClone (A : Allocator JsonCell) (clone : JsonHeap → ℕ → Option (JsonHeap × ℕ))
    (h : JsonHeap) (arr : List ℕ) : Option (JsonHeap × ℕ) :=
  let (h, res) := arrayCreate A h
  (arr.foldlM (fun h item => (clone h item).bind fun r =>
    arrayAdd r.1 res r.2) h).map fun h => (h, res)

/-- `CMUTIL_JsonClone`, to a depth of `fuel`. -/
def clone (A : Allocator JsonCell) : ℕ → JsonHeap → ℕ → Option (JsonHeap × ℕ)
  | 0, _, _ => none
  | fuel + 1, h, json =>
      match h.cells json with
      | some (.value type data) => valueClone A h type data
      | some (.object map) => objectClone A (clone A fuel) h map
      | some (.array arr) => arrayClone A (clone A fuel) h arr
      | _ => none

end JsonHeap

/-- The setters of a value, with what they are given. -/
inductive JsonSetter
  | long (value : ℤ)
  | double (text : CString)
  | string (value : CString)
  | boolean (value : Bool)
  | null

/-- What a setter hands to `CMUTIL_JsonValueSetBase`. -/
def JsonSetter.base : JsonSetter → CString × JsonValueType
  | .long value => (CString.ofBytes (printInt value), .long)
  | .double text => (text, .double)
  | .string value => (value, .string)
  | .boolean value => (CString.ofBytes (if value then trueText else falseText), .boolean)
  | .null => (CString.ofBytes nullText, .null)

/-- A call of the interface. `putValue` and `addValue` are `PutLong` to `PutNull` and `AddLong` to
`AddNull`. -/
inductive JsonCall
  | valueCreate
  | objectCreate
  | arrayCreate
  | set (jval : ℕ) (setter : JsonSetter)
  | put (jobj : ℕ) (key : CString) (json : ℕ)
  | putValue (jobj : ℕ) (key : CString) (setter : JsonSetter)
  | remove (jobj : ℕ) (key : CString)
  | delete (jobj : ℕ) (key : CString)
  | add (jarr json : ℕ)
  | addValue (jarr : ℕ) (setter : JsonSetter)
  | removeAt (jarr index : ℕ)
  | deleteAt (jarr index : ℕ)
  | destroy (json : ℕ)

/-- The nodes that a call is given. -/
def JsonCall.nodes : JsonCall → List ℕ
  | .valueCreate | .objectCreate | .arrayCreate => []
  | .set node _ | .putValue node _ _ | .remove node _ | .delete node _ | .addValue node _
  | .removeAt node _ | .deleteAt node _ | .destroy node => [node]
  | .put node _ json | .add node json => [node, json]

namespace JsonHeap

/-- A new value with what the setter gives it. -/
def valueOf (A : Allocator JsonCell) (h : JsonHeap) (setter : JsonSetter) : Option (JsonHeap × ℕ) :=
  let (h, jval) := valueCreate A h
  (valueSetBase h jval setter.base.1 setter.base.2).map fun h => (h, jval)

/-- A call. A use of a cell that is free has no result. -/
def call (A : Allocator JsonCell) (h : JsonHeap) : JsonCall → Option JsonHeap
  | .valueCreate => some (valueCreate A h).1
  | .objectCreate => some (objectCreate A h).1
  | .arrayCreate => some (arrayCreate A h).1
  | .set jval setter => valueSetBase h jval setter.base.1 setter.base.2
  | .put jobj key json => objectPut h jobj key json
  | .putValue jobj key setter => (valueOf A h setter).bind fun r => objectPut r.1 jobj key r.2
  | .remove jobj key => (objectRemove h jobj key).map Prod.fst
  | .delete jobj key => objectDelete h jobj key
  | .add jarr json => arrayAdd h jarr json
  | .addValue jarr setter => (valueOf A h setter).bind fun r => arrayAdd r.1 jarr r.2
  | .removeAt jarr index => (arrayRemove h jarr index).map Prod.fst
  | .deleteAt jarr index => arrayDelete h jarr index
  | .destroy json => destroy h.top h json

end JsonHeap

/-- Calls after each other, from the memory `h`. -/
def jsonCalls (A : Allocator JsonCell) (h : JsonHeap) : TransitionSystem JsonHeap JsonCall where
  init s := s = h
  step := JsonHeap.call A

/-! ### Trees at nodes -/

mutual

/-- The tree stands at a node, in cells with the property `P`. -/
def JsonIn (P : ℕ → Prop) (h : JsonHeap) : Json → ℕ → Prop
  | .value type text, a => P a ∧ ∃ data, P data ∧ h.cells a = some (.value type data) ∧
      h.cells data = some (.string text)
  | .object entries, a => P a ∧ ∃ map, h.cells a = some (.object map) ∧
      JsonMembersIn P h entries map.entries
  | .array items, a => P a ∧ ∃ arr, h.cells a = some (.array arr) ∧ JsonItemsIn P h items arr

/-- The members stand at the nodes of the pairs, under the same keys. -/
def JsonMembersIn (P : ℕ → Prop) (h : JsonHeap) :
    List (CString × Json) → List (CString × ℕ) → Prop
  | [], pairs => pairs = []
  | (key, item) :: entries, pairs => ∃ a pairs', pairs = (key, a) :: pairs' ∧ JsonIn P h item a ∧
      JsonMembersIn P h entries pairs'

/-- The items stand at the nodes. -/
def JsonItemsIn (P : ℕ → Prop) (h : JsonHeap) : List Json → List ℕ → Prop
  | [], arr => arr = []
  | item :: items, arr => ∃ a arr', arr = a :: arr' ∧ JsonIn P h item a ∧ JsonItemsIn P h items arr'

end

/-- The tree stands at a node. -/
def JsonHeap.Holds (h : JsonHeap) (json : Json) (a : ℕ) : Prop := JsonIn (fun _ => True) h json a

section Standing

variable {P Q : ℕ → Prop} {h h' : JsonHeap}

mutual

/-- A tree stays where it is when its cells stay. -/
lemma JsonIn.mono (hcells : ∀ a c, P a → h.cells a = some c → Q a ∧ h'.cells a = some c) :
    ∀ {json : Json} {a : ℕ}, JsonIn P h json a → JsonIn Q h' json a
  | .value _ _, _, ⟨ha, data, hdata, hnode, htext⟩ =>
      ⟨(hcells _ _ ha hnode).1, data, (hcells _ _ hdata htext).1, (hcells _ _ ha hnode).2,
        (hcells _ _ hdata htext).2⟩
  | .object _, _, ⟨ha, map, hnode, hall⟩ =>
      ⟨(hcells _ _ ha hnode).1, map, (hcells _ _ ha hnode).2, JsonMembersIn.mono hcells hall⟩
  | .array _, _, ⟨ha, arr, hnode, hall⟩ =>
      ⟨(hcells _ _ ha hnode).1, arr, (hcells _ _ ha hnode).2, JsonItemsIn.mono hcells hall⟩

lemma JsonMembersIn.mono (hcells : ∀ a c, P a → h.cells a = some c → Q a ∧ h'.cells a = some c) :
    ∀ {entries : List (CString × Json)} {pairs : List (CString × ℕ)},
      JsonMembersIn P h entries pairs → JsonMembersIn Q h' entries pairs
  | [], _, hall => hall
  | _ :: _, _, ⟨a, pairs, heq, hitem, hall⟩ =>
      ⟨a, pairs, heq, JsonIn.mono hcells hitem, JsonMembersIn.mono hcells hall⟩

lemma JsonItemsIn.mono (hcells : ∀ a c, P a → h.cells a = some c → Q a ∧ h'.cells a = some c) :
    ∀ {items : List Json} {arr : List ℕ}, JsonItemsIn P h items arr → JsonItemsIn Q h' items arr
  | [], _, hall => hall
  | _ :: _, _, ⟨a, arr, heq, hitem, hall⟩ =>
      ⟨a, arr, heq, JsonIn.mono hcells hitem, JsonItemsIn.mono hcells hall⟩

end

lemma JsonMembersIn.keys {entries : List (CString × Json)} {pairs : List (CString × ℕ)}
    (hall : JsonMembersIn P h entries pairs) : entries.map Prod.fst = pairs.map Prod.fst := by
  induction entries generalizing pairs with
  | nil =>
      obtain rfl : pairs = [] := hall
      rfl
  | cons e entries ih =>
      obtain ⟨a, pairs', rfl, -, hall⟩ := hall
      rw [List.map_cons, List.map_cons, ih hall]

lemma JsonMembersIn.concat {entries : List (CString × Json)} {pairs : List (CString × ℕ)}
    (hall : JsonMembersIn P h entries pairs) {key : CString} {item : Json} {a : ℕ}
    (hitem : JsonIn P h item a) :
    JsonMembersIn P h (entries ++ [(key, item)]) (pairs ++ [(key, a)]) := by
  induction entries generalizing pairs with
  | nil =>
      obtain rfl : pairs = [] := hall
      exact ⟨a, [], rfl, hitem, rfl⟩
  | cons e entries ih =>
      obtain ⟨b, pairs', rfl, hb, hall⟩ := hall
      exact ⟨b, _, rfl, hb, ih hall⟩

lemma JsonItemsIn.concat {items : List Json} {arr : List ℕ} (hall : JsonItemsIn P h items arr)
    {item : Json} {a : ℕ} (hitem : JsonIn P h item a) :
    JsonItemsIn P h (items ++ [item]) (arr ++ [a]) := by
  induction items generalizing arr with
  | nil =>
      obtain rfl : arr = [] := hall
      exact ⟨a, [], rfl, hitem, rfl⟩
  | cons e items ih =>
      obtain ⟨b, arr', rfl, hb, hall⟩ := hall
      exact ⟨b, _, rfl, hb, ih hall⟩

mutual

/-- The tree that stands at a node is read there. -/
lemma JsonIn.read_eq : ∀ {json : Json} {a fuel : ℕ}, JsonIn P h json a → json.height ≤ fuel →
    JsonHeap.read h fuel a = some json
  | json, a, 0, _, hle => by cases json <;> simp [Json.height] at hle
  | .value type text, a, fuel + 1, ⟨_, data, _, hnode, htext⟩, _ => by
      rw [JsonHeap.read, hnode]
      simp only [htext]
  | .object entries, a, fuel + 1, ⟨_, map, hnode, hall⟩, hle => by
      rw [JsonHeap.read, hnode]
      simp only
      rw [hall.read_eq (Nat.le_of_succ_le_succ hle), Option.map_some]
  | .array items, a, fuel + 1, ⟨_, arr, hnode, hall⟩, hle => by
      rw [JsonHeap.read, hnode]
      simp only
      rw [hall.read_eq (Nat.le_of_succ_le_succ hle), Option.map_some]

lemma JsonMembersIn.read_eq : ∀ {entries : List (CString × Json)} {pairs : List (CString × ℕ)}
    {fuel : ℕ}, JsonMembersIn P h entries pairs → Json.membersHeight entries ≤ fuel →
    pairs.mapM (fun e => (JsonHeap.read h fuel e.2).map fun item => (e.1, item)) = some entries
  | [], pairs, fuel, hall, _ => by
      obtain rfl : pairs = [] := hall
      rfl
  | (key, item) :: entries, pairs, fuel, ⟨a, pairs', heq, hitem, hall⟩, hle => by
      obtain ⟨hle, hle'⟩ := max_le_iff.mp hle
      rw [heq, List.mapM_cons, hitem.read_eq hle, hall.read_eq hle']
      rfl

lemma JsonItemsIn.read_eq : ∀ {items : List Json} {arr : List ℕ} {fuel : ℕ},
    JsonItemsIn P h items arr → Json.itemsHeight items ≤ fuel →
    arr.mapM (JsonHeap.read h fuel) = some items
  | [], arr, fuel, hall, _ => by
      obtain rfl : arr = [] := hall
      rfl
  | item :: items, arr, fuel, ⟨a, arr', heq, hitem, hall⟩, hle => by
      obtain ⟨hle, hle'⟩ := max_le_iff.mp hle
      rw [heq, List.mapM_cons, hitem.read_eq hle, hall.read_eq hle']
      rfl

end

/-- The text of a tree that stands at a node. -/
lemma JsonHeap.Holds.toString_eq {json : Json} {a fuel : ℕ} (hjson : JsonHeap.Holds h json a)
    (hle : json.height ≤ fuel) (pretty : Bool) :
    JsonHeap.toString h fuel a pretty = some (jsonToString json pretty) := by
  rw [JsonHeap.toString, hjson.read_eq hle]
  rfl

end Standing

/-! ### Making a copy -/

/-- What the memory held is as it was, and the later cells do not point to it. -/
abbrev JsonApart (h₀ h : JsonHeap) : Prop := Heap.Apart JsonCell.pointers h₀ h

/-- A copy stands in new cells. -/
structure JsonCloned (h : JsonHeap) (json : Json) (r : JsonHeap × ℕ) : Prop where
  apart : JsonApart h r.1
  holds : JsonIn (fun a => h.cells a = none) r.1 json r.2

/-- The copy of an object, when the members `done` are copied. -/
structure JsonObjectCopy (h₀ : JsonHeap) (res : ℕ) (done : List (CString × Json)) (h : JsonHeap) :
    Prop where
  apart : JsonApart h₀ h
  new : h₀.cells res = none
  copy : ∃ map, h.cells res = some (.object map) ∧
    JsonMembersIn (fun a => h₀.cells a = none ∧ a ≠ res) h done map.entries

/-- The copy of an array, when the items `done` are copied. -/
structure JsonArrayCopy (h₀ : JsonHeap) (res : ℕ) (done : List Json) (h : JsonHeap) : Prop where
  apart : JsonApart h₀ h
  new : h₀.cells res = none
  copy : ∃ arr, h.cells res = some (.array arr) ∧
    JsonItemsIn (fun a => h₀.cells a = none ∧ a ≠ res) h done arr

section Copies

variable {A : Allocator JsonCell} {h₀ h : JsonHeap} {res : ℕ} {item : Json} {r : JsonHeap × ℕ}

/-- The cells of a copy but the node itself stay when it is written. -/
lemma copy_update {c : JsonCell} (a : ℕ) (d : JsonCell) (ha : h₀.cells a = none ∧ a ≠ res)
    (hd : h.cells a = some d) : (h₀.cells a = none ∧ a ≠ res) ∧
      (h.update res (some c)).cells a = some d :=
  ⟨ha, by rw [Heap.update_of_ne _ ha.2, hd]⟩

lemma JsonCloned.new (hr : JsonCloned h item r) : h.cells r.2 = none := by
  cases item <;> exact hr.holds.1

/-- A later copy stands in other cells. -/
lemma JsonCloned.beside (hr : JsonCloned h item r) (hapart : JsonApart h₀ h) {c : JsonCell}
    (hres : h.cells res = some c) : JsonIn (fun a => h₀.cells a = none ∧ a ≠ res) r.1 item r.2 := by
  refine hr.holds.mono fun a d ha hd => ⟨⟨hapart.free ha, ?_⟩, hd⟩
  rintro rfl
  rw [hres] at ha
  cases ha

lemma JsonObjectCopy.put {done : List (CString × Json)} (hcopy : JsonObjectCopy h₀ res done h)
    (hr : JsonCloned h item r) {key : CString} (hkey : key ∉ done.map Prod.fst) :
    ∃ h', JsonHeap.objectPut r.1 res key r.2 = some h' ∧
      JsonObjectCopy h₀ res (done ++ [(key, item)]) h' := by
  obtain ⟨map, hmap, hall⟩ := hcopy.copy
  have hmap' := hr.apart.keeps hmap
  have hitem := hr.beside hcopy.apart hmap
  have hfresh : key ∉ map.keys := fun hmem => hkey (hall.keys ▸ hmem)
  have hnone : map.get key = none := by
    by_contra hget
    exact hfresh (OrderedMap.mem_keys_iff.mpr hget)
  have hapart := hcopy.apart.trans hr.apart
  refine ⟨r.1.update res (some (.object (map.put key r.2))), ?_, ?_, hcopy.new, map.put key r.2,
    Heap.update_self _ _ _, ?_⟩
  · rw [JsonHeap.objectPut, hmap']
    simp only [hnone]
  · refine hapart.update hcopy.new fun d hd p hp => ?_
    obtain rfl := Option.some.inj hd
    rcases JsonCell.pointers_put hp with hp | rfl
    · exact hapart.closed hcopy.new hmap' p hp
    · exact hcopy.apart.free hr.new
  · rw [OrderedMap.entries_put_of_notMem hfresh]
    refine ((hall.mono fun a d ha hd => ⟨ha, hr.apart.keeps hd⟩).concat hitem).mono copy_update

lemma JsonArrayCopy.add {done : List Json} (hcopy : JsonArrayCopy h₀ res done h)
    (hr : JsonCloned h item r) : ∃ h', JsonHeap.arrayAdd r.1 res r.2 = some h' ∧
      JsonArrayCopy h₀ res (done ++ [item]) h' := by
  obtain ⟨arr, harr, hall⟩ := hcopy.copy
  have harr' := hr.apart.keeps harr
  have hitem := hr.beside hcopy.apart harr
  have hapart := hcopy.apart.trans hr.apart
  refine ⟨r.1.update res (some (.array (arr ++ [r.2]))), ?_, ?_, hcopy.new, arr ++ [r.2],
    Heap.update_self _ _ _, ?_⟩
  · rw [JsonHeap.arrayAdd, harr']
  · refine hapart.update hcopy.new fun d hd p hp => ?_
    obtain rfl := Option.some.inj hd
    rcases List.mem_append.mp hp with hp | hp
    · exact hapart.closed hcopy.new harr' p hp
    · rw [List.mem_singleton.mp hp]
      exact hcopy.apart.free hr.new
  · refine ((hall.mono fun a d ha hd => ⟨ha, hr.apart.keeps hd⟩).concat hitem).mono copy_update

/-- A new node without members. -/
lemma objectCreate_copy (A : Allocator JsonCell) (h : JsonHeap) :
    JsonObjectCopy h (JsonHeap.objectCreate A h).2 [] (JsonHeap.objectCreate A h).1 := by
  have hrefl : JsonApart h h := .refl h
  obtain ⟨hapart, hnone⟩ := hrefl.alloc A (c := .object .empty)
    (by simp [JsonCell.pointers, OrderedMap.empty])
  exact ⟨hapart, hnone, .empty, Heap.update_self _ _ _, rfl⟩

lemma arrayCreate_copy (A : Allocator JsonCell) (h : JsonHeap) :
    JsonArrayCopy h (JsonHeap.arrayCreate A h).2 [] (JsonHeap.arrayCreate A h).1 := by
  have hrefl : JsonApart h h := .refl h
  obtain ⟨hapart, hnone⟩ := hrefl.alloc A (c := .array []) (by simp [JsonCell.pointers])
  exact ⟨hapart, hnone, [], Heap.update_self _ _ _, rfl⟩

lemma JsonObjectCopy.cloned {done : List (CString × Json)} (hcopy : JsonObjectCopy h₀ res done h) :
    JsonCloned h₀ (.object done) (h, res) := by
  obtain ⟨map, hmap, hall⟩ := hcopy.copy
  exact ⟨hcopy.apart, hcopy.new, map, hmap, hall.mono fun _ _ ha hd => ⟨ha.1, hd⟩⟩

lemma JsonArrayCopy.cloned {done : List Json} (hcopy : JsonArrayCopy h₀ res done h) :
    JsonCloned h₀ (.array done) (h, res) := by
  obtain ⟨arr, harr, hall⟩ := hcopy.copy
  exact ⟨hcopy.apart, hcopy.new, arr, harr, hall.mono fun _ _ ha hd => ⟨ha.1, hd⟩⟩

/-- The copy of a value has a string of its own. -/
lemma valueClone_cloned {type : JsonValueType} {data : ℕ} {text : CString}
    (htext : h.cells data = some (.string text)) :
    ∃ r, JsonHeap.valueClone A h type data = some r ∧ JsonCloned h (.value type text) r := by
  obtain ⟨p, hp⟩ : ∃ p, p = A.pick h := ⟨_, rfl⟩
  obtain ⟨h₁, hh₁⟩ : ∃ h₁, h₁ = h.update p (some (.value type data)) := ⟨_, rfl⟩
  obtain ⟨q, hq⟩ : ∃ q, q = A.pick h₁ := ⟨_, rfl⟩
  have hpnone : h.cells p = none := hp ▸ A.pick_free h
  have hqnone₁ : h₁.cells q = none := hq ▸ A.pick_free h₁
  have hne : q ≠ p := by
    rintro rfl
    rw [hh₁, Heap.update_self] at hqnone₁
    cases hqnone₁
  have hqnone : h.cells q = none := by
    rwa [hh₁, Heap.update_of_ne _ hne] at hqnone₁
  have hdata : h₁.cells data = some (.string text) := by
    rw [hh₁, Heap.update_of_ne, htext]
    rintro rfl
    rw [hpnone] at htext
    cases htext
  refine ⟨((h₁.update q (some (.string text))).update p (some (.value type q)), p), ?_, ?_, ?_⟩
  · rw [JsonHeap.valueClone, Heap.alloc, ← hp, ← hh₁]
    simp only [hdata, Heap.alloc, ← hq]
  · have hcells {a : ℕ} (hap : a ≠ p) (haq : a ≠ q) :
        ((h₁.update q (some (.string text))).update p (some (.value type q))).cells a = h.cells a := by
      rw [Heap.update_of_ne _ hap, Heap.update_of_ne _ haq, hh₁, Heap.update_of_ne _ hap]
    refine ⟨fun {a c} hc => ?_, fun {a c} hnone hc => ?_⟩
    · rw [hcells, hc]
      · rintro rfl
        rw [hpnone] at hc
        cases hc
      · rintro rfl
        rw [hqnone] at hc
        cases hc
    · by_cases hap : a = p
      · rw [hap, Heap.update_self] at hc
        obtain rfl := Option.some.inj hc
        simpa [JsonCell.pointers] using hqnone
      · rw [Heap.update_of_ne _ hap] at hc
        by_cases haq : a = q
        · rw [haq, Heap.update_self] at hc
          obtain rfl := Option.some.inj hc
          simp [JsonCell.pointers]
        · rw [Heap.update_of_ne _ haq, hh₁, Heap.update_of_ne _ hap, hnone] at hc
          cases hc
  · refine ⟨hpnone, q, hqnone, Heap.update_self _ _ _, ?_⟩
    rw [Heap.update_of_ne _ hne, Heap.update_self]

mutual

/-- A copy of a tree is the same tree, in new cells. -/
lemma clone_cloned (A : Allocator JsonCell) {P : ℕ → Prop} : ∀ {json : Json} {h : JsonHeap}
    {a fuel : ℕ}, JsonIn P h json a → json.height ≤ fuel →
    ∃ r, JsonHeap.clone A fuel h a = some r ∧ JsonCloned h json r
  | json, _, _, 0, _, hle => by cases json <;> simp [Json.height] at hle
  | .value type text, h, a, fuel + 1, ⟨_, data, _, hnode, htext⟩, _ => by
      rw [JsonHeap.clone, hnode]
      exact valueClone_cloned htext
  | .object entries, h, a, fuel + 1, ⟨_, map, hnode, hall⟩, hle => by
      rw [JsonHeap.clone, hnode]
      have hnodup : ([] ++ entries.map Prod.fst).Nodup := by
        rw [List.nil_append, hall.keys]
        exact map.nodup
      obtain ⟨h', hloop, hcopy⟩ := membersClone_copy A hall (Nat.le_of_succ_le_succ hle)
        (objectCreate_copy A h) hnodup
      refine ⟨(h', (JsonHeap.objectCreate A h).2), ?_, hcopy.cloned⟩
      simp only [JsonHeap.objectClone, hloop, Option.map_some]
  | .array items, h, a, fuel + 1, ⟨_, arr, hnode, hall⟩, hle => by
      rw [JsonHeap.clone, hnode]
      obtain ⟨h', hloop, hcopy⟩ := itemsClone_copy A hall (Nat.le_of_succ_le_succ hle)
        (arrayCreate_copy A h)
      refine ⟨(h', (JsonHeap.arrayCreate A h).2), ?_, hcopy.cloned⟩
      simp only [JsonHeap.arrayClone, hloop, Option.map_some]

/-- The loop over the members. -/
lemma membersClone_copy (A : Allocator JsonCell) {P : ℕ → Prop} {h₀ : JsonHeap} :
    ∀ {entries : List (CString × Json)} {pairs : List (CString × ℕ)} {fuel : ℕ} {h : JsonHeap}
      {res : ℕ} {done : List (CString × Json)}, JsonMembersIn P h₀ entries pairs →
    Json.membersHeight entries ≤ fuel → JsonObjectCopy h₀ res done h →
    (done.map Prod.fst ++ entries.map Prod.fst).Nodup →
    ∃ h', pairs.foldlM (fun h pair => (JsonHeap.clone A fuel h pair.2).bind fun r =>
        JsonHeap.objectPut r.1 res pair.1 r.2) h = some h' ∧
      JsonObjectCopy h₀ res (done ++ entries) h'
  | [], pairs, fuel, h, res, done, hall, _, hcopy, _ => by
      obtain rfl : pairs = [] := hall
      exact ⟨h, rfl, by rwa [List.append_nil]⟩
  | (key, item) :: entries, pairs, fuel, h, res, done, ⟨a, pairs', heq, hitem, hall⟩, hle, hcopy,
      hnodup => by
      obtain ⟨hle, hle'⟩ := max_le_iff.mp hle
      have hstill : JsonIn (fun _ => True) h item a :=
        hitem.mono fun b c _ hc => ⟨trivial, hcopy.apart.keeps hc⟩
      obtain ⟨r, hr, hcloned⟩ := clone_cloned A hstill hle
      have hkey : key ∉ done.map Prod.fst := fun hmem =>
        List.disjoint_of_nodup_append hnodup hmem (by simp)
      obtain ⟨h₁, hput, hcopy₁⟩ := hcopy.put hcloned hkey
      obtain ⟨h', hloop, hcopy'⟩ := membersClone_copy A hall hle' hcopy₁ (by simpa using hnodup)
      refine ⟨h', ?_, by simpa using hcopy'⟩
      rw [heq, List.foldlM_cons, hr, Option.bind_some, hput]
      exact hloop

/-- The loop over the items. -/
lemma itemsClone_copy (A : Allocator JsonCell) {P : ℕ → Prop} {h₀ : JsonHeap} :
    ∀ {items : List Json} {arr : List ℕ} {fuel : ℕ} {h : JsonHeap} {res : ℕ} {done : List Json},
    JsonItemsIn P h₀ items arr → Json.itemsHeight items ≤ fuel → JsonArrayCopy h₀ res done h →
    ∃ h', arr.foldlM (fun h item => (JsonHeap.clone A fuel h item).bind fun r =>
        JsonHeap.arrayAdd r.1 res r.2) h = some h' ∧
      JsonArrayCopy h₀ res (done ++ items) h'
  | [], arr, fuel, h, res, done, hall, _, hcopy => by
      obtain rfl : arr = [] := hall
      exact ⟨h, rfl, by rwa [List.append_nil]⟩
  | item :: items, arr, fuel, h, res, done, ⟨a, arr', heq, hitem, hall⟩, hle, hcopy => by
      obtain ⟨hle, hle'⟩ := max_le_iff.mp hle
      have hstill : JsonIn (fun _ => True) h item a :=
        hitem.mono fun b c _ hc => ⟨trivial, hcopy.apart.keeps hc⟩
      obtain ⟨r, hr, hcloned⟩ := clone_cloned A hstill hle
      obtain ⟨h₁, hadd, hcopy₁⟩ := hcopy.add hcloned
      obtain ⟨h', hloop, hcopy'⟩ := itemsClone_copy A hall hle' hcopy₁
      refine ⟨h', ?_, by simpa using hcopy'⟩
      rw [heq, List.foldlM_cons, hr, Option.bind_some, hadd]
      exact hloop

end

/-- A value stands somewhere beside what the memory holds. -/
lemma exists_valueCloned (A : Allocator JsonCell) (h : JsonHeap) (type : JsonValueType)
    (text : CString) : ∃ r, JsonCloned h (.value type text) r := by
  have hrefl : JsonApart h h := .refl h
  obtain ⟨hapart, hnone⟩ := hrefl.alloc A (c := .string text) (by simp [JsonCell.pointers])
  have hcopy : ∃ r, JsonHeap.valueClone A (h.alloc A (.string text)).1 type (A.pick h) = some r ∧
      JsonCloned (h.alloc A (.string text)).1 (.value type text) r :=
    valueClone_cloned (Heap.update_self _ _ _)
  obtain ⟨r, -, hr⟩ := hcopy
  exact ⟨r, hapart.trans hr.apart, hr.holds.mono fun a _ ha hc => ⟨hapart.free ha, hc⟩⟩

/-- A tree whose objects name each member once stands somewhere beside what the memory holds. -/
lemma JsonWellFormed.exists_cloned (A : Allocator JsonCell) {json : Json}
    (hjson : JsonWellFormed json) (h : JsonHeap) : ∃ r, JsonCloned h json r := by
  induction hjson generalizing h with
  | long n hn => exact exists_valueCloned A h _ _
  | string s => exact exists_valueCloned A h _ _
  | boolean b => exact exists_valueCloned A h _ _
  | null => exact exists_valueCloned A h _ _
  | @array items hitems ih =>
      have hloop : ∀ (rest done : List Json) (h' : JsonHeap), done ++ rest = items →
          JsonArrayCopy h (JsonHeap.arrayCreate A h).2 done h' →
          ∃ h', JsonArrayCopy h (JsonHeap.arrayCreate A h).2 items h' := by
        intro rest
        induction rest with
        | nil => exact fun done h' heq hcopy => ⟨h', by rwa [← heq, List.append_nil]⟩
        | cons item rest ihrest =>
            intro done h' heq hcopy
            obtain ⟨r, hr⟩ := ih item (heq ▸ by simp) h'
            obtain ⟨h₁, -, hcopy₁⟩ := hcopy.add hr
            exact ihrest (done ++ [item]) h₁ (by simpa using heq) hcopy₁
      obtain ⟨h', hcopy⟩ := hloop items [] _ rfl (arrayCreate_copy A h)
      exact ⟨_, hcopy.cloned⟩
  | @object entries hnodup hentries ih =>
      have hloop : ∀ (rest done : List (CString × Json)) (h' : JsonHeap), done ++ rest = entries →
          JsonObjectCopy h (JsonHeap.objectCreate A h).2 done h' →
          ∃ h', JsonObjectCopy h (JsonHeap.objectCreate A h).2 entries h' := by
        intro rest
        induction rest with
        | nil => exact fun done h' heq hcopy => ⟨h', by rwa [← heq, List.append_nil]⟩
        | cons e rest ihrest =>
            intro done h' heq hcopy
            obtain ⟨r, hr⟩ := ih e (heq ▸ by simp) h'
            have hkey : e.1 ∉ done.map Prod.fst := fun hmem => by
              rw [← heq, List.map_append] at hnodup
              exact List.disjoint_of_nodup_append hnodup hmem (by simp)
            obtain ⟨h₁, -, hcopy₁⟩ := hcopy.put hr hkey
            exact ihrest (done ++ [e]) h₁ (by simpa using heq) hcopy₁
      obtain ⟨h', hcopy⟩ := hloop entries [] _ rfl (objectCreate_copy A h)
      exact ⟨_, hcopy.cloned⟩

/-- Each tree that the interface builds stands in some memory. -/
lemma JsonBuilt.exists_holds {json : Json} (hjson : JsonBuilt json) :
    ∃ h a, JsonHeap.Holds h json a := by
  obtain ⟨r, hr⟩ := hjson.wellFormed.exists_cloned Allocator.atTop .empty
  exact ⟨r.1, r.2, hr.holds.mono fun _ _ _ hc => ⟨trivial, hc⟩⟩

end Copies

/-! ### Calls -/

section Calls

variable {A : Allocator JsonCell} {h₀ h h' : JsonHeap} {a : ℕ}

lemma valueCreate_apart (hapart : JsonApart h₀ h) :
    JsonApart h₀ (JsonHeap.valueCreate A h).1 ∧
      h₀.cells (JsonHeap.valueCreate A h).2 = none := by
  obtain ⟨hstring, hdata⟩ := hapart.alloc A (c := .string .empty) (by simp [JsonCell.pointers])
  exact hstring.alloc A (c := .value .long _) (by simpa [JsonCell.pointers] using hdata)

lemma valueSetBase_apart (hapart : JsonApart h₀ h) (ha : h₀.cells a = none) {buf : CString}
    {type : JsonValueType} (hset : JsonHeap.valueSetBase h a buf type = some h') :
    JsonApart h₀ h' := by
  rw [JsonHeap.valueSetBase] at hset
  split at hset
  · rename_i t data hnode
    have hdata : h₀.cells data = none := hapart.closed ha hnode data List.mem_cons_self
    split at hset
    · obtain rfl := Option.some.inj hset
      refine (hapart.update hdata fun d hd => ?_).update ha fun d hd => ?_
      · obtain rfl := Option.some.inj hd
        simp [JsonCell.pointers]
      · obtain rfl := Option.some.inj hd
        simpa [JsonCell.pointers] using hdata
    · cases hset
  · cases hset

/-- Destroying nodes that are apart, one after the other. -/
lemma foldlM_apart {f : JsonHeap → ℕ → Option JsonHeap}
    (hf : ∀ {h h' : JsonHeap} {a : ℕ}, JsonApart h₀ h → h₀.cells a = none → f h a = some h' →
      JsonApart h₀ h') {nodes : List ℕ} (hnodes : ∀ a ∈ nodes, h₀.cells a = none)
    (hapart : JsonApart h₀ h) (hfold : nodes.foldlM f h = some h') : JsonApart h₀ h' := by
  induction nodes generalizing h with
  | nil =>
      obtain rfl := Option.some.inj hfold
      exact hapart
  | cons a nodes ih =>
      obtain ⟨ha, hnodes⟩ := List.forall_mem_cons.mp hnodes
      rw [List.foldlM_cons] at hfold
      obtain ⟨h₁, h₂, hfold⟩ := Option.bind_eq_some_iff.mp hfold
      exact ih hnodes (hf hapart ha h₂) hfold

lemma destroy_apart {fuel : ℕ} (hapart : JsonApart h₀ h) (ha : h₀.cells a = none)
    (hdestroy : JsonHeap.destroy fuel h a = some h') : JsonApart h₀ h' := by
  induction fuel generalizing h h' a with
  | zero => cases hdestroy
  | succ fuel ih =>
      rw [JsonHeap.destroy] at hdestroy
      split at hdestroy
      · rename_i type data hnode
        obtain ⟨h₁, h₂, h₃⟩ := Option.bind_eq_some_iff.mp hdestroy
        have hdata : h₀.cells data = none := hapart.closed ha hnode data List.mem_cons_self
        exact (hapart.release hdata h₂).release ha h₃
      · rename_i map hnode
        obtain ⟨h₁, h₂, h₃⟩ := Option.bind_eq_some_iff.mp hdestroy
        exact (foldlM_apart ih (hapart.closed ha hnode) hapart h₂).release ha h₃
      · rename_i arr hnode
        obtain ⟨h₁, h₂, h₃⟩ := Option.bind_eq_some_iff.mp hdestroy
        exact (foldlM_apart ih (hapart.closed ha hnode) hapart h₂).release ha h₃
      · cases hdestroy

lemma objectPut_apart {key : CString} {json : ℕ} (hapart : JsonApart h₀ h)
    (ha : h₀.cells a = none) (hjson : h₀.cells json = none)
    (hput : JsonHeap.objectPut h a key json = some h') : JsonApart h₀ h' := by
  rw [JsonHeap.objectPut] at hput
  split at hput
  · rename_i map hnode
    have hpoint := hapart.closed ha hnode
    have hapart' : JsonApart h₀ (h.update a (some (.object (map.put key json)))) := by
      refine hapart.update ha fun d hd p hp => ?_
      obtain rfl := Option.some.inj hd
      rcases JsonCell.pointers_put hp with hp | rfl
      · exact hpoint p hp
      · exact hjson
    split at hput
    · rename_i prev hprev
      exact destroy_apart hapart'
        (hpoint prev (List.mem_map_of_mem (OrderedMap.get_eq_some_iff.mp hprev))) hput
    · obtain rfl := Option.some.inj hput
      exact hapart'
  · cases hput

lemma objectRemove_apart {key : CString} {r : JsonHeap × Option ℕ} (hapart : JsonApart h₀ h)
    (ha : h₀.cells a = none) (hremove : JsonHeap.objectRemove h a key = some r) :
    JsonApart h₀ r.1 ∧ ∀ item ∈ r.2, h₀.cells item = none := by
  rw [JsonHeap.objectRemove] at hremove
  split at hremove
  · rename_i map hnode
    obtain rfl := Option.some.inj hremove
    have hpoint := hapart.closed ha hnode
    refine ⟨hapart.update ha fun d hd p hp => ?_, fun item hitem => ?_⟩
    · obtain rfl := Option.some.inj hd
      exact hpoint p (JsonCell.pointers_erase hp)
    · exact hpoint item (List.mem_map_of_mem (OrderedMap.get_eq_some_iff.mp hitem))
  · cases hremove

lemma objectDelete_apart {key : CString} (hapart : JsonApart h₀ h) (ha : h₀.cells a = none)
    (hdelete : JsonHeap.objectDelete h a key = some h') : JsonApart h₀ h' := by
  obtain ⟨r, hremove, hdelete⟩ := Option.bind_eq_some_iff.mp hdelete
  obtain ⟨hapart', hitem⟩ := objectRemove_apart hapart ha hremove
  obtain ⟨h₁, _ | item⟩ := r
  · obtain rfl := Option.some.inj hdelete
    exact hapart'
  · exact destroy_apart hapart' (hitem item rfl) hdelete

lemma arrayAdd_apart {json : ℕ} (hapart : JsonApart h₀ h) (ha : h₀.cells a = none)
    (hjson : h₀.cells json = none) (hadd : JsonHeap.arrayAdd h a json = some h') :
    JsonApart h₀ h' := by
  rw [JsonHeap.arrayAdd] at hadd
  split at hadd
  · rename_i arr hnode
    obtain rfl := Option.some.inj hadd
    refine hapart.update ha fun d hd p hp => ?_
    obtain rfl := Option.some.inj hd
    rcases List.mem_append.mp hp with hp | hp
    · exact hapart.closed ha hnode p hp
    · rw [List.mem_singleton.mp hp]
      exact hjson
  · cases hadd

lemma arrayRemove_apart {index : ℕ} {r : JsonHeap × Option ℕ} (hapart : JsonApart h₀ h)
    (ha : h₀.cells a = none) (hremove : JsonHeap.arrayRemove h a index = some r) :
    JsonApart h₀ r.1 ∧ ∀ item ∈ r.2, h₀.cells item = none := by
  rw [JsonHeap.arrayRemove] at hremove
  split at hremove
  · rename_i arr hnode
    obtain rfl := Option.some.inj hremove
    have hpoint := hapart.closed ha hnode
    refine ⟨hapart.update ha fun d hd p hp => ?_, fun item hitem => ?_⟩
    · obtain rfl := Option.some.inj hd
      exact hpoint p (List.mem_of_mem_eraseIdx hp)
    · exact hpoint item (List.mem_of_getElem? hitem)
  · cases hremove

lemma arrayDelete_apart {index : ℕ} (hapart : JsonApart h₀ h) (ha : h₀.cells a = none)
    (hdelete : JsonHeap.arrayDelete h a index = some h') : JsonApart h₀ h' := by
  obtain ⟨r, hremove, hdelete⟩ := Option.bind_eq_some_iff.mp hdelete
  obtain ⟨hapart', hitem⟩ := arrayRemove_apart hapart ha hremove
  obtain ⟨h₁, _ | item⟩ := r
  · cases hdelete
  · exact destroy_apart hapart' (hitem item rfl) hdelete

lemma valueOf_apart {setter : JsonSetter} {r : JsonHeap × ℕ} (hapart : JsonApart h₀ h)
    (hvalue : JsonHeap.valueOf A h setter = some r) : JsonApart h₀ r.1 ∧ h₀.cells r.2 = none := by
  obtain ⟨hcreate, hnone⟩ := valueCreate_apart (A := A) hapart
  obtain ⟨h₁, hset, rfl⟩ := Option.map_eq_some_iff.mp hvalue
  exact ⟨valueSetBase_apart hcreate hnone hset, hnone⟩

/-- A call that is given new nodes only leaves what the memory held. -/
lemma call_apart {call : JsonCall} (hapart : JsonApart h₀ h)
    (hnodes : ∀ a ∈ call.nodes, h₀.cells a = none) (hcall : JsonHeap.call A h call = some h') :
    JsonApart h₀ h' := by
  cases call with
  | valueCreate =>
      obtain rfl := Option.some.inj hcall
      exact (valueCreate_apart hapart).1
  | objectCreate =>
      obtain rfl := Option.some.inj hcall
      exact (hapart.alloc A (by simp [JsonCell.pointers, OrderedMap.empty])).1
  | arrayCreate =>
      obtain rfl := Option.some.inj hcall
      exact (hapart.alloc A (by simp [JsonCell.pointers])).1
  | set jval setter => exact valueSetBase_apart hapart (hnodes jval (by simp [JsonCall.nodes])) hcall
  | put jobj key json =>
      exact objectPut_apart hapart (hnodes jobj (by simp [JsonCall.nodes]))
        (hnodes json (by simp [JsonCall.nodes])) hcall
  | putValue jobj key setter =>
      obtain ⟨r, hvalue, hput⟩ := Option.bind_eq_some_iff.mp hcall
      obtain ⟨hapart', hnone⟩ := valueOf_apart hapart hvalue
      exact objectPut_apart hapart' (hnodes jobj (by simp [JsonCall.nodes])) hnone hput
  | remove jobj key =>
      obtain ⟨r, hremove, rfl⟩ := Option.map_eq_some_iff.mp hcall
      exact (objectRemove_apart hapart (hnodes jobj (by simp [JsonCall.nodes])) hremove).1
  | delete jobj key => exact objectDelete_apart hapart (hnodes jobj (by simp [JsonCall.nodes])) hcall
  | add jarr json =>
      exact arrayAdd_apart hapart (hnodes jarr (by simp [JsonCall.nodes]))
        (hnodes json (by simp [JsonCall.nodes])) hcall
  | addValue jarr setter =>
      obtain ⟨r, hvalue, hadd⟩ := Option.bind_eq_some_iff.mp hcall
      obtain ⟨hapart', hnone⟩ := valueOf_apart hapart hvalue
      exact arrayAdd_apart hapart' (hnodes jarr (by simp [JsonCall.nodes])) hnone hadd
  | removeAt jarr index =>
      obtain ⟨r, hremove, rfl⟩ := Option.map_eq_some_iff.mp hcall
      exact (arrayRemove_apart hapart (hnodes jarr (by simp [JsonCall.nodes])) hremove).1
  | deleteAt jarr index =>
      exact arrayDelete_apart hapart (hnodes jarr (by simp [JsonCall.nodes])) hcall
  | destroy json => exact destroy_apart hapart (hnodes json (by simp [JsonCall.nodes])) hcall

/-- The same of any number of calls. -/
lemma calls_apart (hapart : JsonApart h₀ h)
    (hrun : (jsonCalls A h).ReachableBy (fun _ call => ∀ a ∈ call.nodes, h₀.cells a = none) h') :
    JsonApart h₀ h' :=
  hrun.invariant (fun _ hs => hs ▸ hapart)
    fun _ _ _ hapart hnodes hstep => call_apart hapart hnodes hstep

end Calls

end LibCmutils
