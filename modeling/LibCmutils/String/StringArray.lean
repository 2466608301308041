import LibCmutils.Array.Unsorted
import LibCmutils.Lib.CString
import Mathlib.Logic.Function.Basic

/-!
Arrays of strings (`CMUTIL_StringArray`, `src/strings.c`), and who owns the strings.

* `StringWorld`: the strings a program makes, by their numbers, an array of them, and the
  strings that the caller has.
* `stringArrayAdd`, `stringArrayInsertAt`, `stringArraySetAt`, `stringArrayRemoveAt`, the
  variants that make a string of a C string, and `stringArrayDestroy`.
* `StringArrayOp`, `StringWorld.step`: the calls of a caller that only passes, changes and
  destroys strings that it has. What a call returns is the caller's, and so is what
  `InsertAt` or `SetAt` refuses. `Add` returns nothing: a string it has no room for is lost.
* `stringArraySpec`: what a call means for the list of the texts in the array.
* `StringArrayInv`: each string is in one place.

The main result is `stringArray_owned`. Memory for a string is there; the array may fail to grow,
and has less than `2 ^ 60` cells.
-/

namespace LibCmutils

/-- Strings and an array of strings. A string is its number, in the order in which they are made.
`lost` are the strings that nobody has any more. -/
structure StringWorld where
  array : ArrayInternal ℕ
  texts : ℕ → List UInt8
  next : ℕ
  held : List ℕ
  destroyed : List ℕ
  lost : List ℕ

namespace StringWorld

/-- `CMUTIL_StringArrayCreateInternal`, before any string is made. -/
def create (initcapacity : ℕ) : StringWorld where
  array := arrayCreateInternal initcapacity none false false
  texts := fun _ => []
  next := 0
  held := []
  destroyed := []
  lost := []

variable (w : StringWorld)

/-- `CMUTIL_StringCreateEx`. The new string is `w.next`. -/
def newString (text : List UInt8) : StringWorld :=
  { w with texts := Function.update w.texts w.next text, next := w.next + 1 }

/-- `CMUTIL_StringDestroy`. -/
def destroyString (string : ℕ) : StringWorld :=
  { w with destroyed := w.destroyed ++ [string] }

end StringWorld

/-- `CMUTIL_StringArrayAdd`. The result of `Add` is not looked at. -/
def stringArrayAdd (alloc : Bool) (w : StringWorld) (string : ℕ) : Option StringWorld :=
  (arrayAdd alloc w.array string false).map fun r =>
    { w with array := r.1, lost := w.lost ++ if r.2.result then [] else [string] }

/-- `CMUTIL_StringArrayAddCString`. -/
def stringArrayAddCString (alloc : Bool) (w : StringWorld) (text : CString) :
    Option StringWorld :=
  stringArrayAdd alloc (w.newString text.1) w.next

/-- `CMUTIL_StringArrayInsertAt`. -/
def stringArrayInsertAt (alloc : Bool) (w : StringWorld) (string index : ℕ) :
    StringWorld × Bool :=
  let r := arrayInsertAt alloc w.array string index
  ({ w with array := r.1 }, r.2.isSome)

/-- `CMUTIL_StringArrayInsertAtCString`. -/
def stringArrayInsertAtCString (alloc : Bool) (w : StringWorld) (text : CString)
    (index : ℕ) : StringWorld × Bool :=
  let r := stringArrayInsertAt alloc (w.newString text.1) w.next index
  if r.2 then r else (r.1.destroyString w.next, false)

/-- `CMUTIL_StringArrayRemoveAt`. -/
def stringArrayRemoveAt (w : StringWorld) (index : ℕ) : StringWorld × Option ℕ :=
  let r := arrayRemoveAt w.array index
  ({ w with array := r.1 }, r.2)

/-- `CMUTIL_StringArraySetAt`. -/
def stringArraySetAt (w : StringWorld) (string index : ℕ) : StringWorld × Option ℕ :=
  let r := arraySetAt w.array string index
  ({ w with array := r.1 }, r.2)

/-- `CMUTIL_StringArraySetAtCString`. -/
def stringArraySetAtCString (w : StringWorld) (text : CString) (index : ℕ) :
    StringWorld × Option ℕ :=
  let r := stringArraySetAt (w.newString text.1) w.next index
  if r.2.isNone then (r.1.destroyString w.next, none) else r

/-- `CMUTIL_StringArrayGetCString`, over `CMUTIL_StringArrayGetAt`. -/
def stringArrayGetCString (w : StringWorld) (index : ℕ) : Option (List UInt8) :=
  (arrayGetAt w.array index).map w.texts

/-- The loop of `CMUTIL_StringArrayDestroy`. A call through the `NULL` that `Pop` may return has
no result. -/
def stringArrayDestroyLoop : ℕ → StringWorld → Option StringWorld
  | 0, _ => none
  | fuel + 1, w =>
      if 0 < arrayGetSize w.array then
        let r := arrayPop w.array
        r.2.bind fun item =>
          stringArrayDestroyLoop fuel (StringWorld.destroyString { w with array := r.1 } item)
      else some w

/-- `CMUTIL_StringArrayDestroy`, up to the array without strings. -/
def stringArrayDestroy (w : StringWorld) : Option StringWorld :=
  stringArrayDestroyLoop (arrayGetSize w.array + 1) w

/-- A call of the caller; `alloc` is the answer of the allocator when the array grows. -/
inductive StringArrayOp where
  | create (text : List UInt8)
  | write (string : ℕ) (text : List UInt8)
  | destroy (string : ℕ)
  | add (string : ℕ) (alloc : Bool)
  | addCString (text : CString) (alloc : Bool)
  | insertAt (string index : ℕ) (alloc : Bool)
  | insertAtCString (text : CString) (index : ℕ) (alloc : Bool)
  | removeAt (index : ℕ)
  | setAt (string index : ℕ)
  | setAtCString (text : CString) (index : ℕ)

namespace StringWorld

/-- The caller gives a string away. -/
def giveUp (w : StringWorld) (string : ℕ) : StringWorld :=
  { w with held := w.held.erase string }

@[simp] lemma array_giveUp (w : StringWorld) (string : ℕ) :
    (w.giveUp string).array = w.array := rfl

@[simp] lemma array_newString (w : StringWorld) (text : List UInt8) :
    (w.newString text).array = w.array := rfl

/-- The caller gets a string, if there is one. -/
def receive (w : StringWorld) (string : Option ℕ) : StringWorld :=
  { w with held := w.held ++ string.toList }

/-- One call. The caller passes, changes and destroys what it has. -/
def step (w : StringWorld) : StringArrayOp → Option StringWorld
  | .create text => some ((w.newString text).receive (some w.next))
  | .write string text =>
      if string ∈ w.held then some { w with texts := Function.update w.texts string text }
      else none
  | .destroy string =>
      if string ∈ w.held then some ((w.giveUp string).destroyString string) else none
  | .add string alloc =>
      if string ∈ w.held then stringArrayAdd alloc (w.giveUp string) string else none
  | .addCString text alloc => stringArrayAddCString alloc w text
  | .insertAt string index alloc =>
      if string ∈ w.held then
        let r := stringArrayInsertAt alloc (w.giveUp string) string index
        some (if r.2 then r.1 else r.1.receive (some string))
      else none
  | .insertAtCString text index alloc => some (stringArrayInsertAtCString alloc w text index).1
  | .removeAt index =>
      let r := stringArrayRemoveAt w index
      some (r.1.receive r.2)
  | .setAt string index =>
      if string ∈ w.held then
        let r := stringArraySetAt (w.giveUp string) string index
        some (r.1.receive (if r.2.isSome then r.2 else some string))
      else none
  | .setAtCString text index =>
      let r := stringArraySetAtCString w text index
      some (r.1.receive r.2)

/-- Calls, one after the other. -/
def run : StringWorld → List StringArrayOp → Option StringWorld
  | w, [] => some w
  | w, op :: ops => (w.step op).bind fun w' => run w' ops

end StringWorld

/-- What a call means for the texts `l` in the array. -/
def stringArraySpec (w : StringWorld) (l : List (List UInt8)) :
    StringArrayOp → List (List UInt8)
  | .create _ | .write _ _ | .destroy _ => l
  | .add string alloc => if arrayRoom w.array alloc then l ++ [w.texts string] else l
  | .addCString text alloc => if arrayRoom w.array alloc then l ++ [text.1] else l
  | .insertAt string index alloc =>
      if arrayRoom w.array alloc ∧ index ≤ l.length then l.insertIdx index (w.texts string) else l
  | .insertAtCString text index alloc =>
      if arrayRoom w.array alloc ∧ index ≤ l.length then l.insertIdx index text.1 else l
  | .removeAt index => l.eraseIdx index
  | .setAt string index => l.set index (w.texts string)
  | .setAtCString text index => l.set index text.1

/-! ### Who has a string -/

section Invariant

variable {w w' : StringWorld} {items hand : List ℕ} {string index : ℕ} {text : List UInt8}

/-- How many places a string is in: in the array, with the caller, destroyed, lost, or in the hand
of the call that runs. -/
def StringWorld.places (w : StringWorld) (items hand : List ℕ) (s : ℕ) : ℕ :=
  items.count s + w.held.count s + w.destroyed.count s + w.lost.count s + hand.count s

/-- The array holds `items`, and each string that was made is in one place. -/
structure StringArrayInv (w : StringWorld) (items hand : List ℕ) : Prop where
  holds : Holds w.array items
  unsorted : w.array.issorted = false
  once : ∀ s, w.places items hand s = if s < w.next then 1 else 0

lemma count_string_cons (string : ℕ) (items : List ℕ) (s : ℕ) :
    (string :: items).count s = items.count s + [string].count s := by
  rw [add_comm, ← List.count_append]
  rfl

lemma count_erase_add (h : string ∈ items) (s : ℕ) :
    (items.erase string).count s + [string].count s = items.count s := by
  rw [(List.perm_cons_erase h).count_eq s]
  exact (count_string_cons string (items.erase string) s).symm

lemma count_insertIdx (h : index ≤ items.length) (s : ℕ) :
    (items.insertIdx index string).count s = items.count s + [string].count s := by
  rw [(List.perm_insertIdx string items h).count_eq s, count_string_cons]

lemma count_eraseIdx_add (h : index < items.length) (s : ℕ) :
    (items.eraseIdx index).count s + [items[index]].count s = items.count s := by
  rw [← (List.getElem_cons_eraseIdx_perm h).count_eq s]
  exact (count_string_cons items[index] (items.eraseIdx index) s).symm

lemma count_set_add (string : ℕ) (h : index < items.length) (s : ℕ) :
    (items.set index string).count s + [items[index]].count s =
      items.count s + [string].count s := by
  rw [(List.set_perm_cons_eraseIdx h string).count_eq s, count_string_cons,
    ← count_eraseIdx_add h s, Nat.add_right_comm]

namespace StringArrayInv

lemma create (initcapacity : ℕ) : StringArrayInv (.create initcapacity) [] [] :=
  ⟨.create _ _ _ _, rfl, fun s => by simp [StringWorld.create, StringWorld.places]⟩

/-- Strings move from place to place. -/
lemma move {items' hand' : List ℕ} (h : StringArrayInv w items hand)
    (hholds : Holds w'.array items') (hunsorted : w'.array.issorted = false)
    (hnext : w'.next = w.next)
    (hplaces : ∀ s, w'.places items' hand' s = w.places items hand s) :
    StringArrayInv w' items' hand' :=
  ⟨hholds, hunsorted, fun s => by rw [hplaces, hnext, h.once]⟩

/-- A string in one place is in no other one. -/
lemma notMem (h : StringArrayInv w items hand) (hmem : string ∈ w.held ++ hand) :
    string ∉ items := by
  intro hitem
  have hcount := h.once string
  have hpos := List.count_pos_iff.mpr hmem
  have hpos' := List.count_pos_iff.mpr hitem
  rw [List.count_append] at hpos
  rw [StringWorld.places] at hcount
  split_ifs at hcount <;> omega

/-- A string is made. -/
lemma newString (h : StringArrayInv w items []) (text : List UInt8) :
    StringArrayInv (w.newString text) items [w.next] where
  holds := h.holds
  unsorted := h.unsorted
  once := fun s => by
    have hold : (w.newString text).places items [w.next] s =
        w.places items [] s + [w.next].count s := rfl
    have hnext : (w.newString text).next = w.next + 1 := rfl
    rw [hold, h.once, hnext]
    simp only [List.count_singleton, beq_iff_eq]
    split_ifs <;> omega

lemma texts_newString (w : StringWorld) (text : List UInt8) :
    (w.newString text).texts w.next = text := Function.update_self ..

/-- The texts of the strings in the array stay when another string changes. -/
lemma map_update (h : StringArrayInv w items hand) (hmem : string ∈ w.held ++ hand)
    (text : List UInt8) :
    items.map (Function.update w.texts string text) = items.map w.texts := by
  refine List.map_congr_left fun s hs => Function.update_of_ne ?_ _ _
  rintro rfl
  exact h.notMem hmem hs

/-- A new string is not in the array. -/
lemma map_newString (h : StringArrayInv w items []) (text : List UInt8) :
    items.map (w.newString text).texts = items.map w.texts := by
  refine List.map_congr_left fun s hs => Function.update_of_ne ?_ _ _
  rintro rfl
  exact (h.newString text).notMem (List.mem_append_right _ List.mem_cons_self) hs

/-- The caller hands a string over. -/
lemma giveUp (h : StringArrayInv w items []) (hmem : string ∈ w.held) :
    StringArrayInv (w.giveUp string) items [string] := by
  refine h.move h.holds h.unsorted rfl fun s => ?_
  have herase := count_erase_add hmem s
  simp only [StringWorld.places, StringWorld.giveUp, List.count_nil]
  omega

/-- The caller gets what is in hand. -/
lemma receive (string : Option ℕ) (h : StringArrayInv w items string.toList) :
    StringArrayInv (w.receive string) items [] := by
  refine h.move h.holds h.unsorted rfl fun s => ?_
  simp only [StringWorld.places, StringWorld.receive, List.count_append, List.count_nil]
  omega

lemma destroyString (h : StringArrayInv w items [string]) :
    StringArrayInv (w.destroyString string) items [] := by
  refine h.move h.holds h.unsorted rfl fun s => ?_
  simp only [StringWorld.places, StringWorld.destroyString, List.count_append, List.count_nil]
  omega

/-- `Add`: the string in hand is behind the others, or lost. -/
lemma add (h : StringArrayInv w items [string]) (alloc : Bool) : ∃ w',
    stringArrayAdd alloc w string = some w' ∧ w'.texts = w.texts ∧
    StringArrayInv w' (if arrayRoom w.array alloc then items ++ [string] else items) [] := by
  obtain ⟨a', hadd, hholds, hkind⟩ := arrayAdd_spec alloc h.holds h.unsorted string false
  rw [stringArrayAdd, hadd]
  refine ⟨_, rfl, rfl, h.move hholds (hkind.issorted.trans h.unsorted) rfl fun s => ?_⟩
  by_cases hroom : arrayRoom w.array alloc
  · simp only [StringWorld.places, hroom, if_true, List.append_nil, List.count_append,
      List.count_nil]
    omega
  · simp only [StringWorld.places, hroom, Bool.false_eq_true, if_false, List.count_append,
      List.count_nil]
    omega

/-- `InsertAt`: the string in hand is among the others, or still in hand. -/
lemma insertAt (h : StringArrayInv w items [string]) (alloc : Bool) (index : ℕ) :
    ∃ w', w'.texts = w.texts ∧
      (stringArrayInsertAt alloc w string index = (w', true) ∧
          (arrayRoom w.array alloc ∧ index ≤ items.length) ∧
          StringArrayInv w' (items.insertIdx index string) [] ∨
        stringArrayInsertAt alloc w string index = (w', false) ∧
          ¬ (arrayRoom w.array alloc ∧ index ≤ items.length) ∧
          StringArrayInv w' items [string]) := by
  obtain ⟨a', hins, hholds, hkind⟩ := arrayInsertAt_spec alloc h.holds h.unsorted string index
  have hunsorted := hkind.issorted.trans h.unsorted
  refine ⟨{ w with array := a' }, rfl, ?_⟩
  rw [stringArrayInsertAt, hins]
  by_cases hgood : arrayRoom w.array alloc ∧ index ≤ items.length
  · rw [if_pos hgood] at hholds ⊢
    refine .inl ⟨rfl, hgood, h.move hholds hunsorted rfl fun s => ?_⟩
    simp only [StringWorld.places, count_insertIdx hgood.2, List.count_nil]
    omega
  · rw [if_neg hgood] at hholds ⊢
    exact .inr ⟨rfl, hgood, h.move hholds hunsorted rfl fun _ => rfl⟩

/-- `RemoveAt`: the string that is returned is in hand. -/
lemma removeAt (h : StringArrayInv w items []) (index : ℕ) :
    ∃ w', stringArrayRemoveAt w index = (w', items[index]?) ∧ w'.texts = w.texts ∧
      StringArrayInv w' (items.eraseIdx index) items[index]?.toList := by
  obtain ⟨a', hrem, hholds, hkind⟩ := arrayRemoveAt_eraseIdx h.holds index
  rw [stringArrayRemoveAt, hrem]
  refine ⟨_, rfl, rfl, h.move hholds (hkind.issorted.trans h.unsorted) rfl fun s => ?_⟩
  by_cases hindex : index < items.length
  · have herase := count_eraseIdx_add hindex s
    simp only [StringWorld.places, List.getElem?_eq_getElem hindex, Option.toList_some,
      List.count_nil]
    omega
  · rw [not_lt] at hindex
    rw [List.getElem?_eq_none hindex, List.eraseIdx_of_length_le hindex]
    rfl

/-- `SetAt`: the string in hand is exchanged, or stays in hand. -/
lemma setAt (h : StringArrayInv w items [string]) (index : ℕ) :
    ∃ w', stringArraySetAt w string index = (w', items[index]?) ∧ w'.texts = w.texts ∧
      StringArrayInv w' (items.set index string) [items[index]?.getD string] := by
  obtain ⟨a', hset, hholds, hkind⟩ := arraySetAt_spec h.holds h.unsorted string index
  rw [stringArraySetAt, hset]
  refine ⟨_, rfl, rfl, h.move hholds (hkind.issorted.trans h.unsorted) rfl fun s => ?_⟩
  by_cases hindex : index < items.length
  · have hset := count_set_add string hindex s
    simp only [StringWorld.places, List.getElem?_eq_getElem hindex, Option.getD_some]
    omega
  · rw [not_lt] at hindex
    rw [List.getElem?_eq_none hindex, List.set_eq_of_length_le hindex]
    rfl

/-- One call: it does to the texts what it means, and each string stays in one place. -/
lemma step (h : StringArrayInv w items []) {op : StringArrayOp} (hs : w.step op = some w') :
    ∃ items', StringArrayInv w' items' [] ∧
      items'.map w'.texts = stringArraySpec w (items.map w.texts) op := by
  cases op with
  | create text =>
      obtain rfl := Option.some.inj hs
      exact ⟨items, (h.newString text).receive (some w.next), h.map_newString text⟩
  | write string text =>
      obtain ⟨hmem, hs⟩ := Option.ite_none_right_eq_some.mp hs
      obtain rfl := Option.some.inj hs
      refine ⟨items, h.move h.holds h.unsorted rfl fun _ => rfl, ?_⟩
      exact h.map_update (List.mem_append_left _ hmem) text
  | destroy string =>
      obtain ⟨hmem, hs⟩ := Option.ite_none_right_eq_some.mp hs
      obtain rfl := Option.some.inj hs
      exact ⟨items, (h.giveUp hmem).destroyString, rfl⟩
  | add string alloc =>
      obtain ⟨hmem, hs⟩ := Option.ite_none_right_eq_some.mp hs
      obtain ⟨w₁, hadd, htexts, hinv⟩ := (h.giveUp hmem).add alloc
      obtain rfl := Option.some.inj (hadd.symm.trans hs)
      refine ⟨_, hinv, ?_⟩
      rw [htexts, stringArraySpec, apply_ite (List.map _), List.map_append, List.map_singleton]
      rfl
  | addCString text alloc =>
      obtain ⟨w₁, hadd, htexts, hinv⟩ := (h.newString text.1).add alloc
      obtain rfl := Option.some.inj (hadd.symm.trans hs)
      refine ⟨_, hinv, ?_⟩
      rw [htexts, stringArraySpec, apply_ite (List.map _), List.map_append, List.map_singleton,
        h.map_newString, texts_newString]
      rfl
  | insertAt string index alloc =>
      obtain ⟨hmem, hs⟩ := Option.ite_none_right_eq_some.mp hs
      obtain rfl := Option.some.inj hs
      have hinserted := (h.giveUp hmem).insertAt alloc index
      rw [StringWorld.array_giveUp] at hinserted
      obtain ⟨w₁, htexts, ⟨hins, hgood, hinv⟩ | ⟨hins, hgood, hinv⟩⟩ := hinserted
      · rw [hins, stringArraySpec, List.length_map, if_pos hgood]
        refine ⟨_, hinv, ?_⟩
        rw [if_pos rfl, htexts, List.map_insertIdx]
        rfl
      · rw [hins, stringArraySpec, List.length_map, if_neg hgood]
        exact ⟨items, hinv.receive (some string), congrArg items.map htexts⟩
  | insertAtCString text index alloc =>
      obtain rfl := Option.some.inj hs
      obtain ⟨w₁, htexts, hinserted⟩ := (h.newString text.1).insertAt alloc index
      have hnew : w₁.texts w.next = text.1 := by rw [htexts, texts_newString]
      have hold : items.map w₁.texts = items.map w.texts := by rw [htexts, h.map_newString]
      rw [stringArrayInsertAtCString]
      rw [StringWorld.array_newString] at hinserted
      rcases hinserted with ⟨hins, hgood, hinv⟩ | ⟨hins, hgood, hinv⟩
      · rw [hins, stringArraySpec, List.length_map, if_pos hgood]
        refine ⟨_, hinv, ?_⟩
        rw [if_pos rfl, List.map_insertIdx, hnew, hold]
      · rw [hins, stringArraySpec, List.length_map, if_neg hgood]
        exact ⟨items, hinv.destroyString, hold⟩
  | removeAt index =>
      obtain ⟨w₁, hrem, htexts, hinv⟩ := h.removeAt index
      obtain rfl := Option.some.inj hs
      rw [hrem]
      refine ⟨_, hinv.receive _, ?_⟩
      rw [stringArraySpec, List.eraseIdx_map, ← htexts]
      rfl
  | setAt string index =>
      obtain ⟨hmem, hs⟩ := Option.ite_none_right_eq_some.mp hs
      obtain ⟨w₁, hset, htexts, hinv⟩ := (h.giveUp hmem).setAt index
      obtain rfl := Option.some.inj hs
      rw [hset, stringArraySpec]
      refine ⟨items.set index string, ?_, ?_⟩
      · cases hitem : items[index]? with
        | none =>
            rw [hitem] at hinv
            exact hinv.receive (some string)
        | some old =>
            rw [hitem] at hinv
            exact hinv.receive (some old)
      · rw [List.map_set]
        exact congrArg (fun texts => (items.map texts).set index (texts string)) htexts
  | setAtCString text index =>
      obtain ⟨w₁, hset, htexts, hinv⟩ := (h.newString text.1).setAt index
      obtain rfl := Option.some.inj hs
      have hnew : w₁.texts w.next = text.1 := by rw [htexts, texts_newString]
      have hold : items.map w₁.texts = items.map w.texts := by rw [htexts, h.map_newString]
      have hmap : (items.set index w.next).map w₁.texts = (items.map w.texts).set index text.1 := by
        rw [List.map_set, hnew, hold]
      rw [stringArraySetAtCString, hset]
      cases hitem : items[index]? with
      | none =>
          rw [hitem] at hinv
          exact ⟨_, hinv.destroyString.receive none, hmap⟩
      | some old =>
          rw [hitem] at hinv
          exact ⟨_, hinv.receive (some old), hmap⟩

/-- Calls, one after the other. -/
lemma run {ops : List StringArrayOp} (h : StringArrayInv w items [])
    (hrun : w.run ops = some w') : ∃ items', StringArrayInv w' items' [] := by
  induction ops generalizing w items with
  | nil =>
      obtain rfl := Option.some.inj hrun
      exact ⟨items, h⟩
  | cons op ops ih =>
      obtain ⟨w₁, hstep, hrest⟩ := Option.bind_eq_some_iff.mp hrun
      obtain ⟨items₁, hinv, -⟩ := h.step hstep
      exact ih hinv hrest

/-- `Pop` takes an item, when there is one. -/
lemma pop (h : StringArrayInv w items []) (hpos : 0 < arrayGetSize w.array) :
    ∃ a' item items', arrayPop w.array = (a', some item) ∧
      items.length = items'.length + 1 ∧
      StringArrayInv { w with array := a' } items' [item] := by
  have hsize : w.array.size = items.length := h.holds.size_eq
  have hlt : (w.array.size - 1) % 2 ^ 32 < items.length := by
    rw [arrayGetSize] at hpos
    have hmod := Nat.mod_le (w.array.size - 1) (2 ^ 32)
    omega
  obtain ⟨w₁, hrem, -, hinv⟩ := h.removeAt ((w.array.size - 1) % 2 ^ 32)
  obtain ⟨rfl, hitem⟩ := Prod.mk.inj hrem
  rw [List.getElem?_eq_getElem hlt] at hitem hinv
  refine ⟨_, _, _, ?_, ?_, hinv⟩
  · have hpos' : 0 < w.array.size := hpos
    rw [arrayPop, if_pos hpos', ← hitem]
  · rw [List.length_eraseIdx_of_lt hlt]
    omega

/-- The loop of `Destroy` ends, with all strings of the array destroyed. -/
lemma destroyLoop (fuel : ℕ) {w : StringWorld} {items : List ℕ} (h : StringArrayInv w items [])
    (hfuel : items.length < fuel) : ∃ w', stringArrayDestroyLoop fuel w = some w' ∧
      StringArrayInv w' [] [] ∧ w'.held = w.held ∧ w'.lost = w.lost ∧ w'.next = w.next := by
  induction fuel generalizing w items with
  | zero => exact absurd hfuel (Nat.not_lt_zero _)
  | succ fuel ih =>
      rw [stringArrayDestroyLoop]
      by_cases hpos : 0 < arrayGetSize w.array
      · obtain ⟨a', item, items', hpop, hlen, hinv⟩ := h.pop hpos
        obtain ⟨w', hloop, hdone, hheld, hlost, hnext⟩ := ih hinv.destroyString (by omega)
        refine ⟨w', ?_, hdone, hheld, hlost, hnext⟩
        rw [if_pos hpos, hpop]
        exact hloop
      · have hsize : w.array.size = items.length := h.holds.size_eq
        rw [arrayGetSize] at hpos
        obtain rfl : items = [] := List.length_eq_zero_iff.mp (by omega)
        exact ⟨w, if_neg hpos, h, rfl, rfl, rfl⟩

end StringArrayInv

end Invariant

/-- **Every string has one owner.** After any calls, every string that was made is in one place, and
there once: in the array, with the caller, destroyed, or lost by an `Add` that had no room. The
array reads as the list of the texts of its strings; every further call does to this list what it
means, whatever the caller does to its own strings. `Destroy` ends, and then each string that was
made is destroyed once, but for those of the caller and the lost ones. -/
theorem stringArray_owned {initcapacity : ℕ} {ops : List StringArrayOp} {w : StringWorld}
    (hrun : (StringWorld.create initcapacity).run ops = some w) : ∃ items,
      Holds w.array items ∧
      (∀ s, items.count s + w.held.count s + w.destroyed.count s + w.lost.count s =
        if s < w.next then 1 else 0) ∧
      (∀ index, stringArrayGetCString w index = (items.map w.texts)[index]?) ∧
      (∀ op w', w.step op = some w' → ∃ items', Holds w'.array items' ∧
        items'.map w'.texts = stringArraySpec w (items.map w.texts) op) ∧
      ∃ w', stringArrayDestroy w = some w' ∧ w'.held = w.held ∧ w'.lost = w.lost ∧
        ∀ s, w.held.count s + w'.destroyed.count s + w.lost.count s =
          if s < w.next then 1 else 0 := by
  obtain ⟨items, hinv⟩ := (StringArrayInv.create initcapacity).run hrun
  refine ⟨items, hinv.holds, hinv.once, fun index => ?_, fun op w' hs => ?_, ?_⟩
  · rw [stringArrayGetCString, hinv.holds.getAt_eq, List.getElem?_map]
  · obtain ⟨items', hinv', htexts⟩ := hinv.step hs
    exact ⟨items', hinv'.holds, htexts⟩
  · have hfuel : items.length < arrayGetSize w.array + 1 :=
      Nat.lt_succ_of_le hinv.holds.size_eq.ge
    obtain ⟨w', hdestroy, hdone, hheld, hlost, hnext⟩ := hinv.destroyLoop _ hfuel
    refine ⟨w', hdestroy, hheld, hlost, fun s => ?_⟩
    have honce := hdone.once s
    rw [hheld.symm, hlost.symm, hnext.symm]
    simpa [StringWorld.places] using honce

/-- A string is added, another one is put before it, a third one is refused and destroyed, and the
first one in the array is taken out. -/
theorem stringArray_owned_refused : ∃ w items,
    (StringWorld.create 2).run [.addCString (.ofBytes [0x61]) true, .create [0x62],
      .insertAt 1 0 true, .setAtCString (.ofBytes [0x63]) 5, .removeAt 0] = some w ∧
      w.held = [1] ∧ w.destroyed = [2] ∧ Holds w.array items ∧
      ∀ s, items.count s + w.held.count s + w.destroyed.count s + w.lost.count s =
        if s < w.next then 1 else 0 := by
  obtain ⟨w, hrun⟩ : ∃ w, (StringWorld.create 2).run [.addCString (.ofBytes [0x61]) true,
      .create [0x62], .insertAt 1 0 true, .setAtCString (.ofBytes [0x63]) 5, .removeAt 0] =
      some w ∧ w.held = [1] ∧ w.destroyed = [2] := ⟨_, rfl, rfl, rfl⟩
  obtain ⟨items, hholds, honce, -⟩ := stringArray_owned hrun.1
  exact ⟨w, items, hrun.1, hrun.2.1, hrun.2.2, hholds, honce⟩

end LibCmutils
