import LibCmutils.Json.Value
import LibCmutils.Lib.Relabel
import LibCmutils.String.Case

/-!
The names of a log configuration (`src/logger.c`), which are put in lower case before it is read.

* `stringToLower`: the copy of a key. There is none of an empty key, and its text is asked for
  nevertheless.
* `logConfigClean`: `CMUTIL_LogConfigClean`. An object is relabelled in place over a snapshot
  of its keys (`logConfigClean_foldlM`). `logConfigCleanFrom` counts the nested calls, and the
  height of the tree is enough.
* `JsonNamed`: every object is a map. `NamesGiven`: no name that the code comes to is empty.
* `logConfigClean_isSome_iff`: exactly then it comes to its end.
* `logConfigClean_object`: what becomes of an object whose names differ by more than case.
-/

namespace LibCmutils

/-- `CMUTIL_StringToLower`: an empty string has no copy. -/
def stringToLower (str : CString) : Option CString := if str = .empty then none else some str.lower

/-- One name of the snapshot in `CMUTIL_LogConfigClean`. `none` is an access to `NULL`. -/
def logConfigCleanMember (clean : Json → Option Json) (entries : List (CString × Json))
    (key : CString) : Option (List (CString × Json)) := do
  let item ← jsonObjectGet entries key
  let jobj := jsonObjectRemove entries key
  let nstr := stringToLower key
  let item ← clean item
  let key ← nstr
  return jsonObjectPut jobj key item

/-- `CMUTIL_LogConfigClean`, with a bound on the nested calls. -/
def logConfigCleanFrom : ℕ → Json → Option Json
  | 0, _ => none
  | _ + 1, .value type data => some (.value type data)
  | n + 1, .object entries =>
      let keys := entries.map Prod.fst
      (keys.foldlM (logConfigCleanMember (logConfigCleanFrom n)) entries).map .object
  | n + 1, .array items => (items.mapM (logConfigCleanFrom n)).map .array

/-- `CMUTIL_LogConfigClean`. -/
def logConfigClean (json : Json) : Option Json := logConfigCleanFrom json.height json

/-- Every object of the tree names each of its members once, as a map does. -/
inductive JsonNamed : Json → Prop
  | value (type : JsonValueType) (data : CString) : JsonNamed (.value type data)
  | array {items : List Json} : (∀ item ∈ items, JsonNamed item) → JsonNamed (.array items)
  | object {entries : List (CString × Json)} : (entries.map Prod.fst).Nodup →
      (∀ e ∈ entries, JsonNamed e.2) → JsonNamed (.object entries)

/-- No name that `CMUTIL_LogConfigClean` comes to is empty. It does not come to a member whose
name is that of an earlier one in lower case. -/
inductive NamesGiven : Json → Prop
  | value (type : JsonValueType) (data : CString) : NamesGiven (.value type data)
  | array {items : List Json} : (∀ item ∈ items, NamesGiven item) → NamesGiven (.array items)
  | object {entries : List (CString × Json)} :
      (∀ e ∈ OrderedMap.met CString.lower [] entries, e.1 ≠ .empty) →
      (∀ e ∈ OrderedMap.met CString.lower [] entries, NamesGiven e.2) →
      NamesGiven (.object entries)

lemma JsonWellFormed.named {json : Json} (h : JsonWellFormed json) : JsonNamed json := by
  induction h with
  | long n => exact .value _ _
  | string s => exact .value _ _
  | boolean b => exact .value _ _
  | null => exact .value _ _
  | array _ ih => exact .array ih
  | object hnodup _ ih => exact .object hnodup ih

/-- The copy is that of the string interface. -/
lemma stringToLower_refines {s : StringInternal} {str : CString} (h : s.Holds str.1)
    {allocs : StringInternal.Allocs} (hmem : allocs.record && allocs.block.isSome) :
    match stringToLower str with
    | some low => ∃ res, s.toLower allocs = some (some res) ∧ res.Holds low.1
    | none => s.toLower allocs = some none := by
  by_cases hstr : str = .empty
  · subst hstr
    rw [stringToLower, if_pos rfl]
    exact StringInternal.convertCopy_empty h allocs
  · have hne : str.1 ≠ [] := fun hnil => hstr (Subtype.ext hnil)
    rw [stringToLower, if_neg hstr]
    exact StringInternal.convertCopy_spec h hne hmem

/-! ### The pass over an object -/

/-- What is done to the member of a name. -/
def logConfigCleanValue (clean : Json → Option Json) (key : CString) (item : Json) : Option Json :=
  if key = .empty then none else clean item

variable {clean : Json → Option Json} {n : ℕ}

lemma logConfigCleanValue_eq_some {key : CString} {item item' : Json} :
    logConfigCleanValue clean key item = some item' ↔ key ≠ .empty ∧ clean item = some item' := by
  rw [logConfigCleanValue]
  split_ifs with h <;> simp [h]

lemma logConfigCleanValue_isSome {key : CString} {item : Json} :
    (logConfigCleanValue clean key item).isSome ↔ key ≠ .empty ∧ (clean item).isSome := by
  simp only [Option.isSome_iff_exists, logConfigCleanValue_eq_some, exists_and_left]

lemma logConfigCleanMember_eq (m : OrderedMap CString Json) (key : CString) :
    logConfigCleanMember clean m.entries key =
      (m.relabelStep CString.lower (logConfigCleanValue clean) key).map OrderedMap.entries := by
  rw [logConfigCleanMember, OrderedMap.relabelStep, jsonObjectGet_eq, jsonObjectRemove_eq]
  cases m.get key with
  | none => rfl
  | some item =>
      simp only [Option.bind_eq_bind, Option.bind_some]
      cases hitem : clean item with
      | none => by_cases hkey : key = .empty <;> simp [logConfigCleanValue, hkey, hitem]
      | some item' =>
          by_cases hkey : key = .empty
          · simp [logConfigCleanValue, stringToLower, hkey]
          · simp [logConfigCleanValue, stringToLower, hkey, hitem, jsonObjectPut_eq]

/-- An object is relabelled over a snapshot of its keys. -/
lemma logConfigClean_foldlM (m : OrderedMap CString Json) (keys : List CString) :
    keys.foldlM (logConfigCleanMember clean) m.entries =
      (keys.foldlM (OrderedMap.relabelStep CString.lower (logConfigCleanValue clean)) m).map
        OrderedMap.entries := by
  induction keys generalizing m with
  | nil => rfl
  | cons key keys ih =>
      rw [List.foldlM_cons, List.foldlM_cons, logConfigCleanMember_eq]
      cases m.relabelStep CString.lower (logConfigCleanValue clean) key with
      | none => rfl
      | some m' => exact ih m'

lemma logConfigCleanFrom_object (m : OrderedMap CString Json) :
    logConfigCleanFrom (n + 1) (.object m.entries) =
      (m.relabel CString.lower (logConfigCleanValue (logConfigCleanFrom n))).map
        fun m' => .object m'.entries := by
  simp only [logConfigCleanFrom, logConfigClean_foldlM, Option.map_map]
  rfl

/-! ### What the pass comes to -/

lemma NamesGiven.array_iff {items : List Json} :
    NamesGiven (.array items) ↔ ∀ item ∈ items, NamesGiven item := by
  refine ⟨fun h => ?_, .array⟩
  cases h with
  | array h => exact h

lemma NamesGiven.object_iff {entries : List (CString × Json)} :
    NamesGiven (.object entries) ↔
      ∀ e ∈ OrderedMap.met CString.lower [] entries, e.1 ≠ .empty ∧ NamesGiven e.2 := by
  constructor
  · intro h
    cases h with
    | object hnames hgiven => exact fun e he => ⟨hnames e he, hgiven e he⟩
  · exact fun h => .object (fun e he => (h e he).1) fun e he => (h e he).2

lemma Json.height_pos : ∀ json : Json, 0 < json.height
  | .value _ _ => by simp [Json.height]
  | .object _ => by simp [Json.height]
  | .array _ => by simp [Json.height]

/-- What holds of a tree that `n` nested calls are enough for. -/
def CleanSpec (n : ℕ) (json : Json) : Prop :=
  ((logConfigCleanFrom n json).isSome ↔ NamesGiven json) ∧
    ∀ json', logConfigCleanFrom n json = some json' →
      json'.height ≤ n ∧ JsonNamed json' ∧ NamesGiven json'

lemma cleanSpec_array {items : List Json} (h : ∀ item ∈ items, CleanSpec n item) :
    CleanSpec (n + 1) (.array items) := by
  have hmap : logConfigCleanFrom (n + 1) (.array items) =
      (items.mapM (logConfigCleanFrom n)).map .array := rfl
  constructor
  · rw [hmap, Option.isSome_map, mapM_isSome_iff, NamesGiven.array_iff]
    exact forall₂_congr fun item hitem => (h item hitem).1
  · intro json' hjson'
    rw [hmap] at hjson'
    obtain ⟨items', hitems', rfl⟩ := Option.map_eq_some_iff.mp hjson'
    have hspec : ∀ item' ∈ items', item'.height ≤ n ∧ JsonNamed item' ∧ NamesGiven item' := by
      intro item' hmem
      obtain ⟨item, hitem, heq⟩ := mem_mapM hitems' item' hmem
      exact (h item hitem).2 item' heq
    refine ⟨?_, .array fun item' hmem => (hspec item' hmem).2.1,
      .array fun item' hmem => (hspec item' hmem).2.2⟩
    rw [Json.height]
    exact Nat.succ_le_succ (Json.itemsHeight_le_iff.mpr fun item' hmem => (hspec item' hmem).1)

/-- What is put back under a name can be cleaned again. -/
lemma cleanSpec_object {m : OrderedMap CString Json}
    (ih : ∀ json, json.height ≤ n → JsonNamed json → CleanSpec n json)
    (hm : ∀ e ∈ m.entries, e.2.height ≤ n ∧ JsonNamed e.2) :
    CleanSpec (n + 1) (.object m.entries) := by
  have hvalue : ∀ key item item', item.height ≤ n ∧ JsonNamed item →
      logConfigCleanValue (logConfigCleanFrom n) key item = some item' →
      (item'.height ≤ n ∧ JsonNamed item') ∧ key.lower ≠ .empty ∧ NamesGiven item' := by
    intro key item item' hitem hclean
    obtain ⟨hkey, hclean⟩ := logConfigCleanValue_eq_some.mp hclean
    obtain ⟨hheight, hnamed, hgiven⟩ := (ih item hitem.1 hitem.2).2 item' hclean
    exact ⟨⟨hheight, hnamed⟩, by simpa using hkey, hgiven⟩
  constructor
  · rw [logConfigCleanFrom_object, Option.isSome_map, NamesGiven.object_iff,
      OrderedMap.relabel_isSome_iff CString.lower_lower (Q := fun item => item.height ≤ n ∧
        JsonNamed item) ?_ hm]
    · refine forall₂_congr fun e he => ?_
      obtain ⟨hheight, hnamed⟩ := hm e (OrderedMap.mem_of_mem_met he)
      rw [logConfigCleanValue_isSome, (ih e.2 hheight hnamed).1]
    · intro key item item' hitem hclean
      obtain ⟨hitem', hkey, hgiven⟩ := hvalue key item item' hitem hclean
      exact ⟨hitem', logConfigCleanValue_isSome.mpr
        ⟨hkey, (ih item' hitem'.1 hitem'.2).1.mpr hgiven⟩⟩
  · intro json' hjson'
    rw [logConfigCleanFrom_object] at hjson'
    obtain ⟨m', hm', rfl⟩ := Option.map_eq_some_iff.mp hjson'
    have hspec := OrderedMap.relabel_forall (Q := fun item => item.height ≤ n ∧ JsonNamed item)
      (R := fun key item => key ≠ .empty ∧ NamesGiven item) hvalue hm hm'
    refine ⟨?_, .object m'.nodup fun e he => (hspec e he).1.2,
      .object (fun e he => ?_) fun e he => ?_⟩
    · rw [Json.height]
      exact Nat.succ_le_succ (Json.membersHeight_le_iff.mpr fun e he => (hspec e he).1.1)
    · exact (hspec e (OrderedMap.mem_of_mem_met he)).2.1
    · exact (hspec e (OrderedMap.mem_of_mem_met he)).2.2

lemma cleanSpec : ∀ (n : ℕ) (json : Json), json.height ≤ n → JsonNamed json → CleanSpec n json
  | 0, json, hheight, _ => by
      have := json.height_pos
      omega
  | n + 1, json, hheight, hnamed => by
      cases hnamed with
      | value type data =>
          have hself : logConfigCleanFrom (n + 1) (.value type data) =
              some (.value type data) := rfl
          refine ⟨?_, fun json' hjson' => ?_⟩
          · rw [hself]
            exact iff_of_true rfl (.value type data)
          · rw [hself] at hjson'
            obtain rfl := Option.some.inj hjson'
            exact ⟨hheight, .value type data, .value type data⟩
      | array hitems =>
          rw [Json.height, Nat.add_le_add_iff_right, Json.itemsHeight_le_iff] at hheight
          exact cleanSpec_array fun item hitem =>
            cleanSpec n item (hheight item hitem) (hitems item hitem)
      | @object entries hnodup hmembers =>
          rw [Json.height, Nat.add_le_add_iff_right, Json.membersHeight_le_iff] at hheight
          exact cleanSpec_object (m := ⟨entries, hnodup⟩) (cleanSpec n) fun e he =>
            ⟨hheight e he, hmembers e he⟩

/-- **Cleaning a configuration** comes to its end exactly when it comes to no empty name. -/
theorem logConfigClean_isSome_iff {json : Json} (h : JsonNamed json) :
    (logConfigClean json).isSome ↔ NamesGiven json :=
  (cleanSpec json.height json le_rfl h).1

/-! ### Names that differ by more than case -/

lemma nodup_of_lower {entries : List (CString × Json)}
    (h : (entries.map fun e => e.1.lower).Nodup) : (entries.map Prod.fst).Nodup := by
  refine List.Nodup.of_map CString.lower ?_
  rwa [List.map_map]

lemma NamesGiven.object_iff_of_nodup {entries : List (CString × Json)}
    (h : (entries.map fun e => e.1.lower).Nodup) :
    NamesGiven (.object entries) ↔ ∀ e ∈ entries, e.1 ≠ .empty ∧ NamesGiven e.2 := by
  rw [NamesGiven.object_iff, OrderedMap.met_of_nodup CString.lower_lower entries [] h (by simp)]

/-- **An object whose names differ by more than case** keeps its members, under the names in
lower case and in their order. -/
theorem logConfigClean_object {entries : List (CString × Json)}
    (h : (entries.map fun e => e.1.lower).Nodup) {json' : Json}
    (hclean : logConfigClean (.object entries) = some json') :
    ∃ entries', json' = .object entries' ∧ List.Forall₂ (fun e e' => e'.1 = e.1.lower ∧
      logConfigCleanFrom (Json.membersHeight entries) e.2 = some e'.2) entries entries' := by
  rw [logConfigClean, Json.height] at hclean
  rw [logConfigCleanFrom_object ⟨entries, nodup_of_lower h⟩] at hclean
  obtain ⟨m', hm', rfl⟩ := Option.map_eq_some_iff.mp hclean
  have hentries := OrderedMap.relabel_entries (m := ⟨entries, nodup_of_lower h⟩)
    (g := logConfigCleanValue (logConfigCleanFrom (Json.membersHeight entries)))
    CString.lower_lower h
  rw [hm', Option.map_some] at hentries
  refine ⟨m'.entries, rfl, (mapM_eq_some_iff.mp hentries.symm).imp ?_⟩
  intro e e' he
  obtain ⟨item', hitem', rfl⟩ := Option.map_eq_some_iff.mp he
  exact ⟨rfl, (logConfigCleanValue_eq_some.mp hitem').2⟩

end LibCmutils
