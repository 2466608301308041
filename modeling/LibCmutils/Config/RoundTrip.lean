import LibCmutils.Config.Basic

/-!
What is read back of a configuration file.

* `KeyOk`, `ValueOk`: the keys and values of the round trip.
* `configLoadLoop_fuel`: the fuel of the loop over the lines does not matter.
* `fgetsLine_line`, `appendTrimmedLine_line`, `configLoadItem_text`: one line, from the file
  to the item.
* `SetInv`: a configuration built by `Set` calls. `LoadInv`: the configuration after some
  lines were read.
* `LoadInv.pairs`: every key comes back, with what `loadedValue` leaves of its value.
  `config_roundTrip_iff`: everything comes back exactly when no value begins with `=`.
-/

namespace LibCmutils

/-- A key of 1 to 1024 bytes, without separators, comment marks and escapes. -/
structure KeyOk (key : CString) : Prop where
  nonempty : key.1 ≠ []
  length : key.1.length ≤ 1024
  bytes : ∀ c ∈ key.1, c ∉ ([0x20, 0x09, 0x0D, 0x0A, 0x3D, 0x23, 0x5C] : List UInt8)

/-- A value of at most 2048 bytes, on one line, without comment marks, white space at the
ends and an escape at the right one. -/
structure ValueOk (value : CString) : Prop where
  length : value.1.length ≤ 2048
  head : ∀ c ∈ value.1.head?, c ∉ spaces
  last : ∀ c ∈ value.1.getLast?, c ∉ spaces ∧ c ≠ 0x5C
  bytes : ∀ c ∈ value.1, c ≠ 0x23 ∧ c ≠ 0x0A

/-- What loading leaves of a value. -/
def loadedValue (value : CString) : CString :=
  CString.ofBytes (strTrim (strSkipSpaces value.1 configSeparators))

/-- The line of a key and its value, without the line feed. -/
def configText (width : ℕ) (e : CString × CString) : List UInt8 :=
  padLeft width e.1.1 ++ [0x20, 0x3D, 0x20] ++ e.2.1

/-! ### The loop over the lines -/

lemma length_fgetsLine_le : ∀ (n : ℕ) (f : List UInt8), (fgetsLine n f).2.length ≤ f.length
  | 0, _ => le_rfl
  | _ + 1, [] => le_rfl
  | n + 1, c :: f => by
      rw [fgetsLine]
      split
      · simp
      · exact (length_fgetsLine_le n f).trans (Nat.le_succ _)

/-- Every line takes a byte from the file. -/
lemma length_fgets_lt {f line rest : List UInt8} (h : fgets 4096 f = some (line, rest)) :
    rest.length < f.length := by
  cases f with
  | nil => cases h
  | cons c f =>
      have hrest : (fgetsLine 4095 (c :: f)).2 = rest := congrArg Prod.snd (Option.some.inj h)
      rw [← hrest, fgetsLine]
      split
      · simp
      · exact Nat.lt_succ_of_le (length_fgetsLine_le _ f)

/-- The loop ends with the file: more fuel changes nothing. -/
lemma configLoadLoop_fuel : ∀ (fuel fuel' : ℕ) (res : Config) (str f : List UInt8),
    f.length < fuel → f.length < fuel' →
    configLoadLoop fuel res str f = configLoadLoop fuel' res str f
  | fuel + 1, fuel' + 1, res, str, f, h, h' => by
      rw [configLoadLoop, configLoadLoop]
      cases hread : fgets 4096 f with
      | none => rfl
      | some r =>
          obtain ⟨line, rest⟩ := r
          have hlt := length_fgets_lt hread
          simp only
          split
          · exact configLoadLoop_fuel fuel fuel' _ _ _ (by omega) (by omega)
          · exact configLoadLoop_fuel fuel fuel' _ _ _ (by omega) (by omega)

/-! ### Reading one line -/

section Line

variable {s t w : List UInt8} {c d esc : UInt8} {set delim : List UInt8} {n : ℕ}

/-- A line that fits the buffer is read whole. -/
lemma fgetsLine_line (hs : 0x0A ∉ s) (hn : s.length < n) :
    fgetsLine n (s ++ 0x0A :: t) = (s ++ [0x0A], t) := by
  induction s generalizing n with
  | nil =>
      obtain ⟨n, rfl⟩ := Nat.exists_eq_succ_of_ne_zero hn.ne'
      simp [fgetsLine]
  | cons c s ih =>
      obtain ⟨n, rfl⟩ := Nat.exists_eq_succ_of_ne_zero (Nat.ne_zero_of_lt hn)
      simp only [List.mem_cons, not_or] at hs
      rw [List.cons_append, fgetsLine, if_neg (Ne.symm hs.1),
        ih hs.2 (by simpa using hn)]
      rfl

lemma rdropWhile_append {p : UInt8 → Bool} (hw : ∀ c ∈ w, p c = true) :
    (s ++ w).rdropWhile p = s.rdropWhile p := by
  induction w using List.reverseRecOn with
  | nil => rw [List.append_nil]
  | append_singleton w c ih =>
      rw [← List.append_assoc, List.rdropWhile_concat_pos _ _ _ (hw c (by simp))]
      exact ih fun c hc => hw c (by simp [hc])

lemma rdropWhile_eq_self {p : UInt8 → Bool} (hs : ∀ c ∈ s.getLast?, p c = false) :
    s.rdropWhile p = s := by
  refine List.rdropWhile_eq_self_iff.mpr fun hne => ?_
  rw [hs _ (List.getLast?_eq_some_getLast hne)]
  exact Bool.false_ne_true

/-- Trailing white space is cut, and a line without an escape at its end is complete. -/
lemma appendTrimmedLine_line (hzero : 0 ∉ s ++ w) (hw : ∀ c ∈ w, strchr set c = true)
    (hlast : ∀ c ∈ s.getLast?, strchr set c = false ∧ c ≠ 0x5C) :
    appendTrimmedLine t (s ++ w) set = (t ++ s, false) := by
  have hall : (s ++ w).takeWhile (· != 0) = s ++ w := by
    refine List.takeWhile_eq_self_iff.mpr fun c hc => ?_
    have hne : c ≠ 0 := fun h => hzero (h ▸ hc)
    simpa using hne
  rw [appendTrimmedLine, hall, rdropWhile_append hw, rdropWhile_eq_self fun c hc => (hlast c hc).1]
  cases hl : s.getLast? with
  | none =>
      rw [List.getLast?_eq_none_iff] at hl
      simp [hl]
  | some c => simp [(hlast c hl).2]

/-- Separators in front of a byte that is none. -/
lemma strSkipSpaces_pad (hw : ∀ c ∈ w, c ≠ 0 ∧ strchr set c = true) (hd : strchr set d = false) :
    strSkipSpaces (w ++ d :: t) set = d :: t := by
  induction w with
  | nil => simp [strSkipSpaces, hd]
  | cons c w ih =>
      have hc := hw c (by simp)
      rw [strSkipSpaces, List.cons_append, List.dropWhile_cons_of_pos (by simp [hc.1, hc.2])]
      exact ih fun c hc => hw c (by simp [hc])

/-- A term ends at the first delimiter. -/
lemma nextTermLoop_delim (hd : strchr delim d = true) : ∀ (s : List UInt8) (n : ℕ)
    (prev : Option UInt8), (∀ c ∈ s, strchr delim c = false ∧ c ≠ esc) → s.length ≤ n →
    prev ≠ some esc → nextTermLoop delim esc n prev (s ++ d :: t) = (s, d :: t)
  | [], 0, _, _, _, _ => rfl
  | [], n + 1, prev, _, _, hprev => by
      simp [nextTermLoop, hd, hprev]
  | c :: s, 0, _, _, hlen, _ => absurd hlen (by simp)
  | c :: s, n + 1, prev, hs, hlen, _ => by
      have hc := hs c (by simp)
      have ih := nextTermLoop_delim hd s n (some c) (fun c hc => hs c (by simp [hc]))
        (by simpa using hlen) (by simpa using hc.2)
      simp [nextTermLoop, hc.1, ih]

/-- A term without delimiters is read to its end. -/
lemma nextTermLoop_end : ∀ (s : List UInt8) (n : ℕ) (prev : Option UInt8),
    (∀ c ∈ s, strchr delim c = false) → s.length ≤ n → nextTermLoop delim esc n prev s = (s, [])
  | [], n, _, _, _ => by cases n <;> rfl
  | c :: s, 0, _, _, hlen => absurd hlen (by simp)
  | c :: s, n + 1, prev, hs, hlen => by
      have ih := nextTermLoop_end s n (some c) (fun c hc => hs c (by simp [hc])) (by simpa using hlen)
      simp [nextTermLoop, hs c (by simp), ih]

lemma length_selfTrimRight_le : ∀ s : List UInt8, (selfTrimRight s).length ≤ s.length
  | [] => le_rfl
  | [_] => le_rfl
  | c :: d :: s => by
      rw [selfTrimRight]
      split
      · exact (length_selfTrimRight_le (d :: s)).trans (Nat.le_succ _)
      · exact le_rfl
      · simp

lemma length_strTrim_le (s : List UInt8) : (strTrim s).length ≤ s.length := by
  have hr := length_selfTrimRight_le s.reverse
  rw [List.length_reverse] at hr
  refine (List.dropWhile_sublist _).length_le.trans ?_
  rw [strRTrim, List.length_reverse]
  exact hr

/-- A string without white space at its ends. -/
lemma strTrim_eq_self (hhead : ∀ c ∈ s.head?, strchr spaces c = false)
    (hlast : ∀ c ∈ s.getLast?, strchr spaces c = false) : strTrim s = s := by
  by_cases hne : s = []
  · rw [hne]
    rfl
  · have h : stringSelfTrim ([] ++ s ++ []) = s :=
      stringSelfTrim_pad (by simp) (by simp) hhead hlast hne
    rwa [List.nil_append, List.append_nil] at h

lemma strchr_eq_false (hc : c ≠ 0) (hmem : c ∉ set) : strchr set c = false := by
  simp [strchr, hc, hmem]

end Line

/-! ### One line of a configuration -/

section Item

variable {e : CString × CString} {width : ℕ}

lemma CString.ne_zero (str : CString) {c : UInt8} (hc : c ∈ str.1) : c ≠ 0 :=
  fun h => str.2 (h ▸ hc)

/-- What is left of a line when its end is trimmed. -/
def configTrimmed (width : ℕ) (e : CString × CString) : List UInt8 :=
  padLeft width e.1.1 ++ 0x20 :: 0x3D :: (if e.2.1 = [] then [] else 0x20 :: e.2.1)

lemma length_configText (hk : KeyOk e.1) (hv : ValueOk e.2) (hwidth : width ≤ 1024) :
    (configText width e).length < 4095 := by
  have := hk.length
  have := hv.length
  simp only [configText, padLeft, List.length_append, List.length_replicate, List.length_cons,
    List.length_nil]
  omega

lemma notMem_configText (width : ℕ) (hk : KeyOk e.1) (hv : ValueOk e.2) : 0x0A ∉ configText width e := by
  simp only [configText, padLeft, List.mem_append, List.mem_replicate, List.mem_cons,
    List.not_mem_nil, or_false, not_or]
  refine ⟨⟨⟨fun h => absurd h.2 (by decide), fun h => ?_⟩, by decide⟩, fun h => ?_⟩
  · exact hk.bytes _ h (by decide)
  · exact (hv.bytes _ h).2 rfl

lemma zero_notMem_configText (e : CString × CString) (width : ℕ) : 0 ∉ configText width e := by
  simp only [configText, padLeft, List.mem_append, List.mem_replicate, List.mem_cons,
    List.not_mem_nil, or_false, not_or]
  exact ⟨⟨⟨fun h => absurd h.2 (by decide), e.1.2⟩, by decide⟩, e.2.2⟩

/-- The line is complete, and its end is trimmed. -/
lemma appendTrimmedLine_configText (hv : ValueOk e.2) :
    appendTrimmedLine [] (configText width e ++ [0x0A]) [0x20, 0x0D, 0x09, 0x0A] =
      (configTrimmed width e, false) := by
  have hzero : 0 ∉ configText width e ++ [0x0A] := by
    simp [zero_notMem_configText]
  by_cases hnil : e.2.1 = []
  · have heq : configText width e ++ [0x0A] = configTrimmed width e ++ [0x20, 0x0A] := by
      simp [configText, configTrimmed, hnil]
    rw [heq] at hzero ⊢
    refine appendTrimmedLine_line hzero (by simp [strchr]) ?_
    simp only [configTrimmed, hnil, if_true]
    rw [List.getLast?_append_of_ne_nil _ (by simp)]
    simp [strchr]
  · have heq : configText width e ++ [0x0A] = configTrimmed width e ++ [0x0A] := by
      simp [configText, configTrimmed, hnil]
    rw [heq] at hzero ⊢
    refine appendTrimmedLine_line hzero (by simp [strchr]) ?_
    simp only [configTrimmed, hnil, if_false]
    rw [List.getLast?_append_of_ne_nil _ (by simp), List.getLast?_cons_cons, List.getLast?_cons_cons]
    intro c hc
    rw [List.getLast?_cons, Option.mem_some_iff] at hc
    have hc' : c ∈ e.2.1.getLast? := by
      rw [List.getLast?_eq_some_getLast hnil] at hc ⊢
      simpa using hc
    have hlast := hv.last c hc'
    refine ⟨strchr_eq_false (CString.ne_zero e.2 (List.mem_of_getLast? hc')) fun hm => hlast.1 ?_, hlast.2⟩
    simp only [spaces, List.mem_cons, List.not_mem_nil, or_false] at hm ⊢
    tauto

/-- The item of a line: the key, and what is left of the value. -/
lemma configLoadItem_text (width : ℕ) (hk : KeyOk e.1) (hv : ValueOk e.2) (res : Config) :
    ∃ item : ConfItem, item.key = some e.1 ∧ item.ptr = res.next ∧
      (configLoadItem res (configTrimmed width e)).sequence =
        (res.sequence.filter fun it => some it.ptr ≠ res.revconf.get e.1) ++ [item] ∧
      (configLoadItem res (configTrimmed width e)).confs = res.confs.put e.1 (loadedValue e.2) ∧
      (configLoadItem res (configTrimmed width e)).revconf = res.revconf.put e.1 res.next ∧
      (configLoadItem res (configTrimmed width e)).next = res.next + 1 := by
  obtain ⟨d, k, hkey⟩ := List.exists_cons_of_ne_nil hk.nonempty
  have hbytes : ∀ c ∈ e.1.1, c ≠ 0 ∧
      c ∉ ([0x20, 0x09, 0x0D, 0x0A, 0x3D, 0x23, 0x5C] : List UInt8) :=
    fun c hc => ⟨CString.ne_zero e.1 hc, hk.bytes c hc⟩
  have hd := hbytes d (by simp [hkey])
  simp only [List.mem_cons, List.not_mem_nil, or_false, not_or] at hd
  obtain ⟨tail, htail⟩ : ∃ tail, (if e.2.1 = [] then [] else 0x20 :: e.2.1) = tail := ⟨_, rfl⟩
  -- the padding
  have hskip : strSkipSpaces (configTrimmed width e) spaces = e.1.1 ++ 0x20 :: 0x3D :: tail := by
    rw [configTrimmed, htail, padLeft, List.append_assoc, hkey, List.cons_append]
    refine strSkipSpaces_pad (fun c hc => ?_) (strchr_eq_false hd.1 ?_)
    · rw [(List.mem_replicate.mp hc).2]
      decide
    · simp [spaces, hd]
  -- the key
  have hname : nextTermBefore (e.1.1 ++ 0x20 :: 0x3D :: tail) configSeparators 0x5C 1024 =
      (e.1.1, 0x20 :: 0x3D :: tail) := by
    refine nextTermLoop_delim (by decide) _ _ _ (fun c hc => ?_) hk.length (by simp)
    have hc := hbytes c hc
    simp only [List.mem_cons, List.not_mem_nil, or_false, not_or] at hc
    exact ⟨strchr_eq_false hc.1 (by simp [configSeparators, hc]), hc.2.2.2.2.2.2.2⟩
  -- the separators
  have hsep : strSkipSpaces (0x20 :: 0x3D :: tail) configSeparators =
      strSkipSpaces e.2.1 configSeparators := by
    rw [← htail]
    by_cases hnil : e.2.1 = []
    · rw [if_pos hnil, hnil]
      rfl
    · rw [if_neg hnil]
      rfl
  -- the value
  have hvalue : nextTermBefore (strSkipSpaces e.2.1 configSeparators) [0x23, 0x0A] 0x5C 2048 =
      (strSkipSpaces e.2.1 configSeparators, []) := by
    have hsub : (strSkipSpaces e.2.1 configSeparators).Sublist e.2.1 := List.dropWhile_sublist _
    refine nextTermLoop_end _ _ _ (fun c hc => ?_) (hsub.length_le.trans hv.length)
    have hc := hsub.mem hc
    exact strchr_eq_false (CString.ne_zero e.2 hc) (by simp [hv.bytes c hc])
  have hitem : configLoadItem res (configTrimmed width e) =
      let sequence := res.sequence.filter fun it => some it.ptr ≠ res.revconf.get e.1
      { confs := res.confs.put e.1 (loadedValue e.2)
        sequence := sequence ++ [{ ptr := res.next, key := some e.1, comment := none, type := .pair,
                                   index := sequence.length }]
        revconf := res.revconf.put e.1 res.next
        maxkeylen := max res.maxkeylen e.1.1.length
        next := res.next + 1 } := by
    unfold configLoadItem
    rw [hskip, hkey, List.cons_append]
    dsimp only
    split
    next heq => cases heq
    next heq =>
      obtain ⟨heq, -⟩ := List.cons.inj heq
      exact absurd heq hd.2.2.2.2.2.2.1
    next =>
      rw [← List.cons_append, ← hkey]
      simp only [hname, hsep, hvalue, CString.ofBytes_coe, loadedValue]
      rfl
  rw [hitem]
  exact ⟨_, rfl, rfl, rfl, rfl, rfl, rfl⟩

end Item

/-! ### The lines of a file -/

/-- Texts of the items that have a value, and texts of the values. -/
lemma flatMap_filterMap {α β γ : Type*} {f : α → List γ} {g : α → Option β} {h : β → List γ}
    {l : List α} (hfg : ∀ a ∈ l, ∃ b, g a = some b ∧ f a = h b) :
    l.flatMap f = (l.filterMap g).flatMap h := by
  induction l with
  | nil => rfl
  | cons a l ih =>
      obtain ⟨b, hg, hf⟩ := hfg a (by simp)
      rw [List.flatMap_cons, List.filterMap_cons_some hg, List.flatMap_cons, hf,
        ih fun a ha => hfg a (by simp [ha])]

lemma length_le_flatMap {α β : Type*} {f : α → List β} {l : List α}
    (hf : ∀ a, 0 < (f a).length) : l.length ≤ (l.flatMap f).length := by
  induction l with
  | nil => simp
  | cons a l ih =>
      have := hf a
      rw [List.flatMap_cons, List.length_append, List.length_cons]
      omega

/-- The configuration after the lines of the pairs `es`. -/
structure LoadInv (res : Config) (es : List (CString × CString)) : Prop where
  keys : res.sequence.map ConfItem.key = es.map fun e => some e.1
  entries : res.confs.entries = es.map fun e => (e.1, loadedValue e.2)
  lines : ∀ k, k ∉ es.map Prod.fst → res.revconf.get k = none

namespace LoadInv

variable {res : Config} {es : List (CString × CString)} {e : CString × CString}

lemma start : LoadInv configCreate [] := ⟨rfl, rfl, fun _ _ => rfl⟩

/-- One more line, with a new key. -/
lemma step {width : ℕ} (h : LoadInv res es) (hk : KeyOk e.1) (hv : ValueOk e.2) (hnew : e.1 ∉ es.map Prod.fst) :
    LoadInv (configLoadItem res (configTrimmed width e)) (es ++ [e]) := by
  obtain ⟨item, hkey, -, hseq, hconfs, hrev, -⟩ := configLoadItem_text width hk hv res
  refine ⟨?_, ?_, fun k hk => ?_⟩
  · rw [hseq, h.lines e.1 hnew, List.filter_eq_self.mpr (by simp), List.map_append, h.keys,
      List.map_append, List.map_singleton, List.map_singleton, hkey]
  · have hkeys : e.1 ∉ res.confs.keys := by
      rw [OrderedMap.keys, h.entries, List.map_map]
      exact hnew
    rw [hconfs, OrderedMap.entries_put_of_notMem hkeys, h.entries, List.map_append,
      List.map_singleton]
  · rw [List.map_append, List.mem_append, not_or, List.map_singleton, List.mem_singleton] at hk
    rw [hrev, OrderedMap.get_put_of_ne _ _ hk.2]
    exact h.lines k hk.1

/-- All lines, one after the other. -/
lemma steps (width : ℕ) : ∀ {es' es : List (CString × CString)} {res : Config}, LoadInv res es →
    (∀ e ∈ es', KeyOk e.1 ∧ ValueOk e.2) → ((es ++ es').map Prod.fst).Nodup →
    LoadInv (es'.foldl (fun res e => configLoadItem res (configTrimmed width e)) res) (es ++ es')
  | [], es, res, h, _, _ => by rwa [List.append_nil]
  | e :: es', es, res, h, hok, hnd => by
      have hnew : e.1 ∉ es.map Prod.fst := by
        rw [List.map_append, List.map_cons, List.nodup_append'] at hnd
        exact fun hm => hnd.2.2 hm (List.mem_cons_self ..)
      have hrest : ∀ e ∈ es', KeyOk e.1 ∧ ValueOk e.2 := fun e he =>
        hok e (List.mem_cons_of_mem _ he)
      obtain ⟨hk, hv⟩ := hok e (List.mem_cons_self ..)
      have hstep : LoadInv (configLoadItem res (configTrimmed width e)) (es ++ [e]) :=
        h.step hk hv hnew
      have hnext := hstep.steps width hrest (by simpa using hnd)
      rw [List.append_assoc] at hnext
      exact hnext

lemma get_eq (h : LoadInv res es) {k v : CString} :
    res.confs.get k = some v ↔ ∃ e ∈ es, (e.1, loadedValue e.2) = (k, v) := by
  rw [OrderedMap.get_eq_some_iff, h.entries, List.mem_map]

/-- The keys come back in order, with what is left of their values. -/
lemma pairs (h : LoadInv res es) :
    configPairs res = es.map fun e => (e.1, loadedValue e.2) := by
  have hpairs : configPairs res = (res.sequence.map ConfItem.key).filterMap fun k =>
      k.bind fun key => (res.confs.get key).map (key, ·) := by
    rw [configPairs, List.filterMap_map]
    rfl
  rw [hpairs, h.keys, List.filterMap_map, ← List.filterMap_eq_map]
  refine List.filterMap_congr fun e he => ?_
  have hget : res.confs.get e.1 = some (loadedValue e.2) := h.get_eq.mpr ⟨e, he, rfl⟩
  simp [hget]

end LoadInv

/-- Reading the lines of a list of pairs. -/
lemma configLoadLoop_lines {width : ℕ} (hwidth : width ≤ 1024) :
    ∀ (es : List (CString × CString)) (res : Config) (fuel : ℕ),
      (∀ e ∈ es, KeyOk e.1 ∧ ValueOk e.2) → es.length < fuel →
      configLoadLoop fuel res [] (es.flatMap fun e => configText width e ++ [0x0A]) =
        es.foldl (fun res e => configLoadItem res (configTrimmed width e)) res
  | [], res, fuel + 1, _, _ => rfl
  | e :: es, res, fuel + 1, hok, hfuel => by
      obtain ⟨hk, hv⟩ := hok e (by simp)
      have ih := configLoadLoop_lines hwidth es (configLoadItem res (configTrimmed width e)) fuel
        (fun e he => hok e (by simp [he])) (by simpa using hfuel)
      have hread : fgets 4096 ((e :: es).flatMap fun e => configText width e ++ [0x0A]) =
          some (configText width e ++ [0x0A], es.flatMap fun e => configText width e ++ [0x0A]) := by
        rw [List.flatMap_cons, List.append_assoc, List.singleton_append]
        have hline := fgetsLine_line (t := es.flatMap fun e => configText width e ++ [0x0A])
          (notMem_configText width hk hv) (length_configText hk hv hwidth)
        unfold fgets
        split
        next heq => simp at heq
        next => rw [hline]
      rw [configLoadLoop, hread]
      simp only [appendTrimmedLine_configText hv]
      exact ih

/-! ### Configurations built by `Set` -/

/-- A configuration built by `Set` calls with such keys and values. -/
structure SetInv (conf : Config) : Prop where
  keys : (conf.sequence.map ConfItem.key).Nodup
  items : ∀ item ∈ conf.sequence, item.type = .pair ∧ item.comment = none ∧
    ∃ k v, item.key = some k ∧ conf.confs.get k = some v
  values : ∀ k v, conf.confs.get k = some v → KeyOk k ∧ ValueOk v ∧
    some k ∈ conf.sequence.map ConfItem.key
  width : conf.maxkeylen ≤ 1024

lemma SetInv.set {conf : Config} (h : SetInv conf) {key value : CString} (hk : KeyOk key)
    (hv : ValueOk value) : SetInv (configSet conf key value) := by
  have hget : ∀ k, (conf.confs.put key value).get k = if k = key then some value
      else conf.confs.get k := by
    intro k
    by_cases hkk : k = key
    · rw [if_pos hkk, hkk, OrderedMap.get_put_self]
    · rw [if_neg hkk, OrderedMap.get_put_of_ne _ _ hkk]
  have hmax : max conf.maxkeylen key.1.length ≤ 1024 := max_le h.width hk.length
  have hitems : ∀ item ∈ conf.sequence, item.type = .pair ∧ item.comment = none ∧
      ∃ k v, item.key = some k ∧ (conf.confs.put key value).get k = some v := by
    intro item hitem
    obtain ⟨htype, hcomment, k, v, hkey, hval⟩ := h.items item hitem
    refine ⟨htype, hcomment, k, if k = key then value else v, hkey, ?_⟩
    rw [hget]
    split <;> simp [hval]
  unfold configSet
  dsimp only
  cases hprev : conf.confs.get key with
  | some prev =>
      refine ⟨h.keys, hitems, fun k v hkv => ?_, hmax⟩
      rw [hget] at hkv
      split at hkv
      next heq =>
        obtain rfl := Option.some.inj hkv
        subst heq
        exact ⟨hk, hv, (h.values k prev hprev).2.2⟩
      next => exact h.values k v hkv
  | none =>
      have hnew : some key ∉ conf.sequence.map ConfItem.key := by
        intro hm
        obtain ⟨item, hitem, heq⟩ := List.mem_map.mp hm
        obtain ⟨-, -, k, v, hkey, hval⟩ := h.items item hitem
        rw [heq] at hkey
        obtain rfl := Option.some.inj hkey
        rw [hprev] at hval
        cases hval
      refine ⟨?_, fun item hitem => ?_, fun k v hkv => ?_, hmax⟩
      · rw [List.map_append, List.nodup_append']
        refine ⟨h.keys, by simp, ?_⟩
        intro k hk' hk''
        rw [List.map_singleton, List.mem_singleton] at hk''
        have heq : k = some key := hk''
        exact hnew (heq ▸ hk')
      · rcases List.mem_append.mp hitem with hitem | hitem
        · exact hitems item hitem
        · rw [List.mem_singleton.mp hitem]
          exact ⟨rfl, rfl, key, value, rfl, OrderedMap.get_put_self _ _ _⟩
      · rw [List.map_append, List.mem_append]
        rw [hget] at hkv
        split at hkv
        next heq =>
          obtain rfl := Option.some.inj hkv
          subst heq
          exact ⟨hk, hv, .inr (by simp)⟩
        next =>
          obtain ⟨hk', hv', hmem⟩ := h.values k v hkv
          exact ⟨hk', hv', .inl hmem⟩

namespace SetInv

variable {conf : Config} {sets : List (CString × CString)} {e : CString × CString}

lemma start : SetInv configCreate where
  keys := List.nodup_nil
  items := fun _ h => nomatch h
  values := fun _ _ h => nomatch h
  width := Nat.zero_le _

/-- **Every sequence of `Set` calls.** -/
lemma of_sets (hok : ∀ e ∈ sets, KeyOk e.1 ∧ ValueOk e.2) : SetInv (configOf sets) := by
  induction sets using List.reverseRecOn with
  | nil => exact start
  | append_singleton sets e ih =>
      obtain ⟨hk, hv⟩ := hok e (by simp)
      rw [configOf, List.foldl_append]
      exact (ih fun e he => hok e (by simp [he])).set hk hv

/-- The pairs are the keys of the lines with their values. -/
lemma mem_pairs (h : SetInv conf) {k v : CString} :
    (k, v) ∈ configPairs conf ↔ conf.confs.get k = some v := by
  rw [configPairs, List.mem_filterMap]
  constructor
  · rintro ⟨item, -, hitem⟩
    obtain ⟨key, -, hval⟩ := Option.bind_eq_some_iff.mp hitem
    obtain ⟨w, hget, heq⟩ := Option.map_eq_some_iff.mp hval
    obtain ⟨rfl, rfl⟩ := Prod.mk.inj heq
    exact hget
  · intro hget
    obtain ⟨item, hitem, hkey⟩ := List.mem_map.mp (h.values k v hget).2.2
    exact ⟨item, hitem, by simp [hkey, hget]⟩

lemma pairs_ok (h : SetInv conf) (he : e ∈ configPairs conf) : KeyOk e.1 ∧ ValueOk e.2 := by
  obtain ⟨hk, hv, -⟩ := h.values e.1 e.2 (h.mem_pairs.mp he)
  exact ⟨hk, hv⟩

/-- Every line is a pair. -/
lemma pairs_keys (h : SetInv conf) :
    (configPairs conf).map (fun e => some e.1) = conf.sequence.map ConfItem.key := by
  rw [configPairs, List.map_filterMap, ← List.filterMap_eq_map]
  refine List.filterMap_congr fun item hitem => ?_
  obtain ⟨-, -, k, v, hkey, hval⟩ := h.items item hitem
  simp [hkey, hval]

lemma pairs_nodup (h : SetInv conf) : ((configPairs conf).map Prod.fst).Nodup := by
  have hkeys := h.keys
  have hmap : (configPairs conf).map (fun e => some e.1) =
      ((configPairs conf).map Prod.fst).map some := by
    rw [List.map_map]
    rfl
  rw [← h.pairs_keys, hmap] at hkeys
  exact hkeys.of_map _

/-- What `Save` writes. -/
lemma save (h : SetInv conf) : configSave conf =
    (configPairs conf).flatMap fun e => configText conf.maxkeylen e ++ [0x0A] := by
  refine flatMap_filterMap fun item hitem => ?_
  obtain ⟨htype, hcomment, k, v, hkey, hval⟩ := h.items item hitem
  refine ⟨(k, v), by simp [hkey, hval], ?_⟩
  simp [configSaveItem, htype, hcomment, hkey, hval, configText]

/-- **What comes back**: every key, in order, with what is left of its value. -/
lemma load_save (h : SetInv conf) : LoadInv (configLoad (configSave conf)) (configPairs conf) := by
  have hlen : (configPairs conf).length < (configSave conf).length + 1 := by
    rw [h.save, Nat.lt_succ_iff]
    exact length_le_flatMap fun e => by simp
  have hload := configLoadLoop_lines h.width (configPairs conf) configCreate
    ((configSave conf).length + 1) (fun e he => h.pairs_ok he) hlen
  rw [configLoad, h.save] at *
  rw [hload]
  exact LoadInv.start.steps conf.maxkeylen (fun e he => h.pairs_ok he) (by simpa using h.pairs_nodup)

end SetInv

/-- A value comes back as it was when it does not begin with `=`. -/
lemma loadedValue_eq_iff {v : CString} (hv : ValueOk v) :
    loadedValue v = v ↔ v.1.head? ≠ some 0x3D := by
  constructor
  · intro heq hhead
    obtain ⟨s, hs⟩ : ∃ s, v.1 = 0x3D :: s := by
      cases hval : v.1 with
      | nil => rw [hval] at hhead; cases hhead
      | cons c s => rw [hval] at hhead; exact ⟨s, by rw [Option.some.inj hhead]⟩
    have hlen : (loadedValue v).1.length ≤ s.length := by
      refine (List.takeWhile_sublist _).length_le.trans ((length_strTrim_le _).trans ?_)
      rw [hs, strSkipSpaces, List.dropWhile_cons_of_pos (by decide)]
      exact (List.dropWhile_sublist _).length_le
    rw [heq, hs, List.length_cons] at hlen
    omega
  · intro hhead
    have hskip : strSkipSpaces v.1 configSeparators = v.1 := by
      cases hval : v.1 with
      | nil => rfl
      | cons c s =>
          have hc := hv.head c (by rw [hval]; rfl)
          rw [hval] at hhead
          simp only [spaces, List.mem_cons, List.not_mem_nil, or_false, not_or] at hc
          have hsep : strchr configSeparators c = false := by
            refine strchr_eq_false (CString.ne_zero v (by simp [hval])) ?_
            simp only [configSeparators, List.mem_cons, List.not_mem_nil, or_false, not_or]
            exact ⟨hc.1, fun h => hhead (by rw [h]; rfl), hc.2.2.2⟩
          rw [strSkipSpaces, List.dropWhile_cons_of_neg (by simp [hsep])]
    rw [loadedValue, hskip, strTrim_eq_self, CString.ofBytes_coe]
    · intro c hc
      exact strchr_eq_false (CString.ne_zero v (List.mem_of_mem_head? hc)) (hv.head c hc)
    · intro c hc
      exact strchr_eq_false (CString.ne_zero v (List.mem_of_getLast? hc)) (hv.last c hc).1

/-- The same keys with the same values in the same order, and the same answers. -/
def ConfigSame (a b : Config) : Prop :=
  configPairs a = configPairs b ∧ ∀ key, configGet a key = configGet b key

/-- **Round trip.** What `Save` writes of a configuration built by `Set` calls is loaded
as the same configuration exactly when no value in it begins with `=`. -/
theorem config_roundTrip_iff (sets : List (CString × CString))
    (hkeys : ∀ e ∈ sets, KeyOk e.1) (hvalues : ∀ e ∈ sets, ValueOk e.2) :
    ConfigSame (configLoad (configSave (configOf sets))) (configOf sets) ↔
      ∀ e ∈ configPairs (configOf sets), e.2.1.head? ≠ some 0x3D := by
  have h := SetInv.of_sets fun e he => ⟨hkeys e he, hvalues e he⟩
  have hload := h.load_save
  have hpairs := hload.pairs
  constructor
  · rintro ⟨hsame, -⟩ e he
    rw [hpairs] at hsame
    have hmap : (configPairs (configOf sets)).map (fun e => (e.1, loadedValue e.2)) =
        (configPairs (configOf sets)).map id := by rw [hsame, List.map_id]
    have heq := List.map_inj_left.mp hmap e he
    exact (loadedValue_eq_iff (h.pairs_ok he).2).mp (congrArg Prod.snd heq)
  · intro hne
    have hid : ∀ e ∈ configPairs (configOf sets), (e.1, loadedValue e.2) = e := fun e he => by
      rw [(loadedValue_eq_iff (h.pairs_ok he).2).mpr (hne e he)]
    refine ⟨?_, fun key => Option.ext fun v => ?_⟩
    · rw [hpairs]
      conv_rhs => rw [← List.map_id (configPairs (configOf sets))]
      exact List.map_congr_left hid
    · rw [configGet, configGet, hload.get_eq, ← h.mem_pairs]
      constructor
      · rintro ⟨e, he, heq⟩
        rw [hid e he] at heq
        exact heq ▸ he
      · intro he
        exact ⟨(key, v), he, hid _ he⟩

/-- `a` is `x = y`, and `b.c` is empty. -/
theorem config_roundTrip_two :
    ConfigSame (configLoad (configSave (configOf
        [(⟨[0x61], by decide⟩, ⟨[0x78, 0x20, 0x3D, 0x20, 0x79], by decide⟩),
          (⟨[0x62, 0x2E, 0x63], by decide⟩, .ofBytes [])])))
        (configOf [(⟨[0x61], by decide⟩, ⟨[0x78, 0x20, 0x3D, 0x20, 0x79], by decide⟩),
          (⟨[0x62, 0x2E, 0x63], by decide⟩, .ofBytes [])]) ↔
      ∀ e ∈ configPairs (configOf
        [(⟨[0x61], by decide⟩, ⟨[0x78, 0x20, 0x3D, 0x20, 0x79], by decide⟩),
          (⟨[0x62, 0x2E, 0x63], by decide⟩, .ofBytes [])]), e.2.1.head? ≠ some 0x3D := by
  refine config_roundTrip_iff _ (fun e he => ?_) fun e he => ?_
  · simp only [List.mem_cons, List.not_mem_nil, or_false] at he
    rcases he with rfl | rfl <;> constructor <;> simp
  · simp only [List.mem_cons, List.not_mem_nil, or_false] at he
    rcases he with rfl | rfl <;> constructor <;> simp [spaces, CString.ofBytes]

/-- The value `=b` of the key `a` comes back as `b`. -/
theorem config_roundTrip_fails :
    ¬ ∀ sets : List (CString × CString), (∀ e ∈ sets, KeyOk e.1) → (∀ e ∈ sets, ValueOk e.2) →
      ConfigSame (configLoad (configSave (configOf sets))) (configOf sets) := by
  intro h
  have hsame := h [(⟨[0x61], by decide⟩, ⟨[0x3D, 0x62], by decide⟩)]
    (fun e he => by rw [List.mem_singleton.mp he]; constructor <;> simp)
    (fun e he => by rw [List.mem_singleton.mp he]; constructor <;> simp [spaces])
  exact absurd hsame.1 (by decide)

end LibCmutils
