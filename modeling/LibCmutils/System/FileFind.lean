import LibCmutils.Pattern.Semantics
import LibCmutils.System.PathCreate

/-!
Looking for files in a directory (`src/system.c`).

* `FileWorld`: what `stat`, `readdir` and `realpath` tell about paths.
* `File`, `fileCreate`: a file with its path and its name.
* `fileFindInternal`: `CMUTIL_FileFindInternal`, which calls itself through
  `fileFindFileOper` for a directory, with the loop `fileFindLoop` over the entries.
  `fileChildren`: `CMUTIL_FileChildren`.
* `Found`: a file is in the directory, or below it, and its name matches. `Visited`: an entry
  that the search comes to.
* `fileFindInternal_outcome`: the search ends, and finds each of these files once. The path of an
  entry has room for 2047 bytes, and is written behind the buffer when it is longer.
-/

namespace LibCmutils

/-- What the system tells about paths: whether a path is a directory, the entries of a
directory that can be opened, and a path without links. -/
structure FileWorld where
  isDirectory : List UInt8 → Bool
  readdir : List UInt8 → Option (List (List UInt8))
  realpath : List UInt8 → Option (List UInt8)

/-- `CMUTIL_File_Internal`: the path, and the name. -/
structure File where
  path : List UInt8
  name : List UInt8
  deriving DecidableEq

/-- What may go wrong in a search: a path is too long for its buffer, or the search does not
end. -/
inductive FindFault where
  | overflow | endless
  deriving DecidableEq

/-- The size of the buffer for the path of an entry. -/
def pathbufSize : ℕ := 2048

/-- `CMUTIL_FileCreateInternal`. -/
def fileCreate (world : FileWorld) (path : List UInt8) : File :=
  let rpath := (world.realpath path).getD path
  match strrchrSplit 0x2F rpath with
  | none => ⟨rpath, rpath⟩
  | some (_, p) => ⟨rpath, p⟩

/-- The entries for the directory itself and for the one above. -/
def isDots (fname : List UInt8) : Bool := fname = [0x2E] || fname = [0x2E, 0x2E]

/-- The path of an entry. -/
def entryPath (dpath fname : List UInt8) : List UInt8 := dpath ++ 0x2F :: fname

/-- The loop over the entries of a directory, with what is done for each of them. -/
def fileFindLoop (oper : List UInt8 → List UInt8 → List File → Except FindFault (List File))
    (dpath : List UInt8) : List (List UInt8) → List File → Except FindFault (List File)
  | [], flist => .ok flist
  | fname :: entries, flist =>
      if isDots fname then fileFindLoop oper dpath entries flist
      else if pathbufSize ≤ (entryPath dpath fname).length then .error .overflow
      else
        match oper (entryPath dpath fname) fname flist with
        | .error e => .error e
        | .ok flist => fileFindLoop oper dpath entries flist

section Find

variable (world : FileWorld) (pattern : List UInt8) (isRecursive : Bool)

/-- `CMUTIL_FileFindFileOper`, with what is done for a directory. -/
def fileFindFileOper (inner : List UInt8 → List File → Except FindFault (List File))
    (filepath fname : List UInt8) (flist : List File) : Except FindFault (List File) :=
  if world.isDirectory filepath then
    if isRecursive then inner filepath flist else .ok flist
  else if patternMatch (some pattern) (some fname) then
    .ok (flist ++ [fileCreate world filepath])
  else .ok flist

/-- `CMUTIL_FileFindInternal`, so many directories deep. -/
def fileFindInternal : ℕ → List UInt8 → List File → Except FindFault (List File)
  | 0, _, _ => .error .endless
  | depth + 1, dpath, flist =>
      match world.readdir dpath with
      | none => .ok flist
      | some entries =>
          fileFindLoop (fileFindFileOper world pattern isRecursive (fileFindInternal depth))
            dpath entries flist

/-- `CMUTIL_FileFind`. Every directory makes the path longer. -/
def fileFind (file : File) : Except FindFault (List File) :=
  fileFindInternal world pattern isRecursive (pathbufSize + 1) file.path []

end Find

/-- `CMUTIL_FileChildren`. -/
def fileChildren (world : FileWorld) (file : File) : Except FindFault (List File) :=
  match world.readdir file.path with
  | none => .ok []
  | some entries =>
      fileFindLoop (fun filepath _ flist => .ok (flist ++ [fileCreate world filepath]))
        file.path entries []

/-! ### What is looked for -/

section Spec

variable (world : FileWorld) (pattern : List UInt8) (isRecursive : Bool)

/-- An entry of a directory. -/
def Entry (dpath fname : List UInt8) : Prop :=
  ∃ entries, world.readdir dpath = some entries ∧ fname ∈ entries ∧ isDots fname = false

/-- The files that are looked for in a directory. -/
inductive Found : List UInt8 → List UInt8 → Prop
  | here {dpath fname : List UInt8} (entry : Entry world dpath fname)
      (file : world.isDirectory (entryPath dpath fname) = false)
      (isMatch : patternMatch (some pattern) (some fname) = true) :
      Found dpath (entryPath dpath fname)
  | deeper {dpath fname path : List UInt8} (deep : isRecursive = true)
      (entry : Entry world dpath fname)
      (directory : world.isDirectory (entryPath dpath fname) = true)
      (found : Found (entryPath dpath fname) path) : Found dpath path

/-- The paths that the search comes to. -/
inductive Visited : List UInt8 → List UInt8 → Prop
  | here {dpath fname : List UInt8} (entry : Entry world dpath fname) :
      Visited dpath (entryPath dpath fname)
  | deeper {dpath fname path : List UInt8} (deep : isRecursive = true)
      (entry : Entry world dpath fname)
      (directory : world.isDirectory (entryPath dpath fname) = true)
      (visited : Visited (entryPath dpath fname) path) : Visited dpath path

/-- In every directory the entries have different names, without a slash. -/
def DistinctEntries : Prop :=
  ∀ dpath entries, world.readdir dpath = some entries →
    entries.Nodup ∧ ∀ fname ∈ entries, (0x2F : UInt8) ∉ fname

/-- What a search leads to that starts with `flist`, looks for the paths in `found` and comes to
those in `visited`. -/
def FindOutcome (distinct : Prop) (found visited : Set (List UInt8)) (flist : List File) :
    Except FindFault (List File) → Prop
  | .ok files =>
      (∀ path ∈ visited, path.length < pathbufSize) ∧
        ∃ paths : List (List UInt8), files = flist ++ paths.map (fileCreate world) ∧
          (∀ path, path ∈ paths ↔ path ∈ found) ∧ (distinct → paths.Nodup)
  | .error .overflow => ∃ path ∈ visited, pathbufSize ≤ path.length
  | .error .endless => False

/-- The files that are looked for at one entry. -/
def FoundAt (filepath fname : List UInt8) : Set (List UInt8) :=
  {path | world.isDirectory filepath = false ∧ patternMatch (some pattern) (some fname) = true ∧
      path = filepath ∨
    world.isDirectory filepath = true ∧ isRecursive = true ∧
      Found world pattern isRecursive filepath path}

/-- The paths that the search comes to at one entry, the entry apart. -/
def VisitedAt (filepath : List UInt8) : Set (List UInt8) :=
  {path | world.isDirectory filepath = true ∧ isRecursive = true ∧
    Visited world isRecursive filepath path}

variable {world pattern isRecursive}

lemma found_iff {dpath path : List UInt8} :
    Found world pattern isRecursive dpath path ↔
      ∃ fname, Entry world dpath fname ∧
        path ∈ FoundAt world pattern isRecursive (entryPath dpath fname) fname := by
  constructor
  · rintro (⟨hentry, hfile, hmatch⟩ | ⟨hdeep, hentry, hdir, hfound⟩)
    · exact ⟨_, hentry, Or.inl ⟨hfile, hmatch, rfl⟩⟩
    · exact ⟨_, hentry, Or.inr ⟨hdir, hdeep, hfound⟩⟩
  · rintro ⟨fname, hentry, ⟨hfile, hmatch, rfl⟩ | ⟨hdir, hdeep, hfound⟩⟩
    · exact .here hentry hfile hmatch
    · exact .deeper hdeep hentry hdir hfound

lemma visited_iff {dpath path : List UInt8} :
    Visited world isRecursive dpath path ↔
      ∃ fname, Entry world dpath fname ∧
        (path = entryPath dpath fname ∨
          path ∈ VisitedAt world isRecursive (entryPath dpath fname)) := by
  constructor
  · rintro (hentry | ⟨hdeep, hentry, hdir, hvisited⟩)
    · exact ⟨_, hentry, Or.inl rfl⟩
    · exact ⟨_, hentry, Or.inr ⟨hdir, hdeep, hvisited⟩⟩
  · rintro ⟨fname, hentry, rfl | ⟨hdir, hdeep, hvisited⟩⟩
    · exact .here hentry
    · exact .deeper hdeep hentry hdir hvisited

/-! ### Different entries lead to different files -/

lemma entryPath_append (dpath fname t : List UInt8) :
    entryPath dpath fname ++ t = dpath ++ 0x2F :: (fname ++ t) := by
  simp [entryPath]

/-- What is found in a directory has its path in front. -/
lemma Found.eq_append {dpath path : List UInt8} (h : Found world pattern isRecursive dpath path) :
    ∃ t, path = dpath ++ 0x2F :: t := by
  induction h with
  | here => exact ⟨_, rfl⟩
  | deeper _ _ _ _ ih =>
      obtain ⟨t, ht⟩ := ih
      exact ⟨_, ht.trans (entryPath_append _ _ _)⟩

/-- What is found at an entry is the entry, or something in it. -/
lemma eq_append_of_foundAt {filepath fname path : List UInt8}
    (h : path ∈ FoundAt world pattern isRecursive filepath fname) :
    ∃ t, path = filepath ++ t ∧ (t = [] ∨ ∃ u, t = 0x2F :: u) := by
  rcases h with ⟨-, -, rfl⟩ | ⟨-, -, hfound⟩
  · exact ⟨[], by simp, Or.inl rfl⟩
  · obtain ⟨t, ht⟩ := hfound.eq_append
    exact ⟨_, ht, Or.inr ⟨t, rfl⟩⟩

/-- The name before a slash or the end is determined. -/
lemma name_unique {f₁ f₂ t₁ t₂ : List UInt8} (h₁ : (0x2F : UInt8) ∉ f₁) (h₂ : (0x2F : UInt8) ∉ f₂)
    (ht₁ : t₁ = [] ∨ ∃ u, t₁ = 0x2F :: u) (ht₂ : t₂ = [] ∨ ∃ u, t₂ = 0x2F :: u)
    (h : f₁ ++ t₁ = f₂ ++ t₂) : f₁ = f₂ := by
  have key : ∀ {f t : List UInt8}, (0x2F : UInt8) ∉ f → (t = [] ∨ ∃ u, t = 0x2F :: u) →
      (f ++ t).takeWhile (· != 0x2F) = f := by
    intro f t hf ht
    have hall : ∀ c ∈ f, (c != 0x2F) = true := by
      intro c hc
      have hne : c ≠ 0x2F := fun h => hf (h ▸ hc)
      simpa using hne
    rw [List.takeWhile_append_of_pos hall]
    rcases ht with rfl | ⟨u, rfl⟩ <;> simp
  rw [← key h₁ ht₁, h, key h₂ ht₂]

lemma foundAt_unique {dpath f₁ f₂ path : List UInt8} (h₁ : (0x2F : UInt8) ∉ f₁)
    (h₂ : (0x2F : UInt8) ∉ f₂)
    (hp₁ : path ∈ FoundAt world pattern isRecursive (entryPath dpath f₁) f₁)
    (hp₂ : path ∈ FoundAt world pattern isRecursive (entryPath dpath f₂) f₂) : f₁ = f₂ := by
  obtain ⟨t₁, rfl, ht₁⟩ := eq_append_of_foundAt hp₁
  obtain ⟨t₂, heq, ht₂⟩ := eq_append_of_foundAt hp₂
  rw [entryPath_append, entryPath_append] at heq
  exact name_unique h₁ h₂ ht₁ ht₂ (List.cons.inj (List.append_cancel_left heq)).2

/-! ### The search -/

/-- What is at the entries of a list, by what is at each of them. -/
def atEntries (at_ : List UInt8 → Set (List UInt8)) (entries : List (List UInt8)) :
    Set (List UInt8) :=
  {path | ∃ fname ∈ entries, isDots fname = false ∧ path ∈ at_ fname}

variable {at_ : List UInt8 → Set (List UInt8)}

lemma atEntries_nil : atEntries at_ [] = ∅ := by
  ext path
  simp [atEntries]

lemma atEntries_cons_of_dots {fname : List UInt8} (h : isDots fname = true)
    (entries : List (List UInt8)) : atEntries at_ (fname :: entries) = atEntries at_ entries := by
  ext path
  simp [atEntries, h]

lemma atEntries_cons {fname : List UInt8} (h : isDots fname = false)
    (entries : List (List UInt8)) :
    atEntries at_ (fname :: entries) = at_ fname ∪ atEntries at_ entries := by
  ext path
  simp [atEntries, h]

/-- One search behind another, for other files. -/
lemma FindOutcome.append {distinct : Prop} {found₁ found₂ visited₁ visited₂ : Set (List UInt8)}
    {flist files : List File} {r : Except FindFault (List File)}
    (h₁ : FindOutcome world distinct found₁ visited₁ flist (.ok files))
    (h₂ : FindOutcome world distinct found₂ visited₂ files r)
    (hdisjoint : distinct → ∀ path ∈ found₁, path ∉ found₂) :
    FindOutcome world distinct (found₁ ∪ found₂) (visited₁ ∪ visited₂) flist r := by
  obtain ⟨hroom₁, paths₁, rfl, hpaths₁, hnodup₁⟩ := h₁
  match r with
  | .error .overflow =>
      obtain ⟨path, hvisited, hlen⟩ := h₂
      exact ⟨path, Or.inr hvisited, hlen⟩
  | .error .endless => exact h₂
  | .ok files =>
      obtain ⟨hroom₂, paths₂, rfl, hpaths₂, hnodup₂⟩ := h₂
      refine ⟨?_, paths₁ ++ paths₂, by simp, by simp [hpaths₁, hpaths₂], fun h => ?_⟩
      · rintro path (hpath | hpath)
        · exact hroom₁ path hpath
        · exact hroom₂ path hpath
      · refine List.Nodup.append (hnodup₁ h) (hnodup₂ h) fun path hp₁ hp₂ => ?_
        exact hdisjoint h path ((hpaths₁ path).mp hp₁) ((hpaths₂ path).mp hp₂)

/-- The loop over the entries finds what is at each of them. -/
lemma fileFindLoop_outcome
    {oper : List UInt8 → List UInt8 → List File → Except FindFault (List File)}
    {dpath : List UInt8} {distinct : Prop} {found visited : List UInt8 → Set (List UInt8)}
    (hoper : ∀ fname flist, (entryPath dpath fname).length < pathbufSize →
      FindOutcome world distinct (found fname) (visited fname) flist
        (oper (entryPath dpath fname) fname flist))
    (hunique : ∀ {f₁ f₂ path : List UInt8}, (0x2F : UInt8) ∉ f₁ → (0x2F : UInt8) ∉ f₂ →
      path ∈ found f₁ → path ∈ found f₂ → f₁ = f₂) (entries : List (List UInt8)) :
    ∀ flist, (distinct → entries.Nodup ∧ ∀ fname ∈ entries, (0x2F : UInt8) ∉ fname) →
      FindOutcome world distinct (atEntries found entries)
        (atEntries (fun fname => insert (entryPath dpath fname) (visited fname)) entries)
        flist (fileFindLoop oper dpath entries flist) := by
  induction entries with
  | nil =>
      intro flist _
      rw [atEntries_nil, atEntries_nil]
      exact ⟨by simp, [], by simp, by simp, fun _ => List.nodup_nil⟩
  | cons fname entries ih =>
      intro flist hdistinct
      have hrest : distinct → entries.Nodup ∧ ∀ fname ∈ entries, (0x2F : UInt8) ∉ fname :=
        fun h => ⟨(List.nodup_cons.mp (hdistinct h).1).2,
          fun f hf => (hdistinct h).2 f (List.mem_cons_of_mem _ hf)⟩
      rw [fileFindLoop]
      by_cases hdots : isDots fname = true
      · rw [if_pos hdots, atEntries_cons_of_dots hdots, atEntries_cons_of_dots hdots]
        exact ih flist hrest
      · rw [if_neg hdots]
        rw [Bool.not_eq_true] at hdots
        rw [atEntries_cons hdots, atEntries_cons hdots]
        split_ifs with hroom
        · exact ⟨_, Or.inl (Set.mem_insert _ _), hroom⟩
        · have hat := hoper fname flist (not_le.mp hroom)
          cases hr : oper (entryPath dpath fname) fname flist with
          | error e =>
              rw [hr] at hat
              cases e with
              | overflow =>
                  obtain ⟨path, hvisited, hlen⟩ := hat
                  exact ⟨path, Or.inl (Set.mem_insert_of_mem _ hvisited), hlen⟩
              | endless => exact hat
          | ok files =>
              rw [hr] at hat
              have hat' : FindOutcome world distinct (found fname)
                  (insert (entryPath dpath fname) (visited fname)) flist (.ok files) := by
                refine ⟨?_, hat.2⟩
                rintro path (rfl | hpath)
                · exact not_le.mp hroom
                · exact hat.1 path hpath
              refine hat'.append (ih files hrest) fun h => ?_
              obtain ⟨hnodup, hslash⟩ := hdistinct h
              rintro path hpath ⟨f, hf, -, hpath'⟩
              have heq := hunique (hslash fname (by simp)) (hrest h |>.2 f hf) hpath hpath'
              exact (List.nodup_cons.mp hnodup).1 (heq ▸ hf)

lemma atEntries_found {dpath : List UInt8} {entries : List (List UInt8)}
    (h : world.readdir dpath = some entries) :
    atEntries (fun fname => FoundAt world pattern isRecursive (entryPath dpath fname) fname) entries
      = {path | Found world pattern isRecursive dpath path} := by
  ext path
  simp only [atEntries, Set.mem_ofPred_eq, found_iff, Entry, h, Option.some.injEq]
  constructor
  · rintro ⟨fname, hmem, hdots, hat⟩
    exact ⟨fname, ⟨entries, rfl, hmem, hdots⟩, hat⟩
  · rintro ⟨fname, ⟨_, rfl, hmem, hdots⟩, hat⟩
    exact ⟨fname, hmem, hdots, hat⟩

lemma atEntries_visited {dpath : List UInt8} {entries : List (List UInt8)}
    (h : world.readdir dpath = some entries) :
    atEntries (fun fname => insert (entryPath dpath fname)
        (VisitedAt world isRecursive (entryPath dpath fname))) entries
      = {path | Visited world isRecursive dpath path} := by
  ext path
  simp only [atEntries, Set.mem_ofPred_eq, visited_iff, Entry, h, Option.some.injEq,
    Set.mem_insert_iff]
  constructor
  · rintro ⟨fname, hmem, hdots, hat⟩
    exact ⟨fname, ⟨entries, rfl, hmem, hdots⟩, hat⟩
  · rintro ⟨fname, ⟨_, rfl, hmem, hdots⟩, hat⟩
    exact ⟨fname, hmem, hdots, hat⟩

lemma length_entryPath (dpath fname : List UInt8) :
    (entryPath dpath fname).length = dpath.length + 1 + fname.length := by
  simp only [entryPath, List.length_append, List.length_cons]
  omega

/-- What is done for an entry. -/
lemma fileFindFileOper_outcome {distinct : Prop}
    {inner : List UInt8 → List File → Except FindFault (List File)} {filepath : List UInt8}
    (hinner : ∀ flist, FindOutcome world distinct
      {path | Found world pattern isRecursive filepath path}
      {path | Visited world isRecursive filepath path} flist (inner filepath flist))
    (fname : List UInt8) (flist : List File) :
    FindOutcome world distinct (FoundAt world pattern isRecursive filepath fname)
      (VisitedAt world isRecursive filepath) flist
      (fileFindFileOper world pattern isRecursive inner filepath fname flist) := by
  rw [fileFindFileOper]
  cases hdir : world.isDirectory filepath with
  | true =>
      cases isRecursive with
      | true => simpa [FoundAt, VisitedAt, hdir] using hinner flist
      | false =>
          refine ⟨?_, [], by simp, ?_, fun _ => List.nodup_nil⟩
          · simp [VisitedAt]
          · simp [FoundAt, hdir]
  | false =>
      cases hmatch : patternMatch (some pattern) (some fname) with
      | true =>
          refine ⟨?_, [filepath], by simp, ?_, fun _ => List.nodup_singleton _⟩
          · simp [VisitedAt, hdir]
          · simp [FoundAt, hdir, hmatch]
      | false =>
          refine ⟨?_, [], by simp, ?_, fun _ => List.nodup_nil⟩
          · simp [VisitedAt, hdir]
          · simp [FoundAt, hdir, hmatch]

/-- The search in a directory, when it may go deep enough. -/
lemma fileFindInternal_outcome (depth : ℕ) :
    ∀ dpath flist, 0 < depth → pathbufSize < dpath.length + depth →
      FindOutcome world (DistinctEntries world)
        {path | Found world pattern isRecursive dpath path}
        {path | Visited world isRecursive dpath path} flist
        (fileFindInternal world pattern isRecursive depth dpath flist) := by
  induction depth with
  | zero => exact fun _ _ h => absurd h (lt_irrefl 0)
  | succ depth ih =>
      intro dpath flist _ hdepth
      rw [fileFindInternal]
      cases hread : world.readdir dpath with
      | none =>
          refine ⟨?_, [], by simp, ?_, fun _ => List.nodup_nil⟩
          · rintro path hpath
            obtain ⟨_, ⟨_, hread', _⟩, _⟩ := visited_iff.mp hpath
            exact absurd (hread.symm.trans hread') (by simp)
          · intro path
            refine ⟨fun h => absurd h (by simp), fun hpath => ?_⟩
            obtain ⟨_, ⟨_, hread', _⟩, _⟩ := found_iff.mp hpath
            exact absurd (hread.symm.trans hread') (by simp)
      | some entries =>
          -- the path of an entry is longer, and still fits into the buffer
          have hoper : ∀ fname flist, (entryPath dpath fname).length < pathbufSize →
              FindOutcome world (DistinctEntries world)
                (FoundAt world pattern isRecursive (entryPath dpath fname) fname)
                (VisitedAt world isRecursive (entryPath dpath fname)) flist
                (fileFindFileOper world pattern isRecursive
                  (fileFindInternal world pattern isRecursive depth) (entryPath dpath fname)
                  fname flist) := by
            intro fname flist hroom
            have hlen := length_entryPath dpath fname
            exact fileFindFileOper_outcome (fun flist => ih _ flist (by omega) (by omega))
              fname flist
          have hloop := fileFindLoop_outcome hoper foundAt_unique entries flist
            fun h => h dpath entries hread
          rwa [atEntries_found hread, atEntries_visited hread] at hloop

/-- **The search finds what is looked for.** It ends; it writes behind the buffer for a path
exactly when it comes to a path that is too long; otherwise it returns the files that are
looked for, each of them once. -/
theorem fileFind_outcome (world : FileWorld) (pattern : List UInt8) (isRecursive : Bool)
    (file : File) :
    FindOutcome world (DistinctEntries world)
      {path | Found world pattern isRecursive file.path path}
      {path | Visited world isRecursive file.path path} []
      (fileFind world pattern isRecursive file) :=
  fileFindInternal_outcome _ _ _ (Nat.succ_pos _) (by omega)

end Spec

/-! ### The children of a directory -/

/-- `*` matches every name that is not empty. -/
lemma patternMatch_clos {fname : List UInt8} (h : fname ≠ []) :
    patternMatch (some [fpatClos]) (some fname) = true := by
  have hsub : patternSubmatch [fpatClos] fname = true := by
    rw [patternSubmatch_iff, patternGlob_clos, Glob.mem_many_iff]
    refine ⟨fname.length, ?_, by simp [patternGlob_nil]⟩
    rw [List.takeWhile_eq_self_iff.mpr fun _ _ => rfl]
  have hvalid : patternIsValid [fpatClos] = true := by
    simp [patternIsValid, fpatClos, fpatSetL, fpatQuote, fpatNot]
  simp [patternMatch, hvalid, h, hsub]

/-- The loops of `CMUTIL_FileChildren` and of `CMUTIL_FileFind` for `*` see the same entries. -/
lemma fileFindLoop_children {world : FileWorld} {dpath : List UInt8} {entries : List (List UInt8)}
    (hne : ∀ fname ∈ entries, isDots fname = false → fname ≠ [])
    (inner : List UInt8 → List File → Except FindFault (List File)) {flist files : List File}
    (h : fileFindLoop (fun filepath _ flist => .ok (flist ++ [fileCreate world filepath]))
      dpath entries flist = .ok files) :
    ∃ paths : List (List UInt8), files = flist ++ paths.map (fileCreate world) ∧
      ∀ found, fileFindLoop (fileFindFileOper world [fpatClos] false inner) dpath entries found
        = .ok (found ++ (paths.filter fun p => !world.isDirectory p).map (fileCreate world)) := by
  induction entries generalizing flist with
  | nil => exact ⟨[], by simpa [fileFindLoop] using h.symm, by simp [fileFindLoop]⟩
  | cons fname entries ih =>
      have hne' := fun f hf => hne f (List.mem_cons_of_mem _ hf)
      rw [fileFindLoop] at h
      split_ifs at h with hdots hroom
      · obtain ⟨paths, hfiles, hfind⟩ := ih hne' h
        exact ⟨paths, hfiles, fun found => by rw [fileFindLoop, if_pos hdots, hfind]⟩
      · obtain ⟨paths, hfiles, hfind⟩ := ih hne' h
        refine ⟨entryPath dpath fname :: paths, by simp [hfiles], fun found => ?_⟩
        rw [fileFindLoop, if_neg hdots, if_neg hroom, fileFindFileOper,
          patternMatch_clos (hne fname List.mem_cons_self (by simpa using hdots))]
        cases hdir : world.isDirectory (entryPath dpath fname) <;> simp [hdir, hfind]

/-- A search for `*` in the directory alone finds its children, the directories apart. -/
theorem fileFind_children {world : FileWorld} {file : File} {files : List File}
    (hne : ∀ fname, Entry world file.path fname → fname ≠ [])
    (h : fileChildren world file = .ok files) :
    ∃ paths : List (List UInt8), files = paths.map (fileCreate world) ∧
      fileFind world [fpatClos] false file
        = .ok ((paths.filter fun p => !world.isDirectory p).map (fileCreate world)) := by
  rw [fileChildren] at h
  rw [fileFind, fileFindInternal]
  cases hread : world.readdir file.path with
  | none =>
      rw [hread] at h
      exact ⟨[], by simpa using h.symm, by simp⟩
  | some entries =>
      rw [hread] at h
      have hentries : ∀ fname ∈ entries, isDots fname = false → fname ≠ [] :=
        fun fname hmem hdots => hne fname ⟨entries, hread, hmem, hdots⟩
      obtain ⟨paths, hfiles, hfind⟩ := fileFindLoop_children hentries
        (fileFindInternal world [fpatClos] false pathbufSize) h
      exact ⟨paths, by simpa using hfiles, by simpa using hfind []⟩

end LibCmutils
