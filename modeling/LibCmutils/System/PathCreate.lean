import LibCmutils.Lib.FileTree
import Mathlib.Algebra.Order.Ring.Int

/-!
Creating a directory and its missing ancestors (`src/system.c`).

* `pathSteps`: the steps that a path stands for. Empty components count for nothing.
* `PathWorld`: a tree, and how often `mkdir` was called, which decides whether the next call is
  refused.
* `pathCreate`: `CMUTIL_PathCreate`, with its loop `pathCreateLoop`, which calls it again with
  the path before the last slash.
* `pathCreateFrom_spec`: the calls end, create what they may, and return true for a path only
  when there is something. `pathCreateFrom_permitted`: with nothing in the way and nothing
  refused they do.
* `pathCreate_iff`: the exact condition. An existing file that is no directory counts as
  created, and the buffer for the parent has room for 4096 bytes with the zero.

A path may be any bytes. What is not refused follows the tree: there are no links, and a
directory is there as soon as it is made.
-/

namespace LibCmutils

open FileTree

/-! ### Paths -/

/-- `strrchr`: the text before the last `c`, and the one behind it. -/
def strrchrSplit (c : UInt8) : List UInt8 → Option (List UInt8 × List UInt8)
  | [] => none
  | d :: s =>
      match strrchrSplit c s with
      | some (u, v) => some (d :: u, v)
      | none => if d = c then some ([], s) else none

lemma strrchrSplit_none {c : UInt8} {s : List UInt8} (h : strrchrSplit c s = none) : c ∉ s := by
  induction s with
  | nil => simp
  | cons d s ih =>
      rw [strrchrSplit] at h
      split at h
      · exact absurd h (by simp)
      · next hs =>
          split_ifs at h with hd
          rw [List.mem_cons, not_or]
          exact ⟨Ne.symm hd, ih hs⟩

lemma strrchrSplit_some {c : UInt8} {s u v : List UInt8} (h : strrchrSplit c s = some (u, v)) :
    s = u ++ c :: v ∧ c ∉ v := by
  induction s generalizing u with
  | nil => exact absurd h (by simp [strrchrSplit])
  | cons d s ih =>
      rw [strrchrSplit] at h
      split at h
      · next hs =>
          rw [Option.some.injEq, Prod.mk.injEq] at h
          obtain ⟨rfl, rfl⟩ := h
          obtain ⟨rfl, hv⟩ := ih hs
          exact ⟨rfl, hv⟩
      · next hs =>
          split_ifs at h with hd
          rw [Option.some.injEq, Prod.mk.injEq] at h
          obtain ⟨rfl, rfl⟩ := h
          exact ⟨by rw [hd]; rfl, strrchrSplit_none hs⟩

/-- The components of a path. -/
def pathComponents (path : List UInt8) : List (List UInt8) :=
  (path.splitOn 0x2F).filter fun c => c ≠ []

/-- A component `.` or `..` is not a name. -/
def pathStep (component : List UInt8) : PathStep (List UInt8) :=
  if component = [0x2E] then .stay
  else if component = [0x2E, 0x2E] then .up
  else .down component

/-- The steps that a path stands for. -/
def pathSteps (path : List UInt8) : List (PathStep (List UInt8)) :=
  (pathComponents path).map pathStep

/-- The place where a path starts: the root, or the current directory. -/
def pathStart (cwd : List (List UInt8)) (path : List UInt8) : List (List UInt8) :=
  if path.head? = some 0x2F then [] else cwd

/-! ### Data -/

/-- Reasons for an end without a result: a write outside of `subpath`, and the end of the
fuel. -/
inductive PathCreateError where
  | outOfBounds | stuck
  deriving DecidableEq

/-- The tree, and the number of calls of `mkdir`. -/
structure PathWorld where
  tree : FileTree (List UInt8)
  calls : ℕ

/-- `mkdir`, and whether it is refused. -/
def mkdir (cwd : List (List UInt8)) (refused : Bool) (tree : FileTree (List UInt8))
    (path : List UInt8) : Except DirectoryError (FileTree (List UInt8)) :=
  if path = [] then .error .noEntry
  else tree.makeDirectory refused (pathStart cwd path) (pathSteps path)

/-- A call of `MKDIR` with the check for `EEXIST` behind it: whether `CMUTIL_PathCreate` is
done. -/
def pathMake (cwd : List (List UInt8)) (refused : ℕ → Bool) (path : List UInt8)
    (w : PathWorld) : Bool × PathWorld :=
  match mkdir cwd (refused w.calls) w.tree path with
  | .ok tree => (true, ⟨tree, w.calls + 1⟩)
  | .error e => (e == .entryExists, ⟨w.tree, w.calls + 1⟩)

/-- The loop of `CMUTIL_PathCreate`, for `n` more rounds after this one; the last one returns
whatever is in the way. `create` is the recursive call, and `subpath` has room for 4096
bytes. -/
def pathCreateLoop
    (create : PathWorld → List UInt8 → Except PathCreateError (Bool × PathWorld))
    (cwd : List (List UInt8)) (refused : ℕ → Bool) (path : List UInt8) :
    ℕ → PathWorld → Except PathCreateError (Bool × PathWorld)
  | 0, w => .ok (pathMake cwd refused path w)
  | n + 1, w =>
      let made := pathMake cwd refused path w
      if made.1 then .ok made
      else
        match strrchrSplit 0x2F path with
        | none => .ok made
        | some (subpath, _) =>
            if subpath = [] then .ok made
            else if 4096 ≤ subpath.length then .error .outOfBounds
            else
              match create made.2 subpath with
              | .ok (true, w') => pathCreateLoop create cwd refused path n w'
              | result => result

/-- The calls of `CMUTIL_PathCreate`, at most `fuel` one inside the other. -/
def pathCreateFrom (cwd : List (List UInt8)) (refused : ℕ → Bool) :
    ℕ → PathWorld → List UInt8 → Except PathCreateError (Bool × PathWorld)
  | 0, _, _ => .error .stuck
  | fuel + 1, w, path =>
      pathCreateLoop (pathCreateFrom cwd refused fuel) cwd refused path 2 w

/-- `CMUTIL_PathCreate`: its result, and the tree. -/
def pathCreate (cwd : List (List UInt8)) (refused : ℕ → Bool) (tree : FileTree (List UInt8))
    (path : List UInt8) : Except PathCreateError (Bool × FileTree (List UInt8)) :=
  (pathCreateFrom cwd refused (path.length + 1) ⟨tree, 0⟩ path).map fun r => (r.1, r.2.tree)

/-! ### What is wanted -/

/-- A path leads to a place in a tree. -/
def PathLeads (tree : FileTree (List UInt8)) (cwd : List (List UInt8)) (path : List UInt8)
    (p : List (List UInt8)) : Prop :=
  path ≠ [] ∧ tree.walk (pathStart cwd path) (pathSteps path) = .ok p

/-- There is something at the end of a path. -/
def PathExists (tree : FileTree (List UInt8)) (cwd : List (List UInt8)) (path : List UInt8) :
    Prop :=
  ∃ p, PathLeads tree cwd path p ∧ tree.kind p ≠ none

/-- A path names a directory. -/
def NamesDirectory (tree : FileTree (List UInt8)) (cwd : List (List UInt8))
    (path : List UInt8) : Prop :=
  ∃ p, PathLeads tree cwd path p ∧ tree.kind p = some .directory

/-- A path, or what is before one of its slashes. -/
def SelfOrAncestor (q path : List UInt8) : Prop :=
  q = path ∨ ∃ r, path = q ++ 0x2F :: r

/-- Nothing is lost, and everything new is a directory that the path or one of its ancestors
leads to. -/
structure CreatesOnly (tree tree' : FileTree (List UInt8)) (cwd : List (List UInt8))
    (path : List UInt8) : Prop where
  grows : tree.Grows tree'
  named : ∀ p, tree.kind p = none → tree'.kind p ≠ none →
    ∃ q, SelfOrAncestor q path ∧ PathLeads tree' cwd q p

/-- What is wanted of `CMUTIL_PathCreate`. -/
def PathCreateKept (result : Except PathCreateError (Bool × FileTree (List UInt8)))
    (tree : FileTree (List UInt8)) (cwd : List (List UInt8)) (path : List UInt8) : Prop :=
  ∃ created tree', result = .ok (created, tree') ∧
    (created = true → NamesDirectory tree' cwd path) ∧ CreatesOnly tree tree' cwd path

/-- The parent of a path fits in the buffer. -/
def ParentFits (path : List UInt8) : Prop :=
  ∀ u v, strrchrSplit 0x2F path = some (u, v) → u.length < 4096

/-! ### Steps of paths -/

lemma pathSteps_append (u v : List UInt8) :
    pathSteps (u ++ 0x2F :: v) = pathSteps u ++ pathSteps v := by
  rw [pathSteps, pathSteps, pathSteps, pathComponents, pathComponents, pathComponents,
    List.splitOn_append_cons_self, List.filter_append, List.map_append]

/-- Without a slash there is one step at most. -/
lemma length_pathSteps_le {path : List UInt8} (h : (0x2F : UInt8) ∉ path) :
    (pathSteps path).length ≤ 1 := by
  rw [pathSteps, List.length_map, pathComponents, List.splitOn_eq_singleton h]
  exact List.length_filter_le _ _

lemma pathStart_append (cwd : List (List UInt8)) {u : List UInt8} (hu : u ≠ [])
    (v : List UInt8) : pathStart cwd (u ++ v) = pathStart cwd u := by
  obtain ⟨c, u, rfl⟩ := List.exists_cons_of_ne_nil hu
  rfl

lemma kind_pathStart {tree : FileTree (List UInt8)} {cwd : List (List UInt8)}
    (hcwd : tree.kind cwd = some .directory) (path : List UInt8) :
    tree.kind (pathStart cwd path) = some .directory := by
  rw [pathStart]
  split_ifs
  · exact tree.root
  · exact hcwd

/-- A path of more than one step has a parent. -/
lemma exists_parent {path : List UInt8} (h : 2 ≤ (pathSteps path).length) :
    ∃ u v, strrchrSplit 0x2F path = some (u, v) ∧ u ≠ [] := by
  cases hsplit : strrchrSplit 0x2F path with
  | none =>
      have hle := length_pathSteps_le (strrchrSplit_none hsplit)
      omega
  | some r =>
      obtain ⟨u, v⟩ := r
      obtain ⟨rfl, hv⟩ := strrchrSplit_some hsplit
      refine ⟨u, v, rfl, ?_⟩
      rintro rfl
      have hle := length_pathSteps_le hv
      rw [pathSteps_append, List.length_append] at h
      have hnil : (pathSteps []).length = 0 := rfl
      omega

lemma SelfOrAncestor.trans {q u path : List UInt8} (h : SelfOrAncestor q u)
    (h' : SelfOrAncestor u path) : SelfOrAncestor q path := by
  rcases h' with rfl | ⟨r, rfl⟩
  · exact h
  · rcases h with rfl | ⟨r', rfl⟩
    · exact .inr ⟨r, rfl⟩
    · exact .inr ⟨r' ++ 0x2F :: r, by simp⟩

section Grow

variable {tree tree' tree'' : FileTree (List UInt8)} {cwd : List (List UInt8)}
  {path : List UInt8}

lemma PathLeads.grow {p : List (List UInt8)} (h : PathLeads tree cwd path p)
    (hgrows : tree.Grows tree') : PathLeads tree' cwd path p :=
  ⟨h.1, hgrows.walk h.2⟩

lemma CreatesOnly.refl (tree : FileTree (List UInt8)) (cwd : List (List UInt8))
    (path : List UInt8) : CreatesOnly tree tree cwd path :=
  ⟨.refl tree, fun _ h h' => absurd h h'⟩

lemma CreatesOnly.trans (h : CreatesOnly tree tree' cwd path)
    (h' : CreatesOnly tree' tree'' cwd path) : CreatesOnly tree tree'' cwd path := by
  refine ⟨h.grows.trans h'.grows, fun p hp hp'' => ?_⟩
  by_cases hnew : tree'.kind p = none
  · exact h'.named p hnew hp''
  · obtain ⟨q, hq, hleads⟩ := h.named p hp hnew
    exact ⟨q, hq, hleads.grow h'.grows⟩

/-- What an ancestor creates. -/
lemma CreatesOnly.of_ancestor {u : List UInt8} (h : CreatesOnly tree tree' cwd u)
    (hu : SelfOrAncestor u path) : CreatesOnly tree tree' cwd path := by
  refine ⟨h.grows, fun p hp hp' => ?_⟩
  obtain ⟨q, hq, hleads⟩ := h.named p hp hp'
  exact ⟨q, hq.trans hu, hleads⟩

end Grow

/-! ### One call of `mkdir` -/

section Make

/-- What a call may create, and that there is something when it says so. -/
lemma pathMake_spec (cwd : List (List UInt8)) (refused : ℕ → Bool) (path : List UInt8)
    (w : PathWorld) :
    CreatesOnly w.tree (pathMake cwd refused path w).2.tree cwd path ∧
      ((pathMake cwd refused path w).1 = true →
        PathExists (pathMake cwd refused path w).2.tree cwd path) := by
  rw [pathMake]
  cases hmake : mkdir cwd (refused w.calls) w.tree path with
  | ok tree =>
      rw [mkdir] at hmake
      split_ifs at hmake with hpath
      obtain ⟨-, p, hwalk, hp, hkind⟩ := makeDirectory_ok hmake
      have hgrows := Grows.of_update hp hkind
      have hleads : PathLeads tree cwd path p := ⟨hpath, hgrows.walk hwalk⟩
      refine ⟨⟨hgrows, fun q hq hq' => ⟨path, .inl rfl, ?_⟩⟩, fun _ => ⟨p, hleads, ?_⟩⟩
      · by_cases hqp : q = p
        · rw [hqp]
          exact hleads
        · simp only [hkind, Function.update_of_ne hqp] at hq'
          exact absurd hq hq'
      · simp [hkind]
  | error e =>
      refine ⟨.refl _ _ _, fun h => ?_⟩
      obtain rfl : e = .entryExists := by simpa using h
      rw [mkdir] at hmake
      split_ifs at hmake with hpath
      · exact absurd hmake (by simp)
      · obtain ⟨p, hwalk, hp⟩ := makeDirectory_entryExists.mp hmake
        exact ⟨p, ⟨hpath, hwalk⟩, hp⟩

variable {cwd : List (List UInt8)} {path : List UInt8} {w : PathWorld}

/-- When there is something, the call says so and changes nothing. -/
lemma pathMake_exists (refused : ℕ → Bool) (h : PathExists w.tree cwd path) :
    pathMake cwd refused path w = (true, ⟨w.tree, w.calls + 1⟩) := by
  obtain ⟨p, ⟨hpath, hwalk⟩, hp⟩ := h
  rw [pathMake, mkdir, if_neg hpath, makeDirectory_entryExists.mpr ⟨p, hwalk, hp⟩]
  rfl

/-- When there is nothing, a refused call does nothing. -/
lemma pathMake_refused (h : ¬ PathExists w.tree cwd path) :
    pathMake cwd (fun _ => true) path w = (false, ⟨w.tree, w.calls + 1⟩) := by
  have hmake : ∃ e, mkdir cwd true w.tree path = .error e ∧ e ≠ .entryExists := by
    rw [mkdir]
    split_ifs with hpath
    · exact ⟨.noEntry, rfl, by simp⟩
    · cases hm : w.tree.makeDirectory true (pathStart cwd path) (pathSteps path) with
      | ok tree => exact absurd (makeDirectory_ok hm).1 (by simp)
      | error e =>
          refine ⟨e, rfl, ?_⟩
          rintro rfl
          obtain ⟨p, hwalk, hp⟩ := makeDirectory_entryExists.mp hm
          exact h ⟨p, ⟨hpath, hwalk⟩, hp⟩
  obtain ⟨e, he, hne⟩ := hmake
  rw [pathMake, he]
  simp [hne]

/-- When the walk to a path succeeds and nothing is refused, the call is done. -/
lemma pathMake_permitted (hcwd : w.tree.kind cwd = some .directory) {p : List (List UInt8)}
    (h : PathLeads w.tree cwd path p) : (pathMake cwd (fun _ => false) path w).1 = true := by
  by_cases hp : w.tree.kind p = none
  · obtain ⟨tree, htree⟩ := exists_makeDirectory (kind_pathStart hcwd path) h.2 hp
    rw [pathMake, mkdir, if_neg h.1, htree]
  · rw [pathMake_exists _ ⟨p, h, hp⟩]

end Make

/-! ### All calls -/

section Calls

variable {cwd : List (List UInt8)} {refused : ℕ → Bool} {path : List UInt8}

lemma ParentFits.parent {u v : List UInt8} (h : ParentFits path)
    (hsplit : strrchrSplit 0x2F path = some (u, v)) : ParentFits u := by
  intro u' v' hsplit'
  have hu := h u v hsplit
  have heq := congrArg List.length (strrchrSplit_some hsplit').1
  rw [List.length_append, List.length_cons] at heq
  omega

/-- The loop ends and creates what it may, when the calls for the parent do. -/
lemma pathCreateLoop_spec
    {create : PathWorld → List UInt8 → Except PathCreateError (Bool × PathWorld)}
    (hfits : ParentFits path)
    (hcreate : ∀ u v, strrchrSplit 0x2F path = some (u, v) → ∀ w : PathWorld,
      ∃ r, create w u = .ok r ∧ CreatesOnly w.tree r.2.tree cwd u) :
    ∀ (n : ℕ) (w : PathWorld), ∃ r, pathCreateLoop create cwd refused path n w = .ok r ∧
      CreatesOnly w.tree r.2.tree cwd path ∧
        (r.1 = true → PathExists r.2.tree cwd path) := by
  intro n
  induction n with
  | zero =>
      intro w
      obtain ⟨honly, hexists⟩ := pathMake_spec cwd refused path w
      exact ⟨_, rfl, honly, hexists⟩
  | succ n ih =>
      intro w
      obtain ⟨honly, hexists⟩ := pathMake_spec cwd refused path w
      rw [pathCreateLoop]
      split_ifs with hmade
      · exact ⟨_, rfl, honly, hexists⟩
      cases hsplit : strrchrSplit 0x2F path with
      | none => exact ⟨_, rfl, honly, hexists⟩
      | some r =>
          obtain ⟨u, v⟩ := r
          simp only
          split_ifs with hu hlong
          · exact ⟨_, rfl, honly, hexists⟩
          · exact absurd (hfits u v hsplit) (by omega)
          · obtain ⟨⟨done, w'⟩, hw', hparent⟩ :=
              hcreate u v hsplit (pathMake cwd refused path w).2
            have hup : SelfOrAncestor u path := .inr ⟨v, (strrchrSplit_some hsplit).1⟩
            have honly' := honly.trans (hparent.of_ancestor hup)
            rw [hw']
            cases done with
            | false => exact ⟨_, rfl, honly', fun h => absurd h (by simp)⟩
            | true =>
                obtain ⟨r, hr, hrest, hexists'⟩ := ih w'
                exact ⟨r, hr, honly'.trans hrest, hexists'⟩

/-- The calls end, create what they may, and return true only when there is something. -/
lemma pathCreateFrom_spec (refused : ℕ → Bool) : ∀ {fuel : ℕ} {path : List UInt8},
    path.length < fuel → ParentFits path → ∀ w : PathWorld,
    ∃ r, pathCreateFrom cwd refused fuel w path = .ok r ∧
      CreatesOnly w.tree r.2.tree cwd path ∧
        (r.1 = true → PathExists r.2.tree cwd path)
  | 0, _, hfuel, _, _ => absurd hfuel (by omega)
  | fuel + 1, path, hfuel, hfits, w => by
      rw [pathCreateFrom]
      refine pathCreateLoop_spec hfits (fun u v hsplit w => ?_) 2 w
      have heq := congrArg List.length (strrchrSplit_some hsplit).1
      rw [List.length_append, List.length_cons] at heq
      have hlt : u.length < fuel := by omega
      obtain ⟨r, hr, honly, -⟩ := pathCreateFrom_spec refused hlt (hfits.parent hsplit) w
      exact ⟨r, hr, honly⟩

/-- The parent of a path that is in the way of nothing: it is clear itself, and no file. -/
lemma clear_parent {tree : FileTree (List UInt8)} {u v : List UInt8} (hu : u ≠ [])
    (h : tree.Clear (pathStart cwd (u ++ 0x2F :: v)) (pathSteps (u ++ 0x2F :: v))) :
    tree.Clear (pathStart cwd u) (pathSteps u) ∧
      (pathSteps v ≠ [] →
        tree.kind (destination (pathStart cwd u) (pathSteps u)) ≠ some .other) := by
  rw [pathStart_append cwd hu, pathSteps_append, clear_append] at h
  refine ⟨h.1, fun hv => ?_⟩
  obtain ⟨s, steps, hs⟩ := List.exists_cons_of_ne_nil hv
  rw [hs] at h
  exact h.2.1

/-- A path whose parent was created leads somewhere. -/
lemma leads_of_parent {tree tree' : FileTree (List UInt8)} {u v : List UInt8} (hu : u ≠ [])
    (hv : (0x2F : UInt8) ∉ v) (hgrows : tree.Grows tree')
    (h : tree.Clear (pathStart cwd (u ++ 0x2F :: v)) (pathSteps (u ++ 0x2F :: v)))
    (hparent : PathExists tree' cwd u) : ∃ p, PathLeads tree' cwd (u ++ 0x2F :: v) p := by
  obtain ⟨p, ⟨-, hwalk⟩, hp⟩ := hparent
  have hother := (clear_parent hu h).2
  have hdest := walk_ok hwalk
  cases hsteps : pathSteps v with
  | nil =>
      refine ⟨p, by simp, ?_⟩
      rw [pathStart_append cwd hu, pathSteps_append, hsteps, List.append_nil, hwalk]
  | cons s steps =>
      have hone := length_pathSteps_le hv
      rw [hsteps, List.length_cons] at hone
      obtain rfl : steps = [] := List.length_eq_zero_iff.mp (by omega)
      have hdir : tree'.kind p = some .directory := by
        cases hk : tree'.kind p with
        | none => exact absurd hk hp
        | some k =>
            cases k with
            | directory => rfl
            | other =>
                rw [hgrows.other_iff, hdest] at hk
                exact absurd hk (hother (by simp [hsteps]))
      refine ⟨s.go p, by simp, ?_⟩
      rw [pathStart_append cwd hu, pathSteps_append, hsteps, walk_append hwalk,
        walk_cons_directory hdir, walk]

/-- A path that leads nowhere has a parent. -/
lemma exists_parent_of_not_leads {tree : FileTree (List UInt8)} (hpath : path ≠ [])
    (hcwd : tree.kind cwd = some .directory) (h : ¬ ∃ p, PathLeads tree cwd path p) :
    ∃ u v, strrchrSplit 0x2F path = some (u, v) ∧ u ≠ [] := by
  cases hwalk : tree.walk (pathStart cwd path) (pathSteps path) with
  | ok p => exact absurd ⟨p, hpath, hwalk⟩ h
  | error e => exact exists_parent (two_le_length_of_walk (kind_pathStart hcwd path) hwalk)

/-- With nothing in the way and nothing refused the path is created. -/
lemma pathCreateFrom_permitted : ∀ {fuel : ℕ} {path : List UInt8} {w : PathWorld},
    path.length < fuel → ParentFits path → path ≠ [] → w.tree.kind cwd = some .directory →
    w.tree.Clear (pathStart cwd path) (pathSteps path) →
    ∃ w', pathCreateFrom cwd (fun _ => false) fuel w path = .ok (true, w')
  | 0, _, _, hfuel, _, _, _, _ => absurd hfuel (by omega)
  | fuel + 1, path, w, hfuel, hfits, hpath, hcwd, hclear => by
      rw [pathCreateFrom, pathCreateLoop]
      split_ifs with hmade
      · exact ⟨_, by rw [← hmade]⟩
      have hleads : ¬ ∃ p, PathLeads w.tree cwd path p :=
        fun ⟨p, hp⟩ => hmade (pathMake_permitted hcwd hp)
      obtain ⟨u, v, hsplit, hu⟩ := exists_parent_of_not_leads hpath hcwd hleads
      obtain ⟨hpath_eq, hv⟩ := strrchrSplit_some hsplit
      have hlt : u.length < fuel := by
        have heq := congrArg List.length hpath_eq
        rw [List.length_append, List.length_cons] at heq
        omega
      -- the parent is created, from a tree that has grown
      obtain ⟨honly, -⟩ := pathMake_spec cwd (fun _ => false) path w
      generalize (pathMake cwd (fun _ => false) path w).2 = w₁ at honly
      rw [hpath_eq] at hclear
      have hclear₁ := (clear_parent hu (honly.grows.clear_iff.mpr hclear)).1
      obtain ⟨w₂, hw₂⟩ := pathCreateFrom_permitted hlt (hfits.parent hsplit) hu
        (honly.grows.keeps hcwd) hclear₁
      obtain ⟨r, hr, hparent, hexists⟩ :=
        pathCreateFrom_spec (fun _ => false) hlt (hfits.parent hsplit) w₁
      obtain rfl : (true, w₂) = r := Except.ok.inj (hw₂.symm.trans hr)
      -- and then the path leads somewhere
      have hgrows := honly.grows.trans hparent.grows
      obtain ⟨p, hp⟩ := leads_of_parent hu hv hgrows hclear (hexists rfl)
      rw [← hpath_eq] at hp
      have hdone := pathMake_permitted (hgrows.keeps hcwd) hp
      simp only [hsplit, if_neg hu, if_neg (not_le.mpr (hfits u v hsplit)), hw₂]
      rw [pathCreateLoop, if_pos hdone]
      exact ⟨_, by rw [← hdone]⟩

end Calls

/-! ### The condition -/

section Result

variable {tree : FileTree (List UInt8)} {cwd : List (List UInt8)} {path : List UInt8}

/-- When the parent fits, there is a result whatever is refused. -/
lemma pathCreate_eq_ok (tree : FileTree (List UInt8)) (cwd : List (List UInt8))
    (refused : ℕ → Bool) (hfits : ParentFits path) :
    ∃ created tree', pathCreate cwd refused tree path = .ok (created, tree') ∧
      CreatesOnly tree tree' cwd path ∧ (created = true → PathExists tree' cwd path) := by
  obtain ⟨r, hr, honly, hexists⟩ :=
    pathCreateFrom_spec refused (Nat.lt_succ_self path.length) hfits ⟨tree, 0⟩
  exact ⟨r.1, r.2.tree, by rw [pathCreate, hr]; rfl, honly, hexists⟩

lemma pathCreate_of_exists (refused : ℕ → Bool) (h : PathExists tree cwd path) :
    pathCreate cwd refused tree path = .ok (true, tree) := by
  rw [pathCreate, pathCreateFrom, pathCreateLoop, pathMake_exists refused h]
  rfl

/-- With everything refused a path that is too long overflows the buffer. -/
lemma pathCreate_overflow (h : ¬ PathExists tree cwd path) {u v : List UInt8}
    (hsplit : strrchrSplit 0x2F path = some (u, v)) (hlong : 4096 ≤ u.length) :
    pathCreate cwd (fun _ => true) tree path = .error .outOfBounds := by
  have hu : u ≠ [] := by
    rintro rfl
    simp at hlong
  have hmake : pathMake cwd (fun _ => true) path ⟨tree, 0⟩ = (false, ⟨tree, 1⟩) :=
    pathMake_refused h
  rw [pathCreate, pathCreateFrom, pathCreateLoop, hmake]
  simp [hsplit, hu, hlong, Except.map]

/-- What is at the end of a path is a directory, or a file that was there before. -/
lemma namesDirectory_of_exists {tree' : FileTree (List UInt8)} (hgrows : tree.Grows tree')
    (h : PathExists tree' cwd path)
    (hfile : ¬ tree.LeadsToFile (pathStart cwd path) (pathSteps path)) :
    NamesDirectory tree' cwd path := by
  obtain ⟨p, hleads, hp⟩ := h
  refine ⟨p, hleads, ?_⟩
  cases hk : tree'.kind p with
  | none => exact absurd hk hp
  | some k =>
      cases k with
      | directory => rfl
      | other => exact absurd (hgrows.leadsToFile hleads.2 hk) hfile

/-- A path to a file names no directory, and never will. -/
lemma not_namesDirectory {tree' : FileTree (List UInt8)} (hgrows : tree.Grows tree')
    (hfile : tree.LeadsToFile (pathStart cwd path) (pathSteps path)) :
    ¬ NamesDirectory tree' cwd path := by
  rintro ⟨p, ⟨-, hwalk⟩, hp⟩
  have hother := hgrows.other_iff.mpr hfile.2
  rw [← walk_ok hwalk, hp] at hother
  exact absurd hother (by simp)

end Result

/-- **Creating directories.** For every tree, current directory and path: whatever is refused,
`CMUTIL_PathCreate` ends, returns true only if the path then names a directory, and creates
only the path and its ancestors, if and only if the path does not lead to a file that is no
directory, and it exists or its parent fits in the buffer. -/
theorem pathCreate_iff {tree : FileTree (List UInt8)} {cwd : List (List UInt8)}
    (hcwd : tree.kind cwd = some .directory) (path : List UInt8) :
    (∀ refused, PathCreateKept (pathCreate cwd refused tree path) tree cwd path) ↔
      ¬ tree.LeadsToFile (pathStart cwd path) (pathSteps path) ∧
        (PathExists tree cwd path ∨ ParentFits path) := by
  constructor
  · intro h
    have hroom : PathExists tree cwd path ∨ ParentFits path := by
      by_contra hno
      obtain ⟨hexists, hfits⟩ := not_or.mp hno
      obtain ⟨u, v, hsplit, hlong⟩ : ∃ u v, strrchrSplit 0x2F path = some (u, v) ∧
          4096 ≤ u.length := by
        by_contra hshort
        exact hfits fun u v hsplit => not_le.mp fun hle => hshort ⟨u, v, hsplit, hle⟩
      obtain ⟨created, tree', hresult, -⟩ := h fun _ => true
      rw [pathCreate_overflow hexists hsplit hlong] at hresult
      exact absurd hresult (by simp)
    refine ⟨fun hfile => ?_, hroom⟩
    obtain ⟨created, tree', hresult, hnames, honly⟩ := h fun _ => false
    refine not_namesDirectory honly.grows hfile (hnames ?_)
    rcases hroom with hexists | hfits
    · rw [pathCreate_of_exists _ hexists, Except.ok.injEq, Prod.mk.injEq] at hresult
      exact hresult.1.symm
    · have hpath : path ≠ [] := by
        rintro rfl
        exact absurd (hcwd.symm.trans hfile.2) (by simp)
      have hstart : (⟨tree, 0⟩ : PathWorld).tree.kind cwd = some .directory := hcwd
      obtain ⟨w', hw'⟩ := pathCreateFrom_permitted (Nat.lt_succ_self path.length) hfits hpath
        hstart hfile.1
      rw [pathCreate, hw'] at hresult
      simp only [Except.map, Except.ok.injEq, Prod.mk.injEq] at hresult
      exact hresult.1.symm
  · rintro ⟨hfile, hexists | hfits⟩ refused
    · exact ⟨true, tree, pathCreate_of_exists refused hexists,
        fun _ => namesDirectory_of_exists (.refl tree) hexists hfile, .refl tree cwd path⟩
    · obtain ⟨created, tree', hresult, honly, hexists⟩ :=
        pathCreate_eq_ok tree cwd refused hfits
      exact ⟨created, tree', hresult,
        fun hc => namesDirectory_of_exists honly.grows (hexists hc) hfile, honly⟩

/-- A tree with one file, `f`. -/
def oneFileTree : FileTree (List UInt8) where
  kind p := if p = [] then some .directory else if p = [[0x66]] then some .other else none
  root := rfl
  parent n p h := by
    by_cases hp : p = []
    · rw [if_pos hp]
    · exact absurd h (by simp [hp])

/-- The path `d/e` in this tree. -/
theorem pathCreate_iff_new :
    (∀ refused, PathCreateKept (pathCreate [] refused oneFileTree [0x64, 0x2F, 0x65])
        oneFileTree [] [0x64, 0x2F, 0x65]) ↔
      ¬ oneFileTree.LeadsToFile (pathStart [] [0x64, 0x2F, 0x65])
          (pathSteps [0x64, 0x2F, 0x65]) ∧
        (PathExists oneFileTree [] [0x64, 0x2F, 0x65] ∨ ParentFits [0x64, 0x2F, 0x65]) :=
  pathCreate_iff rfl _

/-- For the path `f` the result is true, and `f` is still a file. -/
theorem pathCreate_fails :
    pathCreate [] (fun _ => false) oneFileTree [0x66] = .ok (true, oneFileTree) ∧
      oneFileTree.kind [[0x66]] = some .other ∧
      ¬ PathCreateKept (pathCreate [] (fun _ => false) oneFileTree [0x66]) oneFileTree []
        [0x66] := by
  have hsteps : pathSteps [0x66] = [.down [0x66]] := by decide
  have hexists : PathExists oneFileTree [] [0x66] :=
    ⟨[[0x66]], ⟨by simp, by rw [hsteps]; rfl⟩, by decide⟩
  have hresult := pathCreate_of_exists (fun _ => false) hexists
  refine ⟨hresult, by decide, ?_⟩
  rintro ⟨created, tree', heq, hnames, -⟩
  rw [hresult, Except.ok.injEq, Prod.mk.injEq] at heq
  obtain ⟨rfl, rfl⟩ := heq
  have hfile : oneFileTree.LeadsToFile (pathStart [] [0x66]) (pathSteps [0x66]) := by
    rw [hsteps]
    exact ⟨⟨by decide, trivial⟩, by decide⟩
  exact not_namesDirectory (.refl oneFileTree) hfile (hnames rfl)

end LibCmutils
