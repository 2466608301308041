import Mathlib.Data.List.Basic
import Mathlib.Logic.Function.Basic

/-!
Trees of files, and the creation of directories in them.

* `FileTree`: what is at every place. A place is the list of the names that lead to it, the
  last one first, and only directories have something in them.
* `PathStep`, `walk`: the steps of a path, and the place where they lead. Every place on the
  way has to be a directory; `destination` is the place alone.
* `makeDirectory`: `mkdir`, which may also be refused. `makeDirectory_ok`,
  `makeDirectory_entryExists` say what it does.
* `Grows`: nothing is lost, and what is new is a directory. A path that leads somewhere goes on
  to lead there.
* `Clear`, `LeadsToFile`: no file is in the way, and what is at the end is no directory. Both
  take a missing directory as if it were made, and do not change when the tree grows.
-/

namespace LibCmutils

universe u

/-- What is at a place. -/
inductive FileKind where
  | directory | other
  deriving DecidableEq

/-- A tree of files with names in `N`. -/
structure FileTree (N : Type u) where
  kind : List N → Option FileKind
  root : kind [] = some .directory
  parent : ∀ n p, kind (n :: p) ≠ none → kind p = some .directory

/-- A step of a path. -/
inductive PathStep (N : Type u) where
  | stay | up
  | down (n : N)
  deriving DecidableEq

variable {N : Type u}

/-- The place where a step leads. Nothing is above the root. -/
def PathStep.go : PathStep N → List N → List N
  | .stay, p => p
  | .up, p => p.tail
  | .down n, p => n :: p

/-- The reasons why a directory is not made. -/
inductive DirectoryError where
  | noEntry | notDirectory | entryExists | refused
  deriving DecidableEq

namespace FileTree

/-- The place where steps lead from `p`. -/
def destination (p : List N) (steps : List (PathStep N)) : List N :=
  steps.foldl (fun p s => s.go p) p

/-- Following the steps of a path from `p`. -/
def walk (t : FileTree N) : List N → List (PathStep N) → Except DirectoryError (List N)
  | p, [] => .ok p
  | p, s :: steps =>
      match t.kind p with
      | none => .error .noEntry
      | some .other => .error .notDirectory
      | some .directory => t.walk (s.go p) steps

/-- A new directory, in a directory. -/
def add [DecidableEq N] (t : FileTree N) (p : List N) (h : t.kind p.tail = some .directory) :
    FileTree N where
  kind := Function.update t.kind p (some .directory)
  root := by
    by_cases hp : p = []
    · rw [hp, Function.update_self]
    · rw [Function.update_of_ne (Ne.symm hp), t.root]
  parent n q hq := by
    have hdir : t.kind q = some .directory := by
      by_cases hnq : n :: q = p
      · rw [← hnq] at h
        exact h
      · rw [Function.update_of_ne hnq] at hq
        exact t.parent n q hq
    by_cases hqp : q = p
    · rw [hqp, Function.update_self]
    · rw [Function.update_of_ne hqp, hdir]

/-- `mkdir`, on the path from `start`. With `refused` it makes nothing. -/
def makeDirectory [DecidableEq N] (t : FileTree N) (refused : Bool) (start : List N)
    (steps : List (PathStep N)) : Except DirectoryError (FileTree N) :=
  match t.walk start steps with
  | .error e => .error e
  | .ok p =>
      if t.kind p ≠ none then .error .entryExists
      else if refused then .error .refused
      else if h : t.kind p.tail = some .directory then .ok (t.add p h)
      else .error .noEntry

/-! ### Following a path -/

section Walk

variable {t : FileTree N}

lemma kind_tail {p : List N} (h : t.kind p = some .directory) :
    t.kind p.tail = some .directory := by
  cases p with
  | nil => exact h
  | cons n p => exact t.parent n p (by simp [h])

lemma walk_cons_ok {p q : List N} {s : PathStep N} {steps : List (PathStep N)}
    (h : t.walk p (s :: steps) = .ok q) :
    t.kind p = some .directory ∧ t.walk (s.go p) steps = .ok q := by
  rw [walk] at h
  split at h
  · exact absurd h (by simp)
  · exact absurd h (by simp)
  · exact ⟨by assumption, h⟩

lemma walk_cons_directory {p : List N} (hp : t.kind p = some .directory) (s : PathStep N)
    (steps : List (PathStep N)) : t.walk p (s :: steps) = t.walk (s.go p) steps := by
  rw [walk, hp]

lemma walk_ok {p q : List N} {steps : List (PathStep N)} (h : t.walk p steps = .ok q) :
    q = destination p steps := by
  induction steps generalizing p with
  | nil => exact (Except.ok.inj h).symm
  | cons s steps ih => exact ih (walk_cons_ok h).2

lemma walk_append {p q : List N} {l₁ : List (PathStep N)} (h : t.walk p l₁ = .ok q)
    (l₂ : List (PathStep N)) : t.walk p (l₁ ++ l₂) = t.walk q l₂ := by
  induction l₁ generalizing p with
  | nil =>
      rw [← Except.ok.inj h]
      rfl
  | cons s l₁ ih =>
      obtain ⟨hp, hs⟩ := walk_cons_ok h
      rw [List.cons_append, walk_cons_directory hp, ih hs]

/-- The place of something that is missing is in a directory. -/
lemma kind_tail_of_walk {p q : List N} {steps : List (PathStep N)}
    (hp : t.kind p = some .directory) (h : t.walk p steps = .ok q) (hq : t.kind q = none) :
    t.kind q.tail = some .directory := by
  induction steps generalizing p with
  | nil =>
      rw [← Except.ok.inj h] at hq
      exact absurd hq (by simp [hp])
  | cons s steps ih =>
      have hs := (walk_cons_ok h).2
      by_cases hdir : t.kind (s.go p) = some .directory
      · exact ih hdir hs
      · -- the step leads to the last place, as nothing can be behind it
        cases steps with
        | nil =>
            rw [← Except.ok.inj hs]
            cases s with
            | stay => exact absurd hp hdir
            | up => exact absurd (kind_tail hp) hdir
            | down n => exact hp
        | cons s' steps => exact absurd (walk_cons_ok hs).1 hdir

lemma walk_ne_entryExists {p : List N} {steps : List (PathStep N)} :
    t.walk p steps ≠ .error .entryExists := by
  induction steps generalizing p with
  | nil => simp [walk]
  | cons s steps ih =>
      rw [walk]
      split
      · simp
      · simp
      · exact ih

/-- A walk that fails has more than one step. -/
lemma two_le_length_of_walk {p : List N} {steps : List (PathStep N)} {e : DirectoryError}
    (hp : t.kind p = some .directory) (h : t.walk p steps = .error e) : 2 ≤ steps.length := by
  cases steps with
  | nil => exact absurd h (by simp [walk])
  | cons s steps =>
      cases steps with
      | nil =>
          rw [walk_cons_directory hp] at h
          exact absurd h (by simp [walk])
      | cons s' steps => simp

end Walk

/-! ### Making a directory -/

section Make

variable [DecidableEq N] {t t' : FileTree N} {refused : Bool} {start : List N}
  {steps : List (PathStep N)}

/-- A directory that is made was missing, and not refused. -/
lemma makeDirectory_ok (h : t.makeDirectory refused start steps = .ok t') :
    refused = false ∧ ∃ p, t.walk start steps = .ok p ∧ t.kind p = none ∧
      t'.kind = Function.update t.kind p (some .directory) := by
  rw [makeDirectory] at h
  split at h
  · exact absurd h (by simp)
  · next p hwalk =>
      split_ifs at h with hkind hrefused hdir
      rw [Except.ok.injEq] at h
      exact ⟨by simpa using hrefused, p, hwalk, not_not.mp hkind, by rw [← h]; rfl⟩

lemma makeDirectory_entryExists :
    t.makeDirectory refused start steps = .error .entryExists ↔
      ∃ p, t.walk start steps = .ok p ∧ t.kind p ≠ none := by
  rw [makeDirectory]
  cases hwalk : t.walk start steps with
  | error e =>
      have hne : e ≠ .entryExists := by
        rintro rfl
        exact walk_ne_entryExists hwalk
      simp [hne]
  | ok p =>
      by_cases hkind : t.kind p = none
      · simp only [hkind, ne_eq, not_true_eq_false, if_false]
        split_ifs <;> simp [hkind]
      · simp [hkind]

/-- A missing directory is made when the walk to it succeeds and nothing is refused. -/
lemma exists_makeDirectory {p : List N} (hstart : t.kind start = some .directory)
    (hwalk : t.walk start steps = .ok p) (hkind : t.kind p = none) :
    ∃ t', t.makeDirectory false start steps = .ok t' := by
  have hdir := kind_tail_of_walk hstart hwalk hkind
  refine ⟨t.add p hdir, ?_⟩
  rw [makeDirectory, hwalk]
  simp [hkind, hdir]

end Make

/-! ### Trees that grow -/

/-- Nothing is lost, and what is new is a directory. -/
structure Grows (t t' : FileTree N) : Prop where
  keeps : ∀ {p k}, t.kind p = some k → t'.kind p = some k
  directory : ∀ {p}, t.kind p = none → t'.kind p ≠ none → t'.kind p = some .directory

lemma Grows.refl (t : FileTree N) : t.Grows t :=
  ⟨fun h => h, fun h h' => absurd h h'⟩

lemma Grows.trans {t t' t'' : FileTree N} (h : t.Grows t') (h' : t'.Grows t'') :
    t.Grows t'' := by
  refine ⟨fun hp => h'.keeps (h.keeps hp), fun {p} hp hp'' => ?_⟩
  by_cases hnew : t'.kind p = none
  · exact h'.directory hnew hp''
  · exact h'.keeps (h.directory hp hnew)

lemma Grows.of_update [DecidableEq N] {t t' : FileTree N} {p : List N} (hp : t.kind p = none)
    (h : t'.kind = Function.update t.kind p (some .directory)) : t.Grows t' := by
  constructor
  · intro q k hq
    have hne : q ≠ p := by
      rintro rfl
      exact absurd hq (by simp [hp])
    rw [h, Function.update_of_ne hne, hq]
  · intro q hq hq'
    by_cases hqp : q = p
    · rw [h, hqp, Function.update_self]
    · rw [h, Function.update_of_ne hqp] at hq'
      exact absurd hq hq'

/-- Files that are no directories stay, and none are new. -/
lemma Grows.other_iff {t t' : FileTree N} (h : t.Grows t') {p : List N} :
    t'.kind p = some .other ↔ t.kind p = some .other := by
  refine ⟨fun hp => ?_, h.keeps⟩
  cases hk : t.kind p with
  | none => exact absurd (hp.symm.trans (h.directory hk (by simp [hp]))) (by simp)
  | some k => exact (h.keeps hk).symm.trans hp

lemma Grows.walk {t t' : FileTree N} (h : t.Grows t') {p q : List N}
    {steps : List (PathStep N)} (hw : t.walk p steps = .ok q) : t'.walk p steps = .ok q := by
  induction steps generalizing p with
  | nil => exact hw
  | cons s steps ih =>
      obtain ⟨hp, hs⟩ := walk_cons_ok hw
      rw [walk_cons_directory (h.keeps hp)]
      exact ih hs

/-! ### Files in the way -/

/-- No place on the way is a file that is no directory. -/
def Clear (t : FileTree N) : List N → List (PathStep N) → Prop
  | _, [] => True
  | p, s :: steps => t.kind p ≠ some .other ∧ t.Clear (s.go p) steps

/-- The way is clear, and leads to a file that is no directory. -/
def LeadsToFile (t : FileTree N) (p : List N) (steps : List (PathStep N)) : Prop :=
  t.Clear p steps ∧ t.kind (destination p steps) = some .other

lemma clear_append {t : FileTree N} {p : List N} {l₁ l₂ : List (PathStep N)} :
    t.Clear p (l₁ ++ l₂) ↔ t.Clear p l₁ ∧ t.Clear (destination p l₁) l₂ := by
  induction l₁ generalizing p with
  | nil => simp [Clear, destination]
  | cons s l₁ ih =>
      rw [List.cons_append, Clear, Clear, ih, and_assoc]
      rfl

lemma clear_of_walk {t : FileTree N} {p q : List N} {steps : List (PathStep N)}
    (h : t.walk p steps = .ok q) : t.Clear p steps := by
  induction steps generalizing p with
  | nil => trivial
  | cons s steps ih =>
      obtain ⟨hp, hs⟩ := walk_cons_ok h
      exact ⟨by simp [hp], ih hs⟩

lemma Grows.clear_iff {t t' : FileTree N} (h : t.Grows t') {p : List N}
    {steps : List (PathStep N)} : t'.Clear p steps ↔ t.Clear p steps := by
  induction steps generalizing p with
  | nil => rfl
  | cons s steps ih => rw [Clear, Clear, ih, Ne, Ne, h.other_iff]

/-- A file at the end of a path was there before the tree grew. -/
lemma Grows.leadsToFile {t t' : FileTree N} (h : t.Grows t') {p q : List N}
    {steps : List (PathStep N)} (hw : t'.walk p steps = .ok q)
    (hq : t'.kind q = some .other) : t.LeadsToFile p steps := by
  rw [walk_ok hw] at hq
  exact ⟨h.clear_iff.mp (clear_of_walk hw), h.other_iff.mp hq⟩

end FileTree

end LibCmutils
