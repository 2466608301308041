import Mathlib.Data.Finset.Card
import Mathlib.Data.Finset.Erase

/-!
File systems as a program sees them that appends to files and renames them.

* `FileSystem`: files by name, each the list of what was printed to it.
* `openAppend`, `print`, `rename`: opening a file to append to it, printing to an open
  file, and renaming. Each has a lemma about what the files hold afterwards.
* `exists_free_name`: of more names than there are files, one is free.
-/

namespace LibCmutils

universe u v

/-- The files by name. `names` are the names in use. -/
@[ext]
structure FileSystem (N : Type u) (α : Type v) where
  content : N → Option (List α)
  names : Finset N
  mem_names : ∀ n, n ∈ names ↔ (content n).isSome

namespace FileSystem

variable {N : Type u} {α : Type v}

/-- No file. -/
def empty : FileSystem N α where
  content := fun _ => none
  names := ∅
  mem_names := by simp

/-- What a file holds, nothing when there is no such file. -/
def lines (fs : FileSystem N α) (n : N) : List α := (fs.content n).getD []

/-- Of more names than there are files, one is free. -/
lemma exists_free_name (fs : FileSystem N α) {name : ℕ → N} (h : Function.Injective name) :
    ∃ i ≤ fs.names.card, fs.content (name i) = none := by
  by_contra hall
  have hmem : ∀ i ∈ Finset.range (fs.names.card + 1), name i ∈ fs.names := by
    intro i hi
    rw [fs.mem_names, Option.isSome_iff_ne_none]
    exact fun hnone => hall ⟨i, Nat.lt_succ_iff.mp (Finset.mem_range.mp hi), hnone⟩
  have hcard := Finset.card_le_card_of_injOn name hmem h.injOn
  rw [Finset.card_range] at hcard
  exact Nat.not_succ_le_self _ hcard

variable [DecidableEq N]

/-- `fopen` with the mode `a`: a missing file is created. -/
def openAppend (fs : FileSystem N α) (n : N) : FileSystem N α where
  content := Function.update fs.content n (some (fs.lines n))
  names := insert n fs.names
  mem_names m := by
    by_cases hm : m = n
    · simp [hm]
    · simp [Finset.mem_insert, hm, fs.mem_names]

/-- Printing to an open file. -/
def print (fs : FileSystem N α) (n : N) (x : α) : FileSystem N α where
  content := Function.update fs.content n ((fs.content n).map (· ++ [x]))
  names := fs.names
  mem_names m := by
    by_cases hm : m = n
    · subst hm
      simp [fs.mem_names]
    · simp [hm, fs.mem_names]

/-- `rename`: a file of the new name is replaced. Without a file to rename it fails, and
nothing happens. -/
def rename (fs : FileSystem N α) (src dst : N) : FileSystem N α :=
  if h : (fs.content src).isSome then
    { content := Function.update (Function.update fs.content src none) dst (fs.content src)
      names := insert dst (fs.names.erase src)
      mem_names := fun m => by
        by_cases hm : m = dst
        · simp [hm, h]
        · by_cases hs : m = src
          · subst hs
            simp [hm]
          · simp [hm, hs, fs.mem_names] }
  else fs

variable {fs : FileSystem N α} {n m src dst : N} {x : α}

@[simp] lemma content_openAppend_self : (fs.openAppend n).content n = some (fs.lines n) :=
  Function.update_self ..

@[simp] lemma content_openAppend_of_ne (h : m ≠ n) :
    (fs.openAppend n).content m = fs.content m :=
  Function.update_of_ne h ..

@[simp] lemma lines_openAppend : (fs.openAppend n).lines m = fs.lines m := by
  by_cases hm : m = n
  · simp [lines, hm]
  · simp [lines, hm]

/-- A file that is there is opened as it is. -/
lemma openAppend_of_isSome (h : (fs.content n).isSome) : fs.openAppend n = fs := by
  obtain ⟨xs, hxs⟩ := Option.isSome_iff_exists.mp h
  refine FileSystem.ext ?_ ?_
  · show Function.update fs.content n (some (fs.lines n)) = fs.content
    rw [lines, hxs, Option.getD_some, ← hxs, Function.update_eq_self]
  · exact Finset.insert_eq_of_mem ((fs.mem_names n).mpr h)

@[simp] lemma content_print_self :
    (fs.print n x).content n = (fs.content n).map (· ++ [x]) :=
  Function.update_self ..

@[simp] lemma content_print_of_ne (h : m ≠ n) : (fs.print n x).content m = fs.content m :=
  Function.update_of_ne h ..

@[simp] lemma names_print : (fs.print n x).names = fs.names := rfl

lemma lines_print_self (h : (fs.content n).isSome) :
    (fs.print n x).lines n = fs.lines n ++ [x] := by
  obtain ⟨xs, hxs⟩ := Option.isSome_iff_exists.mp h
  simp [lines, hxs]

lemma lines_print_of_ne (h : m ≠ n) : (fs.print n x).lines m = fs.lines m := by
  simp [lines, h]

lemma rename_of_isNone (h : fs.content src = none) : fs.rename src dst = fs := by
  simp [rename, h]

lemma content_rename_dst (h : (fs.content src).isSome) :
    (fs.rename src dst).content dst = fs.content src := by
  rw [rename, dif_pos h]
  exact Function.update_self ..

lemma content_rename_src (h : (fs.content src).isSome) (hne : src ≠ dst) :
    (fs.rename src dst).content src = none := by
  rw [rename, dif_pos h]
  exact (Function.update_of_ne hne ..).trans (Function.update_self ..)

lemma content_rename_of_ne (hsrc : m ≠ src) (hdst : m ≠ dst) :
    (fs.rename src dst).content m = fs.content m := by
  rw [rename]
  split
  · exact (Function.update_of_ne hdst ..).trans (Function.update_of_ne hsrc ..)
  · rfl

end FileSystem

end LibCmutils
