import Mathlib.Algebra.Order.Ring.Int
import Mathlib.Data.List.Basic

/-!
Writing to a file stream (`src/system.c`).

* `FileDevice`: what `fwrite` may do. It writes a beginning of what it is given, of at least
  one byte, or fails.
* `fileStreamWrite`: `CMUTIL_FileStreamWrite`, with its loop `fileStreamWriteLoop` run on fuel
  and the bytes that are written.
* `fileStreamWriteLoop_spec`: the loop ends, and writes a beginning of the buffer, of the
  wanted size when it succeeds.
* `fileStreamWrite_iff`: what is wanted is a window of the buffer. The code looks whether the
  buffer reaches to the end of the window, but writes from the start of the buffer.

A buffer has less than `2 ^ 63` bytes, as every object of the language.
-/

namespace LibCmutils

/-- `CMFileOpenMode`. -/
inductive FileOpenMode where
  | read | write | append
  deriving DecidableEq

/-- A device behind `fwrite`, with states `σ`: how many of the given bytes are written, zero
for a failure. -/
structure FileDevice (σ : Type) where
  fwrite : σ → List UInt8 → ℕ × σ
  fwrite_le : ∀ s bytes, (fwrite s bytes).1 ≤ bytes.length

variable {σ : Type}

/-- The loop of `CMUTIL_FileStreamWrite`: the result, and the bytes that were written. `none`
stands for a loop that does not end. -/
def fileStreamWriteLoop (dev : FileDevice σ) (bufptr : List UInt8) (size : ℕ) :
    ℕ → σ → ℕ → List UInt8 → Option (ℤ × List UInt8)
  | 0, _, _, _ => none
  | fuel + 1, s, totalwrite, written =>
      if totalwrite < size then
        let towrite := min (size - totalwrite) 1024
        let bytes := (bufptr.drop totalwrite).take towrite
        let wrsz := dev.fwrite s bytes
        if 0 < wrsz.1 then
          fileStreamWriteLoop dev bufptr size fuel wrsz.2 (totalwrite + wrsz.1)
            (written ++ bytes.take wrsz.1)
        else some (-1, written)
      else some (totalwrite, written)

/-- `CMUTIL_FileStreamWrite`, without what it logs. -/
def fileStreamWrite (mode : FileOpenMode) (dev : FileDevice σ) (s : σ) (buffer : List UInt8)
    (offset size : ℕ) : Option (ℤ × List UInt8) :=
  if mode = .read then some (-1, [])
  else if (offset + size) % 2 ^ 64 ≤ buffer.length then
    fileStreamWriteLoop dev buffer size (size + 1) s 0 []
  else some (-1, [])

/-- What is wanted: all of the window is written, or a beginning of it and the result is a
failure. -/
def WindowWritten (window : List UInt8) (result : Option (ℤ × List UInt8)) : Prop :=
  ∃ ret written, result = some (ret, written) ∧
    (ret = window.length ∧ written = window ∨ ret = -1 ∧ written <+: window)

/-- The bytes of a buffer from an offset on. -/
def bufferWindow (buffer : List UInt8) (offset size : ℕ) : List UInt8 :=
  (buffer.drop offset).take size

/-- The bytes behind those that are written already. -/
lemma take_append_chunk (bufptr : List UInt8) (total count : ℕ) :
    bufptr.take total ++ (bufptr.drop total).take count = bufptr.take (total + count) :=
  List.take_add.symm

/-- The loop, when it has written `totalwrite` bytes. -/
lemma fileStreamWriteLoop_spec (dev : FileDevice σ) {bufptr : List UInt8} {size : ℕ}
    (hsize : size ≤ bufptr.length) : ∀ (fuel : ℕ) (s : σ) (totalwrite : ℕ), totalwrite ≤ size →
    size - totalwrite < fuel →
    WindowWritten (bufptr.take size)
      (fileStreamWriteLoop dev bufptr size fuel s totalwrite (bufptr.take totalwrite))
  | 0, _, _, _, hfuel => absurd hfuel (by omega)
  | fuel + 1, s, totalwrite, hle, hfuel => by
      rw [fileStreamWriteLoop]
      by_cases hmore : totalwrite < size
      · rw [if_pos hmore]
        simp only
        have hcount :=
          dev.fwrite_le s ((bufptr.drop totalwrite).take (min (size - totalwrite) 1024))
        generalize dev.fwrite s ((bufptr.drop totalwrite).take (min (size - totalwrite) 1024))
          = wrsz at hcount ⊢
        rw [List.length_take, List.length_drop] at hcount
        by_cases hpos : 0 < wrsz.1
        · have hwritten : bufptr.take totalwrite
              ++ ((bufptr.drop totalwrite).take (min (size - totalwrite) 1024)).take wrsz.1
              = bufptr.take (totalwrite + wrsz.1) := by
            rw [List.take_take, Nat.min_eq_left (by omega), take_append_chunk]
          rw [if_pos hpos, hwritten]
          exact fileStreamWriteLoop_spec dev hsize fuel wrsz.2 (totalwrite + wrsz.1) (by omega)
            (by omega)
        · rw [if_neg hpos]
          exact ⟨-1, _, rfl, .inr ⟨rfl, List.take_prefix_take_left hle⟩⟩
      · obtain rfl : totalwrite = size := by omega
        rw [if_neg hmore]
        refine ⟨totalwrite, _, rfl, .inl ⟨?_, rfl⟩⟩
        rw [List.length_take, Nat.min_eq_left hsize]

/-- A device that writes everything. -/
def willingDevice : FileDevice Unit where
  fwrite := fun _ bytes => (bytes.length, ())
  fwrite_le := fun _ _ => le_rfl

/-- A device that writes everything makes the loop succeed. -/
lemma fileStreamWriteLoop_willing {bufptr : List UInt8} {size : ℕ}
    (hsize : size ≤ bufptr.length) : ∀ (fuel totalwrite : ℕ), totalwrite ≤ size →
    size - totalwrite < fuel →
    fileStreamWriteLoop willingDevice bufptr size fuel () totalwrite (bufptr.take totalwrite)
      = some ((size : ℤ), bufptr.take size)
  | 0, _, _, hfuel => absurd hfuel (by omega)
  | fuel + 1, totalwrite, hle, hfuel => by
      rw [fileStreamWriteLoop]
      by_cases hmore : totalwrite < size
      · have hlength : ((bufptr.drop totalwrite).take (min (size - totalwrite) 1024)).length
            = min (size - totalwrite) 1024 := by
          rw [List.length_take, List.length_drop]
          omega
        rw [if_pos hmore]
        simp only [willingDevice, hlength]
        rw [if_pos (by omega), List.take_take, Nat.min_self, take_append_chunk]
        exact fileStreamWriteLoop_willing hsize fuel _ (by omega) (by omega)
      · obtain rfl : totalwrite = size := by omega
        rw [if_neg hmore]

/-- **Writing to a file.** For a window inside of the buffer: with every device the window is
written, or a beginning of it, if and only if the stream is not for writing, or the buffer
begins with the same bytes. -/
theorem fileStreamWrite_iff (mode : FileOpenMode) {buffer : List UInt8} {offset size : ℕ}
    (h : offset + size ≤ buffer.length) :
    (∀ (σ : Type) (dev : FileDevice σ) (s : σ), WindowWritten (bufferWindow buffer offset size)
        (fileStreamWrite mode dev s buffer offset size)) ↔
      mode = .read ∨ buffer.take size = bufferWindow buffer offset size := by
  have hroom : (offset + size) % 2 ^ 64 ≤ buffer.length := (Nat.mod_le _ _).trans h
  by_cases hmode : mode = .read
  · refine ⟨fun _ => .inl hmode, fun _ σ dev s => ?_⟩
    rw [fileStreamWrite, if_pos hmode]
    exact ⟨-1, [], rfl, .inr ⟨rfl, List.nil_prefix⟩⟩
  constructor
  · intro hall
    obtain ⟨ret, written, hresult, hwindow⟩ := hall Unit willingDevice ()
    have hsize : size ≤ buffer.length := by omega
    have hloop := fileStreamWriteLoop_willing hsize (size + 1) 0 (Nat.zero_le size) (by omega)
    rw [fileStreamWrite, if_neg hmode, if_pos hroom] at hresult
    rw [List.take_zero] at hloop
    rw [hloop, Option.some.injEq, Prod.mk.injEq] at hresult
    obtain ⟨rfl, rfl⟩ := hresult
    rcases hwindow with ⟨-, hwritten⟩ | ⟨hret, -⟩
    · exact .inr hwritten
    · exact absurd hret (by omega)
  · rintro (hread | hwindow) σ dev s
    · exact absurd hread hmode
    · rw [fileStreamWrite, if_neg hmode, if_pos hroom, ← hwindow]
      have hsize : size ≤ buffer.length := by omega
      have hspec := fileStreamWriteLoop_spec dev hsize (size + 1) s 0 (Nat.zero_le size)
        (by omega)
      rwa [List.take_zero] at hspec

/-- The first byte of a buffer of two. -/
theorem fileStreamWrite_iff_start :
    (∀ (σ : Type) (dev : FileDevice σ) (s : σ), WindowWritten (bufferWindow [0x61, 0x62] 0 1)
        (fileStreamWrite .write dev s [0x61, 0x62] 0 1)) ↔
      FileOpenMode.write = .read ∨
        ([0x61, 0x62] : List UInt8).take 1 = bufferWindow [0x61, 0x62] 0 1 :=
  fileStreamWrite_iff .write (by decide)

/-- The second byte of the buffer `ab` is asked for, and the first one is written. -/
theorem fileStreamWrite_fails :
    fileStreamWrite .write willingDevice () [0x61, 0x62] 1 1 = some (1, [0x61]) ∧
      bufferWindow [0x61, 0x62] 1 1 = [0x62] ∧
      ¬ WindowWritten (bufferWindow [0x61, 0x62] 1 1)
        (fileStreamWrite .write willingDevice () [0x61, 0x62] 1 1) := by
  have hresult : fileStreamWrite .write willingDevice () [0x61, 0x62] 1 1 = some (1, [0x61]) := by
    decide
  refine ⟨hresult, rfl, ?_⟩
  rintro ⟨ret, written, heq, hwindow⟩
  rw [hresult, Option.some.injEq, Prod.mk.injEq] at heq
  obtain ⟨rfl, rfl⟩ := heq
  rcases hwindow with ⟨-, hwritten⟩ | ⟨hret, -⟩
  · exact absurd hwritten (by decide)
  · exact absurd hret (by decide)

end LibCmutils
