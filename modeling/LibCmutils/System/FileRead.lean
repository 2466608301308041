import LibCmutils.System.FileStream
import Mathlib.Tactic.Ring

/-!
Reading files, and reading back what was written (`src/system.c`).

* `FileSource`: what `fread` may do. It delivers a beginning of what is left of a file, and
  nothing at the end or when it fails. `FileSource.Sound`: it does not fail.
* `fileStreamRead`: `CMUTIL_FileStreamRead`, with its loop `fileStreamReadLoop` run on fuel.
  `fileGetContents`: `CMUTIL_FileGetContents`, which takes a failure for the end.
* `fileStreamReadLoop_spec`: the loop ends, and delivers what comes next in the file, as much as
  is wanted, or all that is left, or less with a failure.
* `fileWrites`, `fileReads`: the calls of a stream, one after the other. `fileContent`: what a
  file has in it when the stream that wrote to it is closed.

The main result is `fileStream_roundTrip`. A file has less than `2 ^ 63` bytes, as a buffer has,
and what `fwrite` accepted is in the file when the stream is closed.
-/

namespace LibCmutils

/-- A device behind `fread`, with states `σ`: how many of the bytes that are left it delivers of
those that are wanted, and what `feof` says in a state. -/
structure FileSource (σ : Type) where
  fread : σ → ℕ → ℕ → ℕ × σ
  feof : σ → Bool
  fread_le : ∀ s left wanted, (fread s left wanted).1 ≤ min left wanted
  feof_left : ∀ s left wanted, 0 < wanted → (fread s left wanted).1 = 0 →
    feof (fread s left wanted).2 = true → left = 0

/-- Nothing fails: `fread` delivers something until the end, which `feof` sees. -/
structure FileSource.Sound {σ : Type} (src : FileSource σ) : Prop where
  pos : ∀ s left wanted, 0 < left → 0 < wanted → 0 < (src.fread s left wanted).1
  eof : ∀ s wanted, 0 < wanted → src.feof (src.fread s 0 wanted).2 = true

/-- A file that is read: the device, what is left of the file, and the buffer that gets what is
delivered. -/
structure FileReading (σ : Type) where
  device : σ
  left : List UInt8
  buffer : List UInt8

variable {σ τ : Type}

/-- `fread`, and `AddNString` for what it delivers. -/
def FileReading.fread (src : FileSource σ) (r : FileReading σ) (wanted : ℕ) :
    ℕ × FileReading σ :=
  let rdsz := src.fread r.device r.left.length wanted
  (rdsz.1, ⟨rdsz.2, r.left.drop rdsz.1, r.buffer ++ r.left.take rdsz.1⟩)

/-- The loop of `CMUTIL_FileStreamRead`. `none` stands for a loop that does not end. -/
def fileStreamReadLoop (src : FileSource σ) (size : ℕ) :
    ℕ → FileReading σ → ℕ → Option (ℤ × FileReading σ)
  | 0, _, _ => none
  | fuel + 1, r, totalread =>
      if totalread < size then
        let rdsz := r.fread src (min (size - totalread) 1024)
        if 0 < rdsz.1 then fileStreamReadLoop src size fuel rdsz.2 (totalread + rdsz.1)
        else if src.feof rdsz.2.device then some (totalread, rdsz.2)
        else some (-1, rdsz.2)
      else some (totalread, r)

/-- `CMUTIL_FileStreamRead`, without what it logs. -/
def fileStreamRead (mode : FileOpenMode) (src : FileSource σ) (r : FileReading σ) (size : ℕ) :
    Option (ℤ × FileReading σ) :=
  if mode = .read then fileStreamReadLoop src size (size + 1) r 0 else some (-1, r)

/-- The loop of `CMUTIL_FileGetContents`. -/
def fileGetContentsLoop (src : FileSource σ) : ℕ → FileReading σ → Option (List UInt8)
  | 0, _ => none
  | fuel + 1, r =>
      let rdsz := r.fread src 1024
      if 0 < rdsz.1 then fileGetContentsLoop src fuel rdsz.2 else some rdsz.2.buffer

/-- `CMUTIL_FileGetContents` for a file that is opened. -/
def fileGetContents (src : FileSource σ) (s : σ) (content : List UInt8) : Option (List UInt8) :=
  fileGetContentsLoop src (content.length + 1) ⟨s, content, []⟩

/-- What `fopen` leaves of a file in `CMUTIL_FileCreateStream`. -/
def fileCreateStream (mode : FileOpenMode) (content : List UInt8) : List UInt8 :=
  if mode = .write then [] else content

/-- A call of `Write`, with the state that the device is in. -/
structure FileWrite (σ : Type) where
  device : σ
  buffer : List UInt8
  offset : ℕ
  size : ℕ

/-- What a call of `Write` is to write. -/
def FileWrite.window (w : FileWrite σ) : List UInt8 := bufferWindow w.buffer w.offset w.size

/-- The window is in the buffer, and the buffer begins with it. -/
structure FileWrite.Fits (w : FileWrite σ) : Prop where
  room : w.offset + w.size ≤ w.buffer.length
  start : w.buffer.take w.size = w.window

/-- The calls of `Write` of a stream: their results, with the bytes that `fwrite` accepts. -/
def fileWrites (mode : FileOpenMode) (dev : FileDevice σ) (writes : List (FileWrite σ)) :
    Option (List (ℤ × List UInt8)) :=
  writes.mapM fun w => fileStreamWrite mode dev w.device w.buffer w.offset w.size

/-- What is in a file when the stream is closed. -/
def fileContent (mode : FileOpenMode) (content : List UInt8) (outs : List (ℤ × List UInt8)) :
    List UInt8 :=
  fileCreateStream mode content ++ outs.flatMap Prod.snd

/-- The calls of `Read` of a stream, with their results. They share a buffer. -/
def fileReads (src : FileSource σ) : FileReading σ → List ℕ → Option (List ℤ × FileReading σ)
  | r, [] => some ([], r)
  | r, size :: sizes => do
      let out ← fileStreamRead .read src r size
      let outs ← fileReads src out.2 sizes
      some (out.1 :: outs.1, outs.2)

/-! ### Reading -/

section Reading

variable {src : FileSource σ} {r r' r'' : FileReading σ} {bytes bytes' : List UInt8}

/-- From one state to another, some bytes move from the file to the buffer. -/
structure FileReading.Moves (r : FileReading σ) (bytes : List UInt8) (r' : FileReading σ) :
    Prop where
  left : r.left = bytes ++ r'.left
  buffer : r'.buffer = r.buffer ++ bytes

lemma FileReading.Moves.refl (r : FileReading σ) : r.Moves [] r :=
  ⟨rfl, (List.append_nil _).symm⟩

lemma FileReading.Moves.trans (h : r.Moves bytes r') (h' : r'.Moves bytes' r'') :
    r.Moves (bytes ++ bytes') r'' where
  left := by rw [h.left, h'.left, List.append_assoc]
  buffer := by rw [h'.buffer, h.buffer, List.append_assoc]

lemma FileReading.length_left (h : r.Moves bytes r') :
    r.left.length = bytes.length + r'.left.length := by
  rw [h.left, List.length_append]

/-- What one `fread` does. -/
lemma FileReading.fread_spec (src : FileSource σ) (r : FileReading σ) (wanted : ℕ) :
    r.Moves (r.left.take (r.fread src wanted).1) (r.fread src wanted).2 ∧
      (r.left.take (r.fread src wanted).1).length = (r.fread src wanted).1 ∧
      (r.fread src wanted).1 ≤ wanted := by
  have hle := src.fread_le r.device r.left.length wanted
  refine ⟨⟨(List.take_append_drop _ _).symm, rfl⟩, ?_, hle.trans (min_le_right _ _)⟩
  exact List.length_take_of_le (hle.trans (min_le_left _ _))

/-- A `fread` without a byte. Without a failure it is at the end. -/
lemma FileReading.fread_zero (src : FileSource σ) (r : FileReading σ) {wanted : ℕ}
    (hwanted : 0 < wanted) (h : (r.fread src wanted).1 = 0) :
    (src.feof (r.fread src wanted).2.device = true → (r.fread src wanted).2.left = []) ∧
      (src.Sound → src.feof (r.fread src wanted).2.device = true) := by
  constructor
  · intro heof
    have hleft := src.feof_left r.device r.left.length wanted hwanted h heof
    rw [List.length_eq_zero_iff] at hleft
    simp [FileReading.fread, hleft]
  · intro hsound
    have hleft : r.left.length = 0 := by
      by_contra hne
      have hpos := hsound.pos r.device r.left.length wanted (Nat.pos_of_ne_zero hne) hwanted
      exact absurd h (Nat.ne_of_gt hpos)
    have heof := hsound.eof r.device wanted hwanted
    rwa [← hleft] at heof

/-- What a call of `Read` that has `totalread` bytes may still do: deliver what is wanted, or all
that is left, or fail with less. -/
inductive ReadEnds (src : FileSource σ) (size totalread : ℕ) (bytes left : List UInt8) : ℤ → Prop
  | full (h : totalread + bytes.length = size) : ReadEnds src size totalread bytes left size
  | eof (h : totalread + bytes.length < size) (hleft : left = []) :
      ReadEnds src size totalread bytes left (totalread + bytes.length : ℕ)
  | failed (h : totalread + bytes.length < size) (hsound : ¬ src.Sound) :
      ReadEnds src size totalread bytes left (-1)

/-- The loop, when it has read `totalread` bytes. -/
lemma fileStreamReadLoop_spec (src : FileSource σ) (size : ℕ) :
    ∀ (fuel : ℕ) (r : FileReading σ) (totalread : ℕ), totalread ≤ size →
    size - totalread < fuel → ∃ ret r' bytes,
      fileStreamReadLoop src size fuel r totalread = some (ret, r') ∧ r.Moves bytes r' ∧
      ReadEnds src size totalread bytes r'.left ret
  | 0, _, _, _, hfuel => absurd hfuel (Nat.not_lt_zero _)
  | fuel + 1, r, totalread, hle, hfuel => by
      rw [fileStreamReadLoop]
      by_cases hmore : totalread < size
      · obtain ⟨hmoves, hlength, hcount⟩ :=
          FileReading.fread_spec src r (min (size - totalread) 1024)
        have hzero := FileReading.fread_zero src r
          (show 0 < min (size - totalread) 1024 by omega)
        rw [if_pos hmore]
        generalize r.fread src (min (size - totalread) 1024) = rdsz at *
        by_cases hpos : 0 < rdsz.1
        · obtain ⟨ret, r', bytes, hloop, hmoves', hends⟩ :=
            fileStreamReadLoop_spec src size fuel rdsz.2 (totalread + rdsz.1) (by omega) (by omega)
          refine ⟨ret, r', _, (if_pos hpos).trans hloop, hmoves.trans hmoves', ?_⟩
          have hsum : totalread + (r.left.take rdsz.1 ++ bytes).length =
              totalread + rdsz.1 + bytes.length := by
            rw [List.length_append, hlength, Nat.add_assoc]
          cases hends with
          | full h => exact .full (hsum.trans h)
          | eof h hleft => exact hsum ▸ .eof (hsum.trans_lt h) hleft
          | failed h hsound => exact .failed (hsum.trans_lt h) hsound
        · have hnone : rdsz.1 = 0 := Nat.eq_zero_of_not_pos hpos
          obtain ⟨hend, hsees⟩ := hzero hnone
          rw [hnone, List.take_zero] at hmoves
          simp only [if_neg hpos]
          by_cases heof : src.feof rdsz.2.device = true
          · refine ⟨_, rdsz.2, [], if_pos heof, hmoves, ?_⟩
            exact .eof hmore (hend heof)
          · exact ⟨_, rdsz.2, [], if_neg heof, hmoves, .failed hmore fun h => heof (hsees h)⟩
      · obtain rfl : totalread = size := Nat.le_antisymm hle (Nat.not_lt.mp hmore)
        exact ⟨_, r, [], if_neg hmore, .refl r, .full rfl⟩

/-- The loop of `CMUTIL_FileGetContents` ends. Without a failure it has all that is left. -/
lemma fileGetContentsLoop_spec (src : FileSource σ) : ∀ (fuel : ℕ) (r : FileReading σ),
    r.left.length < fuel → ∃ bytes, fileGetContentsLoop src fuel r = some (r.buffer ++ bytes) ∧
      bytes <+: r.left ∧ (src.Sound → bytes = r.left)
  | 0, _, hfuel => absurd hfuel (Nat.not_lt_zero _)
  | fuel + 1, r, hfuel => by
      obtain ⟨hmoves, hlength, -⟩ := FileReading.fread_spec src r 1024
      have hzero := FileReading.fread_zero src r (show 0 < 1024 by norm_num)
      rw [fileGetContentsLoop]
      generalize r.fread src 1024 = rdsz at *
      have hleft := FileReading.length_left hmoves
      by_cases hpos : 0 < rdsz.1
      · obtain ⟨bytes, hloop, hprefix, hall⟩ :=
          fileGetContentsLoop_spec src fuel rdsz.2 (by omega)
        refine ⟨r.left.take rdsz.1 ++ bytes, ?_, ?_, fun hsound => ?_⟩
        · rw [← List.append_assoc, ← hmoves.buffer]
          exact (if_pos hpos).trans hloop
        · nth_rewrite 2 [hmoves.left]
          exact (List.prefix_append_right_inj _).mpr hprefix
        · rw [hall hsound]
          exact hmoves.left.symm
      · have hnone : rdsz.1 = 0 := Nat.eq_zero_of_not_pos hpos
        obtain ⟨hend, hsees⟩ := hzero hnone
        rw [hnone, List.take_zero] at hmoves
        refine ⟨[], (if_neg hpos).trans (congrArg some hmoves.buffer), List.nil_prefix, ?_⟩
        intro hsound
        rw [hmoves.left, hend (hsees hsound), List.append_nil]

/-- Reading a file in pieces. -/
lemma fileReads_spec (src : FileSource σ) (sizes : List ℕ) (r : FileReading σ) :
    ∃ rets r' bytes, fileReads src r sizes = some (rets, r') ∧ r.Moves bytes r' ∧
      ((∀ ret ∈ rets, ret ≠ -1) →
        bytes = r.left.take sizes.sum ∧ rets.sum = bytes.length) ∧
      (src.Sound → ∀ ret ∈ rets, ret ≠ -1) := by
  induction sizes generalizing r with
  | nil =>
      refine ⟨[], r, [], rfl, .refl r, fun _ => ⟨rfl, rfl⟩, fun _ => ?_⟩
      exact fun ret h => absurd h List.not_mem_nil
  | cons size sizes ih =>
      obtain ⟨ret, r₁, first, hread, hmoves, hends⟩ :=
        fileStreamReadLoop_spec src size (size + 1) r 0 (Nat.zero_le _) (Nat.lt_succ_self _)
      obtain ⟨rets, r₂, rest, hreads, hmoves', hgood, hsound⟩ := ih r₁
      have hrun : fileReads src r (size :: sizes) = some (ret :: rets, r₂) := by
        rw [fileReads, fileStreamRead, if_pos rfl, hread, Option.bind_eq_bind, Option.bind_some,
          hreads]
        rfl
      refine ⟨ret :: rets, r₂, first ++ rest, hrun, hmoves.trans hmoves', fun hall => ?_,
        fun hs => ?_⟩
      · rw [List.forall_mem_cons] at hall
        obtain ⟨hrest, hsum⟩ := hgood hall.2
        rw [List.sum_cons, List.sum_cons, hsum, List.length_append, hmoves.left, hrest]
        cases hends with
        | full h =>
            rw [Nat.zero_add] at h
            subst h
            exact ⟨(List.take_length_add_append ..).symm, by push_cast; ring⟩
        | eof h hleft =>
            rw [Nat.zero_add] at h
            rw [hleft, List.take_nil, List.append_nil, List.take_of_length_le (by omega)]
            exact ⟨rfl, by simp⟩
        | failed => exact absurd rfl hall.1
      · rw [List.forall_mem_cons]
        refine ⟨?_, hsound hs⟩
        cases hends with
        | full | eof => omega
        | failed _ hnot => exact absurd hs hnot

end Reading

/-! ### Writing, then reading -/

/-- A call of `Write` on a stream that is for writing. -/
lemma FileWrite.Fits.windowWritten {w : FileWrite σ} (h : w.Fits) {mode : FileOpenMode}
    (hmode : mode ≠ .read) (dev : FileDevice σ) : WindowWritten w.window
      (fileStreamWrite mode dev w.device w.buffer w.offset w.size) := by
  have hroom : (w.offset + w.size) % 2 ^ 64 ≤ w.buffer.length := (Nat.mod_le _ _).trans h.room
  have hsize : w.size ≤ w.buffer.length := (Nat.le_add_left _ _).trans h.room
  have hspec := fileStreamWriteLoop_spec dev hsize (w.size + 1) w.device 0 (Nat.zero_le _)
    (Nat.lt_succ_self _)
  rwa [fileStreamWrite, if_neg hmode, if_pos hroom, ← h.start]

/-- The calls of `Write` write their windows, or beginnings of them with a failure. -/
lemma fileWrites_spec {mode : FileOpenMode} (hmode : mode ≠ .read) (dev : FileDevice σ)
    {writes : List (FileWrite σ)} (hfits : ∀ w ∈ writes, w.Fits) :
    ∃ outs, fileWrites mode dev writes = some outs ∧
      List.Forall₂ (fun w out => WindowWritten w.window (some out)) writes outs ∧
      ((∀ out ∈ outs, out.1 ≠ -1) → outs.flatMap Prod.snd = writes.flatMap FileWrite.window) := by
  induction writes with
  | nil => exact ⟨[], rfl, .nil, fun _ => rfl⟩
  | cons w writes ih =>
      rw [List.forall_mem_cons] at hfits
      obtain ⟨outs, houts, hall, hgood⟩ := ih hfits.2
      obtain ⟨ret, written, hwrite, hwindow⟩ := hfits.1.windowWritten hmode dev
      have hrun : fileWrites mode dev (w :: writes) = some ((ret, written) :: outs) := by
        rw [fileWrites, List.mapM_cons, hwrite, Option.bind_eq_bind, Option.bind_some]
        rw [fileWrites] at houts
        rw [houts]
        rfl
      refine ⟨_, hrun, .cons ⟨ret, written, rfl, hwindow⟩ hall, fun hret => ?_⟩
      rw [List.forall_mem_cons] at hret
      rw [List.flatMap_cons, List.flatMap_cons, hgood hret.2]
      rcases hwindow with ⟨-, rfl⟩ | ⟨hfail, -⟩
      · rfl
      · exact absurd hfail hret.1

/-- **What is written is read.** A stream writes the windows it is given to a new or emptied file,
or behind what is in it, and a failed call a beginning of its window; the calls end, with every
device. Calls of `Read` then deliver the content of the file from its start, without a gap and
once. If none of them fails, it is as much as they ask for, or all of it, and the results add up
to its length; they do not fail when the device does not. `GetContents` returns a beginning of
the content, and all of it when the device does not fail. -/
theorem fileStream_roundTrip {mode : FileOpenMode} (hmode : mode ≠ .read) (dev : FileDevice σ)
    {writes : List (FileWrite σ)} (hfits : ∀ w ∈ writes, w.Fits) (src : FileSource τ) (s : τ)
    (content : List UInt8) (sizes : List ℕ) : ∃ outs rets r got,
      fileWrites mode dev writes = some outs ∧
      List.Forall₂ (fun w out => WindowWritten w.window (some out)) writes outs ∧
      ((∀ out ∈ outs, out.1 ≠ -1) → fileContent mode content outs =
        fileCreateStream mode content ++ writes.flatMap FileWrite.window) ∧
      fileReads src ⟨s, fileContent mode content outs, []⟩ sizes = some (rets, r) ∧
      fileContent mode content outs = r.buffer ++ r.left ∧
      ((∀ ret ∈ rets, ret ≠ -1) → r.buffer = (fileContent mode content outs).take sizes.sum ∧
        rets.sum = r.buffer.length) ∧
      (src.Sound → ∀ ret ∈ rets, ret ≠ -1) ∧
      fileGetContents src s (fileContent mode content outs) = some got ∧
      got <+: fileContent mode content outs ∧
      (src.Sound → got = fileContent mode content outs) := by
  obtain ⟨outs, houts, hall, hgood⟩ := fileWrites_spec hmode dev hfits
  obtain ⟨rets, r, bytes, hreads, hmoves, hread, hsound⟩ :=
    fileReads_spec src sizes ⟨s, fileContent mode content outs, []⟩
  obtain ⟨got, hget, hprefix, hwhole⟩ := fileGetContentsLoop_spec src
    ((fileContent mode content outs).length + 1) ⟨s, fileContent mode content outs, []⟩
    (Nat.lt_succ_self _)
  have hbuffer : r.buffer = bytes := hmoves.buffer
  refine ⟨outs, rets, r, got, houts, hall, fun hret => ?_, hreads, ?_, ?_, hsound, hget, hprefix,
    hwhole⟩
  · rw [fileContent, hgood hret]
  · rw [hbuffer]
    exact hmoves.left
  · rw [hbuffer]
    exact hread

/-- A device that delivers what is wanted. Its state tells whether the end was met. -/
def willingSource : FileSource Bool where
  fread := fun _ left wanted => (min left wanted, decide (left < wanted))
  feof := id
  fread_le := fun _ _ _ => le_rfl
  feof_left := fun _ left wanted hwanted h _ => by
    rcases Nat.min_eq_zero_iff.mp h with hleft | hzero
    · exact hleft
    · exact absurd hzero (Nat.ne_of_gt hwanted)

lemma willingSource_sound : willingSource.Sound where
  pos := fun _ _ _ hleft hwanted => lt_min hleft hwanted
  eof := fun _ _ hwanted => decide_eq_true hwanted

/-- `ab` and `c` are written behind `x`; then two and nine bytes are asked for. -/
theorem fileStream_roundTrip_append : ∃ rets r,
    fileReads willingSource ⟨false, [0x78, 0x61, 0x62, 0x63], []⟩ [2, 9] = some (rets, r) ∧
      r.buffer = [0x78, 0x61, 0x62, 0x63] ∧ rets.sum = 4 ∧
      fileGetContents willingSource false [0x78, 0x61, 0x62, 0x63] =
        some [0x78, 0x61, 0x62, 0x63] := by
  have hfits : ∀ w ∈ [(⟨(), [0x61, 0x62], 0, 2⟩ : FileWrite Unit), ⟨(), [0x63, 0x64], 0, 1⟩],
      w.Fits := by
    intro w hw
    rcases List.mem_pair.mp hw with rfl | rfl
    · exact ⟨by decide, rfl⟩
    · exact ⟨by decide, rfl⟩
  obtain ⟨outs, rets, r, got, houts, -, -, hreads, -, hread, hsound, hget, -, hwhole⟩ :=
    fileStream_roundTrip (show FileOpenMode.append ≠ .read by decide) willingDevice hfits willingSource false [0x78]
      [2, 9]
  have hwritten : fileWrites .append willingDevice
      [⟨(), [0x61, 0x62], 0, 2⟩, ⟨(), [0x63, 0x64], 0, 1⟩] =
      some [(2, [0x61, 0x62]), (1, [0x63])] := rfl
  obtain rfl := Option.some.inj (houts.symm.trans hwritten)
  obtain ⟨hbuffer, hsum⟩ := hread (hsound willingSource_sound)
  obtain rfl := hwhole willingSource_sound
  exact ⟨rets, r, hreads, hbuffer, hsum.trans (by rw [hbuffer]; rfl), hget⟩

end LibCmutils
