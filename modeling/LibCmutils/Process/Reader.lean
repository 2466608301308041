import LibCmutils.Lib.Lawful
import LibCmutils.Process.Lifecycle

/-!
The reader of a process (`src/process.c`): what a child writes is passed on line by line.

* `ProcReader`: the variables of `CMUTIL_ProcessReadProc` and what it has done.
  `processReadLoop`: its loop, with what `poll` and `read` give in each round.
* `lineText`: what is passed on of the bytes that are read. Ends of lines are not.
* `ReaderLaw`: which act may come after which history.
* `ReaderInv`: the buffers, the flags and the set that is polled agree with the history.

The main result is `processReadProc_forwards`. The code is compiled for POSIX. What is logged
about errors is left out.
-/

namespace LibCmutils

/-- The streams of a child that can be read. -/
inductive ProcOutput where
  | stdout | stderr
  deriving DecidableEq

/-- What `read` gives for one byte. -/
inductive PipeRead where
  | byte (c : UInt8)
  | eof
  | failed
  deriving DecidableEq

/-- What `poll` gives, with what `read` gives for the streams that are ready. -/
inductive PollResult where
  | ready (out err : Option PipeRead)
  | timeout
  | failed

/-- A round of the loop: the process that is piped to, which another thread may set, and what
`poll` gives. -/
structure PollRound where
  pipeTo : Option ℕ
  result : PollResult

/-- What the reader does. A chunk goes to a process, or to the log. -/
inductive ReaderAct where
  | poll (tpfd fdCnt : ℕ)
  | read (o : ProcOutput) (r : PipeRead)
  | flush (o : ProcOutput) (target : Option ℕ) (chunk : List UInt8)
  | sleep
  deriving DecidableEq

/-- A buffer, and a bit of `closecnt`. -/
structure ReaderStream where
  buf : List UInt8
  closed : Bool
  deriving DecidableEq

/-- The variables of `CMUTIL_ProcessReadProc`, and what was done. -/
structure ProcReader where
  streams : ProcOutput → ReaderStream
  tpfd : ℕ
  fdCnt : ℕ
  acts : List ReaderAct

/-- The entries of `pfd` that `poll` is given. -/
def pfdPart (tpfd fdCnt : ℕ) : List ProcOutput :=
  ([.stdout, .stderr].drop tpfd).take fdCnt

/-- The streams that the caller reads itself, or has asked for. -/
def callerReads (type : ProcStreamType) (pipeTo : Option ℕ) : ProcOutput → Bool
  | .stdout => type.read && pipeTo.isNone
  | .stderr => type.readErr

namespace ProcReader

variable (s : ProcReader)

/-- Something is done. -/
def act (a : ReaderAct) : ProcReader := { s with acts := s.acts ++ [a] }

/-- A stream is set. -/
def setStream (o : ProcOutput) (st : ReaderStream) : ProcReader :=
  { s with streams := Function.update s.streams o st }

@[simp] lemma act_acts (a : ReaderAct) : (s.act a).acts = s.acts ++ [a] := rfl

@[simp] lemma act_streams (a : ReaderAct) : (s.act a).streams = s.streams := rfl

@[simp] lemma setStream_acts (o : ProcOutput) (st : ReaderStream) :
    (s.setStream o st).acts = s.acts := rfl

@[simp] lemma setStream_self (o : ProcOutput) (st : ReaderStream) :
    (s.setStream o st).streams o = st := by
  simp [setStream]

lemma setStream_of_ne {o o' : ProcOutput} (h : o' ≠ o) (st : ReaderStream) :
    (s.setStream o st).streams o' = s.streams o' := by
  simp [setStream, h]

/-- `CMUTIL_ProcessFlushStdout` and `CMUTIL_ProcessFlushStderr`. -/
def flush (pipeTo : Option ℕ) (o : ProcOutput) : ProcReader :=
  let target := match o with
    | .stdout => pipeTo
    | .stderr => none
  (s.act (.flush o target (s.streams o).buf)).setStream o { s.streams o with buf := [] }

/-- Flushed if there is something. -/
def flushRest (pipeTo : Option ℕ) (o : ProcOutput) : ProcReader :=
  if 0 < (s.streams o).buf.length then s.flush pipeTo o else s

/-- One byte of a stream is read. `strchr` finds the end of its text, too. -/
def readStream (pipeTo : Option ℕ) (o : ProcOutput) (r : PipeRead) : ProcReader :=
  let s := s.act (.read o r)
  let st := s.streams o
  match r with
  | .byte c =>
      let buf := if c ∈ [13, 10, 0] then st.buf else st.buf ++ [c]
      let s := s.setStream o { st with buf := buf }
      if buf.length = 1024 ∨ c = 10 then s.flush pipeTo o else s
  | .eof | .failed => s.setStream o { st with closed := true }

/-- The part of the loop for `stdout`. -/
def readStdout (type : ProcStreamType) (pipeTo : Option ℕ) (r : PipeRead) : ProcReader :=
  let s := s.readStream pipeTo .stdout r
  if (s.streams .stdout).closed ∧ ¬(s.streams .stderr).closed ∧ ¬type.readErr then
    { s with fdCnt := 1, tpfd := 1 }
  else s

/-- The part of the loop for `stderr`. -/
def readStderr (pipeTo : Option ℕ) (r : PipeRead) : ProcReader :=
  let s := s.readStream pipeTo .stderr r
  if (s.streams .stderr).closed ∧ ¬(s.streams .stdout).closed then
    { s with fdCnt := 1, tpfd := 0 }
  else s

/-- The streams that `poll` found ready. -/
def readReady (type : ProcStreamType) (pipeTo : Option ℕ) (out err : Option PipeRead) :
    ProcReader :=
  let polled := pfdPart s.tpfd s.fdCnt
  let s := match out with
    | some r => if .stdout ∈ polled then s.readStdout type pipeTo r else s
    | none => s
  match err with
  | some r => if .stderr ∈ polled then s.readStderr pipeTo r else s
  | none => s

/-- The start of `CMUTIL_ProcessReadProc`. -/
def start (type : ProcStreamType) (pipeTo : Option ℕ) : ProcReader where
  streams o := ⟨[], callerReads type pipeTo o⟩
  tpfd := if callerReads type pipeTo .stdout then 1 else 0
  fdCnt := 2 - (if callerReads type pipeTo .stdout then 1 else 0) -
    (if type.readErr then 1 else 0)
  acts := []

end ProcReader

/-- The loop of `CMUTIL_ProcessReadProc`, and whether it was left. -/
def processReadLoop (type : ProcStreamType) : List PollRound → ProcReader → ProcReader × Bool
  | rounds, s =>
      if (s.streams .stdout).closed ∧ (s.streams .stderr).closed then (s, true)
      else
        match rounds with
        | [] => (s, false)
        | round :: rounds =>
            let s := s.act (.poll s.tpfd s.fdCnt)
            match round.result with
            | .ready out err =>
                processReadLoop type rounds (s.readReady type round.pipeTo out err)
            | .timeout =>
                let s := (s.flushRest round.pipeTo .stdout).flushRest round.pipeTo .stderr
                processReadLoop type rounds (s.act .sleep)
            | .failed => (s, true)

/-- `CMUTIL_ProcessReadProc`: what it has done after some rounds, and whether it is at its end.
The process that is piped to is read at the start, and at each flush. -/
def processReadProc (type : ProcStreamType) (pipeTo : Option ℕ) (rounds : List PollRound)
    (pipeTo' : Option ℕ) : List ReaderAct × Bool :=
  match processReadLoop type rounds (.start type pipeTo) with
  | (s, true) => (((s.flushRest pipeTo' .stdout).flushRest pipeTo' .stderr).acts, true)
  | (s, false) => (s.acts, false)

/-! ### What is read and what is passed on -/

/-- What was read of a stream. -/
def readsOf (o : ProcOutput) (acts : List ReaderAct) : List PipeRead :=
  acts.filterMap fun
    | .read o' r => if o' = o then some r else none
    | _ => none

/-- The chunks of a stream that were passed on. -/
def sentOf (o : ProcOutput) (acts : List ReaderAct) : List (List UInt8) :=
  acts.filterMap fun
    | .flush o' _ chunk => if o' = o then some chunk else none
    | _ => none

/-- What is passed on of what is read: the bytes without the ends of lines and without zeros. -/
def lineText (reads : List PipeRead) : List UInt8 :=
  reads.filterMap fun
    | .byte c => if c ∈ [13, 10, 0] then none else some c
    | _ => none

/-- A stream has not ended. -/
def StillOpen (reads : List PipeRead) : Prop := ∀ r ∈ reads, ∃ c, r = .byte c

/-- What is read of a stream, up to its end. -/
def upToEnd : List PipeRead → List PipeRead
  | [] => []
  | .byte c :: rest => .byte c :: upToEnd rest
  | .eof :: _ => [.eof]
  | .failed :: _ => [.failed]

/-- What a round has for a stream. -/
def PollResult.offer (o : ProcOutput) : PollResult → Option PipeRead
  | .ready out err => match o with
      | .stdout => out
      | .stderr => err
  | .timeout | .failed => none

/-- What a stream has for the reader, until a `poll` fails. -/
def offered (o : ProcOutput) : List PollRound → List PipeRead
  | [] => []
  | round :: rounds =>
      match round.result with
      | .failed => []
      | result => (result.offer o).toList ++ offered o rounds

/-- All that was read of a stream is passed on. -/
def UpToDate (acts : List ReaderAct) (o : ProcOutput) : Prop :=
  (sentOf o acts).flatten = lineText (readsOf o acts)

/-- Which act may come after which history. Only the own streams that have not ended are polled
and read, a line that has ended is passed on before the next `poll`, a flush leaves nothing,
and a reader that sleeps holds nothing back. -/
def ReaderLaw (type : ProcStreamType) (pipeTo : Option ℕ) (acts : List ReaderAct) :
    ReaderAct → Prop
  | .poll tpfd fdCnt => tpfd + fdCnt ≤ 2 ∧ ∀ o,
      (o ∈ pfdPart tpfd fdCnt ↔ callerReads type pipeTo o = false ∧ StillOpen (readsOf o acts)) ∧
      ((readsOf o acts).getLast? = some (.byte 10) → UpToDate acts o)
  | .read o _ => callerReads type pipeTo o = false ∧ StillOpen (readsOf o acts)
  | .flush o _ chunk => chunk.length ≤ 1024 ∧
      (sentOf o acts).flatten ++ chunk = lineText (readsOf o acts)
  | .sleep => ∀ o, UpToDate acts o

section History
variable {o o' : ProcOutput} {acts : List ReaderAct} {a : ReaderAct} {r : PipeRead}

@[simp] lemma readsOf_read (acts : List ReaderAct) (o : ProcOutput) (r : PipeRead) :
    readsOf o (acts ++ [.read o r]) = readsOf o acts ++ [r] := by
  simp [readsOf]

@[simp] lemma sentOf_flush (acts : List ReaderAct) (o : ProcOutput) (target : Option ℕ)
    (chunk : List UInt8) :
    sentOf o (acts ++ [.flush o target chunk]) = sentOf o acts ++ [chunk] := by
  simp [sentOf]

lemma readsOf_other (acts : List ReaderAct) (h : ∀ r, a ≠ .read o r) :
    readsOf o (acts ++ [a]) = readsOf o acts := by
  rw [readsOf, List.filterMap_append, ← readsOf, List.append_right_eq_self]
  match a with
  | .poll _ _ | .flush _ _ _ | .sleep => rfl
  | .read o' r =>
      have hne : o' ≠ o := fun heq => h r (heq ▸ rfl)
      simp [hne]

lemma sentOf_other (acts : List ReaderAct) (h : ∀ target chunk, a ≠ .flush o target chunk) :
    sentOf o (acts ++ [a]) = sentOf o acts := by
  rw [sentOf, List.filterMap_append, ← sentOf, List.append_right_eq_self]
  match a with
  | .poll _ _ | .read _ _ | .sleep => rfl
  | .flush o' target chunk =>
      have hne : o' ≠ o := fun heq => h target chunk (heq ▸ rfl)
      simp [hne]

lemma lineText_byte (reads : List PipeRead) (c : UInt8) :
    lineText (reads ++ [.byte c]) =
      lineText reads ++ if c ∈ [13, 10, 0] then [] else [c] := by
  by_cases hc : c ∈ [13, 10, 0] <;> simp_all [lineText]

lemma lineText_end {reads : List PipeRead} (h : ∀ c, r ≠ .byte c) :
    lineText (reads ++ [r]) = lineText reads := by
  match r with
  | .eof | .failed => simp [lineText]
  | .byte c => exact absurd rfl (h c)

@[simp] lemma stillOpen_concat {reads : List PipeRead} :
    StillOpen (reads ++ [r]) ↔ StillOpen reads ∧ ∃ c, r = .byte c := by
  simp [StillOpen, or_imp, forall_and]

end History

/-! ### The invariant -/

/-- What is buffered of a stream is what was read and is not passed on, and the stream is closed
for the reader when it is not its own or has ended. -/
structure ReaderStream.Holds (st : ReaderStream) (caller : Bool) (o : ProcOutput)
    (acts : List ReaderAct) : Prop where
  text : (sentOf o acts).flatten ++ st.buf = lineText (readsOf o acts)
  short : st.buf.length < 1024
  line : (readsOf o acts).getLast? = some (.byte 10) → st.buf = []
  closed_iff : st.closed = false ↔ caller = false ∧ StillOpen (readsOf o acts)

/-- The buffers, the flags and the part that is polled agree with the history. -/
structure ReaderInv (type : ProcStreamType) (pipeTo : Option ℕ) (s : ProcReader) : Prop where
  lawful : Lawful (ReaderLaw type pipeTo) s.acts
  holds : ∀ o, (s.streams o).Holds (callerReads type pipeTo o) o s.acts
  polled : (∃ o, (s.streams o).closed = false) → s.tpfd + s.fdCnt ≤ 2 ∧
    ∀ o, o ∈ pfdPart s.tpfd s.fdCnt ↔ (s.streams o).closed = false

section Step
variable {type : ProcStreamType} {pipeTo pipeTo' : Option ℕ} {s : ProcReader} {o o' : ProcOutput}
  {r : PipeRead} {a : ReaderAct}

/-- Acts on another stream leave a stream as it is. -/
lemma ReaderStream.Holds.other {st : ReaderStream} {caller : Bool} {acts : List ReaderAct}
    (h : st.Holds caller o acts) (hread : ∀ r, a ≠ .read o r)
    (hflush : ∀ target chunk, a ≠ .flush o target chunk) : st.Holds caller o (acts ++ [a]) := by
  refine ⟨?_, h.short, ?_, ?_⟩
  · rw [readsOf_other acts hread, sentOf_other acts hflush, h.text]
  · rw [readsOf_other acts hread]
    exact h.line
  · rw [readsOf_other acts hread]
    exact h.closed_iff

lemma ReaderStream.Holds.upToDate {st : ReaderStream} {caller : Bool} {acts : List ReaderAct}
    (h : st.Holds caller o acts) (hbuf : st.buf = []) : UpToDate acts o := by
  have htext := h.text
  rwa [hbuf, List.append_nil] at htext

/-- An act that is no read and no flush. -/
lemma ReaderInv.act (h : ReaderInv type pipeTo s) (hlaw : ReaderLaw type pipeTo s.acts a)
    (hread : ∀ o r, a ≠ .read o r) (hflush : ∀ o target chunk, a ≠ .flush o target chunk) :
    ReaderInv type pipeTo (s.act a) :=
  ⟨h.lawful.concat hlaw, fun o => (h.holds o).other (hread o) (hflush o), h.polled⟩

lemma ReaderInv.poll (h : ReaderInv type pipeTo s) (hopen : ∃ o, (s.streams o).closed = false) :
    ReaderInv type pipeTo (s.act (.poll s.tpfd s.fdCnt)) := by
  obtain ⟨hle, hmem⟩ := h.polled hopen
  refine h.act ⟨hle, fun o => ⟨(hmem o).trans (h.holds o).closed_iff, fun hline => ?_⟩⟩
    (fun _ _ => by simp) (fun _ _ _ => by simp)
  exact (h.holds o).upToDate ((h.holds o).line hline)

/-- A flush, with what a read may leave in the buffer. -/
lemma ProcReader.flush_inv (pipeTo' : Option ℕ) (o : ProcOutput)
    (hlawful : Lawful (ReaderLaw type pipeTo) s.acts)
    (hother : ∀ o', o' ≠ o → (s.streams o').Holds (callerReads type pipeTo o') o' s.acts)
    (htext : (sentOf o s.acts).flatten ++ (s.streams o).buf = lineText (readsOf o s.acts))
    (hlen : (s.streams o).buf.length ≤ 1024)
    (hclosed : (s.streams o).closed = false ↔
      callerReads type pipeTo o = false ∧ StillOpen (readsOf o s.acts)) :
    Lawful (ReaderLaw type pipeTo) (s.flush pipeTo' o).acts ∧
      ∀ o', ((s.flush pipeTo' o).streams o').Holds (callerReads type pipeTo o') o'
        (s.flush pipeTo' o).acts := by
  refine ⟨hlawful.concat ⟨hlen, htext⟩, fun o' => ?_⟩
  by_cases ho : o' = o
  · subst ho
    have hreads : ∀ target chunk, readsOf o' (s.acts ++ [.flush o' target chunk]) =
        readsOf o' s.acts := fun target chunk => readsOf_other s.acts fun _ => by simp
    refine ⟨?_, ?_, ?_, ?_⟩
    · simp [flush, setStream, act, hreads, htext]
    · simp [flush, setStream]
    · simp [flush, setStream]
    · simpa [flush, setStream, act, hreads] using hclosed
  · have hstream : (s.flush pipeTo' o).streams o' = s.streams o' := by
      simp [flush, setStream, act, ho]
    rw [hstream]
    refine (hother o' ho).other (fun _ => by simp) fun target chunk heq => ho ?_
    exact (ReaderAct.flush.inj heq).1.symm

/-- A flush changes no flag and not what is polled. -/
lemma ReaderInv.flushRest (h : ReaderInv type pipeTo s) (pipeTo' : Option ℕ) (o : ProcOutput) :
    ReaderInv type pipeTo (s.flushRest pipeTo' o) := by
  rw [ProcReader.flushRest]
  split_ifs with hlen
  · obtain ⟨hlawful, hholds⟩ := ProcReader.flush_inv pipeTo' o h.lawful
      (fun o' _ => h.holds o') (h.holds o).text (h.holds o).short.le (h.holds o).closed_iff
    have hclosed : ∀ o', ((s.flush pipeTo' o).streams o').closed = (s.streams o').closed := by
      intro o'
      by_cases ho : o' = o
      · simp [ProcReader.flush, ProcReader.setStream, ho]
      · simp [ProcReader.flush, ProcReader.setStream, ProcReader.act, ho]
    refine ⟨hlawful, hholds, fun ⟨o', ho'⟩ => ?_⟩
    obtain ⟨hle, hmem⟩ := h.polled ⟨o', (hclosed o').symm.trans ho'⟩
    exact ⟨hle, fun o' => by rw [hclosed]; exact hmem o'⟩
  · exact h

/-- What reading one byte of a stream does. -/
structure StreamRead (type : ProcStreamType) (pipeTo : Option ℕ) (s : ProcReader) (o : ProcOutput)
    (r : PipeRead) (s' : ProcReader) : Prop where
  lawful : Lawful (ReaderLaw type pipeTo) s'.acts
  holds : ∀ o', (s'.streams o').Holds (callerReads type pipeTo o') o' s'.acts
  other : ∀ o', o' ≠ o → s'.streams o' = s.streams o'
  closed_iff : (s'.streams o).closed = false ↔ ∃ c, r = .byte c
  tpfd : s'.tpfd = s.tpfd
  fdCnt : s'.fdCnt = s.fdCnt
  reads : ∀ o', readsOf o' s'.acts = readsOf o' s.acts ++ if o' = o then [r] else []

/-- The history of a read, before anything is passed on. -/
lemma ReaderInv.read (h : ReaderInv type pipeTo s) (hopen : (s.streams o).closed = false)
    (r : PipeRead) :
    Lawful (ReaderLaw type pipeTo) (s.act (.read o r)).acts ∧
      (∀ o', o' ≠ o →
        (s.streams o').Holds (callerReads type pipeTo o') o' (s.act (.read o r)).acts) ∧
      ∀ o', readsOf o' (s.act (.read o r)).acts =
        readsOf o' s.acts ++ if o' = o then [r] else [] := by
  refine ⟨h.lawful.concat ((h.holds o).closed_iff.mp hopen), fun o' ho => ?_, fun o' => ?_⟩
  · refine (h.holds o').other (fun r' heq => ho ?_) fun _ _ => by simp
    exact (ReaderAct.read.inj heq).1.symm
  · by_cases ho : o' = o
    · simp [ProcReader.act, ho]
    · rw [if_neg ho, List.append_nil]
      exact readsOf_other s.acts fun r' heq => ho (ReaderAct.read.inj heq).1.symm

lemma ReaderInv.readByte (h : ReaderInv type pipeTo s) (hopen : (s.streams o).closed = false)
    (pipeTo' : Option ℕ) (c : UInt8) :
    StreamRead type pipeTo s o (.byte c) (s.readStream pipeTo' o (.byte c)) := by
  obtain ⟨hlawful, hother, hreads⟩ := h.read hopen (.byte c)
  obtain ⟨hcaller, hstill⟩ := (h.holds o).closed_iff.mp hopen
  have hread := hreads o
  rw [if_pos rfl] at hread
  have hsent : sentOf o (s.act (.read o (.byte c))).acts = sentOf o s.acts :=
    sentOf_other s.acts fun _ _ => by simp
  have hopen' : StillOpen (readsOf o (s.act (.read o (.byte c))).acts) := by
    rw [hread]
    exact stillOpen_concat.mpr ⟨hstill, c, rfl⟩
  -- the buffer with the byte, if it is kept
  obtain ⟨buf, hbuf⟩ : ∃ buf, buf =
      if c ∈ [13, 10, 0] then (s.streams o).buf else (s.streams o).buf ++ [c] := ⟨_, rfl⟩
  have htext : (sentOf o (s.act (.read o (.byte c))).acts).flatten ++ buf =
      lineText (readsOf o (s.act (.read o (.byte c))).acts) := by
    rw [hread, hsent, lineText_byte, ← (h.holds o).text, List.append_assoc, hbuf]
    split_ifs <;> simp
  have hlen : buf.length ≤ 1024 := by
    have hshort := (h.holds o).short
    rw [hbuf]
    split_ifs
    · exact hshort.le
    · rw [List.length_append]
      exact hshort
  have hstream : s.readStream pipeTo' o (.byte c) =
      if buf.length = 1024 ∨ c = 10 then
        ((s.act (.read o (.byte c))).setStream o ⟨buf, (s.streams o).closed⟩).flush pipeTo' o
      else (s.act (.read o (.byte c))).setStream o ⟨buf, (s.streams o).closed⟩ := by
    rw [hbuf]
    rfl
  rw [hstream]
  have hset : ∀ o', o' ≠ o →
      ((s.act (.read o (.byte c))).setStream o ⟨buf, (s.streams o).closed⟩).streams o' =
        s.streams o' := fun o' ho => ProcReader.setStream_of_ne _ ho _
  split_ifs with hflush
  · obtain ⟨hlawful', hholds'⟩ := ProcReader.flush_inv pipeTo' o
      (s := (s.act (.read o (.byte c))).setStream o ⟨buf, (s.streams o).closed⟩) hlawful
      (fun o' ho => by rw [hset o' ho]; exact hother o' ho)
      (by rwa [ProcReader.setStream_self]) (by rwa [ProcReader.setStream_self])
      (by rw [ProcReader.setStream_self]; exact iff_of_true hopen ⟨hcaller, hopen'⟩)
    refine ⟨hlawful', hholds', fun o' ho => ?_, ?_, rfl, rfl, fun o' => ?_⟩
    · exact (ProcReader.setStream_of_ne _ ho _).trans (hset o' ho)
    · exact iff_of_true (by simpa [ProcReader.flush] using hopen) ⟨c, rfl⟩
    · rw [← hreads]
      exact readsOf_other _ fun _ => by simp
  · rw [not_or] at hflush
    refine ⟨hlawful, fun o' => ?_, hset, ?_, rfl, rfl, hreads⟩
    · by_cases ho : o' = o
      · subst ho
        rw [ProcReader.setStream_self]
        refine ⟨htext, lt_of_le_of_ne hlen hflush.1, fun hline => ?_,
          iff_of_true hopen ⟨hcaller, hopen'⟩⟩
        rw [ProcReader.setStream_acts, hread, List.getLast?_concat] at hline
        exact absurd (PipeRead.byte.inj (Option.some.inj hline)) hflush.2
      · rw [hset o' ho]
        exact hother o' ho
    · exact iff_of_true (by simpa using hopen) ⟨c, rfl⟩

lemma ReaderInv.readEnd (h : ReaderInv type pipeTo s) (hopen : (s.streams o).closed = false)
    (pipeTo' : Option ℕ) (hr : ∀ c, r ≠ .byte c) :
    StreamRead type pipeTo s o r (s.readStream pipeTo' o r) := by
  obtain ⟨hlawful, hother, hreads⟩ := h.read hopen r
  have hread := hreads o
  rw [if_pos rfl] at hread
  have hsent : sentOf o (s.act (.read o r)).acts = sentOf o s.acts :=
    sentOf_other s.acts fun _ _ => by simp
  have hstream : s.readStream pipeTo' o r =
      (s.act (.read o r)).setStream o ⟨(s.streams o).buf, true⟩ := by
    match r with
    | .eof | .failed => rfl
    | .byte c => exact absurd rfl (hr c)
  rw [hstream]
  refine ⟨hlawful, fun o' => ?_, fun o' ho => ProcReader.setStream_of_ne _ ho _, ?_, rfl, rfl,
    hreads⟩
  · by_cases ho : o' = o
    · subst ho
      rw [ProcReader.setStream_self]
      refine ⟨?_, (h.holds o').short, fun hline => ?_, iff_of_false (by simp) fun hopen' => ?_⟩
      · rw [ProcReader.setStream_acts, hread, hsent, lineText_end hr, (h.holds o').text]
      · rw [ProcReader.setStream_acts, hread, List.getLast?_concat] at hline
        exact absurd (Option.some.inj hline) (hr 10)
      · rw [ProcReader.setStream_acts, hread] at hopen'
        obtain ⟨c, rfl⟩ := (stillOpen_concat.mp hopen'.2).2
        exact hr c rfl
    · rw [ProcReader.setStream_of_ne _ ho]
      exact hother o' ho
  · refine iff_of_false (by simp) ?_
    rintro ⟨c, rfl⟩
    exact hr c rfl

lemma ReaderInv.readStream (h : ReaderInv type pipeTo s) (hopen : (s.streams o).closed = false)
    (pipeTo' : Option ℕ) (r : PipeRead) :
    StreamRead type pipeTo s o r (s.readStream pipeTo' o r) := by
  match r with
  | .byte c => exact h.readByte hopen pipeTo' c
  | .eof | .failed => exact h.readEnd hopen pipeTo' fun _ => by simp

lemma ReaderInv.readStdout (h : ReaderInv type pipeTo s)
    (hopen : (s.streams .stdout).closed = false) (pipeTo' : Option ℕ) (r : PipeRead) :
    ReaderInv type pipeTo (s.readStdout type pipeTo' r) ∧
      (s.readStdout type pipeTo' r).streams .stderr = s.streams .stderr ∧
      ∀ o, readsOf o (s.readStdout type pipeTo' r).acts =
        readsOf o s.acts ++ if o = .stdout then [r] else [] := by
  have hread := h.readStream hopen pipeTo' r
  have hother := hread.other .stderr (by simp)
  simp only [ProcReader.readStdout]
  generalize s.readStream pipeTo' .stdout r = s' at hread hother ⊢
  split_ifs with hswitch
  · obtain ⟨hout, herr, -⟩ := hswitch
    refine ⟨⟨hread.lawful, hread.holds, fun _ => ⟨le_rfl, fun o => ?_⟩⟩, hother, hread.reads⟩
    match o with
    | .stdout => simp [pfdPart, hout]
    | .stderr => simpa [pfdPart] using herr
  · refine ⟨⟨hread.lawful, hread.holds, fun ⟨o', ho'⟩ => ?_⟩, hother, hread.reads⟩
    obtain ⟨hle, hmem⟩ := h.polled ⟨.stdout, hopen⟩
    rw [hread.tpfd, hread.fdCnt]
    have hout : (s'.streams .stdout).closed = false := by
      by_contra hclosed
      have herr : (s'.streams .stderr).closed = false := by
        match o' with
        | .stdout => exact absurd ho' hclosed
        | .stderr => exact ho'
      have htype : type.readErr = false := ((hread.holds .stderr).closed_iff.mp herr).1
      exact hswitch ⟨by simpa using hclosed, by simp [herr], by simp [htype]⟩
    refine ⟨hle, fun o => (hmem o).trans ?_⟩
    match o with
    | .stdout => simp [hopen, hout]
    | .stderr => rw [hother]

lemma ReaderInv.readStderr (h : ReaderInv type pipeTo s)
    (hopen : (s.streams .stderr).closed = false) (pipeTo' : Option ℕ) (r : PipeRead) :
    ReaderInv type pipeTo (s.readStderr pipeTo' r) ∧
      ∀ o, readsOf o (s.readStderr pipeTo' r).acts =
        readsOf o s.acts ++ if o = .stderr then [r] else [] := by
  have hread := h.readStream hopen pipeTo' r
  have hother := hread.other .stdout (by simp)
  simp only [ProcReader.readStderr]
  generalize s.readStream pipeTo' .stderr r = s' at hread hother ⊢
  split_ifs with hswitch
  · obtain ⟨herr, hout⟩ := hswitch
    refine ⟨⟨hread.lawful, hread.holds, fun _ => ⟨by simp, fun o => ?_⟩⟩, hread.reads⟩
    match o with
    | .stdout => simpa [pfdPart] using hout
    | .stderr => simp [pfdPart, herr]
  · refine ⟨⟨hread.lawful, hread.holds, fun ⟨o', ho'⟩ => ?_⟩, hread.reads⟩
    obtain ⟨hle, hmem⟩ := h.polled ⟨.stderr, hopen⟩
    rw [hread.tpfd, hread.fdCnt]
    have herr : (s'.streams .stderr).closed = false := by
      by_contra hclosed
      have hout : (s'.streams .stdout).closed = false := by
        match o' with
        | .stdout => exact ho'
        | .stderr => exact absurd ho' hclosed
      exact hswitch ⟨by simpa using hclosed, by simp [hout]⟩
    refine ⟨hle, fun o => (hmem o).trans ?_⟩
    match o with
    | .stdout => rw [hother]
    | .stderr => simp [hopen, herr]

end Step

/-! ### Rounds -/

section Loop
variable {type : ProcStreamType} {pipeTo pipeTo' : Option ℕ} {s s' : ProcReader} {o : ProcOutput}

/-- What a round does: the streams that are open and ready are read once, in their order. -/
structure RoundDone (type : ProcStreamType) (pipeTo : Option ℕ) (s : ProcReader)
    (result : PollResult) (s' : ProcReader) : Prop where
  inv : ReaderInv type pipeTo s'
  reads : ∀ o, readsOf o s'.acts = readsOf o s.acts ++
    if (s.streams o).closed then [] else (result.offer o).toList

lemma RoundDone.closed_iff (h : RoundDone type pipeTo s result s') (hs : ReaderInv type pipeTo s)
    (o : ProcOutput) : (s'.streams o).closed = false ↔
      (s.streams o).closed = false ∧ StillOpen (result.offer o).toList := by
  rw [(h.inv.holds o).closed_iff, (hs.holds o).closed_iff, h.reads]
  cases hclosed : (s.streams o).closed with
  | true =>
      have hnot := (hs.holds o).closed_iff.not.mp (by simp [hclosed])
      rw [if_pos rfl, List.append_nil]
      exact iff_of_false hnot fun h => hnot h.1
  | false => simp [StillOpen, or_imp, forall_and, and_assoc]

lemma ReaderInv.readReady (h : ReaderInv type pipeTo s)
    (hopen : ∃ o, (s.streams o).closed = false) (pipeTo' : Option ℕ) (out err : Option PipeRead) :
    RoundDone type pipeTo s (.ready out err) (s.readReady type pipeTo' out err) := by
  obtain ⟨-, hmem⟩ := h.polled hopen
  -- after the part for `stdout`
  obtain ⟨s₁, hs₁, hinv₁, hstream₁, hreads₁⟩ : ∃ s₁, s₁ = (match out with
      | some r => if .stdout ∈ pfdPart s.tpfd s.fdCnt then s.readStdout type pipeTo' r else s
      | none => s) ∧ ReaderInv type pipeTo s₁ ∧ s₁.streams .stderr = s.streams .stderr ∧
      ∀ o, readsOf o s₁.acts = readsOf o s.acts ++
        if (s.streams o).closed then [] else if o = .stdout then out.toList else [] := by
    refine ⟨_, rfl, ?_⟩
    match out with
    | none => exact ⟨h, rfl, fun o => by simp⟩
    | some r =>
        by_cases hpolled : .stdout ∈ pfdPart s.tpfd s.fdCnt
        · have hclosed := (hmem _).mp hpolled
          obtain ⟨hinv, hstream, hreads⟩ := h.readStdout hclosed pipeTo' r
          simp only [if_pos hpolled]
          refine ⟨hinv, hstream, fun o => ?_⟩
          rw [hreads]
          match o with
          | .stdout => simp [hclosed]
          | .stderr => simp
        · have hclosed := (hmem _).not.mp hpolled
          simp only [if_neg hpolled, true_and]
          refine ⟨h, fun o => ?_⟩
          match o with
          | .stdout => simp [hclosed]
          | .stderr => simp
  have hround : s.readReady type pipeTo' out err = match err with
      | some r => if .stderr ∈ pfdPart s.tpfd s.fdCnt then s₁.readStderr pipeTo' r else s₁
      | none => s₁ := by
    rw [hs₁]
    rfl
  rw [hround]
  match err with
  | none =>
      refine ⟨hinv₁, fun o => ?_⟩
      rw [hreads₁]
      match o with
      | .stdout => simp [PollResult.offer]
      | .stderr => simp [PollResult.offer]
  | some r =>
      by_cases hpolled : .stderr ∈ pfdPart s.tpfd s.fdCnt
      · have hclosed := (hmem _).mp hpolled
        obtain ⟨hinv, hreads⟩ := hinv₁.readStderr (by rw [hstream₁]; exact hclosed) pipeTo' r
        simp only [if_pos hpolled]
        refine ⟨hinv, fun o => ?_⟩
        rw [hreads, hreads₁]
        match o with
        | .stdout => simp [PollResult.offer]
        | .stderr => simp [PollResult.offer, hclosed]
      · have hclosed := (hmem _).not.mp hpolled
        simp only [if_neg hpolled]
        refine ⟨hinv₁, fun o => ?_⟩
        rw [hreads₁]
        match o with
        | .stdout => simp [PollResult.offer]
        | .stderr => simp [hclosed]

/-- Nothing is left in the buffer. -/
lemma ProcReader.flushRest_self (s : ProcReader) (pipeTo' : Option ℕ) (o : ProcOutput) :
    ((s.flushRest pipeTo' o).streams o).buf = [] := by
  rw [flushRest]
  split_ifs with hlen
  · simp [flush]
  · exact List.length_eq_zero_iff.mp (Nat.eq_zero_of_not_pos hlen)

lemma ProcReader.flushRest_of_ne (s : ProcReader) (pipeTo' : Option ℕ) {o o' : ProcOutput}
    (h : o' ≠ o) : (s.flushRest pipeTo' o).streams o' = s.streams o' := by
  rw [flushRest]
  split_ifs
  · exact setStream_of_ne _ h _
  · rfl

@[simp] lemma ProcReader.readsOf_flushRest (s : ProcReader) (pipeTo' : Option ℕ)
    (o o' : ProcOutput) : readsOf o' (s.flushRest pipeTo' o).acts = readsOf o' s.acts := by
  rw [flushRest]
  split_ifs
  · exact readsOf_other s.acts fun _ => by simp
  · rfl

/-- Both buffers are flushed. -/
lemma ReaderInv.flushRests (h : ReaderInv type pipeTo s) (pipeTo' : Option ℕ) :
    ReaderInv type pipeTo ((s.flushRest pipeTo' .stdout).flushRest pipeTo' .stderr) ∧
      ∀ o, UpToDate ((s.flushRest pipeTo' .stdout).flushRest pipeTo' .stderr).acts o := by
  have hflushed := (h.flushRest pipeTo' .stdout).flushRest pipeTo' .stderr
  refine ⟨hflushed, fun o => (hflushed.holds o).upToDate ?_⟩
  match o with
  | .stdout => rw [ProcReader.flushRest_of_ne _ _ (by simp), ProcReader.flushRest_self]
  | .stderr => exact ProcReader.flushRest_self _ _ _

lemma ReaderInv.timeout (h : ReaderInv type pipeTo s) (pipeTo' : Option ℕ) :
    RoundDone type pipeTo s .timeout
      (((s.flushRest pipeTo' .stdout).flushRest pipeTo' .stderr).act .sleep) := by
  obtain ⟨hflushed, hall⟩ := h.flushRests pipeTo'
  refine ⟨hflushed.act hall (fun _ _ => by simp) fun _ _ _ => by simp, fun o => ?_⟩
  rw [ProcReader.act_acts, readsOf_other _ fun _ => by simp]
  simp [PollResult.offer]

/-- A round, and the rounds after it. -/
lemma RoundDone.offered {result : PollResult} (h : RoundDone type pipeTo s result s')
    (hs : ReaderInv type pipeTo s) (rest : List PipeRead) :
    readsOf o s'.acts ++ (if (s'.streams o).closed then [] else upToEnd rest) =
      readsOf o s.acts ++
        if (s.streams o).closed then [] else upToEnd ((result.offer o).toList ++ rest) := by
  have hclosed := h.closed_iff hs o
  rw [h.reads, List.append_assoc]
  congr 1
  cases hs : (s.streams o).closed with
  | true => simp_all
  | false =>
      match hoffer : result.offer o with
      | none => simp_all [StillOpen]
      | some (.byte c) => simp_all [StillOpen, upToEnd]
      | some .eof => simp_all [StillOpen, upToEnd]
      | some .failed => simp_all [StillOpen, upToEnd]

@[simp] lemma stillOpen_nil : StillOpen [] := fun r hr => by simp at hr

@[simp] lemma stillOpen_append {reads reads' : List PipeRead} :
    StillOpen (reads ++ reads') ↔ StillOpen reads ∧ StillOpen reads' := by
  simp [StillOpen, or_imp, forall_and]

lemma offered_cons {round : PollRound} (h : round.result ≠ .failed) (rounds : List PollRound) :
    offered o (round :: rounds) =
      (round.result.offer o).toList ++ offered o rounds := by
  obtain ⟨p, result⟩ := round
  match result with
  | .ready out err | .timeout => rfl
  | .failed => exact absurd rfl h

/-- What the loop does from a state on: it reads of each open stream what the rounds have, up to
its end, and is left when no stream is open or a `poll` has failed. -/
structure LoopDone (type : ProcStreamType) (pipeTo : Option ℕ) (s : ProcReader)
    (rounds : List PollRound) (done : ProcReader × Bool) : Prop where
  inv : ReaderInv type pipeTo done.1
  reads : ∀ o, readsOf o done.1.acts = readsOf o s.acts ++
    if (s.streams o).closed then [] else upToEnd (offered o rounds)
  left_iff : done.2 = true ↔
    (∀ o, (s.streams o).closed = false → ¬StillOpen (offered o rounds)) ∨
      ∃ round ∈ rounds, round.result = .failed

/-- A round, and the rounds after it. -/
lemma LoopDone.cons {round : PollRound} {rounds : List PollRound} {done : ProcReader × Bool}
    (hs : ReaderInv type pipeTo s) (hround : RoundDone type pipeTo s round.result s')
    (hresult : round.result ≠ .failed) (h : LoopDone type pipeTo s' rounds done) :
    LoopDone type pipeTo s (round :: rounds) done := by
  refine ⟨h.inv, fun o => ?_, ?_⟩
  · rw [h.reads, hround.offered hs, offered_cons hresult]
  · have hclosed : ∀ o, ((s'.streams o).closed = false → ¬StillOpen (offered o rounds)) ↔
        ((s.streams o).closed = false → ¬StillOpen (offered o (round :: rounds))) := fun o => by
      rw [hround.closed_iff hs, offered_cons hresult, stillOpen_append]
      tauto
    rw [h.left_iff, forall_congr' hclosed]
    simp [hresult]

/-- The loop, from any state. -/
lemma processReadLoop_spec (rounds : List PollRound) (h : ReaderInv type pipeTo s) :
    LoopDone type pipeTo s rounds (processReadLoop type rounds s) := by
  induction rounds generalizing s with
  | nil =>
      rw [processReadLoop]
      split_ifs with hboth
      · refine ⟨h, fun o => by cases o <;> simp [hboth], iff_of_true rfl (Or.inl fun o ho => ?_)⟩
        cases o <;> simp_all
      · refine ⟨h, fun o => by simp [offered, upToEnd], iff_of_false (by simp) ?_⟩
        rintro (hall | ⟨round, hmem, -⟩)
        · refine hboth ⟨?_, ?_⟩
          · by_contra hopen
            exact hall .stdout (by simpa using hopen) stillOpen_nil
          · by_contra hopen
            exact hall .stderr (by simpa using hopen) stillOpen_nil
        · simp at hmem
  | cons round rounds ih =>
      rw [processReadLoop]
      split_ifs with hboth
      · refine ⟨h, fun o => by cases o <;> simp [hboth], iff_of_true rfl (Or.inl fun o ho => ?_)⟩
        cases o <;> simp_all
      · have hopen : ∃ o, (s.streams o).closed = false := by
          by_contra hall
          push Not at hall
          exact hboth ⟨by simpa using hall .stdout, by simpa using hall .stderr⟩
        have hpoll := h.poll hopen
        have hreads : ∀ o, readsOf o (s.act (.poll s.tpfd s.fdCnt)).acts = readsOf o s.acts :=
          fun o => readsOf_other s.acts fun _ => by simp
        have hstart : ∀ done, LoopDone type pipeTo (s.act (.poll s.tpfd s.fdCnt))
            (round :: rounds) done → LoopDone type pipeTo s (round :: rounds) done :=
          fun done hdone => ⟨hdone.inv, fun o => by rw [hdone.reads, hreads]; rfl, hdone.left_iff⟩
        refine hstart _ ?_
        match hresult : round.result with
        | .ready out err =>
            have hdone := hpoll.readReady hopen round.pipeTo out err
            exact .cons hpoll (hresult ▸ hdone) (by simp [hresult]) (ih hdone.inv)
        | .timeout =>
            have hdone := hpoll.timeout round.pipeTo
            exact .cons hpoll (hresult ▸ hdone) (by simp [hresult]) (ih hdone.inv)
        | .failed =>
            refine ⟨hpoll, fun o => ?_, iff_of_true rfl (Or.inr ⟨round, by simp, hresult⟩)⟩
            simp [offered, hresult, upToEnd]

lemma ProcReader.start_inv (type : ProcStreamType) (pipeTo : Option ℕ) :
    ReaderInv type pipeTo (.start type pipeTo) := by
  refine ⟨lawful_nil, fun o => ⟨rfl, by simp [start], fun _ => rfl, by simp [start, readsOf]⟩,
    fun _ => ?_⟩
  have herr : callerReads type pipeTo .stderr = type.readErr := rfl
  simp only [start, ← herr]
  cases hout : callerReads type pipeTo .stdout <;> cases herr : callerReads type pipeTo .stderr <;>
    exact ⟨by simp, fun o => by cases o <;> simp [pfdPart, hout, herr]⟩

end Loop

/-- What the reader of a process has done after some rounds. -/
structure ReaderForwards (type : ProcStreamType) (pipeTo : Option ℕ) (rounds : List PollRound)
    (acts : List ReaderAct) (left : Bool) : Prop where
  lawful : Lawful (ReaderLaw type pipeTo) acts
  reads : ∀ o, readsOf o acts =
    if callerReads type pipeTo o then [] else upToEnd (offered o rounds)
  sent : ∀ o, ∃ rest, (sentOf o acts).flatten ++ rest = lineText (readsOf o acts) ∧
    rest.length < 1024 ∧ (left = true → rest = [])
  left_iff : left = true ↔
    (∀ o, callerReads type pipeTo o = false → ¬StillOpen (offered o rounds)) ∨
      ∃ round ∈ rounds, round.result = .failed

/-- **A child's output is passed on.** Whatever `poll` and `read` give in which order, and
whatever other threads do to the process that is piped to: the reader reads of its own streams
all that comes up to the end, and nothing of a stream that the caller has asked for. What it
passes on are the bytes that it has read, in their order and without the ends of lines and zeros;
less than 1024 bytes are held back while it runs and none when it is at its end. A line is passed
on before the next `poll`. The reader ends when its streams have ended, or a `poll` fails. -/
theorem processReadProc_forwards (type : ProcStreamType) (pipeTo : Option ℕ)
    (rounds : List PollRound) (pipeTo' : Option ℕ) :
    ReaderForwards type pipeTo rounds (processReadProc type pipeTo rounds pipeTo').1
      (processReadProc type pipeTo rounds pipeTo').2 := by
  have hdone := processReadLoop_spec rounds (ProcReader.start_inv type pipeTo)
  rw [processReadProc]
  match hrun : processReadLoop type rounds (.start type pipeTo) with
  | (s, true) =>
      rw [hrun] at hdone
      obtain ⟨hinv, hall⟩ := hdone.inv.flushRests pipeTo'
      refine ⟨hinv.lawful, fun o => ?_, fun o => ⟨[], ?_, by simp, fun _ => rfl⟩, hdone.left_iff⟩
      · rw [ProcReader.readsOf_flushRest, ProcReader.readsOf_flushRest]
        exact hdone.reads o
      · rw [List.append_nil]
        exact hall o
  | (s, false) =>
      rw [hrun] at hdone
      exact ⟨hdone.inv.lawful, hdone.reads, fun o => ⟨(s.streams o).buf, (hdone.inv.holds o).text,
        (hdone.inv.holds o).short, fun h => absurd h (by simp)⟩, hdone.left_iff⟩

end LibCmutils
