import LibCmutils.Lib.CNumber
import LibCmutils.Lib.CString
import LibCmutils.Lib.Files

/-!
Log appenders (`src/logger.c`): console, file and rolling file, synchronous or with a
buffer and a writer thread.

* `Tm`, `LogTerm`, `rollingFileAppenderIsChanged`: the range of bytes of a `struct tm` that
  tells two periods apart.
* `LogOutput`: what an appender has printed, to its stream and to files, and the time that
  a rolling appender remembers.
* `appenderWrite`: `Write` of each kind. `flushOpen`, `flushFront`, `flushItem`: the parts of
  the `Flush` of each kind, before, at the beginning of and inside its loop.
* `flushItem_eq`, `write_flushFront`, `write_flushOpen`: what `Flush` does is what `Write`
  does, line by line.

A line is the text that the pattern made of a message, with the time it was made. Every
`fopen` succeeds, and so does every `rename` of a file that is there; directories are left
out. `strftime` is a parameter, what it leaves in a buffer of 1024 bytes.
-/

namespace LibCmutils

/-! ### Times -/

/-- `struct tm`. -/
structure Tm where
  sec : ℤ
  min : ℤ
  hour : ℤ
  mday : ℤ
  mon : ℤ
  year : ℤ
  wday : ℤ
  yday : ℤ
  isdst : ℤ
  deriving DecidableEq

/-- The fields as they lie in memory. -/
def Tm.fields (tm : Tm) : List ℤ :=
  [tm.sec, tm.min, tm.hour, tm.mday, tm.mon, tm.year, tm.wday, tm.yday, tm.isdst]

/-- `CMLogTerm`. -/
inductive LogTerm where
  | year | month | date | hour | minute
  deriving DecidableEq

/-- `tmst`, counted in fields. -/
def LogTerm.tmst : LogTerm → ℕ
  | year => 5
  | month => 4
  | date => 3
  | hour => 2
  | minute => 1

/-- `tmlen`, counted in fields: the range ends before `tm_wday`. -/
def LogTerm.tmlen (logterm : LogTerm) : ℕ := 6 - logterm.tmst

/-- What `strftime` makes of a format and a time. -/
abbrev Strftime := CString → Tm → CString

/-! ### Appenders -/

/-- `CMUTIL_LogAppderAsyncItem`: a line and its time. -/
structure LogItem where
  log : CString
  logtm : Tm
  deriving DecidableEq

/-- What is particular to a rolling file appender. -/
structure RollingFile where
  fpath : CString
  rollpath : CString
  tmst : ℕ
  tmlen : ℕ
  deriving DecidableEq

/-- The kinds of appenders. -/
inductive AppenderKind where
  | console
  | file (fpath : CString)
  | rolling (iap : RollingFile)
  deriving DecidableEq

/-- What an appender has printed: to its stream, and to files. `lasttm` is the time that a
rolling appender remembers, and `moves` lists the renames it made, each with the new name and
with the file that was replaced, if there was one. -/
structure LogOutput where
  out : List LogItem
  fs : FileSystem CString LogItem
  lasttm : Tm
  moves : List (CString × Option (List LogItem))

/-- `CMUTIL_LogAppenderBase`, and what the appender has printed. -/
structure LogAppenderBase where
  kind : AppenderKind
  isasync : Bool
  buffersz : ℕ
  buffer : Option (List LogItem)
  flushBuffer : Option (List LogItem)
  output : LogOutput

/-! ### Rolling -/

/-- `CMUTIL_LogRollingFileAppenderIsChanged`. -/
def rollingFileAppenderIsChanged (iap : RollingFile) (lasttm curr : Tm) : Bool :=
  decide ((lasttm.fields.drop iap.tmst).take iap.tmlen ≠
    (curr.fields.drop iap.tmst).take iap.tmlen)

/-- `%s-%d`. -/
def rollName (tfname : CString) (i : ℕ) : CString :=
  CString.ofBytes (tfname.1 ++ 0x2D :: decimal i)

/-- The loop of `CMUTIL_LogRollingFileAppenderRolling` for a name that is not in use. -/
def rollFree (fs : FileSystem CString LogItem) (tfname : CString) : ℕ → ℕ → CString → CString
  | 0, _, name => name
  | fuel + 1, i, name =>
      if (fs.content name).isSome then rollFree fs tfname fuel (i + 1) (rollName tfname i)
      else name

section Kinds

variable (strftime : Strftime)

/-- The name that the file is rolled to. -/
def rollTarget (iap : RollingFile) (o : LogOutput) : CString :=
  let tfname := strftime iap.rollpath o.lasttm
  rollFree o.fs tfname (o.fs.names.card + 1) 0 tfname

/-- `CMUTIL_LogRollingFileAppenderRolling`. -/
def rollingFileAppenderRolling (iap : RollingFile) (curr : Tm) (o : LogOutput) : LogOutput :=
  let f := rollTarget strftime iap o
  { o with
    fs := o.fs.rename iap.fpath f
    lasttm := curr
    moves := if (o.fs.content iap.fpath).isSome then o.moves ++ [(f, o.fs.content f)]
      else o.moves }

/-- `fopen` of a path. -/
def LogOutput.openFile (fpath : CString) (o : LogOutput) : LogOutput :=
  { o with fs := o.fs.openAppend fpath }

/-- `fprintf` to a file that is open. -/
def LogOutput.printFile (fpath : CString) (item : LogItem) (o : LogOutput) : LogOutput :=
  { o with fs := o.fs.print fpath item }

/-- Rolling when the period is another one. -/
def rollIfChanged (iap : RollingFile) (curr : Tm) (o : LogOutput) : LogOutput :=
  if rollingFileAppenderIsChanged iap o.lasttm curr then
    rollingFileAppenderRolling strftime iap curr o
  else o

/-- `CMUTIL_LogConsoleAppenderWriter`. -/
def consoleAppenderWriter (item : LogItem) (o : LogOutput) : LogOutput :=
  { o with out := o.out ++ [item] }

/-- `CMUTIL_LogFileAppenderWriter`. -/
def fileAppenderWriter (fpath : CString) (item : LogItem) (o : LogOutput) : LogOutput :=
  (o.openFile fpath).printFile fpath item

/-- `CMUTIL_LogRollingFileAppenderWrite`. -/
def rollingFileAppenderWrite (iap : RollingFile) (item : LogItem) (o : LogOutput) : LogOutput :=
  ((rollIfChanged strftime iap item.logtm o).openFile iap.fpath).printFile iap.fpath item

/-- `Write`. -/
def appenderWrite : AppenderKind → LogOutput → LogItem → LogOutput
  | .console, o, item => consoleAppenderWriter item o
  | .file fpath, o, item => fileAppenderWriter fpath item o
  | .rolling iap, o, item => rollingFileAppenderWrite strftime iap item o

/-- The `fopen` of `CMUTIL_LogFileAppenderFlush`, before it looks at the buffers. -/
def flushOpen : AppenderKind → LogOutput → LogOutput
  | .console, o => o
  | .file fpath, o => o.openFile fpath
  | .rolling _, o => o

/-- What `CMUTIL_LogRollingFileAppenderFlush` does for the first line, before its loop. -/
def flushFront : AppenderKind → LogItem → LogOutput → LogOutput
  | .console, _, o => o
  | .file _, _, o => o
  | .rolling iap, item, o => (rollIfChanged strftime iap item.logtm o).openFile iap.fpath

/-- The body of the loop of `Flush`. A rolling appender closes its file when the period is
another one, and opens the next. -/
def flushItem : AppenderKind → LogItem → LogOutput → LogOutput
  | .console, item, o => consoleAppenderWriter item o
  | .file fpath, item, o => o.printFile fpath item
  | .rolling iap, item, o =>
      if rollingFileAppenderIsChanged iap o.lasttm item.logtm then
        ((rollingFileAppenderRolling strftime iap item.logtm o).openFile iap.fpath).printFile
          iap.fpath item
      else o.printFile iap.fpath item

end Kinds

/-! ### Creating an appender -/

/-- What an appender is created with. -/
inductive AppenderConf where
  | console
  | file (fpath : CString)
  | rolling (fpath : CString) (logterm : LogTerm) (rollpath : CString)
  deriving DecidableEq

/-- The kind of an appender. -/
def AppenderConf.kind : AppenderConf → AppenderKind
  | console => .console
  | file fpath => .file fpath
  | rolling fpath logterm rollpath =>
      .rolling { fpath, rollpath, tmst := logterm.tmst, tmlen := logterm.tmlen }

/-- The output of a new appender. A rolling one takes the time of the file that is there,
`ptime`, and rolls it when the period `ctime` is another one. -/
def AppenderConf.start (strftime : Strftime) (conf : AppenderConf)
    (fs : FileSystem CString LogItem) (ctime ptime : Tm) : LogOutput :=
  match conf.kind with
  | .rolling iap =>
      if (fs.content iap.fpath).isSome then
        rollIfChanged strftime iap ctime { out := [], fs, lasttm := ptime, moves := [] }
      else { out := [], fs, lasttm := ctime, moves := [] }
  | _ => { out := [], fs, lasttm := ctime, moves := [] }

/-- `CMUTIL_LogConsoleAppenderCreate`, `CMUTIL_LogFileAppenderCreate` and
`CMUTIL_LogRollingFileAppenderCreate`. -/
def appenderCreate (strftime : Strftime) (conf : AppenderConf) (fs : FileSystem CString LogItem)
    (ctime ptime : Tm) : LogAppenderBase where
  kind := conf.kind
  isasync := false
  buffersz := 0
  buffer := none
  flushBuffer := none
  output := conf.start strftime fs ctime ptime

/-- `CMUTIL_LogAppenderBaseSetAsync`, the writer thread apart. -/
def appenderSetAsync (b : LogAppenderBase) (buffersz : ℕ) : LogAppenderBase :=
  if b.isasync then b
  else
    { b with
      isasync := true
      buffersz := buffersz
      buffer := some (b.buffer.getD [])
      flushBuffer := some (b.flushBuffer.getD []) }

/-- An appender as it is used: switched to async first, with a size for the buffer, or not. -/
def appenderUsed (b : LogAppenderBase) : Option ℕ → LogAppenderBase
  | none => b
  | some buffersz => appenderSetAsync b buffersz

/-! ### Buffers -/

namespace LogAppenderBase

/-- `MoveAll` of the buffer to the flush buffer; there may be no buffers. -/
def moveAll (b : LogAppenderBase) : Option LogAppenderBase :=
  b.flushBuffer.bind fun flushed => b.buffer.map fun buffer =>
    { b with flushBuffer := some (flushed ++ buffer), buffer := some [] }

/-- `AddTail` of a line to the buffer. -/
def addTail (b : LogAppenderBase) (item : LogItem) : Option LogAppenderBase :=
  b.buffer.map fun buffer => { b with buffer := some (buffer ++ [item]) }

/-- The lines in the buffer. -/
def buffered (b : LogAppenderBase) : List LogItem := b.buffer.getD []

/-- The lines in the flush buffer. -/
def flushed (b : LogAppenderBase) : List LogItem := b.flushBuffer.getD []

end LogAppenderBase

/-! ### What the parts of `Flush` do -/

section Parts

variable {strftime : Strftime} {kind : AppenderKind} {iap : RollingFile} {o : LogOutput}
  {item : LogItem}

lemma not_isChanged_self (iap : RollingFile) (tm : Tm) :
    rollingFileAppenderIsChanged iap tm tm = false := by
  simp [rollingFileAppenderIsChanged]

/-- After rolling, or not, the period is the right one. -/
lemma not_isChanged_rollIfChanged (curr : Tm) :
    rollingFileAppenderIsChanged iap (rollIfChanged strftime iap curr o).lasttm curr = false := by
  rw [rollIfChanged]
  split_ifs with h
  · exact not_isChanged_self iap curr
  · simpa using h

lemma openFile_of_isSome {fpath : CString} (h : (o.fs.content fpath).isSome) :
    o.openFile fpath = o := by
  rw [LogOutput.openFile, FileSystem.openAppend_of_isSome h]

@[simp] lemma isSome_openFile {fpath : CString} :
    ((o.openFile fpath).fs.content fpath).isSome = true := by
  simp [LogOutput.openFile]

@[simp] lemma isSome_printFile {fpath : CString} :
    ((o.printFile fpath item).fs.content fpath).isSome = (o.fs.content fpath).isSome := by
  simp [LogOutput.printFile]

/-- The file that an appender prints to is there. -/
def Ready : AppenderKind → LogOutput → Prop
  | .console, _ => True
  | .file fpath, o => (o.fs.content fpath).isSome
  | .rolling iap, o => (o.fs.content iap.fpath).isSome

/-- The file that `flushOpen` opens is there. -/
def Opened : AppenderKind → LogOutput → Prop
  | .console, _ => True
  | .file fpath, o => (o.fs.content fpath).isSome
  | .rolling _, _ => True

lemma opened_flushOpen : Opened kind (flushOpen kind o) := by
  cases kind with
  | console => trivial
  | file fpath => exact isSome_openFile
  | rolling iap => trivial

lemma ready_flushFront (h : Opened kind o) : Ready kind (flushFront strftime kind item o) := by
  cases kind with
  | console => trivial
  | file fpath => exact h
  | rolling iap => exact isSome_openFile

lemma ready_write : Ready kind (appenderWrite strftime kind o item) := by
  cases kind with
  | console => trivial
  | file fpath => simp [Ready, appenderWrite, fileAppenderWriter]
  | rolling iap => simp [Ready, appenderWrite, rollingFileAppenderWrite]

/-- The body of the loop prints like `Write`. -/
lemma flushItem_eq (strftime : Strftime) (item : LogItem) (h : Ready kind o) :
    flushItem strftime kind item o = appenderWrite strftime kind o item := by
  cases kind with
  | console => rfl
  | file fpath =>
      rw [appenderWrite, fileAppenderWriter, openFile_of_isSome h]
      rfl
  | rolling iap =>
      simp only [flushItem, appenderWrite, rollingFileAppenderWrite, rollIfChanged]
      split_ifs
      · rfl
      · rw [openFile_of_isSome h]

/-- What is done before the loop for the first line is no more than `Write` does. -/
lemma write_flushFront : appenderWrite strftime kind (flushFront strftime kind item o) item =
    appenderWrite strftime kind o item := by
  cases kind with
  | console => rfl
  | file fpath => rfl
  | rolling iap =>
      have hsame : rollIfChanged strftime iap item.logtm
          ((rollIfChanged strftime iap item.logtm o).openFile iap.fpath) =
          (rollIfChanged strftime iap item.logtm o).openFile iap.fpath := by
        have hperiod : rollingFileAppenderIsChanged iap
          ((rollIfChanged strftime iap item.logtm o).openFile iap.fpath).lasttm item.logtm
            = false := not_isChanged_rollIfChanged item.logtm
        rw [rollIfChanged, hperiod]
        rfl
      simp only [appenderWrite, rollingFileAppenderWrite, flushFront]
      rw [hsame, openFile_of_isSome isSome_openFile]

lemma write_flushOpen : appenderWrite strftime kind (flushOpen kind o) item =
    appenderWrite strftime kind o item := by
  cases kind with
  | console => rfl
  | file fpath =>
      simp only [appenderWrite, fileAppenderWriter, flushOpen]
      rw [openFile_of_isSome isSome_openFile]
  | rolling iap => rfl

lemma flushOpen_of_ready (h : Ready kind o) : flushOpen kind o = o := by
  cases kind with
  | console => rfl
  | file fpath => exact openFile_of_isSome h
  | rolling iap => rfl

lemma flushOpen_flushOpen : flushOpen kind (flushOpen kind o) = flushOpen kind o := by
  cases kind with
  | console => rfl
  | file fpath => exact openFile_of_isSome isSome_openFile
  | rolling iap => rfl

end Parts

end LibCmutils
