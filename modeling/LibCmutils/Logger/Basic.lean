import LibCmutils.Lib.CString
import LibCmutils.Lib.SortedList
import LibCmutils.Lib.Transition

/-!
The log system (`src/logger.c`): configured loggers, their appenders, and the loggers
a program logs to.

* `ConfLogger`: a configured logger, with an array of appenders for each level.
  `Logger`: what `GetLogger` returns, with references to configured loggers.
* `LogSystem`: the record of a log system, the configured loggers in memory and those
  that were destroyed. A pointer to a configured logger is its number; a destroyed one
  keeps its number and its bytes.
* `logSystemCreateLogger`, `confLoggerAddAppender`, `logSystemGetLogger`, `loggerLogEx`,
  `loggerIsEnabled`: the interface. `loggerLogEx` lists the appenders that the message is
  given to.

Sorted arrays are the increasing lists of their items, and `Add` is `sortedAdd`. The text
of a message, and what an appender does with it, are left out, and so is the path of a
name that the layouts print.
-/

namespace LibCmutils

/-- `CMLogLevel`. -/
inductive LogLevel where
  | trace | debug | info | warn | error | fatal
  deriving DecidableEq

namespace LogLevel

/-- The value of the enumeration constant. -/
def toNat : LogLevel → ℕ
  | trace => 0
  | debug => 1
  | info => 2
  | warn => 3
  | error => 4
  | fatal => 5

lemma toNat_injective : Function.Injective toNat := by
  intro a b h
  cases a <;> cases b <;> simp_all [toNat]

instance : LinearOrder LogLevel := LinearOrder.lift' toNat toNat_injective

/-- The levels from a given one to `CMLogLevel_Fatal`, the range of the loops. -/
def upTo (level : LogLevel) : List LogLevel :=
  [trace, debug, info, warn, error, fatal].filter fun i => level ≤ i

lemma mem_upTo {level i : LogLevel} : i ∈ level.upTo ↔ level ≤ i := by
  simp only [upTo, List.mem_filter, decide_eq_true_eq, and_iff_right_iff_imp]
  intro
  cases i <;> simp

lemma le_fatal (level : LogLevel) : level ≤ fatal := by
  cases level <;> decide

end LogLevel

/-- A `CMUTIL_LogAppender`: the pointer, and the name it answers. -/
structure LogAppender where
  ptr : ℕ
  name : CString
  deriving DecidableEq

/-- `CMUTIL_LogAppenderComparator`. -/
def logAppenderComparator (a b : LogAppender) : ℤ := strcmp a.name b.name

/-- What a configured logger is created with. -/
structure LoggerConf where
  name : CString
  level : LogLevel
  additivity : Bool
  deriving DecidableEq

/-- `CMUTIL_ConfLogger_Internal`. -/
structure ConfLogger extends LoggerConf where
  lvlapndrs : LogLevel → List LogAppender

/-- `CMUTIL_Logger_Internal`. -/
structure Logger where
  minlevel : LogLevel
  fullname : CString
  logrefs : List ℕ
  deriving DecidableEq

/-- `CMUTIL_LogSystem_Internal`, the configured loggers `conf` with numbers below `next`,
and the numbers of those that were destroyed. -/
structure LogSystem where
  appenders : List LogAppender
  cloggers : List ℕ
  loggers : List Logger
  levelloggers : LogLevel → List ℕ
  conf : ℕ → ConfLogger
  next : ℕ
  destroyed : List ℕ

/-- `CMUTIL_LogSystemCreateInternal`. -/
def logSystemCreate : LogSystem where
  appenders := []
  cloggers := []
  loggers := []
  levelloggers := fun _ => []
  conf := fun _ => { name := .empty, level := .trace, additivity := false, lvlapndrs := fun _ => [] }
  next := 0
  destroyed := []

/-- `CMUTIL_ConfLoggerComparator`. -/
def confLoggerComparator (s : LogSystem) (a b : ℕ) : ℤ := strcmp (s.conf a).name (s.conf b).name

/-- `CMUTIL_LoggerComparator`. -/
def loggerComparator (a b : Logger) : ℤ := strcmp a.fullname b.fullname

/-- `CMUTIL_LoggerRefComparator`: the longer name is first. -/
def loggerRefComparator (s : LogSystem) (a b : ℕ) : ℤ :=
  let sa := (s.conf a).name.1.length
  let sb := (s.conf b).name.1.length
  if sa < sb then 1 else if sb < sa then -1 else 0

/-! ### Configuration -/

/-- `CMUTIL_LogSystemAddAppender`: only the first appender of a name is kept. -/
def logSystemAddAppender (s : LogSystem) (appender : LogAppender) : LogSystem :=
  if s.appenders.any fun a => a.name = appender.name then s
  else { s with appenders := s.appenders ++ [appender] }

/-- The configured logger that `CMUTIL_LogSystemCreateLogger` fills in, in memory. -/
def logSystemAlloc (s : LogSystem) (name : Option CString) (level : LogLevel) (additivity : Bool) :
    LogSystem :=
  { s with
    conf := Function.update s.conf s.next
      { name := name.getD .empty, level := level, additivity := additivity,
        lvlapndrs := fun _ => [] }
    next := s.next + 1 }

/-- `Add` of a configured logger to `cloggers`, which destroys the one it replaces. -/
def logSystemOwn (s : LogSystem) (res : ℕ) : LogSystem :=
  { s with
    cloggers := sortedAdd (confLoggerComparator s) res s.cloggers
    destroyed := s.destroyed ++
      s.cloggers.filter fun old => confLoggerComparator s res old = 0 ∧ old ≠ res }

/-- `Add` of a configured logger to the array of a level, which owns nothing. -/
def logSystemLevelAdd (s : LogSystem) (res : ℕ) (i : LogLevel) : LogSystem :=
  let lvllog := sortedAdd (confLoggerComparator s) res (s.levelloggers i)
  { s with levelloggers := Function.update s.levelloggers i lvllog }

/-- `CMUTIL_LogSystemCreateLogger`. -/
def logSystemCreateLogger (s : LogSystem) (name : Option CString) (level : LogLevel)
    (additivity : Bool) : LogSystem × ℕ :=
  let res := s.next
  let s := logSystemOwn (logSystemAlloc s name level additivity) res
  (level.upTo.foldl (fun s i => logSystemLevelAdd s res i) s, res)

/-- `CMUTIL_ConfLoggerAddAppender`: the appender enters the arrays of the levels from
`level` on. -/
def confLoggerAddAppender (s : LogSystem) (clogger : ℕ) (appender : LogAppender)
    (level : LogLevel) : LogSystem :=
  let s := logSystemAddAppender s appender
  let cli := s.conf clogger
  { s with conf := Function.update s.conf clogger { cli with
      lvlapndrs := fun i =>
        if level ≤ i then sortedAdd logAppenderComparator appender (cli.lvlapndrs i)
        else cli.lvlapndrs i } }

/-! ### Loggers -/

/-- `strncmp`, the end of a list standing for the NUL. -/
def strncmpBytes : ℕ → List UInt8 → List UInt8 → ℤ
  | 0, _, _ => 0
  | _ + 1, [], [] => 0
  | _ + 1, [], b :: _ => -b.toNat
  | _ + 1, a :: _, [] => a.toNat
  | n + 1, a :: as, b :: bs => if a = b then strncmpBytes n as bs else a.toNat - b.toNat

/-- The test of `CMUTIL_LogSystemGetLogger`: the configured logger `clname` is the root or
a name path prefix of `name`. -/
def loggerCovers (clname name : CString) : Bool :=
  let clnlen := clname.1.length
  clnlen == 0 || (strncmpBytes clnlen name.1 clname.1 == 0 &&
    (name.1[clnlen]? == none || name.1[clnlen]? == some 0x2E))

/-- The variables of the loop in `CMUTIL_LogSystemGetLogger`. -/
structure LoggerScan where
  logrefs : List ℕ
  effnlen : ℕ
  haseff : Bool
  minlevel : LogLevel

/-- The body of that loop, for the configured logger `cl`. -/
def loggerScanStep (s : LogSystem) (name : CString) (scan : LoggerScan) (cl : ℕ) : LoggerScan :=
  let clnlen := (s.conf cl).name.1.length
  if loggerCovers (s.conf cl).name name then
    let scan := { scan with logrefs := sortedAdd (loggerRefComparator s) cl scan.logrefs }
    if !scan.haseff || scan.effnlen < clnlen then
      { scan with effnlen := clnlen, haseff := true, minlevel := (s.conf cl).level }
    else scan
  else scan

/-- The loop over `cloggers`. -/
def loggerScan (s : LogSystem) (name : CString) (cloggers : List ℕ) : LoggerScan :=
  cloggers.foldl (loggerScanStep s name)
    { logrefs := [], effnlen := 0, haseff := false, minlevel := .fatal }

/-- `CMUTIL_LogSystemGetLogger`. -/
def logSystemGetLogger (s : LogSystem) (name : CString) : LogSystem × Logger :=
  match s.loggers.find? fun l => strcmp name l.fullname = 0 with
  | some res => (s, res)
  | none =>
      let scan := loggerScan s name s.cloggers
      let res := { minlevel := scan.minlevel, fullname := name, logrefs := scan.logrefs }
      ({ s with loggers := sortedAdd loggerComparator res s.loggers }, res)

/-- `CMUTIL_ConfLoggerLog`, the appenders that are given the message. -/
def confLoggerLog (s : LogSystem) (cli : ℕ) (level : LogLevel) : List LogAppender :=
  (s.conf cli).lvlapndrs level

/-- The loop of `CMUTIL_LoggerLogEx` over the references. -/
def loggerLogRefs (s : LogSystem) (level : LogLevel) : List ℕ → List LogAppender
  | [] => []
  | cli :: logrefs =>
      (if (s.conf cli).level ≤ level then confLoggerLog s cli level else []) ++
        if !(s.conf cli).additivity then [] else loggerLogRefs s level logrefs

/-- `CMUTIL_LoggerLogEx`. -/
def loggerLogEx (s : LogSystem) (logger : Logger) (level : LogLevel) : List LogAppender :=
  if level < logger.minlevel then [] else loggerLogRefs s level logger.logrefs

/-- `CMUTIL_LoggerIsEnabled`. -/
def loggerIsEnabled (logger : Logger) (level : LogLevel) : Bool :=
  if level < logger.minlevel then false else true

/-! ### Programs that log -/

/-- A call of a program. -/
inductive LogAct where
  | createLogger (name : Option CString) (level : LogLevel) (additivity : Bool)
  | addAppender (clogger : CString) (appender : LogAppender) (level : LogLevel)
  | getLogger (name : CString)
  | logEx (name : CString) (level : LogLevel)
  deriving DecidableEq

/-- One call. `AddAppender` is called on a configured logger that there is, and `LogEx` on
a logger that was got before. -/
def logStep (s : LogSystem) : LogAct → Option LogSystem
  | .createLogger name level additivity => some (logSystemCreateLogger s name level additivity).1
  | .addAppender clogger appender level =>
      (s.cloggers.find? fun p => (s.conf p).name = clogger).map fun p =>
        confLoggerAddAppender s p appender level
  | .getLogger name => some (logSystemGetLogger s name).1
  | .logEx name _ => if s.loggers.any fun l => l.fullname = name then some s else none

/-- A log system and a program that uses it. -/
def logSystem : TransitionSystem LogSystem LogAct where
  init s := s = logSystemCreate
  step := logStep

end LibCmutils
