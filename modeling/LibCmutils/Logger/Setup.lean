import LibCmutils.Logger.Configure
import LibCmutils.Logger.Routing
import LibCmutils.String.Basic

/-!
The configuration of a log system (`src/logger.c`): from the document to where messages go.

* `logSystemProcessItems`, `logSystemProcessOneLogger`, `logSystemProcessAppenderRef`: the
  functions that read the document, with the log system they fill in and what they print.
* `logSystemConfigureInternal`: `CMUTIL_LogSystemConfigureInternal`, with
  `logSystemConfigureDefault` for a document that is refused.
* `LogPlan`: what a document says: its appenders, its loggers with their references. `logPlan`
  reads it off the document, without a log system.
* `LogPlan.build`: the log system of a plan. `LogPlan.acts`: the calls that set it up.

The main results are `logSystemConfigure_eq`, a log system is that of the plan or of the default,
and `logSystemConfigure_delivers`, messages go where the plan says.
-/

namespace LibCmutils

/-! ### Reading a document -/

/-- What a part of the configuration leads to. `none` is an access to `NULL`, an error comes
with what is printed. -/
abbrev SetupResult := Option (LogSystem × Except (List ConsoleMessage) Unit)

/-- The names of the members that the code asks for. -/
inductive ConfigKey where
  | configuration | appenders | loggers | type | name | level | additivity | appenderRef | ref
  deriving DecidableEq

/-- The key that is looked up for a name. -/
def ConfigKey.key : ConfigKey → CString
  | .configuration => .ofBytes [0x63, 0x6F, 0x6E, 0x66, 0x69, 0x67, 0x75, 0x72, 0x61, 0x74, 0x69,
      0x6F, 0x6E]
  | .appenders => .ofBytes [0x61, 0x70, 0x70, 0x65, 0x6E, 0x64, 0x65, 0x72, 0x73]
  | .loggers => .ofBytes [0x6C, 0x6F, 0x67, 0x67, 0x65, 0x72, 0x73]
  | .type => .ofBytes [0x74, 0x79, 0x70, 0x65]
  | .name => .ofBytes [0x6E, 0x61, 0x6D, 0x65]
  | .level => .ofBytes [0x6C, 0x65, 0x76, 0x65, 0x6C]
  | .additivity => .ofBytes [0x61, 0x64, 0x64, 0x69, 0x74, 0x69, 0x76, 0x69, 0x74, 0x79]
  | .appenderRef => .ofBytes [0x61, 0x70, 0x70, 0x65, 0x6E, 0x64, 0x65, 0x72, 0x72, 0x65, 0x66]
  | .ref => .ofBytes [0x72, 0x65, 0x66]

/-- A member of an object. -/
def configMember (jobj : List (CString × Json)) (key : ConfigKey) : Option Json :=
  jsonObjectGet jobj key.key

/-- The name of a level. -/
def LogLevel.word : LogLevel → CString
  | .trace => .ofBytes [0x74, 0x72, 0x61, 0x63, 0x65]
  | .debug => .ofBytes [0x64, 0x65, 0x62, 0x75, 0x67]
  | .info => .ofBytes [0x69, 0x6E, 0x66, 0x6F]
  | .warn => .ofBytes [0x77, 0x61, 0x72, 0x6E]
  | .error => .ofBytes [0x65, 0x72, 0x72, 0x6F, 0x72]
  | .fatal => .ofBytes [0x66, 0x61, 0x74, 0x61, 0x6C]

/-- `CMUTIL_LogStringToLevel`. -/
def logStringToLevel (slevel : CString) : Option LogLevel :=
  [.trace, .debug, .info, .warn, .error, .fatal].find? fun level => strcasecmpEq slevel level.word

/-- The type of the root logger. -/
def rootType : CString := .ofBytes [0x72, 0x6F, 0x6F, 0x74]

/-- The type of a logger without one. -/
def loggerType : CString := .ofBytes [0x6C, 0x6F, 0x67, 0x67, 0x65, 0x72]

/-- `CMUTIL_LogSystemAddAppenderToLogger`. -/
def logSystemAddAppenderToLogger (s : LogSystem) (clogger : ℕ) (apndr : CString)
    (level : LogLevel) : LogSystem × Except (List ConsoleMessage) Unit :=
  match s.appenders.find? fun a => a.name = apndr with
  | none => (s, .error [⟨"appender '%s' not found in system.\n", [apndr]⟩])
  | some appender => (confLoggerAddAppender s clogger appender level, .ok ())

/-- The threshold of a reference, by default the level of the logger. Without `some` the member is
no text, without a level within it the text names none. -/
def configRefLevel (level : LogLevel) (jobj : List (CString × Json)) : Option (Option LogLevel) :=
  (configMember jobj .level).elim (some (some level)) fun l => l.text.map logStringToLevel

/-- `CMUTIL_LogSystemProcessAppenderRef`. -/
def logSystemProcessAppenderRef (s : LogSystem) (clogger : ℕ) (json : Json) (level : LogLevel) :
    SetupResult :=
  match json with
  | .value _ sval => some (logSystemAddAppenderToLogger s clogger sval level)
  | .object jobj =>
      match configMember jobj .ref with
      | none => some (s, .error [⟨"ref must be specified in AppenderRef.\n", []⟩])
      | some ref =>
          match configRefLevel level jobj with
          | none => none
          | some none => some (s, .error [⟨"invalid level in AppenderRef.\n", []⟩])
          | some (some alevel) =>
              ref.text.map fun ref => logSystemAddAppenderToLogger s clogger ref alevel
  | .array _ => some (s, .error [⟨"invalid type of AppenderRef\n", []⟩])

/-- The loop of `CMUTIL_LogSystemProcessOneLogger` over an array of references. -/
def processAppenderRefs (clogger : ℕ) (level : LogLevel) : List Json → LogSystem → SetupResult
  | [], s => some (s, .ok ())
  | .array _ :: _, s => some (s, .error [⟨"invalid appender reference in logger.\n", []⟩])
  | item :: items, s =>
      match logSystemProcessAppenderRef s clogger item level with
      | none => none
      | some (s, .error messages) =>
          some (s, .error (messages ++ [⟨"invalid appender reference in logger.\n", []⟩]))
      | some (s, .ok ()) => processAppenderRefs clogger level items s

/-- The name of a logger, of which the root has none. -/
def configLoggerName (stype : CString) (jobj : List (CString × Json)) :
    Except ConsoleMessage CString :=
  match configMember jobj .name with
  | some name =>
      match name.text with
      | none => .error ⟨"invalid name in logger.\n", []⟩
      | some name =>
          let sname := CString.ofBytes (stringSelfTrim name.1)
          if sname = .empty ∧ stype ≠ rootType then
            .error ⟨"Name must be specified except root logger.\n", []⟩
          else .ok (if stype = rootType then .empty else sname)
  | none =>
      if stype ≠ rootType then .error ⟨"Name must be specified except root logger.\n", []⟩
      else .ok .empty

/-- The additivity of a logger. -/
def configAdditivity (jobj : List (CString × Json)) : Bool :=
  (configMember jobj .additivity).elim true fun additivity => jsonGetBoolean additivity.text

/-- `CMUTIL_LogSystemProcessOneLogger`. References in an object are not looked at. -/
def logSystemProcessOneLogger (stype : CString) (json : Json) (s : LogSystem) : SetupResult :=
  match json with
  | .object jobj =>
      match configLoggerName stype jobj with
      | .error message => some (s, .error [message])
      | .ok sname =>
          match configMember jobj .level with
          | none => some (s, .error [⟨"level must be specified in logger.\n", []⟩])
          | some slevel =>
              match slevel.text.map logStringToLevel with
              | none => none
              | some none => some (s, .error [⟨"invalid log level in logger.\n", []⟩])
              | some (some level) =>
                  let created := logSystemCreateLogger s (some sname) level (configAdditivity jobj)
                  match configMember jobj .appenderRef with
                  | some (.array items) => processAppenderRefs created.2 level items created.1
                  | some (.value type data) =>
                      logSystemProcessAppenderRef created.1 created.2 (.value type data) level
                  | some (.object _) | none => some (created.1, .ok ())
  | _ => some (s, .error [⟨"invalid configuration structure.\n", []⟩])

/-- The texts of an appender are there. The functions that create appenders copy or compare them
without a look at `NULL`. -/
def AppenderRequest.given (request : AppenderRequest) : Bool :=
  request.pattern.isSome && match request.target with
    | .console _ => true
    | .socket host _ => host.isSome
    | .file filename => filename.isSome
    | .rollingFile filename _ filepattern => filename.isSome && filepattern.isSome

/-- The end of `CMUTIL_LogSystemProcessOneAppender`: the appender is created and added. `creates`
says of the appenders by their place in the document whether they can be created. -/
def logSystemAddCreated (creates : ℕ → AppenderRequest → Bool) (i : ℕ) (stype : CString)
    (json : Json) (s : LogSystem) : SetupResult :=
  match logSystemProcessOneAppender stype json with
  | none => none
  | some (.error message) => some (s, .error [message])
  | some (.ok request) =>
      match request.name, request.given with
      | some name, true =>
          if creates i request then some (logSystemAddAppender s ⟨i, name⟩, .ok ())
          else some (s, .error [⟨"unknown appender type '%s'.\n", [stype]⟩])
      | _, _ => none

/-- The type of an item, in lower case, or the default. -/
def configItemType (deftype : Option CString) : Json → Option CString
  | .object oitem =>
      match configMember oitem .type with
      | some type => type.text.map CString.lower
      | none => deftype
  | _ => none

/-- The loop of `CMUTIL_LogSystemProcessItems`. -/
def processItemsLoop (deftype : Option CString)
    (oneprocf : ℕ → CString → Json → LogSystem → SetupResult) :
    ℕ → List Json → LogSystem → SetupResult
  | _, [], s => some (s, .ok ())
  | i, item :: items, s =>
      match configItemType deftype item with
      | none => some (s, .error [⟨"invalid configuration structure.\n", []⟩])
      | some stype =>
          match oneprocf i stype item s with
          | none => none
          | some (s, .error messages) =>
              some (s, .error (messages ++ [⟨"processing one item failed.\n", []⟩]))
          | some (s, .ok ()) => processItemsLoop deftype oneprocf (i + 1) items s

/-- `CMUTIL_LogSystemProcessItems`. -/
def logSystemProcessItems (json : Json) (deftype : Option CString)
    (oneprocf : ℕ → CString → Json → LogSystem → SetupResult) (s : LogSystem) : SetupResult :=
  match json with
  | .array items => processItemsLoop deftype oneprocf 0 items s
  | _ => some (s, .error [⟨"invalid configuration structure.\n", []⟩])

/-- The name of the default appender. -/
def defaultAppenderName : CString := .ofBytes [0x5F, 0x5F, 0x43, 0x4F, 0x4E, 0x53, 0x4F, 0x4C]

/-- `CMUTIL_LogSystemConfigureDefault`. -/
def logSystemConfigureDefault : LogSystem :=
  let created := logSystemCreateLogger logSystemCreate none .debug true
  let s := logSystemAddAppender created.1 ⟨0, defaultAppenderName⟩
  confLoggerAddAppender s created.2 ⟨0, defaultAppenderName⟩ .debug

/-- What is printed when the default is used. -/
def defaultMessage : ConsoleMessage :=
  ⟨"logging system not initialized or invalid configuration. using default configuraiton.\n", []⟩

/-- What a configuration without success leads to. -/
def configureRefused (messages : List ConsoleMessage) : LogSystem × List ConsoleMessage :=
  (logSystemConfigureDefault, messages ++ [defaultMessage])

/-- The messages of a result. -/
def setupMessages : Except (List ConsoleMessage) Unit → List ConsoleMessage
  | .ok () => []
  | .error messages => messages

/-- `CMUTIL_LogSystemConfigureInternal` on the two lists. Both are processed in any case. -/
def logSystemConfigureItems (creates : ℕ → AppenderRequest → Bool) (appenders loggers : Json) :
    Option (LogSystem × List ConsoleMessage) :=
  match logSystemProcessItems appenders none (logSystemAddCreated creates) logSystemCreate with
  | none => none
  | some (s, first) =>
      match logSystemProcessItems loggers (some loggerType)
        (fun _ => logSystemProcessOneLogger) s with
      | none => none
      | some (s, second) =>
          match first, second with
          | .ok (), .ok () => some (s, [])
          | first, second => some (configureRefused (setupMessages first ++ setupMessages second))

/-- The object with the lists: the document, or its member. -/
def configSection (config : List (CString × Json)) : Option (List (CString × Json)) :=
  match configMember config .configuration with
  | none => some config
  | some (.object config) => some config
  | some _ => none

/-- `CMUTIL_LogSystemConfigureInternal`: the log system that is installed, and what is printed. -/
def logSystemConfigureInternal (creates : ℕ → AppenderRequest → Bool) (json : Json) :
    Option (LogSystem × List ConsoleMessage) :=
  match logConfigClean json with
  | some (.object config) =>
      match configSection config with
      | none => none
      | some config =>
          match configMember config .appenders, configMember config .loggers with
          | some appenders, some loggers => logSystemConfigureItems creates appenders loggers
          | _, _ => some (configureRefused [])
  | _ => none

/-! ### What a document says -/

/-- A logger of a document, with the appenders that it refers to and their thresholds. -/
structure PlannedLogger where
  conf : LoggerConf
  refs : List (LogAppender × LogLevel)

/-- The appenders and the loggers of a document. -/
structure LogPlan where
  appenders : List LogAppender
  loggers : List PlannedLogger

/-- The first appender of a name. -/
def findAppender (appenders : List LogAppender) (name : CString) : Option LogAppender :=
  appenders.find? fun a => a.name = name

/-- The appender that an item asks for. -/
def plannedAppender (creates : ℕ → AppenderRequest → Bool) (i : ℕ) (stype : CString)
    (json : Json) : Option LogAppender :=
  match logSystemProcessOneAppender stype json with
  | some (.ok request) =>
      match request.name, request.given && creates i request with
      | some name, true => some ⟨i, name⟩
      | _, _ => none
  | _ => none

/-- A reference, with the level of the logger as the default of its threshold. -/
def plannedRef (appenders : List LogAppender) (level : LogLevel) :
    Json → Option (LogAppender × LogLevel)
  | .value _ sval => (findAppender appenders sval).map fun a => (a, level)
  | .object jobj =>
      match (configMember jobj .ref).bind Json.text, (configRefLevel level jobj).join with
      | some ref, some alevel => (findAppender appenders ref).map fun a => (a, alevel)
      | _, _ => none
  | .array _ => none

/-- The references of a logger. -/
def plannedRefs (appenders : List LogAppender) (level : LogLevel) :
    Option Json → Option (List (LogAppender × LogLevel))
  | some (.array items) => items.mapM (plannedRef appenders level)
  | some (.value type data) =>
      (plannedRef appenders level (.value type data)).map fun ref => [ref]
  | some (.object _) | none => some []

/-- The logger that an item asks for. -/
def plannedLogger (appenders : List LogAppender) (stype : CString) : Json → Option PlannedLogger
  | .object jobj =>
      match configLoggerName stype jobj, (configMember jobj .level).bind fun slevel =>
        (slevel.text.map logStringToLevel).join with
      | .ok sname, some level =>
          (plannedRefs appenders level (configMember jobj .appenderRef)).map fun refs =>
            ⟨⟨sname, level, configAdditivity jobj⟩, refs⟩
      | _, _ => none
  | _ => none

/-- The items of a list, with their types. -/
def plannedItems {α : Type} (deftype : Option CString) (plan : ℕ → CString → Json → Option α) :
    ℕ → List Json → Option (List α)
  | _, [] => some []
  | i, item :: items =>
      match (configItemType deftype item).bind fun stype => plan i stype item with
      | none => none
      | some x => (plannedItems deftype plan (i + 1) items).map fun xs => x :: xs

/-- A list of items. -/
def plannedList {α : Type} (deftype : Option CString) (plan : ℕ → CString → Json → Option α) :
    Json → Option (List α)
  | .array items => plannedItems deftype plan 0 items
  | _ => none

/-- The plan of the two lists. -/
def planOfLists (creates : ℕ → AppenderRequest → Bool) (appenders loggers : Json) :
    Option LogPlan :=
  match plannedList none (plannedAppender creates) appenders with
  | none => none
  | some appenders =>
      (plannedList (some loggerType) (fun _ => plannedLogger appenders) loggers).map fun loggers =>
        ⟨appenders, loggers⟩

/-- The plan of a document. -/
def logPlan (creates : ℕ → AppenderRequest → Bool) (json : Json) : Option LogPlan :=
  match logConfigClean json with
  | some (.object config) =>
      (configSection config).bind fun config =>
        match configMember config .appenders, configMember config .loggers with
        | some appenders, some loggers => planOfLists creates appenders loggers
        | _, _ => none
  | _ => none

/-- The plan without a document: the root logger writes to the console. -/
def defaultPlan : LogPlan where
  appenders := [⟨0, defaultAppenderName⟩]
  loggers := [⟨⟨.empty, .debug, true⟩, [(⟨0, defaultAppenderName⟩, .debug)]⟩]

/-- A logger of a plan is created, with its references. -/
def LogSystem.addPlanned (s : LogSystem) (logger : PlannedLogger) : LogSystem :=
  let created := logSystemCreateLogger s (some logger.conf.name) logger.conf.level
    logger.conf.additivity
  logger.refs.foldl (fun s ref => confLoggerAddAppender s created.2 ref.1 ref.2) created.1

/-- The log system of a plan. -/
def LogPlan.build (plan : LogPlan) : LogSystem :=
  plan.loggers.foldl LogSystem.addPlanned
    (plan.appenders.foldl logSystemAddAppender logSystemCreate)

/-! ### The document is read as it says -/

section Read
variable {s s' : LogSystem} {appenders : List LogAppender} {level : LogLevel} {stype : CString}
  {deftype : Option CString} {item : Json} {items : List Json} {clogger i : ℕ}

/-- A log system finds its appenders as a list does. -/
def KnowsAppenders (appenders : List LogAppender) (s : LogSystem) : Prop :=
  ∀ name, findAppender s.appenders name = findAppender appenders name

lemma KnowsAppenders.confLoggerAddAppender (h : KnowsAppenders appenders s) {a : LogAppender}
    {name : CString} (ha : findAppender appenders name = some a) (clogger : ℕ)
    (level : LogLevel) : KnowsAppenders appenders (confLoggerAddAppender s clogger a level) := by
  have hmem : a ∈ s.appenders := List.mem_of_find?_eq_some ((h name).trans ha)
  have hknown : logSystemAddAppender s a = s :=
    if_pos (List.any_eq_true.mpr ⟨a, hmem, by simp⟩)
  intro name
  rw [LibCmutils.confLoggerAddAppender, hknown]
  exact h name

lemma KnowsAppenders.createLogger (h : KnowsAppenders appenders s) (name : Option CString)
    (level : LogLevel) (additivity : Bool) :
    KnowsAppenders appenders (logSystemCreateLogger s name level additivity).1 := by
  obtain ⟨levelloggers, hframe⟩ := logSystemLevelAdd_frame s.next level.upTo
    (logSystemOwn (logSystemAlloc s name level additivity) s.next)
  rw [logSystemCreateLogger, hframe]
  exact h

lemma addAppenderToLogger_iff (h : KnowsAppenders appenders s) {apndr : CString} :
    logSystemAddAppenderToLogger s clogger apndr level = (s', .ok ()) ↔
      ∃ a, findAppender appenders apndr = some a ∧
        s' = confLoggerAddAppender s clogger a level := by
  rw [logSystemAddAppenderToLogger, ← findAppender, h]
  cases findAppender appenders apndr with
  | none => simp
  | some a => simp [eq_comm]

lemma processAppenderRef_iff (h : KnowsAppenders appenders s) :
    logSystemProcessAppenderRef s clogger item level = some (s', .ok ()) ↔
      ∃ ref, plannedRef appenders level item = some ref ∧
        s' = confLoggerAddAppender s clogger ref.1 ref.2 := by
  match item with
  | .value type sval =>
      simp [logSystemProcessAppenderRef, plannedRef, addAppenderToLogger_iff h]
  | .array items => simp [logSystemProcessAppenderRef, plannedRef]
  | .object jobj =>
      rw [logSystemProcessAppenderRef, plannedRef]
      cases configMember jobj .ref with
      | none => simp
      | some ref =>
          cases hlevel : configRefLevel level jobj with
          | none => simp
          | some found =>
              cases found with
              | none => simp
              | some alevel =>
                  cases htext : ref.text with
                  | none => simp [htext]
                  | some name => simp [htext, addAppenderToLogger_iff h]

/-- The appender of a reference is known. -/
lemma plannedRef_mem {ref : LogAppender × LogLevel}
    (h : plannedRef appenders level item = some ref) :
    ∃ name, findAppender appenders name = some ref.1 := by
  match item with
  | .value type sval =>
      obtain ⟨a, ha, rfl⟩ := Option.map_eq_some_iff.mp h
      exact ⟨sval, ha⟩
  | .object jobj =>
      rw [plannedRef] at h
      split at h
      · next name alevel _ _ =>
          obtain ⟨a, ha, rfl⟩ := Option.map_eq_some_iff.mp h
          exact ⟨name, ha⟩
      · exact absurd h (by simp)

lemma KnowsAppenders.planned (h : KnowsAppenders appenders s) {ref : LogAppender × LogLevel}
    (href : plannedRef appenders level item = some ref) :
    KnowsAppenders appenders (LibCmutils.confLoggerAddAppender s clogger ref.1 ref.2) := by
  obtain ⟨name, hname⟩ := plannedRef_mem href
  exact h.confLoggerAddAppender hname clogger ref.2

/-- References that are there, one after the other. -/
lemma processAppenderRefs_iff (h : KnowsAppenders appenders s) :
    processAppenderRefs clogger level items s = some (s', .ok ()) ↔
      ∃ refs, items.mapM (plannedRef appenders level) = some refs ∧
        s' = refs.foldl (fun s ref => confLoggerAddAppender s clogger ref.1 ref.2) s := by
  induction items generalizing s with
  | nil => simp [processAppenderRefs, eq_comm]
  | cons item items ih =>
      have hstep : processAppenderRefs clogger level (item :: items) s = some (s', .ok ()) ↔
          ∃ s₁, logSystemProcessAppenderRef s clogger item level = some (s₁, .ok ()) ∧
            processAppenderRefs clogger level items s₁ = some (s', .ok ()) := by
        cases item with
        | array l => simp [processAppenderRefs, logSystemProcessAppenderRef]
        | value type data =>
            rw [processAppenderRefs]
            · split <;> simp_all
            · simp
        | object entries =>
            rw [processAppenderRefs]
            · split <;> simp_all
            · simp
      rw [hstep, List.mapM_cons]
      constructor
      · rintro ⟨s₁, hitem, hitems⟩
        obtain ⟨ref, href, rfl⟩ := (processAppenderRef_iff h).mp hitem
        obtain ⟨refs, hrefs, rfl⟩ := (ih (h.planned href)).mp hitems
        exact ⟨ref :: refs, by simp [href, hrefs], rfl⟩
      · rintro ⟨refs', hrefs', rfl⟩
        obtain ⟨ref, href, hrefs'⟩ := Option.bind_eq_some_iff.mp hrefs'
        obtain ⟨refs, hrefs, hcons⟩ := Option.bind_eq_some_iff.mp hrefs'
        obtain rfl := Option.some.inj hcons
        exact ⟨_, (processAppenderRef_iff h).mpr ⟨ref, href, rfl⟩,
          (ih (h.planned href)).mpr ⟨refs, hrefs, rfl⟩⟩

lemma processOneLogger_iff (h : KnowsAppenders appenders s) :
    logSystemProcessOneLogger stype item s = some (s', .ok ()) ↔
      ∃ logger, plannedLogger appenders stype item = some logger ∧ s' = s.addPlanned logger := by
  match item with
  | .value type data => simp [logSystemProcessOneLogger, plannedLogger]
  | .array items => simp [logSystemProcessOneLogger, plannedLogger]
  | .object jobj =>
      rw [logSystemProcessOneLogger, plannedLogger]
      cases configLoggerName stype jobj with
      | error message => simp
      | ok sname =>
          cases configMember jobj .level with
          | none => simp
          | some slevel =>
              simp only [Option.bind_some]
              cases slevel.text.map logStringToLevel with
              | none => simp
              | some found =>
                  cases found with
                  | none => simp
                  | some level =>
                      have hcreated := h.createLogger (some sname) level (configAdditivity jobj)
                      simp only [Option.join_some, Option.map_eq_some_iff]
                      match configMember jobj .appenderRef with
                      | none | some (.object entries) =>
                          simp [plannedRefs, LogSystem.addPlanned, eq_comm]
                      | some (.array items) =>
                          simp only [plannedRefs, processAppenderRefs_iff hcreated]
                          constructor
                          · rintro ⟨refs, hrefs, rfl⟩
                            exact ⟨_, ⟨refs, hrefs, rfl⟩, rfl⟩
                          · rintro ⟨_, ⟨refs, hrefs, rfl⟩, rfl⟩
                            exact ⟨refs, hrefs, rfl⟩
                      | some (.value type data) =>
                          simp only [plannedRefs, processAppenderRef_iff hcreated,
                            Option.map_eq_some_iff]
                          constructor
                          · rintro ⟨ref, href, rfl⟩
                            exact ⟨_, ⟨_, ⟨ref, href, rfl⟩, rfl⟩, rfl⟩
                          · rintro ⟨_, ⟨_, ⟨ref, href, rfl⟩, rfl⟩, rfl⟩
                            exact ⟨ref, href, rfl⟩

/-- The references of a planned logger are known. -/
lemma plannedLogger_refs {logger : PlannedLogger}
    (h : plannedLogger appenders stype item = some logger) :
    ∀ ref ∈ logger.refs, ∃ name, findAppender appenders name = some ref.1 := by
  match item with
  | .object jobj =>
      rw [plannedLogger] at h
      split at h
      · next sname level _ _ =>
          obtain ⟨refs, hrefs, rfl⟩ := Option.map_eq_some_iff.mp h
          intro ref href
          match happenders : configMember jobj .appenderRef with
          | none | some (.object entries) =>
              rw [happenders, plannedRefs, Option.some.injEq] at hrefs
              simp [← hrefs] at href
          | some (.array items) =>
              rw [happenders, plannedRefs] at hrefs
              obtain ⟨item, -, hitem⟩ := mem_mapM hrefs ref href
              exact plannedRef_mem hitem
          | some (.value type data) =>
              rw [happenders, plannedRefs] at hrefs
              obtain ⟨ref', href', rfl⟩ := Option.map_eq_some_iff.mp hrefs
              rw [List.mem_singleton.mp href]
              exact plannedRef_mem href'
      · exact absurd h (by simp)

lemma KnowsAppenders.addPlanned (h : KnowsAppenders appenders s) {logger : PlannedLogger}
    (hrefs : ∀ ref ∈ logger.refs, ∃ name, findAppender appenders name = some ref.1) :
    KnowsAppenders appenders (s.addPlanned logger) := by
  rw [LogSystem.addPlanned]
  have hcreated := h.createLogger (some logger.conf.name) logger.conf.level logger.conf.additivity
  generalize (logSystemCreateLogger s (some logger.conf.name) logger.conf.level
    logger.conf.additivity).1 = t at hcreated ⊢
  revert hcreated hrefs
  generalize logger.refs = refs
  intro hrefs ht
  induction refs generalizing t with
  | nil => exact ht
  | cons ref refs ih =>
      obtain ⟨name, hname⟩ := hrefs ref List.mem_cons_self
      exact ih _ (fun ref href => hrefs ref (List.mem_cons_of_mem _ href))
        (ht.confLoggerAddAppender hname _ _)

/-- The items of a list, one after the other. -/
lemma processItemsLoop_iff {α : Type} {plan : ℕ → CString → Json → Option α}
    {oneprocf : ℕ → CString → Json → LogSystem → SetupResult} {add : LogSystem → α → LogSystem}
    {P : LogSystem → Prop}
    (hone : ∀ i stype item s s', P s → (oneprocf i stype item s = some (s', .ok ()) ↔
      ∃ x, plan i stype item = some x ∧ s' = add s x))
    (hadd : ∀ i stype item s x, P s → plan i stype item = some x → P (add s x)) (hs : P s) :
    processItemsLoop deftype oneprocf i items s = some (s', .ok ()) ↔
      ∃ xs, plannedItems deftype plan i items = some xs ∧ s' = xs.foldl add s := by
  induction items generalizing s i with
  | nil => simp [processItemsLoop, plannedItems, eq_comm]
  | cons item items ih =>
      rw [processItemsLoop, plannedItems]
      cases configItemType deftype item with
      | none => simp
      | some stype =>
          simp only [Option.bind_some]
          have hstep := fun s' => hone i stype item s s' hs
          cases hplan : plan i stype item with
          | none =>
              have hnot : ∀ s', oneprocf i stype item s ≠ some (s', .ok ()) := fun s' h => by
                obtain ⟨x, hx, -⟩ := (hstep s').mp h
                rw [hplan] at hx
                exact absurd hx (by simp)
              split
              · simp
              · simp
              · next t h => exact absurd h (hnot t)
          | some x =>
              rw [(hstep (add s x)).mpr ⟨x, hplan, rfl⟩]
              simp only [ih (hadd i stype item s x hs hplan), Option.map_eq_some_iff]
              constructor
              · rintro ⟨xs, hxs, rfl⟩
                exact ⟨x :: xs, ⟨xs, hxs, rfl⟩, rfl⟩
              · rintro ⟨_, ⟨xs, hxs, rfl⟩, rfl⟩
                exact ⟨xs, hxs, rfl⟩

lemma processItems_iff {α : Type} (plan : ℕ → CString → Json → Option α)
    (oneprocf : ℕ → CString → Json → LogSystem → SetupResult) (add : LogSystem → α → LogSystem)
    {P : LogSystem → Prop}
    (hone : ∀ i stype item s s', P s → (oneprocf i stype item s = some (s', .ok ()) ↔
      ∃ x, plan i stype item = some x ∧ s' = add s x))
    (hadd : ∀ i stype item s x, P s → plan i stype item = some x → P (add s x)) (hs : P s)
    {json : Json} : logSystemProcessItems json deftype oneprocf s = some (s', .ok ()) ↔
      ∃ xs, plannedList deftype plan json = some xs ∧ s' = xs.foldl add s := by
  match json with
  | .array items => exact processItemsLoop_iff hone hadd hs
  | .value type data => simp [logSystemProcessItems, plannedList]
  | .object entries => simp [logSystemProcessItems, plannedList]

lemma addCreated_iff {creates : ℕ → AppenderRequest → Bool} :
    logSystemAddCreated creates i stype item s = some (s', .ok ()) ↔
      ∃ a, plannedAppender creates i stype item = some a ∧ s' = logSystemAddAppender s a := by
  rw [logSystemAddCreated, plannedAppender]
  match logSystemProcessOneAppender stype item with
  | none => simp
  | some (.error message) => simp
  | some (.ok request) =>
      cases hname : request.name with
      | none => simp [hname]
      | some name =>
          cases hgiven : request.given with
          | false => simp [hname, hgiven]
          | true =>
              cases hcreates : creates i request with
              | false => simp [hname, hgiven, hcreates]
              | true => simp [hname, hgiven, hcreates, eq_comm]

/-- An appender is found as if it stood at the end, behind those of its name. -/
lemma findAppender_add (s : LogSystem) (a : LogAppender) (name : CString) :
    findAppender (logSystemAddAppender s a).appenders name =
      findAppender (s.appenders ++ [a]) name := by
  rw [logSystemAddAppender]
  split_ifs with hany
  · obtain ⟨b, hb, hname⟩ := List.any_eq_true.mp hany
    rw [findAppender, findAppender, List.find?_append]
    cases hfind : s.appenders.find? fun a => a.name = name with
    | some c => rfl
    | none =>
        have hne : a.name ≠ name := fun heq => by
          have := List.find?_eq_none.mp hfind b hb
          simp_all
        simp [hne]
  · rfl

lemma knowsAppenders_foldl (appenders : List LogAppender) (s : LogSystem) (name : CString) :
    findAppender (appenders.foldl logSystemAddAppender s).appenders name =
      findAppender (s.appenders ++ appenders) name := by
  induction appenders generalizing s with
  | nil => simp
  | cons a appenders ih =>
      have hadd := findAppender_add s a name
      simp only [findAppender, List.find?_append] at ih hadd ⊢
      rw [List.foldl_cons, ih, hadd, Option.or_assoc]
      by_cases ha : a.name = name <;> simp [ha]

lemma knowsAppenders_start (appenders : List LogAppender) :
    KnowsAppenders appenders (appenders.foldl logSystemAddAppender logSystemCreate) :=
  fun name => knowsAppenders_foldl appenders logSystemCreate name

end Read

/-! ### Documents -/

section Document
variable {creates : ℕ → AppenderRequest → Bool} {s : LogSystem} {plan : LogPlan}
  {messages : List ConsoleMessage}

lemma defaultPlan_build : defaultPlan.build = logSystemConfigureDefault := rfl

/-- The list of the appenders. -/
lemma processAppenders_iff {appenders : Json} :
    logSystemProcessItems appenders none (logSystemAddCreated creates) logSystemCreate =
        some (s, .ok ()) ↔
      ∃ as, plannedList none (plannedAppender creates) appenders = some as ∧
        s = as.foldl logSystemAddAppender logSystemCreate :=
  processItems_iff (plannedAppender creates) (logSystemAddCreated creates) logSystemAddAppender
    (P := fun _ => True) (fun _ _ _ _ _ _ => addCreated_iff) (fun _ _ _ _ _ _ _ => trivial) trivial

/-- The list of the loggers, once the appenders are there. -/
lemma processLoggers_iff {as : List LogAppender} {s₀ : LogSystem} (hs : KnowsAppenders as s₀)
    {loggers : Json} :
    logSystemProcessItems loggers (some loggerType) (fun _ => logSystemProcessOneLogger) s₀ =
        some (s, .ok ()) ↔
      ∃ ls, plannedList (some loggerType) (fun _ => plannedLogger as) loggers = some ls ∧
        s = ls.foldl LogSystem.addPlanned s₀ :=
  processItems_iff (fun _ => plannedLogger as) (fun _ => logSystemProcessOneLogger)
    LogSystem.addPlanned (P := KnowsAppenders as) (fun _ _ _ _ _ hs => processOneLogger_iff hs)
    (fun _ _ _ _ _ hs hx => hs.addPlanned (plannedLogger_refs hx)) hs

/-- The two lists, with success. -/
lemma configureItems_of_plan {appenders loggers : Json}
    (h : planOfLists creates appenders loggers = some plan) :
    logSystemConfigureItems creates appenders loggers = some (plan.build, []) := by
  rw [planOfLists] at h
  split at h
  · exact absurd h (by simp)
  · next as has =>
      obtain ⟨ls, hls, rfl⟩ := Option.map_eq_some_iff.mp h
      have hfirst := processAppenders_iff.mpr ⟨as, has, rfl⟩
      have hsecond := (processLoggers_iff (knowsAppenders_start as)).mpr ⟨ls, hls, rfl⟩
      rw [logSystemConfigureItems, hfirst]
      simp only [hsecond]
      rfl

/-- The two lists, without success. -/
lemma configureItems_of_none {appenders loggers : Json}
    (h : planOfLists creates appenders loggers = none)
    (hrun : logSystemConfigureItems creates appenders loggers = some (s, messages)) :
    s = logSystemConfigureDefault ∧ ∃ cause, messages = cause ++ [defaultMessage] := by
  rw [logSystemConfigureItems] at hrun
  split at hrun
  · exact absurd hrun (by simp)
  · next s₁ first hfirst =>
      split at hrun
      · exact absurd hrun (by simp)
      · next s₂ second hsecond =>
          match first, second with
          | .ok (), .ok () =>
              obtain ⟨as, has, rfl⟩ := processAppenders_iff.mp hfirst
              obtain ⟨ls, hls, -⟩ := (processLoggers_iff (knowsAppenders_start as)).mp hsecond
              rw [planOfLists, has] at h
              simp [hls] at h
          | .error cause, second =>
              obtain ⟨rfl, rfl⟩ := Prod.mk.inj (Option.some.inj hrun)
              exact ⟨rfl, _, rfl⟩
          | .ok (), .error cause =>
              obtain ⟨rfl, rfl⟩ := Prod.mk.inj (Option.some.inj hrun)
              exact ⟨rfl, _, rfl⟩

/-- **A document is set up as it reads, or not at all.** When the document says a plan, the log
system that is installed is that of the plan and nothing is printed. When it does not, and no
text of it is missing where the code needs one, the log system is the default one, whatever was
already set up, and it is printed. -/
theorem logSystemConfigure_eq (creates : ℕ → AppenderRequest → Bool) (json : Json) :
    (∀ plan, logPlan creates json = some plan →
      logSystemConfigureInternal creates json = some (plan.build, [])) ∧
    (logPlan creates json = none → ∀ s messages,
      logSystemConfigureInternal creates json = some (s, messages) →
        s = defaultPlan.build ∧ messages.getLast? = some defaultMessage) := by
  rw [logPlan, logSystemConfigureInternal]
  match logConfigClean json with
  | none | some (.value _ _) | some (.array _) => simp
  | some (.object config) =>
      cases hsection : configSection config with
      | none => simp [hsection]
      | some config =>
          cases happenders : configMember config .appenders with
          | none => simp [hsection, happenders, configureRefused, defaultPlan_build, eq_comm]
          | some appenders =>
              cases hloggers : configMember config .loggers with
              | none => simp [hsection, hloggers, configureRefused, defaultPlan_build, eq_comm]
              | some loggers =>
                  simp only [hsection, happenders, hloggers, Option.bind_some]
                  refine ⟨fun plan => configureItems_of_plan, fun hnone s messages hrun => ?_⟩
                  obtain ⟨rfl, cause, rfl⟩ := configureItems_of_none hnone hrun
                  exact ⟨rfl, List.getLast?_concat⟩

end Document

/-! ### Where messages go -/

/-- The calls that set up a logger of a plan. -/
def PlannedLogger.acts (logger : PlannedLogger) : List LogAct :=
  .createLogger (some logger.conf.name) logger.conf.level logger.conf.additivity ::
    logger.refs.map fun ref => .addAppender logger.conf.name ref.1 ref.2

/-- The calls that set up a plan. -/
def LogPlan.acts (plan : LogPlan) : List LogAct := plan.loggers.flatMap PlannedLogger.acts

/-- Every reference is to the first appender of a name. -/
def LogPlan.Resolved (plan : LogPlan) : Prop :=
  ∀ logger ∈ plan.loggers, ∀ ref ∈ logger.refs,
    ∃ name, findAppender plan.appenders name = some ref.1

section Routes
variable {s s' : LogSystem} {acts lookups : List LogAct} {plan : LogPlan}

lemma logConfs_planned (logger : PlannedLogger) : logConfs logger.acts = [logger.conf] := by
  simp [logConfs, PlannedLogger.acts, List.filterMap_map]

lemma logConfs_plan (plan : LogPlan) : logConfs plan.acts = plan.loggers.map (·.conf) := by
  rw [LogPlan.acts]
  induction plan.loggers with
  | nil => rfl
  | cons logger loggers ih =>
      rw [List.flatMap_cons, logConfs_append, logConfs_planned, ih, List.map_cons]
      rfl

lemma LogPlan.configures (plan : LogPlan) : ∀ a ∈ plan.acts, a.Configures := by
  intro a ha
  obtain ⟨logger, -, ha⟩ := List.mem_flatMap.mp ha
  rcases List.mem_cons.mp ha with rfl | ha
  · trivial
  · obtain ⟨ref, -, rfl⟩ := List.mem_map.mp ha
    trivial

/-- The appenders of the log system are of no account for its loggers. -/
lemma LogInv.withAppenders (h : LogInv acts s) (appenders : List LogAppender) :
    LogInv acts { s with appenders := appenders } :=
  ⟨h.confs, h.owned, h.sorted, h.attached, h.known, h.loggers, h.cached⟩

lemma LogInv.foldl_addAppender (h : LogInv acts s) (appenders : List LogAppender) :
    LogInv acts (appenders.foldl logSystemAddAppender s) := by
  induction appenders generalizing s with
  | nil => exact h
  | cons a appenders ih =>
      refine ih ?_
      rw [logSystemAddAppender]
      split_ifs
      · exact h
      · exact h.withAppenders _

/-- What an attached appender leaves as it was. -/
lemma confLoggerAddAppender_confAt (s : LogSystem) (p q : ℕ) (a : LogAppender) (level : LogLevel) :
    (confLoggerAddAppender s p a level).confAt q = s.confAt q ∧
      (confLoggerAddAppender s p a level).next = s.next := by
  have hadd : (logSystemAddAppender s a).conf = s.conf ∧
      (logSystemAddAppender s a).next = s.next := by
    rw [logSystemAddAppender]
    split_ifs <;> exact ⟨rfl, rfl⟩
  rw [LogSystem.confAt, confLoggerAddAppender, hadd.1]
  refine ⟨?_, hadd.2⟩
  by_cases hq : q = p
  · subst hq
    simp [LogSystem.confAt]
  · simp [LogSystem.confAt, hq]

/-- The references of a logger. -/
lemma LogInv.addRefs (h : LogInv acts s) (hd : DistinctNames acts) {p : ℕ} (hp : p < s.next)
    (refs : List (LogAppender × LogLevel)) :
    LogInv (acts ++ refs.map fun ref => .addAppender (s.confAt p).name ref.1 ref.2)
      (refs.foldl (fun s ref => confLoggerAddAppender s p ref.1 ref.2) s) := by
  induction refs generalizing s acts with
  | nil => simpa using h
  | cons ref refs ih =>
      have hstep := h.addAppender hd hp ref.1 ref.2
      have hd' : DistinctNames (acts ++ [.addAppender (s.confAt p).name ref.1 ref.2]) := by
        rw [DistinctNames, logConfs_append]
        simpa [logConfs, DistinctNames] using hd
      obtain ⟨hconf, hnext⟩ := confLoggerAddAppender_confAt s p p ref.1 ref.2
      have hrest := ih hstep hd' (hnext ▸ hp)
      rw [hconf, List.append_assoc] at hrest
      simpa using hrest

/-- A logger of a plan. -/
lemma LogInv.addPlanned (h : LogInv acts s) {logger : PlannedLogger}
    (hd : DistinctNames (acts ++ logger.acts)) :
    LogInv (acts ++ logger.acts) (s.addPlanned logger) := by
  have hd' : DistinctNames (acts ++ [.createLogger (some logger.conf.name) logger.conf.level
      logger.conf.additivity]) := by
    rw [DistinctNames, logConfs_append, logConfs_planned] at hd
    rw [DistinctNames, logConfs_append]
    exact hd
  have hcreated := h.createLogger (some logger.conf.name) logger.conf.level
    logger.conf.additivity hd'
  obtain ⟨levelloggers, hframe⟩ := logSystemLevelAdd_frame s.next logger.conf.level.upTo
    (logSystemOwn (logSystemAlloc s (some logger.conf.name) logger.conf.level
      logger.conf.additivity) s.next)
  have hname : ((logSystemCreateLogger s (some logger.conf.name) logger.conf.level
      logger.conf.additivity).1.confAt s.next).name = logger.conf.name := by
    rw [logSystemCreateLogger, hframe]
    simp [LogSystem.confAt, logSystemOwn, logSystemAlloc]
  have hnext : s.next < (logSystemCreateLogger s (some logger.conf.name) logger.conf.level
      logger.conf.additivity).1.next := by
    rw [logSystemCreateLogger, hframe]
    exact Nat.lt_succ_self _
  have hrefs := hcreated.addRefs hd' hnext logger.refs
  rw [hname, List.append_assoc] at hrefs
  exact hrefs

/-- The log system of a plan is what its calls say. -/
lemma LogPlan.build_inv (plan : LogPlan) (hd : DistinctNames plan.acts) :
    LogInv plan.acts plan.build := by
  have hstart : LogInv [] (plan.appenders.foldl logSystemAddAppender logSystemCreate) :=
    LogInv.start.foldl_addAppender _
  have hrun : ∀ (loggers : List PlannedLogger) (acts : List LogAct) (s : LogSystem),
      LogInv acts s → DistinctNames (acts ++ loggers.flatMap PlannedLogger.acts) →
      LogInv (acts ++ loggers.flatMap PlannedLogger.acts)
        (loggers.foldl LogSystem.addPlanned s) := by
    intro loggers
    induction loggers with
    | nil =>
        intro acts s h _
        simpa using h
    | cons logger loggers ih =>
        intro acts s h hd
        rw [List.flatMap_cons, ← List.append_assoc] at hd ⊢
        exact ih _ _ (h.addPlanned hd.of_append) hd
  exact hrun plan.loggers [] _ hstart hd

lemma logConfs_lookups (h : ∀ a ∈ lookups, ¬a.Configures) : logConfs lookups = [] :=
  List.filterMap_eq_nil_iff.mpr fun a ha => by
    have hnot := h a ha
    cases a <;> simp_all [LogAct.Configures]

lemma logAttachments_lookups (h : ∀ a ∈ lookups, ¬a.Configures) (c : CString) :
    logAttachments lookups c = [] :=
  List.filterMap_eq_nil_iff.mpr fun a ha => by
    have hnot := h a ha
    cases a <;> simp_all [LogAct.Configures]

lemma distinctNames_lookups (hd : DistinctNames acts) (h : ∀ a ∈ lookups, ¬a.Configures) :
    DistinctNames (acts ++ lookups) := by
  rwa [DistinctNames, logConfs_append, logConfs_lookups h, List.append_nil]

/-- A log system that is used after it was set up. -/
lemma LogInv.used (h : LogInv acts s) (hd : DistinctNames acts)
    (hrun : logSystem.run s lookups = some s') (hlookups : ∀ a ∈ lookups, ¬a.Configures) :
    LogInv (acts ++ lookups) s' := by
  revert hlookups
  refine TransitionSystem.run_induction
    (R := fun calls t => (∀ a ∈ calls, ¬a.Configures) → LogInv (acts ++ calls) t) hrun
    (fun _ => by simpa using h) ?_
  intro calls t a t' ih hstep hcalls
  rw [← List.append_assoc]
  refine logStep_inv a (ih fun b hb => hcalls b (by simp [hb])) ?_ hstep
  rw [List.append_assoc]
  exact distinctNames_lookups hd hcalls

/-- Where messages go does not depend on the calls that only use the log system. -/
lemma routeReached_lookups (acts : List LogAct) (hlookups : ∀ a ∈ lookups, ¬a.Configures)
    (name : CString) (level : LogLevel) : routeLevel (acts ++ lookups) name = routeLevel acts name ∧
      routeReached (acts ++ lookups) name level = routeReached acts name level ∧
      ∀ c, logAttached (acts ++ lookups) c level = logAttached acts c level := by
  have hconfs : logConfs (acts ++ lookups) = logConfs acts := by
    rw [logConfs_append, logConfs_lookups hlookups, List.append_nil]
  have horder : routeOrder (acts ++ lookups) name = routeOrder acts name := by
    rw [routeOrder, routeOrder, hconfs]
  have hlevel : routeLevel (acts ++ lookups) name = routeLevel acts name := by
    rw [routeLevel, routeLevel, horder]
  refine ⟨hlevel, by rw [routeReached, routeReached, hlevel, horder], fun c => ?_⟩
  rw [logAttached, logAttached, logAttachments_append, logAttachments_lookups hlookups,
    List.append_nil]

/-- References to appenders of one name are to one appender. -/
lemma LogPlan.Resolved.eq_of_name (h : plan.Resolved) {c c' : CString} {a a' : LogAppender}
    {t t' : LogLevel} (ha : .addAppender c a t ∈ plan.acts)
    (ha' : .addAppender c' a' t' ∈ plan.acts) (hname : a.name = a'.name) : a = a' := by
  have hfind : ∀ {c a t}, .addAppender c a t ∈ plan.acts →
      findAppender plan.appenders a.name = some a := by
    intro c a t ha
    obtain ⟨logger, hlogger, ha⟩ := List.mem_flatMap.mp ha
    obtain ⟨ref, href, heq⟩ : ∃ ref ∈ logger.refs,
        LogAct.addAppender logger.conf.name ref.1 ref.2 = .addAppender c a t := by
      simpa [PlannedLogger.acts] using ha
    obtain ⟨-, rfl, -⟩ := LogAct.addAppender.inj heq
    obtain ⟨name, hname⟩ := h logger hlogger ref href
    have hsame : ref.1.name = name := by simpa using List.find?_some hname
    rwa [hsame]
  have hfound := hfind ha
  rw [hname, hfind ha'] at hfound
  exact (Option.some.inj hfound).symm

lemma plannedItems_mem {α : Type} {deftype : Option CString}
    {one : ℕ → CString → Json → Option α} {items : List Json} {i : ℕ} {xs : List α}
    (h : plannedItems deftype one i items = some xs) :
    ∀ x ∈ xs, ∃ i stype item, one i stype item = some x := by
  induction items generalizing i xs with
  | nil =>
      obtain rfl := Option.some.inj h
      simp
  | cons item items ih =>
      rw [plannedItems] at h
      split at h
      · exact absurd h (by simp)
      · next x hx =>
          obtain ⟨stype, -, hone⟩ := Option.bind_eq_some_iff.mp hx
          obtain ⟨xs', hxs', rfl⟩ := Option.map_eq_some_iff.mp h
          exact List.forall_mem_cons.mpr ⟨⟨i, stype, item, hone⟩, ih hxs'⟩

/-- The plan of a document refers to its own appenders. -/
lemma logPlan_resolved {creates : ℕ → AppenderRequest → Bool} {json : Json}
    (h : logPlan creates json = some plan) : plan.Resolved := by
  rw [logPlan] at h
  split at h
  · obtain ⟨config, -, h⟩ := Option.bind_eq_some_iff.mp h
    split at h
    · rw [planOfLists] at h
      split at h
      · exact absurd h (by simp)
      · obtain ⟨ls, hls, rfl⟩ := Option.map_eq_some_iff.mp h
        intro logger hlogger
        unfold plannedList at hls
        split at hls
        · obtain ⟨_, stype, item, hone⟩ := plannedItems_mem hls logger hlogger
          exact plannedLogger_refs hone
        · exact absurd hls (by simp)
    · exact absurd h (by simp)
  · exact absurd h (by simp)

lemma defaultPlan_resolved : defaultPlan.Resolved := by
  intro logger hlogger ref href
  obtain rfl := List.mem_singleton.mp hlogger
  obtain rfl := List.mem_singleton.mp href
  exact ⟨defaultAppenderName, by decide⟩

/-- The appenders that a plan gives a message to, each as often as loggers hand it on. -/
def LogPlan.delivered (plan : LogPlan) (name : CString) (level : LogLevel) :
    Multiset LogAppender :=
  ((routeReached plan.acts name level).map fun c => attachedOnce plan.acts c.name level).sum

lemma LogPlan.build_delivers (plan : LogPlan) (hresolved : plan.Resolved)
    (hnames : (plan.loggers.map (·.conf.name)).Nodup)
    (hrun : logSystem.run plan.build lookups = some s)
    (hlookups : ∀ a ∈ lookups, ¬a.Configures) (name : CString) (level : LogLevel) :
    (loggerLogEx (logSystemGetLogger s name).1 (logSystemGetLogger s name).2 level :
        Multiset LogAppender) = plan.delivered name level ∧
      (loggerIsEnabled (logSystemGetLogger s name).2 level = true ↔
        routeLevel plan.acts name ≤ level) := by
  have hd : DistinctNames plan.acts := by
    rwa [DistinctNames, logConfs_plan, List.map_map]
  have hinv := (plan.build_inv hd).used hd hrun hlookups
  have hset : LogSetUpFirst (plan.acts ++ lookups) name := by
    refine .of_append (fun hmem => plan.configures _ hmem) ?_
    rw [logConfs_lookups hlookups]
    simp
  obtain ⟨hmin, hlog⟩ := hinv.getLogger_result (distinctNames_lookups hd hlookups) hset
  obtain ⟨hlevel, hreached, hattached⟩ := routeReached_lookups plan.acts hlookups name level
  refine ⟨?_, ?_⟩
  · rw [hlog level, routeDelivered, hreached, coe_flatMap, LogPlan.delivered]
    congr 1
    refine List.map_congr_left fun c _ => ?_
    rw [hattached, sortedAddAll_logAttached]
    intro a ha b hb hab
    obtain ⟨t, ha, -⟩ := mem_logAttached.mp ha
    obtain ⟨t', hb, -⟩ := mem_logAttached.mp hb
    exact hresolved.eq_of_name ha hb hab
  · rw [loggerIsEnabled, hmin, hlevel]
    by_cases h : level < routeLevel plan.acts name
    · simp [h, not_le.mpr h]
    · simp [h, not_lt.mp h]

end Routes

/-- A document with a console appender, and a root logger for warnings that refers to it. -/
def setupExample : Json :=
  .object [
    (ConfigKey.appenders.key, .array [.object [
      (ConfigKey.type.key, jsonValueSetString consoleType),
      (ConfigKey.name.key, jsonValueSetString consoleType)]]),
    (ConfigKey.loggers.key, .array [.object [
      (ConfigKey.type.key, jsonValueSetString rootType),
      (ConfigKey.level.key, jsonValueSetString LogLevel.warn.word),
      (ConfigKey.appenderRef.key, jsonValueSetString consoleType)]])]

/-- What it says. -/
def setupExamplePlan : LogPlan where
  appenders := [⟨0, consoleType⟩]
  loggers := [⟨⟨.empty, .warn, true⟩, [(⟨0, consoleType⟩, .warn)]⟩]

end LibCmutils
