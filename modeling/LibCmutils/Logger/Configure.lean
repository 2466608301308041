import LibCmutils.Logger.Appender
import LibCmutils.Logger.ConfigClean

/-!
The configuration of one appender (`src/logger.c`): the object that describes it, once its
names are in lower case, and the appender that is created from it.

* `AppenderOption`: the members that the code asks for. `AppenderOption.spelling` is the
  name that the documentation gives, `AppenderOption.key` the name that the code looks up. Only
  `useStderr` is not looked up in lower case.
* `logSystemProcessOneAppender`: `CMUTIL_LogSystemProcessOneAppender`, up to the call that
  creates the appender. `processAppenderOptions` reads the options with any lookup.
* `optionIgnoringCase`: the lookup that is wanted, in the object as it was written.
  `appenderOption_clean`: the lookup of the code is this one, without `useStderr`.
* `AsksForStderr`: where the difference shows (`processAppenderOptions_withoutStderr_iff`).

The main result is `appender_ignoringCase_iff`.
-/

namespace LibCmutils

/-! ### Options -/

/-- The members of an appender object that the code asks for. -/
inductive AppenderOption where
  | name | pattern | async | useStderr | asyncBufferSize
  | fileName | rollTerm | filePattern | listenPort | acceptHost
  deriving DecidableEq

/-- The documented name of an option. -/
def AppenderOption.spelling : AppenderOption → CString
  | .name => .ofBytes [0x6E, 0x61, 0x6D, 0x65]
  | .pattern => .ofBytes [0x70, 0x61, 0x74, 0x74, 0x65, 0x72, 0x6E]
  | .async => .ofBytes [0x61, 0x73, 0x79, 0x6E, 0x63]
  | .useStderr => .ofBytes [0x75, 0x73, 0x65, 0x53, 0x74, 0x64, 0x65, 0x72, 0x72]
  | .asyncBufferSize => .ofBytes [0x61, 0x73, 0x79, 0x6E, 0x63, 0x42, 0x75, 0x66, 0x66, 0x65, 0x72,
      0x53, 0x69, 0x7A, 0x65]
  | .fileName => .ofBytes [0x66, 0x69, 0x6C, 0x65, 0x4E, 0x61, 0x6D, 0x65]
  | .rollTerm => .ofBytes [0x72, 0x6F, 0x6C, 0x6C, 0x54, 0x65, 0x72, 0x6D]
  | .filePattern => .ofBytes [0x66, 0x69, 0x6C, 0x65, 0x50, 0x61, 0x74, 0x74, 0x65, 0x72, 0x6E]
  | .listenPort => .ofBytes [0x6C, 0x69, 0x73, 0x74, 0x65, 0x6E, 0x50, 0x6F, 0x72, 0x74]
  | .acceptHost => .ofBytes [0x61, 0x63, 0x63, 0x65, 0x70, 0x74, 0x48, 0x6F, 0x73, 0x74]

/-- The key that is looked up for an option: `useStderr` as it is, the others in lower case. -/
def AppenderOption.key : AppenderOption → CString
  | .name => .ofBytes [0x6E, 0x61, 0x6D, 0x65]
  | .pattern => .ofBytes [0x70, 0x61, 0x74, 0x74, 0x65, 0x72, 0x6E]
  | .async => .ofBytes [0x61, 0x73, 0x79, 0x6E, 0x63]
  | .useStderr => .ofBytes [0x75, 0x73, 0x65, 0x53, 0x74, 0x64, 0x65, 0x72, 0x72]
  | .asyncBufferSize => .ofBytes [0x61, 0x73, 0x79, 0x6E, 0x63, 0x62, 0x75, 0x66, 0x66, 0x65, 0x72,
      0x73, 0x69, 0x7A, 0x65]
  | .fileName => .ofBytes [0x66, 0x69, 0x6C, 0x65, 0x6E, 0x61, 0x6D, 0x65]
  | .rollTerm => .ofBytes [0x72, 0x6F, 0x6C, 0x6C, 0x74, 0x65, 0x72, 0x6D]
  | .filePattern => .ofBytes [0x66, 0x69, 0x6C, 0x65, 0x70, 0x61, 0x74, 0x74, 0x65, 0x72, 0x6E]
  | .listenPort => .ofBytes [0x6C, 0x69, 0x73, 0x74, 0x65, 0x6E, 0x70, 0x6F, 0x72, 0x74]
  | .acceptHost => .ofBytes [0x61, 0x63, 0x63, 0x65, 0x70, 0x74, 0x68, 0x6F, 0x73, 0x74]

/-- The member of an option in an object, and its text when it is a value. -/
def appenderOption (jobj : List (CString × Json)) (option : AppenderOption) :
    Option (Option CString) :=
  (jsonObjectGet jobj option.key).map Json.text

/-- `GetLong` of an object, on the text of the member. -/
def jsonGetLong (text : Option CString) : ℤ :=
  (text.bind fun data => (strtoll 10 data.1).map Prod.fst).getD 0

/-- `GetBoolean` of an object, on the text of the member: `strchr("1tTyY", *sdata)`. -/
def jsonGetBoolean (text : Option CString) : Bool :=
  text.elim false fun data => strchr [0x31, 0x74, 0x54, 0x79, 0x59] (data.1.headD 0)

/-! ### Appenders -/

/-- A `printf` to the console. -/
structure ConsoleMessage where
  format : String
  args : List CString
  deriving DecidableEq

/-- What is passed to the function that creates an appender, its name and pattern apart. -/
inductive AppenderTarget where
  | console (useStderr : Bool)
  | file (filename : Option CString)
  | rollingFile (filename : Option CString) (rollterm : LogTerm) (filepattern : Option CString)
  | socket (host : Option CString) (port : ℤ)
  deriving DecidableEq

/-- What is asked of the log system: the arguments of the function that creates the appender,
and the size of the buffer when it is switched to async. A text is `NULL` when its member is
no value. -/
structure AppenderRequest where
  name : Option CString
  pattern : Option CString
  target : AppenderTarget
  async : Option ℕ
  deriving DecidableEq

/-- `CMUITL_LOG_PATTERN_DEFAULT`. -/
def logPatternDefault : CString :=
  .ofBytes [0x25, 0x64, 0x20, 0x25, 0x50, 0x2D, 0x5B, 0x25, 0x2D, 0x31, 0x30, 0x2E, 0x31, 0x30,
    0x74, 0x5D, 0x20, 0x28, 0x25, 0x2D, 0x31, 0x35, 0x2E, 0x31, 0x35, 0x46, 0x3A, 0x25, 0x30, 0x34,
    0x4C, 0x29, 0x20, 0x5B, 0x25, 0x2D, 0x35, 0x70, 0x5D, 0x20, 0x25, 0x63, 0x20, 0x2D, 0x20, 0x25,
    0x6D, 0x25, 0x65, 0x78, 0x25, 0x6E]

/-- What `g_cmutil_log_term_format` has behind the name of the file. -/
def logTermFormat : LogTerm → List UInt8
  | .year => [0x2E, 0x25, 0x59]
  | .month => [0x2E, 0x25, 0x59, 0x2D, 0x25, 0x6D]
  | .date => [0x2E, 0x25, 0x59, 0x2D, 0x25, 0x6D, 0x2D, 0x25, 0x64]
  | .hour => [0x2E, 0x25, 0x59, 0x2D, 0x25, 0x6D, 0x2D, 0x25, 0x64, 0x5F, 0x25, 0x48]
  | .minute => [0x2E, 0x25, 0x59, 0x2D, 0x25, 0x6D, 0x2D, 0x25, 0x64, 0x5F, 0x25, 0x48, 0x25, 0x4D]

/-- The default of `filePattern`, in a buffer of 1024 bytes. `none` is a write outside of it. -/
def defaultFilePattern (rollterm : LogTerm) (filename : CString) : Option CString :=
  let text := filename.1 ++ logTermFormat rollterm
  if text.length < 1024 then some (.ofBytes text) else none

/-- The term that a text names. -/
def rollTermOfText (sterm : CString) : LogTerm :=
  if strcasecmpEq (.ofBytes [0x79, 0x65, 0x61, 0x72]) sterm then .year
  else if strcasecmpEq (.ofBytes [0x6D, 0x6F, 0x6E, 0x74, 0x68]) sterm then .month
  else if strcasecmpEq (.ofBytes [0x68, 0x6F, 0x75, 0x72]) sterm then .hour
  else if strcasecmpEq (.ofBytes [0x6D, 0x69, 0x6E, 0x75, 0x74, 0x65]) sterm then .minute
  else .date

/-- The type of a console appender. -/
def consoleType : CString := .ofBytes [0x63, 0x6F, 0x6E, 0x73, 0x6F, 0x6C, 0x65]

/-- The type of a file appender. -/
def fileType : CString := .ofBytes [0x66, 0x69, 0x6C, 0x65]

/-- The type of a rolling file appender. -/
def rollingFileType : CString :=
  .ofBytes [0x72, 0x6F, 0x6C, 0x6C, 0x69, 0x6E, 0x67, 0x66, 0x69, 0x6C, 0x65]

/-- The type of a socket appender. -/
def socketType : CString := .ofBytes [0x73, 0x6F, 0x63, 0x6B, 0x65, 0x74]

/-- The branches of `CMUTIL_LogSystemProcessOneAppender` by type. `none` is an access to `NULL`
or outside of a buffer. -/
def processAppenderType (stype : CString) (get : AppenderOption → Option (Option CString))
    (useStderr : Bool) : Option (Except ConsoleMessage AppenderTarget) :=
  if stype = consoleType then some (.ok (.console useStderr))
  else if stype = fileType then
    match get .fileName with
    | some filename => some (.ok (.file filename))
    | none => some (.error ⟨"fileName must be specified in File type appender.\n", []⟩)
  else if stype = rollingFileType then
    match get .fileName with
    | some filename => do
        let rollterm ← match get .rollTerm with
          | some sterm => sterm.map rollTermOfText
          | none => some .date
        let filepattern ← match get .filePattern with
          | some filepattern => some filepattern
          | none => (filename.bind (defaultFilePattern rollterm)).map some
        return .ok (.rollingFile filename rollterm filepattern)
    | none => some (.error ⟨"fileName must be specified in RollingFile type appender.\n", []⟩)
  else if stype = socketType then
    match get .listenPort with
    | some port =>
        let shost := (get .acceptHost).getD
          (some (.ofBytes [0x49, 0x4E, 0x41, 0x44, 0x44, 0x52, 0x5F, 0x41, 0x4E, 0x59]))
        some (.ok (.socket shost ((jsonGetLong port).bmod (2 ^ 32))))
    | none => some (.error ⟨"listenPort must be specified in Socket type appender.\n", []⟩)
  else some (.error ⟨"unknown appender type '%s'.\n", [stype]⟩)

/-- `CMUTIL_LogSystemProcessOneAppender` on an object, with a lookup of its options. -/
def processAppenderOptions (stype : CString) (get : AppenderOption → Option (Option CString)) :
    Option (Except ConsoleMessage AppenderRequest) :=
  match get .name with
  | none => some (.error ⟨"name must be specified in any appender.\n", []⟩)
  | some sname =>
      let spattern := (get .pattern).getD (some logPatternDefault)
      let async := (get .async).elim false jsonGetBoolean
      let useStderr := (get .useStderr).elim false jsonGetBoolean
      let asyncBufsz := (get .asyncBufferSize).elim 256 jsonGetLong
      if (get .asyncBufferSize).isSome ∧ asyncBufsz < 10 then
        some (.error ⟨"'asyncBufferSize' too small, must be greater than 10\n", []⟩)
      else
        (processAppenderType stype get useStderr).map fun result => result.map fun target =>
          { name := sname, pattern := spattern, target
            async := if async then some asyncBufsz.toNat else none }

/-- `CMUTIL_LogSystemProcessOneAppender`. -/
def logSystemProcessOneAppender (stype : CString) :
    Json → Option (Except ConsoleMessage AppenderRequest)
  | .object jobj => processAppenderOptions stype (appenderOption jobj)
  | _ => some (.error ⟨"invalid configuration structure.\n", []⟩)

/-- An appender object, cleaned and then processed. -/
def configureAppender (stype : CString) (json : Json) :
    Option (Except ConsoleMessage AppenderRequest) :=
  (logConfigClean json).bind (logSystemProcessOneAppender stype)

/-! ### What is wanted -/

/-- The member of an option whatever the case of its name. -/
def optionIgnoringCase (jobj : List (CString × Json)) (option : AppenderOption) :
    Option (Option CString) :=
  (jobj.find? fun e => strcasecmpEq e.1 option.spelling).map fun e => e.2.text

/-- Two objects that differ only in the case of their names. -/
def SameUpToCase (jobj jobj' : List (CString × Json)) : Prop :=
  List.Forall₂ (fun e e' => e'.1.lower = e.1.lower ∧ e'.2 = e.2) jobj jobj'

/-- Every option takes effect with its value, and the case of the names makes no difference. -/
structure ConfiguresIgnoringCase (stype : CString) (jobj : List (CString × Json)) : Prop where
  wanted : ∃ json, logConfigClean (.object jobj) = some json ∧
    logSystemProcessOneAppender stype json = processAppenderOptions stype (optionIgnoringCase jobj)
  same : ∀ jobj', SameUpToCase jobj jobj' →
    configureAppender stype (.object jobj') = configureAppender stype (.object jobj)

/-- A console appender is created, and it is to write to `stderr`. -/
def AsksForStderr (stype : CString) (get : AppenderOption → Option (Option CString)) : Prop :=
  stype = consoleType ∧ (get .name).isSome ∧
    (∀ size, get .asyncBufferSize = some size → 10 ≤ jsonGetLong size) ∧
    ∃ useStderr, get .useStderr = some useStderr ∧ jsonGetBoolean useStderr = true

/-! ### An option that is not found -/

/-- A lookup that does not find `useStderr`. -/
def withoutStderr (get : AppenderOption → Option (Option CString)) (option : AppenderOption) :
    Option (Option CString) :=
  if option = .useStderr then none else get option

variable {stype : CString} {get : AppenderOption → Option (Option CString)}
  {jobj jobj' : List (CString × Json)}

/-- Only a console appender depends on `useStderr`. -/
lemma processAppenderType_withoutStderr (h : stype ≠ consoleType) (useStderr useStderr' : Bool) :
    processAppenderType stype (withoutStderr get) useStderr =
      processAppenderType stype get useStderr' := by
  simp only [processAppenderType, if_neg h]
  rfl

lemma processAppenderOptions_withoutStderr_iff :
    processAppenderOptions stype (withoutStderr get) = processAppenderOptions stype get ↔
      ¬AsksForStderr stype get := by
  have hoptions : withoutStderr get .name = get .name ∧
      withoutStderr get .pattern = get .pattern ∧ withoutStderr get .async = get .async ∧
      withoutStderr get .asyncBufferSize = get .asyncBufferSize ∧
      withoutStderr get .useStderr = none := ⟨rfl, rfl, rfl, rfl, rfl⟩
  obtain ⟨hname, hpattern, hasync, hsize, hstderr⟩ := hoptions
  rw [processAppenderOptions, processAppenderOptions, hname, hpattern, hasync, hsize, hstderr]
  cases hn : get .name with
  | none =>
      refine iff_of_true rfl ?_
      rintro ⟨-, hsome, -⟩
      simp [hn] at hsome
  | some sname =>
      simp only [Option.elim_none]
      by_cases hsmall : (get .asyncBufferSize).isSome ∧
          (get .asyncBufferSize).elim 256 jsonGetLong < 10
      · rw [if_pos hsmall, if_pos hsmall]
        refine iff_of_true rfl ?_
        rintro ⟨-, -, hlarge, -⟩
        obtain ⟨size, hget⟩ := Option.isSome_iff_exists.mp hsmall.1
        have := hlarge size hget
        rw [hget, Option.elim_some] at hsmall
        omega
      · rw [if_neg hsmall, if_neg hsmall]
        by_cases htype : stype = consoleType
        · have htarget (get : AppenderOption → Option (Option CString)) (useStderr : Bool) :
              processAppenderType stype get useStderr = some (.ok (.console useStderr)) :=
            if_pos htype
          have hlarge : ∀ size, get .asyncBufferSize = some size → 10 ≤ jsonGetLong size := by
            intro size hget
            rw [hget, Option.elim_some] at hsmall
            simpa using hsmall
          simp only [htarget, Option.map_some, Except.map, Option.some.injEq, Except.ok.injEq,
            AppenderRequest.mk.injEq, AppenderTarget.console.injEq, true_and, and_true]
          rw [AsksForStderr, hn, and_iff_right htype, and_iff_right Option.isSome_some,
            and_iff_right hlarge]
          cases get .useStderr with
          | none => simp
          | some useStderr => cases h : jsonGetBoolean useStderr <;> simp [h]
        · rw [processAppenderType_withoutStderr htype]
          exact iff_of_true rfl fun h => htype h.1

/-! ### Lookups in a cleaned object -/

/-- All options but `useStderr` are looked up in lower case. -/
lemma AppenderOption.spelling_lower {option : AppenderOption} (h : option ≠ .useStderr) :
    option.spelling.lower = option.key := by
  cases option <;> first | exact absurd rfl h | rfl

lemma AppenderOption.useStderr_key :
    AppenderOption.useStderr.key.lower ≠ AppenderOption.useStderr.key := by
  decide

lemma text_of_clean : ∀ {n : ℕ} {json json' : Json},
    logConfigCleanFrom n json = some json' → json'.text = json.text
  | _ + 1, .value _ _, json', h => by
      rw [← Option.some.inj h]
  | _ + 1, .object _, json', h => by
      obtain ⟨entries, -, rfl⟩ := Option.map_eq_some_iff.mp h
      rfl
  | _ + 1, .array _, json', h => by
      obtain ⟨items, -, rfl⟩ := Option.map_eq_some_iff.mp h
      rfl

/-- A key of the cleaned object is looked up among the names in lower case. -/
lemma jsonObjectGet_clean {n : ℕ} (h : List.Forall₂ (fun e e' => e'.1 = e.1.lower ∧
      logConfigCleanFrom n e.2 = some e'.2) jobj jobj') (key : CString) :
    (jsonObjectGet jobj' key).map Json.text =
      (jobj.find? fun e => e.1.lower = key).map fun e => e.2.text := by
  induction h with
  | nil => rfl
  | @cons e e' es es' he _ ih =>
      obtain ⟨hname, hclean⟩ := he
      rw [jsonObjectGet, Option.map_map] at ih ⊢
      rw [List.find?_cons, List.find?_cons, hname]
      split
      · simp [text_of_clean hclean]
      · exact ih

/-- **The lookups of the code** are those that are wanted, apart from `useStderr`. -/
theorem appenderOption_clean {n : ℕ} (h : List.Forall₂ (fun e e' => e'.1 = e.1.lower ∧
      logConfigCleanFrom n e.2 = some e'.2) jobj jobj') :
    appenderOption jobj' = withoutStderr (optionIgnoringCase jobj) := by
  funext option
  rw [appenderOption, jsonObjectGet_clean h, withoutStderr]
  split_ifs with hoption
  · rw [Option.map_eq_none_iff, List.find?_eq_none]
    intro e _ hkey
    have hlower : e.1.lower = option.key := by simpa using hkey
    apply AppenderOption.useStderr_key
    rw [← hoption, ← hlower, CString.lower_lower]
  · rw [optionIgnoringCase]
    congr 2
    funext e
    rw [Bool.eq_iff_iff, decide_eq_true_iff, strcasecmpEq_iff_lower,
      AppenderOption.spelling_lower hoption]

/-! ### The case of the names -/

lemma SameUpToCase.names (h : SameUpToCase jobj jobj') :
    jobj'.map (fun e => e.1.lower) = jobj.map fun e => e.1.lower := by
  induction h with
  | nil => rfl
  | cons he _ ih => rw [List.map_cons, List.map_cons, he.1, ih]

lemma SameUpToCase.optionIgnoringCase_eq (h : SameUpToCase jobj jobj') :
    optionIgnoringCase jobj' = optionIgnoringCase jobj := by
  funext option
  induction h with
  | nil => rfl
  | @cons e e' es es' he _ ih =>
      have hcase : strcasecmpEq e'.1 option.spelling = strcasecmpEq e.1 option.spelling := by
        rw [Bool.eq_iff_iff, strcasecmpEq_iff_lower, strcasecmpEq_iff_lower, he.1]
      rw [optionIgnoringCase] at ih ⊢
      rw [optionIgnoringCase, List.find?_cons, List.find?_cons, hcase]
      split
      · rw [Option.map_some, Option.map_some, he.2]
      · exact ih

/-- Names and members of two objects that differ only in case satisfy the same. -/
lemma SameUpToCase.forall_iff (h : SameUpToCase jobj jobj') {P : CString → Json → Prop}
    (hP : ∀ name name' item, name'.lower = name.lower → (P name' item ↔ P name item)) :
    (∀ e ∈ jobj', P e.1 e.2) ↔ ∀ e ∈ jobj, P e.1 e.2 := by
  induction h with
  | nil => simp
  | @cons e e' es es' he _ ih =>
      rw [List.forall_mem_cons, List.forall_mem_cons, ih, he.2, hP e.1 e'.1 e.2 he.1]

/-- The condition on an appender object: no name in it is empty, and it does not ask a console
appender to write to `stderr`. -/
def NamesFound (stype : CString) (jobj : List (CString × Json)) : Prop :=
  (∀ e ∈ jobj, e.1 ≠ .empty ∧ NamesGiven e.2) ∧ ¬AsksForStderr stype (optionIgnoringCase jobj)

lemma SameUpToCase.namesFound_iff (h : SameUpToCase jobj jobj') :
    NamesFound stype jobj' ↔ NamesFound stype jobj := by
  have hgiven := h.forall_iff (P := fun name item => name ≠ .empty ∧ NamesGiven item)
    fun name name' item hlower => by
      rw [ne_eq, ne_eq, ← CString.lower_eq_empty, hlower, CString.lower_eq_empty]
  rw [NamesFound, NamesFound, hgiven, h.optionIgnoringCase_eq]

/-- What becomes of an appender object whose names differ by more than case. -/
lemma processed_of_clean (hnames : (jobj.map fun e => e.1.lower).Nodup) {json : Json}
    (h : logConfigClean (.object jobj) = some json) :
    logSystemProcessOneAppender stype json =
      processAppenderOptions stype (withoutStderr (optionIgnoringCase jobj)) := by
  obtain ⟨entries, rfl, hentries⟩ := logConfigClean_object hnames h
  rw [logSystemProcessOneAppender, appenderOption_clean hentries]

lemma clean_isSome_iff (hnames : (jobj.map fun e => e.1.lower).Nodup)
    (hmembers : ∀ e ∈ jobj, JsonNamed e.2) :
    (logConfigClean (.object jobj)).isSome ↔ ∀ e ∈ jobj, e.1 ≠ .empty ∧ NamesGiven e.2 := by
  rw [logConfigClean_isSome_iff (.object (nodup_of_lower hnames) hmembers),
    NamesGiven.object_iff_of_nodup hnames]

/-- An object that meets the condition is configured as wanted. -/
lemma configureAppender_of_namesFound (hnames : (jobj.map fun e => e.1.lower).Nodup)
    (hmembers : ∀ e ∈ jobj, JsonNamed e.2) (h : NamesFound stype jobj) :
    ∃ json, logConfigClean (.object jobj) = some json ∧
      logSystemProcessOneAppender stype json =
        processAppenderOptions stype (optionIgnoringCase jobj) := by
  obtain ⟨json, hjson⟩ := Option.isSome_iff_exists.mp ((clean_isSome_iff hnames hmembers).mpr h.1)
  refine ⟨json, hjson, ?_⟩
  rw [processed_of_clean hnames hjson, processAppenderOptions_withoutStderr_iff.mpr h.2]

/-- **The case of the names** of an appender object, no two of them equal up to case: every
option takes effect, and the case makes no difference, exactly when no name that is come to is
empty and the object does not ask for `stderr`. -/
theorem appender_ignoringCase_iff (hnames : (jobj.map fun e => e.1.lower).Nodup)
    (hmembers : ∀ e ∈ jobj, JsonNamed e.2) :
    ConfiguresIgnoringCase stype jobj ↔ NamesFound stype jobj := by
  constructor
  · rintro ⟨⟨json, hjson, hwanted⟩, -⟩
    refine ⟨(clean_isSome_iff hnames hmembers).mp (by rw [hjson]; rfl), ?_⟩
    rw [processed_of_clean hnames hjson] at hwanted
    exact processAppenderOptions_withoutStderr_iff.mp hwanted
  · intro h
    obtain ⟨json, hjson, hwanted⟩ := configureAppender_of_namesFound hnames hmembers h
    refine ⟨⟨json, hjson, hwanted⟩, fun jobj' hsame => ?_⟩
    have hmembers' : ∀ e ∈ jobj', JsonNamed e.2 :=
      (hsame.forall_iff (P := fun _ item => JsonNamed item) fun _ _ _ _ => Iff.rfl).mpr hmembers
    obtain ⟨json', hjson', hwanted'⟩ := configureAppender_of_namesFound
      (hsame.names ▸ hnames) hmembers' (hsame.namesFound_iff.mpr h)
    rw [configureAppender, configureAppender, hjson, hjson', Option.bind_some, Option.bind_some,
      hwanted, hwanted', hsame.optionIgnoringCase_eq]

/-- An appender object with `NAME`, and with `useStderr` as it is documented. -/
def configExample (useStderr : Bool) : List (CString × Json) :=
  [(AppenderOption.name.spelling.upper, jsonValueSetString consoleType),
    (AppenderOption.useStderr.spelling, jsonValueSetBoolean useStderr)]

lemma configExample_members (useStderr : Bool) :
    ∀ e ∈ configExample useStderr, JsonNamed e.2 := by
  intro e he
  simp only [configExample, List.mem_cons, List.not_mem_nil, or_false] at he
  rcases he with rfl | rfl
  · exact (JsonBuilt.setString _).wellFormed.named
  · exact (JsonBuilt.setBoolean _).wellFormed.named

theorem appender_ignoringCase_iff_example :
    ConfiguresIgnoringCase consoleType (configExample false) := by
  refine (appender_ignoringCase_iff (by decide) (configExample_members false)).mpr ⟨?_, ?_⟩
  · intro e he
    simp only [configExample, List.mem_cons, List.not_mem_nil, or_false] at he
    rcases he with rfl | rfl
    · exact ⟨by decide, .value _ _⟩
    · exact ⟨by decide, .value _ _⟩
  · rintro ⟨-, -, -, useStderr, hget, htrue⟩
    obtain rfl := Option.some.inj hget
    exact absurd htrue (by decide)

/-- The messages of a console appender go to `stdout` although its configuration says
otherwise. -/
theorem appender_ignoringCase_fails :
    ((configExample true).map fun e => e.1.lower).Nodup ∧
      (∀ e ∈ configExample true, JsonNamed e.2) ∧
      ¬ConfiguresIgnoringCase consoleType (configExample true) := by
  refine ⟨by decide, configExample_members true, ?_⟩
  rintro ⟨⟨json, hjson, hwanted⟩, -⟩
  obtain rfl := Option.some.inj hjson
  revert hwanted
  decide

end LibCmutils
