import LibCmutils.Lib.Transition
import LibCmutils.Logger.Appender

/-!
The release of asynchronous items (`src/logger.c`).

* `AsyncItem`, `ItemRelease`: an item with its number, and what the two destructors do with
  an item: `asyncItemDestroy` is the one of its type, `stringDestroyer` the callback of the
  lists that hold the items.
* `fileAppenderFlush`, `rollingFileAppenderFlush`: `Flush` when any `fopen` may fail.
  `flush_of_open`, `flush_of_closed`: with the first `fopen` it releases every item or none.
* `asyncSystem`: calls of `Append` and `Flush`, the writer thread, and `Destroy`.
* `AsyncInv`: the items are released in the order of their numbers, and those that are not
  wait in the two lists.

The main result is `asyncItems_released_iff`. `flush_output` connects the model to the
appenders whose `fopen` never fails.

`Flush` and the section of `Append` hold the mutex, so each is one step. Memory that is asked
for is there.
-/

namespace LibCmutils

/-! ### Items -/

/-- `CMUTIL_LogAppderAsyncItem`, with the number of the item. -/
structure AsyncItem where
  id : ℕ
  item : LogItem
  deriving DecidableEq

/-- What a destructor does with an item. -/
inductive ItemRelease where
  /-- `Destroy` of its log string. -/
  | log (id : ℕ)
  /-- `Free` of its record. -/
  | record (id : ℕ)
  /-- `Destroy` of its record, as if that were a `CMUTIL_String`. -/
  | asString (id : ℕ)
  deriving DecidableEq

/-- `CMUTIL_LogAppderAsyncItemDestroy`. -/
def asyncItemDestroy (item : AsyncItem) : List ItemRelease := [.log item.id, .record item.id]

/-- `CMUTIL_LogAppenderStringDestroyer`, when it is given an item. -/
def stringDestroyer (item : AsyncItem) : List ItemRelease := [.asString item.id]

/-- The appenders that print to files. -/
inductive FileAppender where
  | file (fpath : CString)
  | rolling (iap : RollingFile)
  deriving DecidableEq

/-- The kind of an appender. -/
def FileAppender.kind : FileAppender → AppenderKind
  | file fpath => .file fpath
  | rolling iap => .rolling iap

/-- The outcomes of the calls of `fopen` to come. -/
abbrev Opens := ℕ → Bool

/-- The outcomes after the next one. -/
def Opens.tail (opens : Opens) : Opens := fun n => opens (n + 1)

/-- What `Flush` works on: the two lists, what has been printed, and what was done with items,
in that order. -/
structure AsyncQueue where
  buffer : List AsyncItem
  flushBuffer : List AsyncItem
  output : LogOutput
  released : List ItemRelease

/-! ### `Flush` -/

/-- The loop of `CMUTIL_LogFileAppenderFlush`. -/
def fileFlushLoop (fpath : CString) : List AsyncItem → AsyncQueue → AsyncQueue
  | [], q => q
  | item :: list, q =>
      fileFlushLoop fpath list
        { q with
          flushBuffer := list
          output := q.output.printFile fpath item.item
          released := q.released ++ asyncItemDestroy item }

namespace AsyncQueue

/-- The items in the lists, in the order in which they were queued. -/
def queued (q : AsyncQueue) : List AsyncItem := q.flushBuffer ++ q.buffer

/-- `MoveAll` of the buffer to the flush buffer. -/
def moveAll (q : AsyncQueue) : AsyncQueue := { q with flushBuffer := q.queued, buffer := [] }

end AsyncQueue

/-- `CMUTIL_LogFileAppenderFlush`. -/
def fileAppenderFlush (fpath : CString) (opens : Opens) (q : AsyncQueue) : AsyncQueue :=
  if opens 0 then
    fileFlushLoop fpath q.queued { q.moveAll with output := q.output.openFile fpath }
  else q

/-- The file of a rolling appender in its loop: `fp` is not `NULL`. -/
structure RollingStream where
  fp : Bool
  opens : Opens
  output : LogOutput

section Flush

variable (strftime : Strftime)

/-- What the body of the loop does before it prints. The file stays closed when it was not
opened again. -/
def rollingReopen (iap : RollingFile) (curr : Tm) (f : RollingStream) : RollingStream :=
  if f.fp = true ∧ rollingFileAppenderIsChanged iap f.output.lasttm curr = true then
    let o := rollingFileAppenderRolling strftime iap curr f.output
    { fp := f.opens 0
      opens := f.opens.tail
      output := if f.opens 0 then o.openFile iap.fpath else o }
  else f

/-- The loop of `CMUTIL_LogRollingFileAppenderFlush`. -/
def rollingFlushLoop (iap : RollingFile) :
    List AsyncItem → Bool → Opens → AsyncQueue → AsyncQueue
  | [], _, _, q => q
  | item :: list, fp, opens, q =>
      let f := rollingReopen strftime iap item.item.logtm { fp, opens, output := q.output }
      rollingFlushLoop iap list f.fp f.opens
        { q with
          flushBuffer := list
          output := if f.fp then f.output.printFile iap.fpath item.item else f.output
          released := q.released ++ asyncItemDestroy item }

/-- `CMUTIL_LogRollingFileAppenderFlush`. -/
def rollingFileAppenderFlush (iap : RollingFile) (opens : Opens) (q : AsyncQueue) : AsyncQueue :=
  match q.queued with
  | [] => q.moveAll
  | item :: _ =>
      let o := rollIfChanged strftime iap item.item.logtm q.output
      if opens 0 then
        rollingFlushLoop strftime iap q.queued true opens.tail
          { q.moveAll with output := o.openFile iap.fpath }
      else { q.moveAll with output := o }

/-- `Flush`. -/
def FileAppender.flush : FileAppender → Opens → AsyncQueue → AsyncQueue
  | .file fpath => fileAppenderFlush fpath
  | .rolling iap => rollingFileAppenderFlush strftime iap

/-- `Append` of item number `id` in an asynchronous appender, once its line is made. -/
def FileAppender.append (kind : FileAppender) (buffersz id : ℕ) (item : LogItem) (opens : Opens)
    (q : AsyncQueue) : AsyncQueue :=
  let q := { q with buffer := q.buffer ++ [⟨id, item⟩] }
  if buffersz ≤ q.buffer.length then kind.flush strftime opens q else q

end Flush

namespace AsyncQueue

/-- `Destroy` of the two lists, with their callback. -/
def destroyLists (q : AsyncQueue) : AsyncQueue :=
  { q with
    buffer := []
    flushBuffer := []
    released :=
      q.released ++ q.buffer.flatMap stringDestroyer ++ q.flushBuffer.flatMap stringDestroyer }

/-- Item number `id` was released once, by the destructor of its type. -/
structure ReleasedOnce (q : AsyncQueue) (id : ℕ) : Prop where
  log : q.released.count (.log id) = 1
  record : q.released.count (.record id) = 1
  asString : .asString id ∉ q.released

/-- Nothing was done with item number `id`. -/
structure Untouched (q : AsyncQueue) (id : ℕ) : Prop where
  log : .log id ∉ q.released
  record : .record id ∉ q.released
  asString : .asString id ∉ q.released

/-- Item number `id` is in one of the lists. -/
def Waits (q : AsyncQueue) (id : ℕ) : Prop := id ∈ q.queued.map AsyncItem.id

/-- An item waits and was not touched, or does not wait and was released. -/
def Proper (q : AsyncQueue) (id : ℕ) : Prop :=
  q.Waits id ∧ q.Untouched id ∨ ¬ q.Waits id ∧ q.ReleasedOnce id

end AsyncQueue

/-! ### What `Flush` releases -/

section Flushed

variable {strftime : Strftime} {iap : RollingFile} {kind : FileAppender} {opens : Opens}
  {q : AsyncQueue}

/-- The items of a list are consumed. -/
def AsyncQueue.consumed (q : AsyncQueue) (list : List AsyncItem) (o : LogOutput) : AsyncQueue :=
  { q with
    flushBuffer := []
    output := o
    released := q.released ++ list.flatMap asyncItemDestroy }

lemma fileFlushLoop_eq (fpath : CString) (list : List AsyncItem) (q : AsyncQueue)
    (h : q.flushBuffer = list) :
    fileFlushLoop fpath list q
      = q.consumed list (list.foldl (fun o item => o.printFile fpath item.item) q.output) := by
  induction list generalizing q with
  | nil =>
      rw [fileFlushLoop, AsyncQueue.consumed, List.flatMap_nil, List.append_nil, List.foldl_nil,
        ← h]
  | cons item list ih =>
      rw [fileFlushLoop, ih _ rfl]
      simp only [AsyncQueue.consumed, List.flatMap_cons, List.append_assoc, List.foldl_cons]

/-- The loop of a rolling appender consumes every item, also when its file stays closed. -/
lemma rollingFlushLoop_eq (list : List AsyncItem) (fp : Bool) (opens : Opens) (q : AsyncQueue)
    (h : q.flushBuffer = list) :
    ∃ o, rollingFlushLoop strftime iap list fp opens q = q.consumed list o := by
  induction list generalizing q fp opens with
  | nil =>
      refine ⟨q.output, ?_⟩
      rw [rollingFlushLoop, AsyncQueue.consumed, List.flatMap_nil, List.append_nil, ← h]
  | cons item list ih =>
      rw [rollingFlushLoop]
      refine Exists.imp (fun o ho => ho.trans ?_) (ih _ _ _ ?_)
      · rfl
      · simp only [AsyncQueue.consumed, List.flatMap_cons, List.append_assoc]

variable (strftime kind q) in
/-- When the first `fopen` succeeds, `Flush` releases every item. -/
lemma flush_of_open (h : opens 0 = true) :
    ∃ o, kind.flush strftime opens q = q.moveAll.consumed q.queued o := by
  cases kind with
  | file fpath =>
      rw [FileAppender.flush, fileAppenderFlush, if_pos h]
      exact ⟨_, fileFlushLoop_eq fpath q.queued _ rfl⟩
  | rolling iap =>
      rw [FileAppender.flush, rollingFileAppenderFlush]
      split
      case h_1 hnil =>
          refine ⟨q.output, ?_⟩
          rw [hnil, AsyncQueue.consumed, List.flatMap_nil, List.append_nil, ← hnil]
          rfl
      case h_2 item list hcons =>
          rw [if_pos h]
          exact rollingFlushLoop_eq q.queued true opens.tail _ rfl

variable (strftime kind q) in
/-- When the first `fopen` fails, `Flush` releases nothing, and every item waits as before. -/
lemma flush_of_closed (h : opens 0 = false) :
    (kind.flush strftime opens q).queued = q.queued ∧
      (kind.flush strftime opens q).released = q.released := by
  have hmove : q.moveAll.queued = q.queued := List.append_nil _
  cases kind with
  | file fpath =>
      rw [FileAppender.flush, fileAppenderFlush, if_neg (by simp [h])]
      exact ⟨rfl, rfl⟩
  | rolling iap =>
      rw [FileAppender.flush, rollingFileAppenderFlush]
      split
      case h_1 hnil => exact ⟨hmove, rfl⟩
      case h_2 item list hcons =>
          rw [if_neg (by simp [h])]
          exact ⟨hmove, rfl⟩

/-- Nothing waits after `Flush`. -/
lemma queued_flush_eq_nil :
    (kind.flush strftime opens q).queued = [] ↔ q.queued = [] ∨ opens 0 = true := by
  cases h : opens 0 with
  | true =>
      obtain ⟨o, ho⟩ := flush_of_open strftime kind q h
      rw [ho]
      exact ⟨fun _ => .inr rfl, fun _ => rfl⟩
  | false =>
      rw [(flush_of_closed strftime kind q h).1]
      simp

/-! ### Files that can always be opened -/

/-- The loop of a rolling appender, when its file can be opened again each time. -/
lemma rollingFlushLoop_output (list : List AsyncItem) (q : AsyncQueue) :
    (rollingFlushLoop strftime iap list true (fun _ => true) q).output =
      list.foldl (fun o item => flushItem strftime (.rolling iap) item.item o) q.output := by
  induction list generalizing q with
  | nil => rfl
  | cons item list ih =>
      rw [rollingFlushLoop, List.foldl_cons]
      by_cases hchanged : rollingFileAppenderIsChanged iap q.output.lasttm item.item.logtm = true
      · simp only [rollingReopen, flushItem, hchanged, and_self, if_true]
        exact ih _
      · simp only [rollingReopen, flushItem, hchanged, if_true]
        exact ih _

/-- When every `fopen` succeeds, `Flush` prints what it prints in the model of the appenders
that leaves failures out. -/
theorem flush_output (kind : FileAppender) {item : AsyncItem} {list : List AsyncItem}
    (h : q.queued = item :: list) :
    (kind.flush strftime (fun _ => true) q).output =
      (item :: list).foldl (fun o item => flushItem strftime kind.kind item.item o)
        (flushFront strftime kind.kind item.item (flushOpen kind.kind q.output)) := by
  cases kind with
  | file fpath =>
      simp only [FileAppender.flush, fileAppenderFlush, if_true]
      rw [fileFlushLoop_eq fpath q.queued _ rfl, h]
      rfl
  | rolling iap =>
      simp only [FileAppender.flush, rollingFileAppenderFlush, h, if_true]
      exact rollingFlushLoop_output (item :: list) _

end Flushed

/-! ### Items in order -/

namespace AsyncQueue

variable {strftime : Strftime} {kind : FileAppender} {opens : Opens} {q : AsyncQueue}
  {next id : ℕ}

/-- Of the items numbered below `next`, in order, some were released and the others wait. -/
def Kept (q : AsyncQueue) (next : ℕ) : Prop :=
  ∃ gone : List AsyncItem, q.released = gone.flatMap asyncItemDestroy ∧
    (gone ++ q.queued).map AsyncItem.id = List.range next

lemma Kept.congr {q' : AsyncQueue} (h : q.Kept next) (hqueued : q'.queued = q.queued)
    (hreleased : q'.released = q.released) : q'.Kept next := by
  obtain ⟨gone, hgone, hids⟩ := h
  exact ⟨gone, hreleased.trans hgone, by rw [hqueued, hids]⟩

lemma Kept.flush (h : q.Kept next) : (kind.flush strftime opens q).Kept next := by
  cases hopen : opens 0 with
  | true =>
      obtain ⟨gone, hgone, hids⟩ := h
      obtain ⟨o, ho⟩ := flush_of_open strftime kind q hopen
      rw [ho]
      refine ⟨gone ++ q.queued, ?_, ?_⟩
      · rw [List.flatMap_append, ← hgone]
        rfl
      · rw [← hids]
        exact congrArg _ (List.append_nil _)
  | false =>
      obtain ⟨hqueued, hreleased⟩ := flush_of_closed strftime kind q hopen
      exact h.congr hqueued hreleased

/-- `Append` queues the next item. -/
lemma Kept.append (h : q.Kept next) (buffersz : ℕ) (item : LogItem) :
    (kind.append strftime buffersz next item opens q).Kept (next + 1) := by
  have hadded : Kept { q with buffer := q.buffer ++ [⟨next, item⟩] } (next + 1) := by
    obtain ⟨gone, hgone, hids⟩ := h
    refine ⟨gone, hgone, ?_⟩
    rw [queued, List.range_succ, ← hids, queued]
    simp only [List.map_append, List.append_assoc, List.map_cons, List.map_nil]
  rw [FileAppender.append]
  split
  · exact hadded.flush
  · exact hadded

/-- What the destructor does once with an item, it does once with every item of a list. -/
lemma count_asyncItemDestroy {r : ItemRelease} {id : ℕ}
    (hr : ∀ item : AsyncItem, (asyncItemDestroy item).count r = [item.id].count id)
    (gone : List AsyncItem) :
    (gone.flatMap asyncItemDestroy).count r = (gone.map AsyncItem.id).count id := by
  induction gone with
  | nil => rfl
  | cons item gone ih =>
      rw [List.flatMap_cons, List.count_append, ih, hr, ← List.count_append]
      rfl

lemma count_log (gone : List AsyncItem) (id : ℕ) :
    (gone.flatMap asyncItemDestroy).count (.log id) = (gone.map AsyncItem.id).count id :=
  count_asyncItemDestroy (fun item => by simp [asyncItemDestroy, List.count_cons]) gone

lemma count_record (gone : List AsyncItem) (id : ℕ) :
    (gone.flatMap asyncItemDestroy).count (.record id) = (gone.map AsyncItem.id).count id :=
  count_asyncItemDestroy (fun item => by simp [asyncItemDestroy, List.count_cons]) gone

lemma asString_not_mem (gone : List AsyncItem) (id : ℕ) :
    .asString id ∉ gone.flatMap asyncItemDestroy := by
  simp [asyncItemDestroy]

/-- Every item is as it should be. -/
lemma Kept.proper (h : q.Kept next) (hid : id < next) : q.Proper id := by
  obtain ⟨gone, hgone, hids⟩ := h
  have hcount : (gone.map AsyncItem.id).count id + (q.queued.map AsyncItem.id).count id = 1 := by
    rw [← List.count_append, ← List.map_append, hids]
    exact List.count_eq_one_of_mem List.nodup_range (List.mem_range.mpr hid)
  by_cases hw : q.Waits id
  · have hnone : (gone.map AsyncItem.id).count id = 0 := by
      have := List.count_pos_iff.mpr hw
      omega
    refine .inl ⟨hw, ?_, ?_, ?_⟩
    · rw [hgone, ← List.count_eq_zero, count_log, hnone]
    · rw [hgone, ← List.count_eq_zero, count_record, hnone]
    · rw [hgone]
      exact asString_not_mem gone id
  · have hone : (gone.map AsyncItem.id).count id = 1 := by
      have := List.count_eq_zero.mpr hw
      omega
    refine .inr ⟨hw, ?_, ?_, ?_⟩
    · rw [hgone, count_log, hone]
    · rw [hgone, count_record, hone]
    · rw [hgone]
      exact asString_not_mem gone id

lemma Kept.lt_of_waits (h : q.Kept next) (hw : q.Waits id) : id < next := by
  obtain ⟨gone, -, hids⟩ := h
  rw [← List.mem_range, ← hids, List.map_append]
  exact List.mem_append_right _ hw

/-- Lists with nothing in them are destroyed, and nothing happens to an item. -/
lemma Kept.destroyLists (h : q.Kept next) (hnil : q.queued = []) : q.destroyLists.Kept next := by
  obtain ⟨hflush, hbuffer⟩ := List.append_eq_nil_iff.mp hnil
  refine h.congr hnil.symm ?_
  rw [AsyncQueue.destroyLists, hflush, hbuffer]
  exact (List.append_nil _).trans (List.append_nil _)

/-- An item that waits when the lists are destroyed is taken for a string. -/
lemma asString_mem_destroyLists (h : q.Waits id) : .asString id ∈ q.destroyLists.released := by
  obtain ⟨item, hmem, rfl⟩ := List.mem_map.mp h
  simp only [AsyncQueue.destroyLists, List.mem_append, List.mem_flatMap, stringDestroyer,
    List.mem_singleton]
  rcases List.mem_append.mp hmem with hflush | hbuffer
  · exact .inr ⟨item, hflush, rfl⟩
  · exact .inl (.inr ⟨item, hbuffer, rfl⟩)

end AsyncQueue

/-! ### The appender and its threads -/

/-- A place in `CMUTIL_LogAppenderAsyncWriter`. -/
inductive AsyncWriterPc where
  /-- Before the test of `isasync`. -/
  | test
  | flush
  /-- Before the last `Flush`. -/
  | last
  | done
  deriving DecidableEq

/-- A place in `CMUTIL_LogAppenderBaseClean`. -/
inductive AsyncCleanPc where
  /-- Before `Destroy`. -/
  | calls
  | check
  | flush
  | clearAsync
  | join
  | destroyLists
  | done
  deriving DecidableEq

/-- An asynchronous appender and its threads. `next` is the number of the next item. -/
structure AsyncAppender where
  isasync : Bool
  next : ℕ
  queue : AsyncQueue
  writer : AsyncWriterPc
  clean : AsyncCleanPc

/-- A step, with the outcomes of the calls of `fopen` in it. -/
inductive AsyncAction where
  | append (item : LogItem) (opens : Opens)
  | flush (opens : Opens)
  | writer (opens : Opens)
  | clean (opens : Opens)

section Steps

variable (strftime : Strftime) (kind : FileAppender) (buffersz : ℕ)

namespace AsyncAppender

/-- `Flush`. -/
def flush (s : AsyncAppender) (opens : Opens) : AsyncAppender :=
  { s with queue := kind.flush strftime opens s.queue }

/-- A step of the writer thread. -/
def writerStep (s : AsyncAppender) (opens : Opens) : Option AsyncAppender :=
  match s.writer with
  | .test => some { s with writer := if s.isasync then .flush else .last }
  | .flush => some { s.flush strftime kind opens with writer := .test }
  | .last => some { s.flush strftime kind opens with writer := .done }
  | .done => none

/-- A step of `Destroy`. -/
def cleanStep (s : AsyncAppender) (opens : Opens) : Option AsyncAppender :=
  match s.clean with
  | .calls => some { s with clean := .check }
  | .check => some { s with clean := if s.queue.buffer = [] then .clearAsync else .flush }
  | .flush => some { s.flush strftime kind opens with clean := .clearAsync }
  | .clearAsync => some { s with isasync := false, clean := .join }
  | .join => if s.writer = .done then some { s with clean := .destroyLists } else none
  | .destroyLists => some { s with queue := s.queue.destroyLists, clean := .done }
  | .done => none

/-- A step. `Append` and `Flush` are called before `Destroy`, so the appender is asynchronous
in every `Append`. -/
def step (s : AsyncAppender) : AsyncAction → Option AsyncAppender
  | .append item opens =>
      if s.clean = .calls then
        some { s with
          next := s.next + 1
          queue := kind.append strftime buffersz s.next item opens s.queue }
      else none
  | .flush opens => if s.clean = .calls then some (s.flush strftime kind opens) else none
  | .writer opens => s.writerStep strftime kind opens
  | .clean opens => s.cleanStep strftime kind opens

end AsyncAppender

/-- An appender that was made asynchronous. -/
def asyncStart (output : LogOutput) : AsyncAppender where
  isasync := true
  next := 0
  queue := { buffer := [], flushBuffer := [], output, released := [] }
  writer := .test
  clean := .calls

/-- The calls and the threads, interleaved. -/
def asyncSystem (output : LogOutput) : TransitionSystem AsyncAppender AsyncAction where
  init s := s = asyncStart output
  step := AsyncAppender.step strftime kind buffersz

end Steps

namespace AsyncAppender

/-- `Destroy` has released the lists. -/
def Finished (s : AsyncAppender) : Prop := s.clean = .done

/-- The last `Flush` of the writer thread can open its file, or has nothing to do. -/
def LastFlushOpens (s : AsyncAppender) (a : AsyncAction) : Prop :=
  ∀ opens, a = .writer opens → s.writer = .last → s.queue.queued = [] ∨ opens 0 = true

end AsyncAppender

/-! ### Steps and invariants -/

section Runs

variable {strftime : Strftime} {kind : FileAppender} {buffersz : ℕ} {output : LogOutput}
  {s s' : AsyncAppender} {a : AsyncAction}

variable (strftime kind buffersz) in
/-- What a step does. -/
inductive AsyncStep (s : AsyncAppender) : AsyncAction → AsyncAppender → Prop where
  | append (item : LogItem) (opens : Opens) : s.clean = .calls →
      AsyncStep s (.append item opens) { s with
        next := s.next + 1
        queue := kind.append strftime buffersz s.next item opens s.queue }
  | flush (opens : Opens) : s.clean = .calls →
      AsyncStep s (.flush opens) (s.flush strftime kind opens)
  | test (opens : Opens) : s.writer = .test →
      AsyncStep s (.writer opens) { s with writer := if s.isasync then .flush else .last }
  | writerFlush (opens : Opens) : s.writer = .flush →
      AsyncStep s (.writer opens) { s.flush strftime kind opens with writer := .test }
  | last (opens : Opens) : s.writer = .last →
      AsyncStep s (.writer opens) { s.flush strftime kind opens with writer := .done }
  | destroy (opens : Opens) : s.clean = .calls →
      AsyncStep s (.clean opens) { s with clean := .check }
  | check (opens : Opens) : s.clean = .check → AsyncStep s (.clean opens)
      { s with clean := if s.queue.buffer = [] then .clearAsync else .flush }
  | cleanFlush (opens : Opens) : s.clean = .flush → AsyncStep s (.clean opens)
      { s.flush strftime kind opens with clean := .clearAsync }
  | clearAsync (opens : Opens) : s.clean = .clearAsync → AsyncStep s (.clean opens)
      { s with isasync := false, clean := .join }
  | join (opens : Opens) : s.clean = .join → s.writer = .done → AsyncStep s (.clean opens)
      { s with clean := .destroyLists }
  | destroyLists (opens : Opens) : s.clean = .destroyLists → AsyncStep s (.clean opens)
      { s with queue := s.queue.destroyLists, clean := .done }

namespace AsyncAppender

lemma step_cases (h : s.step strftime kind buffersz a = some s') :
    AsyncStep strftime kind buffersz s a s' := by
  cases a with
  | append item opens =>
      obtain ⟨hcalls, h⟩ := Option.ite_none_right_eq_some.mp h
      obtain rfl := Option.some.inj h
      exact .append item opens hcalls
  | flush opens =>
      obtain ⟨hcalls, h⟩ := Option.ite_none_right_eq_some.mp h
      obtain rfl := Option.some.inj h
      exact .flush opens hcalls
  | writer opens =>
      simp only [step, writerStep] at h
      split at h
      case h_1 hpc => exact Option.some.inj h ▸ .test opens hpc
      case h_2 hpc => exact Option.some.inj h ▸ .writerFlush opens hpc
      case h_3 hpc => exact Option.some.inj h ▸ .last opens hpc
      case h_4 => cases h
  | clean opens =>
      simp only [step, cleanStep] at h
      split at h
      case h_1 hpc => exact Option.some.inj h ▸ .destroy opens hpc
      case h_2 hpc => exact Option.some.inj h ▸ .check opens hpc
      case h_3 hpc => exact Option.some.inj h ▸ .cleanFlush opens hpc
      case h_4 hpc => exact Option.some.inj h ▸ .clearAsync opens hpc
      case h_5 hpc =>
          obtain ⟨hdone, h⟩ := Option.ite_none_right_eq_some.mp h
          exact Option.some.inj h ▸ .join opens hpc hdone
      case h_6 hpc => exact Option.some.inj h ▸ .destroyLists opens hpc
      case h_7 => cases h

end AsyncAppender

lemma AsyncStep.step_eq (h : AsyncStep strftime kind buffersz s a s') :
    s.step strftime kind buffersz a = some s' := by
  cases h with
  | append item opens hpc => exact if_pos hpc
  | flush opens hpc => exact if_pos hpc
  | test opens hpc | writerFlush opens hpc | last opens hpc =>
      simp only [AsyncAppender.step, AsyncAppender.writerStep, hpc]
  | join opens hpc hdone =>
      simp only [AsyncAppender.step, AsyncAppender.cleanStep, hpc, hdone, if_true]
  | destroy opens hpc | check opens hpc | cleanFlush opens hpc | clearAsync opens hpc
  | destroyLists opens hpc => simp only [AsyncAppender.step, AsyncAppender.cleanStep, hpc]

namespace AsyncAppender

/-- What holds in all runs. -/
structure AsyncInv (s : AsyncAppender) : Prop where
  /-- The writer thread leaves its loop when `Destroy` has told it to. -/
  leaves : s.writer = .last ∨ s.writer = .done → s.isasync = false
  /-- From then on nothing else uses the lists until they are destroyed. -/
  told : s.isasync = false → s.clean = .join ∨ s.clean = .destroyLists ∨ s.clean = .done
  stopped : s.clean = .join → s.isasync = false
  /-- They are destroyed after the writer thread has returned. -/
  joined : s.clean = .destroyLists ∨ s.clean = .done → s.writer = .done
  kept : s.clean ≠ .done → s.queue.Kept s.next

lemma asyncInv_start : (asyncStart output).AsyncInv where
  leaves := nofun
  told := nofun
  stopped := nofun
  joined := nofun
  kept _ := ⟨[], rfl, rfl⟩

lemma AsyncInv.step (hi : s.AsyncInv) (h : s.step strftime kind buffersz a = some s') :
    s'.AsyncInv := by
  obtain ⟨hleaves, htold, hstopped, hjoined, hkept⟩ := hi
  cases step_cases h with
  | append item opens hpc =>
      exact ⟨hleaves, htold, hstopped, hjoined, fun h => (hkept h).append buffersz item⟩
  | flush opens hpc => exact ⟨hleaves, htold, hstopped, hjoined, fun h => (hkept h).flush⟩
  | test opens hpc =>
      refine ⟨fun h => ?_, htold, hstopped, fun h => ?_, hkept⟩
      · cases hasync : s.isasync with
        | true => simp [hasync] at h
        | false => rfl
      · simp [hpc] at hjoined
        exact absurd h (not_or.mpr hjoined)
  | writerFlush opens hpc =>
      refine ⟨nofun, htold, hstopped, fun h => ?_, fun h => (hkept h).flush⟩
      simp [hpc] at hjoined
      exact absurd h (not_or.mpr hjoined)
  | last opens hpc =>
      exact ⟨fun _ => hleaves (.inl hpc), htold, hstopped, fun _ => rfl, fun h => (hkept h).flush⟩
  | destroy opens hpc =>
      refine ⟨hleaves, fun h => ?_, nofun, nofun, fun _ => hkept (by simp [hpc])⟩
      simpa [hpc] using htold h
  | check opens hpc =>
      refine ⟨hleaves, fun h => ?_, fun h => ?_, fun h => ?_, fun _ => hkept (by simp [hpc])⟩
      · simpa [hpc] using htold h
      · dsimp only at h
        split at h <;> simp at h
      · dsimp only at h
        split at h <;> simp at h
  | cleanFlush opens hpc =>
      refine ⟨hleaves, fun h => ?_, nofun, nofun, fun _ => (hkept (by simp [hpc])).flush⟩
      simpa [hpc] using htold h
  | clearAsync opens hpc =>
      exact ⟨fun _ => rfl, fun _ => .inl rfl, fun _ => rfl, nofun, fun _ => hkept (by simp [hpc])⟩
  | join opens hpc hdone =>
      exact ⟨hleaves, fun _ => .inr (.inl rfl), nofun, fun _ => hdone,
        fun _ => hkept (by simp [hpc])⟩
  | destroyLists opens hpc =>
      exact ⟨hleaves, fun _ => .inr (.inr rfl), nofun, fun _ => hjoined (.inl hpc),
        fun h => absurd rfl h⟩

/-- The writer thread returns after `Destroy` has told it to. -/
lemma AsyncInv.returned (hi : s.AsyncInv) (hdone : s.writer = .done) :
    s.clean = .join ∨ s.clean = .destroyLists ∨ s.clean = .done :=
  hi.told (hi.leaves (.inr hdone))

/-- What holds while the last `Flush` of the writer thread opens its file. -/
structure Emptied (s : AsyncAppender) : Prop where
  inv : s.AsyncInv
  empty : s.writer = .done → s.queue.queued = []
  kept : s.queue.Kept s.next

lemma emptied_start : (asyncStart output).Emptied where
  inv := asyncInv_start
  empty := nofun
  kept := asyncInv_start.kept nofun

lemma Emptied.step (he : s.Emptied) (hc : s.LastFlushOpens a)
    (h : s.step strftime kind buffersz a = some s') : s'.Emptied := by
  obtain ⟨hi, hempty, hkept⟩ := he
  suffices hnext : (s'.writer = .done → s'.queue.queued = []) ∧ s'.queue.Kept s'.next from
    ⟨hi.step h, hnext.1, hnext.2⟩
  cases step_cases h with
  | append item opens hpc =>
      refine ⟨fun hdone => ?_, hkept.append buffersz item⟩
      simpa [hpc] using hi.returned hdone
  | flush opens hpc =>
      refine ⟨fun hdone => ?_, hkept.flush⟩
      simpa [hpc] using hi.returned hdone
  | test opens hpc =>
      refine ⟨fun hdone => ?_, hkept⟩
      dsimp only at hdone
      split at hdone <;> simp at hdone
  | writerFlush opens hpc => exact ⟨nofun, hkept.flush⟩
  | last opens hpc => exact ⟨fun _ => queued_flush_eq_nil.mpr (hc opens rfl hpc), hkept.flush⟩
  | cleanFlush opens hpc =>
      refine ⟨fun hdone => ?_, hkept.flush⟩
      simpa [hpc] using hi.returned hdone
  | destroyLists opens hpc =>
      exact ⟨fun _ => rfl, hkept.destroyLists (hempty (hi.joined (.inl hpc)))⟩
  | destroy | check | clearAsync | join => exact ⟨hempty, hkept⟩

/-- Item number `id` waits when nothing empties the lists any more, or has been taken for a
string. -/
structure Lost (s : AsyncAppender) (id : ℕ) : Prop where
  numbered : id < s.next
  writer : s.writer = .done
  clean : s.clean = .join ∨ s.clean = .destroyLists ∨ s.clean = .done
  waits : s.clean ≠ .done → s.queue.Waits id
  taken : s.clean = .done → .asString id ∈ s.queue.released

lemma Lost.step {id : ℕ} (hl : s.Lost id) (h : s.step strftime kind buffersz a = some s') :
    s'.Lost id := by
  obtain ⟨hid, hwriter, hclean, hwaits, htaken⟩ := hl
  cases step_cases h with
  | append item opens hpc => simp [hpc] at hclean
  | flush opens hpc => simp [hpc] at hclean
  | test opens hpc => simp [hpc] at hwriter
  | writerFlush opens hpc => simp [hpc] at hwriter
  | last opens hpc => simp [hpc] at hwriter
  | destroy opens hpc => simp [hpc] at hclean
  | check opens hpc => simp [hpc] at hclean
  | cleanFlush opens hpc => simp [hpc] at hclean
  | clearAsync opens hpc => simp [hpc] at hclean
  | join opens hpc hdone =>
      exact ⟨hid, hwriter, .inr (.inl rfl), fun _ => hwaits (by simp [hpc]), nofun⟩
  | destroyLists opens hpc =>
      exact ⟨hid, hwriter, .inr (.inr rfl), fun hne => absurd rfl hne,
        fun _ => AsyncQueue.asString_mem_destroyLists (hwaits (by simp [hpc]))⟩

/-- When the last `Flush` cannot open its file, an item that waits is lost. -/
lemma AsyncInv.lost (hi : s.AsyncInv) (hc : ¬ s.LastFlushOpens a)
    (h : s.step strftime kind buffersz a = some s') : ∃ id, s'.Lost id := by
  simp only [LastFlushOpens, not_forall, not_or] at hc
  obtain ⟨opens, rfl, hlast, hqueued, hclosed⟩ := hc
  obtain rfl : { s.flush strftime kind opens with writer := .done } = s' := by
    simpa only [AsyncAppender.step, writerStep, hlast, Option.some.injEq] using h
  have hjoin : s.clean = .join := by
    have hjoined := hi.joined
    have htold := hi.told (hi.leaves (.inl hlast))
    simp only [hlast, reduceCtorEq, imp_false, not_or] at hjoined
    simpa only [hjoined, or_false] using htold
  obtain ⟨item, hitem⟩ := List.exists_mem_of_ne_nil _ hqueued
  have hwaits : s.queue.Waits item.id := List.mem_map_of_mem hitem
  have hsame := (flush_of_closed strftime kind s.queue (Bool.eq_false_of_not_eq_true hclosed)).1
  refine ⟨item.id, (hi.kept (by simp [hjoin])).lt_of_waits hwaits, rfl, .inl hjoin,
    fun _ => ?_, fun hdone => ?_⟩
  · rw [AsyncQueue.Waits] at hwaits ⊢
    exact hsame.symm ▸ hwaits
  · exact absurd (hjoin.symm.trans hdone) nofun

/-- Every item that was queued has been released once, by the destructor of its type. -/
def AllReleased (s : AsyncAppender) : Prop := ∀ id < s.next, s.queue.ReleasedOnce id

lemma Emptied.allReleased (he : s.Emptied) (hfin : s.Finished) : s.AllReleased := by
  intro id hid
  rcases he.kept.proper hid with ⟨hwaits, -⟩ | ⟨-, hreleased⟩
  · rw [AsyncQueue.Waits, he.empty (he.inv.joined (.inr hfin))] at hwaits
    exact absurd hwaits List.not_mem_nil
  · exact hreleased

end AsyncAppender

/-! ### Runs -/

lemma asyncSystem_emptied (h : (asyncSystem strftime kind buffersz output).ReachableBy
    AsyncAppender.LastFlushOpens s) : s.Emptied :=
  h.invariant (fun _ h => h ▸ AsyncAppender.emptied_start) fun _ _ _ he hc h => he.step hc h

lemma asyncSystem_inv (h : (asyncSystem strftime kind buffersz output).Reachable s) :
    s.AsyncInv :=
  h.invariant (fun _ h => h ▸ AsyncAppender.asyncInv_start) fun _ _ _ hi h => hi.step h

variable (strftime kind buffersz) in
/-- `Destroy` can finish from here. -/
def AsyncAppender.CanFinish (s : AsyncAppender) : Prop :=
  ∃ s', Relation.ReflTransGen (fun s s' => ∃ a, s.step strftime kind buffersz a = some s') s s' ∧
    s'.Finished

namespace AsyncAppender.CanFinish

lemma of_step (h : AsyncStep strftime kind buffersz s a s')
    (hs' : s'.CanFinish strftime kind buffersz) : s.CanFinish strftime kind buffersz := by
  obtain ⟨t, hreach, hfin⟩ := hs'
  exact ⟨t, .head ⟨a, h.step_eq⟩ hreach, hfin⟩

variable (opens : Opens)
include opens

lemma of_destroyLists (h : s.clean = .destroyLists) : s.CanFinish strftime kind buffersz :=
  of_step (.destroyLists opens h) ⟨_, .refl, by rfl⟩

lemma of_done (h : s.clean = .join) (hdone : s.writer = .done) :
    s.CanFinish strftime kind buffersz :=
  of_step (.join opens h hdone) (of_destroyLists opens rfl)

lemma of_last (h : s.clean = .join) (hlast : s.writer = .last) :
    s.CanFinish strftime kind buffersz :=
  of_step (.last opens hlast) (of_done opens h rfl)

lemma of_test (h : s.clean = .join) (hasync : s.isasync = false) (htest : s.writer = .test) :
    s.CanFinish strftime kind buffersz :=
  of_step (.test opens htest) (of_last opens h (by rw [hasync]; rfl))

/-- The writer thread returns when `isasync` is cleared. -/
lemma of_join (h : s.clean = .join) (hasync : s.isasync = false) :
    s.CanFinish strftime kind buffersz := by
  cases hwriter : s.writer with
  | test => exact of_test opens h hasync hwriter
  | flush => exact of_step (.writerFlush opens hwriter) (of_test opens h hasync rfl)
  | last => exact of_last opens h hwriter
  | done => exact of_done opens h hwriter

lemma of_clearAsync (h : s.clean = .clearAsync) : s.CanFinish strftime kind buffersz :=
  of_step (.clearAsync opens h) (of_join opens rfl rfl)

lemma of_flush (h : s.clean = .flush) : s.CanFinish strftime kind buffersz :=
  of_step (.cleanFlush opens h) (of_clearAsync opens rfl)

lemma of_check (h : s.clean = .check) : s.CanFinish strftime kind buffersz := by
  refine of_step (.check opens h) ?_
  by_cases hnil : s.queue.buffer = []
  · exact of_clearAsync opens (if_pos hnil)
  · exact of_flush opens (if_neg hnil)

end AsyncAppender.CanFinish

/-- `Destroy` can finish in every state that a run reaches, whatever the outcomes of `fopen`
from there on. -/
theorem destroy_canFinish (h : (asyncSystem strftime kind buffersz output).Reachable s)
    (opens : Opens) : s.CanFinish strftime kind buffersz := by
  have hi := asyncSystem_inv h
  cases hclean : s.clean with
  | calls => exact .of_step (.destroy opens hclean) (.of_check opens rfl)
  | check => exact .of_check opens hclean
  | flush => exact .of_flush opens hclean
  | clearAsync => exact .of_clearAsync opens hclean
  | join => exact .of_join opens hclean (hi.stopped hclean)
  | destroyLists => exact .of_destroyLists opens hclean
  | done => exact ⟨s, .refl, hclean⟩

/-- An item that is lost stays so to the end of a run. -/
lemma lost_run {id : ℕ} {actions : List AsyncAction} (hl : s.Lost id)
    (hrun : (asyncSystem strftime kind buffersz output).run s actions = some s') : s'.Lost id :=
  TransitionSystem.run_induction (R := fun _ s => s.Lost id) hrun hl fun _ _ _ _ hl h => hl.step h

/-- A run with a last `Flush` that cannot open its file loses an item. -/
lemma exists_lost {actions : List AsyncAction}
    (hrun : (asyncSystem strftime kind buffersz output).run (asyncStart output) actions = some s)
    (hc : ¬ (asyncSystem strftime kind buffersz output).Meets AsyncAppender.LastFlushOpens
      (asyncStart output) actions) : ∃ id, s.Lost id := by
  simp only [TransitionSystem.Meets, not_forall] at hc
  obtain ⟨pre, a, s₁, ⟨rest, rfl⟩, hpre, hc⟩ := hc
  rw [TransitionSystem.run_append, TransitionSystem.run_concat, hpre, Option.bind_some] at hrun
  obtain ⟨s₂, hstep, hrest⟩ := Option.bind_eq_some_iff.mp hrun
  have hi := asyncSystem_inv (TransitionSystem.Reachable.run (.start rfl) hpre)
  obtain ⟨id, hl⟩ := hi.lost hc hstep
  exact ⟨id, lost_run hl hrest⟩

/-- **The release of asynchronous items.** While the last `Flush` of the writer thread opens
its file or finds nothing to write, every item waits, or has been released once and by the
destructor of its type. At the end of a run every item has been released in this way exactly
when it was so. -/
theorem asyncItems_released_iff {actions : List AsyncAction}
    (hrun : (asyncSystem strftime kind buffersz output).run (asyncStart output) actions
      = some s) :
    ((asyncSystem strftime kind buffersz output).Meets AsyncAppender.LastFlushOpens
        (asyncStart output) actions →
      (asyncSystem strftime kind buffersz output).Throughout
        (fun s => ∀ id < s.next, s.queue.Proper id) (asyncStart output) actions) ∧
    (s.Finished → (s.AllReleased ↔
      (asyncSystem strftime kind buffersz output).Meets AsyncAppender.LastFlushOpens
        (asyncStart output) actions)) := by
  refine ⟨fun hc pre t hpre ht id hid => ?_, fun hfin => ⟨fun hall => ?_, fun hc => ?_⟩⟩
  · have he := asyncSystem_emptied ((hc.of_prefix hpre).reachableBy rfl ht)
    exact he.kept.proper hid
  · by_contra hc
    obtain ⟨id, hl⟩ := exists_lost hrun hc
    exact (hall id hl.numbered).asString (hl.taken hfin)
  · exact (asyncSystem_emptied (hc.reachableBy rfl hrun)).allReleased hfin

end Runs

/-- Items are logged, and the appender destroyed, with these outcomes of `fopen`. -/
def logAndDestroy (items : List LogItem) (opens : Opens) : List AsyncAction :=
  items.map (.append · opens) ++ List.replicate 4 (.clean opens) ++
    List.replicate 2 (.writer opens) ++ List.replicate 2 (.clean opens)

/-- The file of a rolling appender is opened once and not again: the second line is not
written, and both items are released. -/
theorem asyncItems_released_iff_dropped :
    let strftime : Strftime := fun rollpath _ => rollpath
    let tm := fun min : ℤ => (⟨0, min, 0, 1, 0, 124, 0, 0, 0⟩ : Tm)
    let kind : FileAppender := .rolling ⟨.ofBytes [0x61], .ofBytes [0x62], 1, 5⟩
    let output : LogOutput := ⟨[], .empty, tm 0, []⟩
    let actions := logAndDestroy [⟨.ofBytes [0x31], tm 0⟩, ⟨.ofBytes [0x32], tm 1⟩] (· = 0)
    ∃ s, (asyncSystem strftime kind 10 output).run (asyncStart output) actions = some s ∧
      s.Finished ∧ (s.AllReleased ↔ (asyncSystem strftime kind 10 output).Meets
        AsyncAppender.LastFlushOpens (asyncStart output) actions) :=
  ⟨_, rfl, rfl, (asyncItems_released_iff rfl).2 rfl⟩

/-- A line is logged, and the file can never be opened. -/
theorem asyncItems_released_fails :
    let strftime : Strftime := fun rollpath _ => rollpath
    let tm : Tm := ⟨0, 0, 0, 1, 0, 124, 0, 0, 0⟩
    let kind : FileAppender := .file (.ofBytes [0x61])
    let output : LogOutput := ⟨[], .empty, tm, []⟩
    ¬ ∀ actions s, (asyncSystem strftime kind 10 output).run (asyncStart output) actions = some s →
      s.Finished → s.AllReleased := by
  intro strftime tm kind output h
  have hrun : (asyncSystem strftime kind 10 output).run (asyncStart output)
      (logAndDestroy [⟨.ofBytes [0x31], tm⟩] fun _ => false) = some
        { isasync := false, next := 1, writer := .done, clean := .done,
          queue := { buffer := [], flushBuffer := [], output, released := [.asString 0] } } := rfl
  exact (h _ _ hrun rfl 0 Nat.one_pos).asString List.mem_cons_self

end LibCmutils
