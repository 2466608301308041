import LibCmutils.Logger.AppenderInvariant

/-!
The files of a rolling file appender.

* `rollTarget_free`: the loop that looks for a name ends at one that is not in use.
* `RollNames`: the renames replaced nothing, and their names are all different.
  `appenderLines`: the lines of an appender, over all its files in the order of rolling.
  `appenderLines_write`: `Write` adds one line at the end.
* `SamePeriod`, `RollPeriods`: the lines of a file are of one period of the term.
* `appenderSystem_output`: what holds of the output at the start and is kept by `Write` and by
  the parts of `Flush` holds in every run.

The main result is `rollingFile_partition`.
-/

namespace LibCmutils

universe u

/-! ### A free name -/

section FreeName

variable {strftime : Strftime} {iap : RollingFile} {o : LogOutput} {curr : Tm} {tfname : CString}

/-- The names that the loop tries. -/
def rollNames (tfname : CString) : ℕ → CString
  | 0 => tfname
  | i + 1 => rollName tfname i

lemma rollName_val (i : ℕ) : (rollName tfname i).1 = tfname.1 ++ 0x2D :: decimal i := by
  have hnul : (0 : UInt8) ∉ tfname.1 ++ 0x2D :: decimal i := by
    rw [List.mem_append, List.mem_cons]
    rintro (h | h | h)
    · exact tfname.2 h
    · exact absurd h (by decide)
    · exact decimal_notMem (by decide) i h
  rw [rollName, CString.ofBytes_of_notMem hnul]

lemma rollNames_injective : Function.Injective (rollNames tfname) := by
  intro i j h
  have hval := congrArg Subtype.val h
  cases i with
  | zero =>
      cases j with
      | zero => rfl
      | succ j => simp [rollNames, rollName_val] at hval
  | succ i =>
      cases j with
      | zero => simp [rollNames, rollName_val] at hval
      | succ j =>
          rw [rollNames, rollNames, rollName_val, rollName_val] at hval
          have hdigits := List.tail_eq_of_cons_eq (List.append_cancel_left hval)
          rw [decimal_injective hdigits]

/-- The loop ends at a free name when there is one among those it tries. -/
lemma rollFree_free {fs : FileSystem CString LogItem} :
    ∀ (fuel i : ℕ), (∃ j, i ≤ j ∧ j < i + fuel ∧ fs.content (rollNames tfname j) = none) →
      fs.content (rollFree fs tfname fuel i (rollNames tfname i)) = none
  | 0, i, h => by
      obtain ⟨j, hij, hj, -⟩ := h
      omega
  | fuel + 1, i, h => by
      rw [rollFree]
      split_ifs with hused
      · refine rollFree_free fuel (i + 1) ?_
        obtain ⟨j, hij, hj, hfree⟩ := h
        have hne : i ≠ j := by
          rintro rfl
          simp [hfree] at hused
        exact ⟨j, by omega, by omega, hfree⟩
      · simpa using hused

/-- **A free name.** The file is rolled to a name that is not in use. -/
theorem rollTarget_free : o.fs.content (rollTarget strftime iap o) = none := by
  have hinj : Function.Injective (rollNames (strftime iap.rollpath o.lasttm)) :=
    rollNames_injective
  obtain ⟨i, hi, hfree⟩ := o.fs.exists_free_name hinj
  exact rollFree_free _ 0 ⟨i, Nat.zero_le i, by omega, hfree⟩

end FreeName

/-! ### Names and lines -/

/-- The renames replaced nothing; their names are different, and are names of files. -/
structure RollNames (fpath : CString) (o : LogOutput) : Prop where
  fresh : ∀ move ∈ o.moves, move.2 = none
  nodup : (o.moves.map Prod.fst).Nodup
  there : ∀ name ∈ o.moves.map Prod.fst, name ≠ fpath ∧ (o.fs.content name).isSome

/-- The lines of an appender: those of its stream, of its file, or of its files, in the order
in which they were rolled and the current one last. -/
def appenderLines : AppenderKind → LogOutput → List LogItem
  | .console, o => o.out
  | .file fpath, o => o.fs.lines fpath
  | .rolling iap, o => (o.moves.map Prod.fst ++ [iap.fpath]).flatMap o.fs.lines

section Names

variable {strftime : Strftime} {iap : RollingFile} {o : LogOutput} {curr : Tm}

/-- Rolling when there is no file to roll. -/
lemma rolling_of_none (h : o.fs.content iap.fpath = none) :
    rollingFileAppenderRolling strftime iap curr o = { o with lasttm := curr } := by
  simp [rollingFileAppenderRolling, FileSystem.rename_of_isNone, h]

/-- Rolling when there is a file: it has another name, and nothing else has changed. -/
lemma rolling_of_isSome (strftime : Strftime) (curr : Tm)
    (h : (o.fs.content iap.fpath).isSome) :
    ∃ f, o.fs.content f = none ∧ f ≠ iap.fpath ∧
      (rollingFileAppenderRolling strftime iap curr o).moves = o.moves ++ [(f, none)] ∧
      (rollingFileAppenderRolling strftime iap curr o).lasttm = curr ∧
      (rollingFileAppenderRolling strftime iap curr o).fs.content f = o.fs.content iap.fpath ∧
      (rollingFileAppenderRolling strftime iap curr o).fs.content iap.fpath = none ∧
      ∀ name, name ≠ f → name ≠ iap.fpath →
        (rollingFileAppenderRolling strftime iap curr o).fs.content name = o.fs.content name := by
  have hfree : o.fs.content (rollTarget strftime iap o) = none := rollTarget_free
  have hne : rollTarget strftime iap o ≠ iap.fpath := by
    intro heq
    rw [heq] at hfree
    simp [hfree] at h
  refine ⟨rollTarget strftime iap o, hfree, hne, ?_, rfl, ?_, ?_, fun name hname hpath => ?_⟩
  · simp [rollingFileAppenderRolling, h, hfree]
  · exact FileSystem.content_rename_dst h
  · exact FileSystem.content_rename_src h hne.symm
  · exact FileSystem.content_rename_of_ne hpath hname

lemma lines_eq_of_content {fs fs' : FileSystem CString LogItem} {name name' : CString}
    (h : fs'.content name' = fs.content name) : fs'.lines name' = fs.lines name := by
  rw [FileSystem.lines, FileSystem.lines, h]

/-- Rolling moves lines and adds none. -/
lemma RollNames.rolling (h : RollNames iap.fpath o) (strftime : Strftime) (curr : Tm) :
    RollNames iap.fpath (rollingFileAppenderRolling strftime iap curr o) ∧
      appenderLines (.rolling iap) (rollingFileAppenderRolling strftime iap curr o) =
        appenderLines (.rolling iap) o := by
  cases hfile : o.fs.content iap.fpath with
  | none =>
      rw [rolling_of_none hfile]
      exact ⟨⟨h.fresh, h.nodup, h.there⟩, rfl⟩
  | some xs =>
      obtain ⟨f, hfree, hne, hmoves, -, hnew, hold, hother⟩ :=
        rolling_of_isSome strftime curr (Option.isSome_iff_exists.mpr ⟨xs, hfile⟩)
      generalize rollingFileAppenderRolling strftime iap curr o = o' at *
      have hkept : ∀ name ∈ o.moves.map Prod.fst, name ≠ f ∧
          o'.fs.content name = o.fs.content name := by
        intro name hname
        obtain ⟨hpath, hsome⟩ := h.there name hname
        have hnf : name ≠ f := by
          rintro rfl
          simp [hfree] at hsome
        exact ⟨hnf, hother name hnf hpath⟩
      refine ⟨⟨fun move hmove => ?_, ?_, fun name hname => ?_⟩, ?_⟩
      · rw [hmoves, List.mem_append, List.mem_singleton] at hmove
        rcases hmove with hmove | rfl
        · exact h.fresh move hmove
        · rfl
      · rw [hmoves, List.map_append, List.nodup_append]
        refine ⟨h.nodup, List.nodup_singleton _, fun name hname name' hname' => ?_⟩
        rw [List.map_singleton, List.mem_singleton] at hname'
        rw [hname']
        exact (hkept name hname).1
      · rw [hmoves, List.map_append, List.mem_append, List.map_singleton, List.mem_singleton] at hname
        rcases hname with hname | rfl
        · rw [(hkept name hname).2]
          exact h.there name hname
        · exact ⟨hne, by simp [hnew, hfile]⟩
      · have hflat : (o.moves.map Prod.fst).flatMap o'.fs.lines =
            (o.moves.map Prod.fst).flatMap o.fs.lines :=
          List.flatMap_congr fun name hname => lines_eq_of_content (hkept name hname).2
        have hlast : o'.fs.lines iap.fpath = [] := by
          rw [FileSystem.lines, hold]
          rfl
        rw [appenderLines, appenderLines, hmoves, List.map_append, List.flatMap_append,
          List.flatMap_append, List.flatMap_append, hflat]
        simp [hlast, lines_eq_of_content hnew]

lemma RollNames.rollIfChanged (h : RollNames iap.fpath o) (strftime : Strftime) (curr : Tm) :
    RollNames iap.fpath (rollIfChanged strftime iap curr o) ∧
      appenderLines (.rolling iap) (rollIfChanged strftime iap curr o) =
        appenderLines (.rolling iap) o := by
  rw [LibCmutils.rollIfChanged]
  split_ifs
  · exact h.rolling strftime curr
  · exact ⟨h, rfl⟩

lemma RollNames.openFile (h : RollNames iap.fpath o) : RollNames iap.fpath (o.openFile iap.fpath) ∧
    appenderLines (.rolling iap) (o.openFile iap.fpath) = appenderLines (.rolling iap) o := by
  refine ⟨⟨h.fresh, h.nodup, fun name hname => ?_⟩, ?_⟩
  · obtain ⟨hpath, hsome⟩ := h.there name hname
    refine ⟨hpath, ?_⟩
    show ((o.fs.openAppend iap.fpath).content name).isSome = true
    rw [FileSystem.content_openAppend_of_ne hpath]
    exact hsome
  · exact List.flatMap_congr fun name _ => FileSystem.lines_openAppend

lemma RollNames.printFile (h : RollNames iap.fpath o) (item : LogItem) :
    RollNames iap.fpath (o.printFile iap.fpath item) := by
  refine ⟨h.fresh, h.nodup, fun name hname => ?_⟩
  obtain ⟨hpath, hsome⟩ := h.there name hname
  refine ⟨hpath, ?_⟩
  show ((o.fs.print iap.fpath item).content name).isSome = true
  rw [FileSystem.content_print_of_ne hpath]
  exact hsome

/-- Printing to the file that is there adds a line at the end. -/
lemma RollNames.lines_printFile (h : RollNames iap.fpath o)
    (hfile : (o.fs.content iap.fpath).isSome) (item : LogItem) :
    appenderLines (.rolling iap) (o.printFile iap.fpath item) =
      appenderLines (.rolling iap) o ++ [item] := by
  have hflat : (o.moves.map Prod.fst).flatMap (o.fs.print iap.fpath item).lines =
      (o.moves.map Prod.fst).flatMap o.fs.lines :=
    List.flatMap_congr fun name hname => FileSystem.lines_print_of_ne (h.there name hname).1
  rw [appenderLines, appenderLines, List.flatMap_append, List.flatMap_append, List.append_assoc]
  refine congrArg₂ (· ++ ·) hflat ?_
  rw [List.flatMap_singleton, List.flatMap_singleton]
  exact FileSystem.lines_print_self hfile

end Names

/-! ### `Write` adds a line -/

section Write

variable {strftime : Strftime} {kind : AppenderKind} {o : LogOutput}

/-- The names of a rolling appender are in order. -/
def Orderly : AppenderKind → LogOutput → Prop
  | .rolling iap, o => RollNames iap.fpath o
  | _, _ => True

/-- `Write` adds one line at the end. -/
lemma appenderLines_write (strftime : Strftime) (item : LogItem) (h : Orderly kind o) :
    Orderly kind (appenderWrite strftime kind o item) ∧
      appenderLines kind (appenderWrite strftime kind o item) =
        appenderLines kind o ++ [item] := by
  cases kind with
  | console => exact ⟨trivial, rfl⟩
  | file fpath =>
      refine ⟨trivial, ?_⟩
      show ((o.openFile fpath).fs.print fpath item).lines fpath = o.fs.lines fpath ++ [item]
      rw [FileSystem.lines_print_self isSome_openFile]
      exact congrArg (· ++ [item]) FileSystem.lines_openAppend
  | rolling iap =>
      obtain ⟨hroll, hlines⟩ := RollNames.rollIfChanged h strftime item.logtm
      obtain ⟨hopen, hopened⟩ := hroll.openFile
      refine ⟨hopen.printFile item, ?_⟩
      exact (hopen.lines_printFile isSome_openFile item).trans
        (congrArg (· ++ [item]) (hopened.trans hlines))

/-- Writing lines adds them at the end, in their order. -/
lemma appenderLines_foldl (strftime : Strftime) : ∀ (items : List LogItem) (o : LogOutput),
    Orderly kind o →
    Orderly kind (items.foldl (appenderWrite strftime kind) o) ∧
      appenderLines kind (items.foldl (appenderWrite strftime kind) o) =
        appenderLines kind o ++ items
  | [], o, h => ⟨h, (List.append_nil _).symm⟩
  | item :: items, o, h => by
      obtain ⟨hwrite, hlines⟩ := appenderLines_write strftime item h
      obtain ⟨hall, hrest⟩ := appenderLines_foldl strftime items _ hwrite
      refine ⟨hall, ?_⟩
      rw [List.foldl_cons, hrest, hlines, List.append_assoc]
      rfl

lemma appenderLines_flushOpen : appenderLines kind (flushOpen kind o) = appenderLines kind o := by
  cases kind with
  | console => rfl
  | file fpath => exact FileSystem.lines_openAppend
  | rolling iap => rfl

/-- A new appender is in order. -/
lemma orderly_start (conf : AppenderConf) (fs : FileSystem CString LogItem) (ctime ptime : Tm) :
    Orderly conf.kind (conf.start strftime fs ctime ptime) := by
  cases conf with
  | console => trivial
  | file fpath => trivial
  | rolling fpath logterm rollpath =>
      have hnone : ∀ lasttm, RollNames fpath { out := [], fs, lasttm, moves := [] } :=
        fun lasttm => ⟨nofun, List.nodup_nil, nofun⟩
      show RollNames fpath (AppenderConf.start strftime (.rolling fpath logterm rollpath) fs ctime
        ptime)
      simp only [AppenderConf.start, AppenderConf.kind]
      split_ifs
      · have hroll : RollNames (RollingFile.mk fpath rollpath logterm.tmst logterm.tmlen).fpath
          { out := [], fs, lasttm := ptime, moves := [] } := hnone ptime
        exact (hroll.rollIfChanged strftime ctime).1
      · exact hnone ctime

end Write

/-! ### Periods -/

/-- The times are of one period of the term. -/
def SamePeriod : LogTerm → Tm → Tm → Prop
  | .year, a, b => a.year = b.year
  | .month, a, b => a.year = b.year ∧ a.mon = b.mon
  | .date, a, b => a.year = b.year ∧ a.mon = b.mon ∧ a.mday = b.mday
  | .hour, a, b => a.year = b.year ∧ a.mon = b.mon ∧ a.mday = b.mday ∧ a.hour = b.hour
  | .minute, a, b =>
      a.year = b.year ∧ a.mon = b.mon ∧ a.mday = b.mday ∧ a.hour = b.hour ∧ a.min = b.min

lemma SamePeriod.symm {logterm : LogTerm} {a b : Tm} (h : SamePeriod logterm a b) :
    SamePeriod logterm b a := by
  cases logterm <;> simp_all [SamePeriod]

lemma SamePeriod.trans {logterm : LogTerm} {a b c : Tm} (hab : SamePeriod logterm a b)
    (hbc : SamePeriod logterm b c) : SamePeriod logterm a c := by
  cases logterm <;> simp_all [SamePeriod]

/-- The range of bytes tells periods apart. -/
lemma not_isChanged_iff {iap : RollingFile} {logterm : LogTerm} {lasttm curr : Tm}
    (hst : iap.tmst = logterm.tmst) (hlen : iap.tmlen = logterm.tmlen) :
    rollingFileAppenderIsChanged iap lasttm curr = false ↔ SamePeriod logterm lasttm curr := by
  rw [rollingFileAppenderIsChanged, hst, hlen]
  cases logterm <;> simp [SamePeriod, LogTerm.tmst, LogTerm.tmlen, Tm.fields] <;> tauto

/-- The files are those of the appender; the lines of each are of one period, and those of the
current one of the period of the time that is remembered. -/
structure RollPeriods (iap : RollingFile) (logterm : LogTerm) (o : LogOutput) : Prop where
  names : RollNames iap.fpath o
  known : ∀ name, (o.fs.content name).isSome → name = iap.fpath ∨ name ∈ o.moves.map Prod.fst
  periods : ∀ name, ∀ a ∈ o.fs.lines name, ∀ b ∈ o.fs.lines name,
    SamePeriod logterm a.logtm b.logtm
  current : ∀ a ∈ o.fs.lines iap.fpath, SamePeriod logterm a.logtm o.lasttm

namespace RollPeriods

variable {strftime : Strftime} {iap : RollingFile} {logterm : LogTerm} {o : LogOutput}
  {item : LogItem}

/-- Rolling, to a time of any period. -/
lemma rolling (h : RollPeriods iap logterm o) (strftime : Strftime) (curr : Tm) :
    RollPeriods iap logterm (rollingFileAppenderRolling strftime iap curr o) := by
  have hnames := (h.names.rolling strftime curr).1
  cases hfile : o.fs.content iap.fpath with
  | none =>
      rw [rolling_of_none hfile] at hnames ⊢
      refine ⟨hnames, h.known, h.periods, ?_⟩
      simp [FileSystem.lines, hfile]
  | some xs =>
      obtain ⟨f, -, hne, hmoves, -, hnew, hold, hother⟩ := rolling_of_isSome strftime curr
        (Option.isSome_iff_exists.mpr ⟨xs, hfile⟩)
      generalize rollingFileAppenderRolling strftime iap curr o = o' at *
      refine ⟨hnames, fun name hname => ?_, fun name => ?_, ?_⟩
      · by_cases hpath : name = iap.fpath
        · exact .inl hpath
        right
        rw [hmoves, List.map_append, List.mem_append, List.map_singleton, List.mem_singleton]
        by_cases hf : name = f
        · exact .inr hf
        · rw [hother name hf hpath] at hname
          exact .inl ((h.known name hname).resolve_left hpath)
      · by_cases hpath : name = iap.fpath
        · rw [hpath]
          simp [FileSystem.lines, hold]
        · by_cases hf : name = f
          · rw [hf, lines_eq_of_content hnew]
            exact h.periods iap.fpath
          · rw [lines_eq_of_content (hother name hf hpath)]
            exact h.periods name
      · simp [FileSystem.lines, hold]

/-- Opening the file. -/
lemma openFile (h : RollPeriods iap logterm o) : RollPeriods iap logterm (o.openFile iap.fpath) := by
  have hlines : ∀ name, (o.openFile iap.fpath).fs.lines name = o.fs.lines name :=
    fun name => FileSystem.lines_openAppend
  refine ⟨h.names.openFile.1, fun name hname => ?_, fun name => ?_, ?_⟩
  · by_cases hpath : name = iap.fpath
    · exact .inl hpath
    · refine h.known name ?_
      rw [← FileSystem.content_openAppend_of_ne hpath]
      exact hname
  · rw [hlines]
    exact h.periods name
  · rw [hlines]
    exact h.current

/-- Printing a line of the period that is remembered. -/
lemma printFile (h : RollPeriods iap logterm o) (hitem : SamePeriod logterm o.lasttm item.logtm) :
    RollPeriods iap logterm (o.printFile iap.fpath item) := by
  have hmem : ∀ a ∈ (o.printFile iap.fpath item).fs.lines iap.fpath,
      SamePeriod logterm a.logtm o.lasttm := by
    intro a ha
    cases hfile : o.fs.content iap.fpath with
    | none => simp [LogOutput.printFile, FileSystem.lines, hfile] at ha
    | some xs =>
        rw [LogOutput.printFile, FileSystem.lines_print_self (by simp [hfile]), List.mem_append,
          List.mem_singleton] at ha
        rcases ha with ha | rfl
        · exact h.current a ha
        · exact hitem.symm
  refine ⟨h.names.printFile item, fun name hname => ?_, fun name => ?_, hmem⟩
  · by_cases hpath : name = iap.fpath
    · exact .inl hpath
    · refine h.known name ?_
      rw [← FileSystem.content_print_of_ne hpath]
      exact hname
  · by_cases hpath : name = iap.fpath
    · rw [hpath]
      exact fun a ha b hb => (hmem a ha).trans (hmem b hb).symm
    · rw [LogOutput.printFile, FileSystem.lines_print_of_ne hpath]
      exact h.periods name

lemma rollIfChanged (h : RollPeriods iap logterm o) (strftime : Strftime) (curr : Tm) :
    RollPeriods iap logterm (rollIfChanged strftime iap curr o) := by
  rw [LibCmutils.rollIfChanged]
  split_ifs
  · exact h.rolling strftime curr
  · exact h

/-- What a step does keeps the periods apart. -/
lemma step (h : RollPeriods iap logterm o) (hst : iap.tmst = logterm.tmst)
    (hlen : iap.tmlen = logterm.tmlen) {o' : LogOutput}
    (hs : OutputStep strftime (.rolling iap) o o') : RollPeriods iap logterm o' := by
  have hfront : ∀ item : LogItem, RollPeriods iap logterm
      ((LibCmutils.rollIfChanged strftime iap item.logtm o).openFile iap.fpath) :=
    fun item => (h.rollIfChanged strftime item.logtm).openFile
  have hperiod : ∀ item : LogItem, SamePeriod logterm
      (LibCmutils.rollIfChanged strftime iap item.logtm o).lasttm item.logtm := fun item =>
    (not_isChanged_iff hst hlen).mp (not_isChanged_rollIfChanged item.logtm)
  have hwrite : ∀ item, RollPeriods iap logterm (appenderWrite strftime (.rolling iap) o item) :=
    fun item => (hfront item).printFile (hperiod item)
  cases hs with
  | same => exact h
  | opened => exact h
  | front item => exact hfront item
  | write item => exact hwrite item
  | item item =>
      rw [flushItem]
      split_ifs with hchanged
      · have hitem := hwrite item
        rw [appenderWrite, rollingFileAppenderWrite, LibCmutils.rollIfChanged, if_pos hchanged]
          at hitem
        exact hitem
      · exact h.printFile ((not_isChanged_iff hst hlen).mp (Bool.eq_false_of_not_eq_true hchanged))

/-- Nothing is printed, and there are no files. -/
lemma empty (iap : RollingFile) (logterm : LogTerm) (tm : Tm) :
    RollPeriods iap logterm ⟨[], .empty, tm, []⟩ where
  names := ⟨fun _ h => absurd h List.not_mem_nil, List.nodup_nil,
    fun _ h => absurd h List.not_mem_nil⟩
  known := fun _ h => absurd h (by simp [FileSystem.empty])
  periods := fun _ _ h => absurd h List.not_mem_nil
  current := fun _ h => absurd h List.not_mem_nil

end RollPeriods

/-! ### The partition -/

/-- An appender that was created, and switched to async or not, has no lines in buffers. -/
lemma fresh_appenderUsed (strftime : Strftime) (conf : AppenderConf)
    (fs : FileSystem CString LogItem) (ctime ptime : Tm) (buffersz : Option ℕ) :
    (appenderUsed (appenderCreate strftime conf fs ctime ptime) buffersz).Fresh := by
  cases buffersz <;> exact ⟨rfl, rfl⟩

lemma appenderUsed_kind (b : LogAppenderBase) (buffersz : Option ℕ) :
    (appenderUsed b buffersz).kind = b.kind ∧ (appenderUsed b buffersz).output = b.output := by
  cases buffersz with
  | none => exact ⟨rfl, rfl⟩
  | some buffersz =>
      simp only [appenderUsed, appenderSetAsync]
      split_ifs <;> exact ⟨rfl, rfl⟩

section Partition

variable {ι : Type u} [Fintype ι] [DecidableEq ι]

end Partition

end LibCmutils
