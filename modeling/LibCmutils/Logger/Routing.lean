import LibCmutils.Logger.Basic
import Mathlib.Data.List.Sort

/-!
Which appenders a message reaches.

* `NameCovers`: the empty name, the name itself, a dotted prefix of it. `routeOrder`: the
  configured loggers that cover a name, from longest to shortest. `routeLevel`,
  `routeReached`: the effective level, and the loggers that hand the message on. These
  are read off the calls of a program, not off the log system.
* `loggerScan_spec`: the loop of `GetLogger` over the configured loggers.
* `LogInv`: what the calls so far say about the log system. `logStep_inv` is one call.
* `logger_routes`: a message goes where the configuration says. `logger_setup_order`: the
  order of the calls does not matter as long as the configured loggers of a name are
  there before its logger is got; `logger_setup_order_fails` when they are not.
-/

namespace LibCmutils

/-! ### What a configuration says -/

/-- The configured logger `c` is asked about messages of the logger `n`. -/
def NameCovers (c n : CString) : Prop := c.1 = [] ∨ c = n ∨ c.1 ++ [0x2E] <+: n.1

instance (c n : CString) : Decidable (NameCovers c n) :=
  inferInstanceAs (Decidable (_ ∨ _ ∨ _))

/-- The configured loggers of the calls, in order. -/
def logConfs (acts : List LogAct) : List LoggerConf :=
  acts.filterMap fun
    | .createLogger name level additivity =>
        some { name := name.getD .empty, level := level, additivity := additivity }
    | _ => none

/-- The calls that attach an appender to the configured logger `c`, with the thresholds. -/
def logAttachments (acts : List LogAct) (c : CString) : List (LogAppender × LogLevel) :=
  acts.filterMap fun
    | .addAppender clogger appender level => if clogger = c then some (appender, level) else none
    | _ => none

/-- The appenders attached to `c` with a threshold up to `level`, in the order of the
calls. -/
def logAttached (acts : List LogAct) (c : CString) (level : LogLevel) : List LogAppender :=
  ((logAttachments acts c).filter fun a => a.2 ≤ level).map Prod.fst

/-- The order of the loggers that a message visits: the longer name first. -/
def LongerName (a b : LoggerConf) : Prop := b.name.1.length ≤ a.name.1.length

instance : DecidableRel LongerName := fun _ _ => inferInstanceAs (Decidable (_ ≤ _))

/-- The configured loggers that cover `name`, from longest to shortest. -/
def routeOrder (acts : List LogAct) (name : CString) : List LoggerConf :=
  ((logConfs acts).filter fun c => NameCovers c.name name).insertionSort LongerName

/-- The level of the longest one, and `CMLogLevel_Fatal` when there is none. -/
def routeLevel (acts : List LogAct) (name : CString) : LogLevel :=
  ((routeOrder acts name).head?.map LoggerConf.level).getD .fatal

/-- Those that hand the message on: it stops after the first one with additivity off. -/
def routeWalk (level : LogLevel) : List LoggerConf → List LoggerConf
  | [] => []
  | c :: cs =>
      (if c.level ≤ level then [c] else []) ++ if c.additivity then routeWalk level cs else []

/-- The configured loggers that hand a message of the logger `name` to their appenders. -/
def routeReached (acts : List LogAct) (name : CString) (level : LogLevel) : List LoggerConf :=
  if level < routeLevel acts name then [] else routeWalk level (routeOrder acts name)

/-! ### Names -/

lemma strncmpBytes_eq_zero : ∀ (a b : List UInt8), (0 : UInt8) ∉ b →
    (strncmpBytes b.length a b = 0 ↔ b <+: a)
  | _, [], _ => by simp [strncmpBytes]
  | [], b :: bs, hb => by
      have hne : b.toNat ≠ 0 := (toNat_pos_of_ne_zero (b := b) (by rintro rfl; simp at hb)).ne'
      simp [strncmpBytes, hne]
  | a :: as, b :: bs, hb => by
      have ih := strncmpBytes_eq_zero as bs (fun h => hb (by simp [h]))
      by_cases hab : a = b
      · subst hab
        simp [strncmpBytes, ih]
      · have hne : (a.toNat : ℤ) - b.toNat ≠ 0 := fun h =>
          hab (UInt8.toNat_inj.mp (by omega))
        simp [strncmpBytes, hab, hne, Ne.symm hab]

/-- The test of the source. -/
lemma loggerCovers_iff {c n : CString} : loggerCovers c n = true ↔ NameCovers c n := by
  simp only [loggerCovers, NameCovers, Bool.or_eq_true, Bool.and_eq_true, beq_iff_eq,
    List.length_eq_zero_iff, strncmpBytes_eq_zero n.1 c.1 c.2]
  refine or_congr_right ⟨?_, ?_⟩
  · rintro ⟨⟨rest, hrest⟩, hnext⟩
    rw [← hrest, List.getElem?_append_right le_rfl, Nat.sub_self] at hnext
    cases rest with
    | nil => exact .inl (Subtype.ext (by simpa using hrest))
    | cons b rest =>
        obtain rfl : b = 0x2E := by simpa using hnext
        exact .inr ⟨rest, by simpa using hrest⟩
  · rintro (rfl | ⟨rest, hrest⟩)
    · exact ⟨List.prefix_rfl, .inl (List.getElem?_eq_none le_rfl)⟩
    · rw [List.append_assoc] at hrest
      refine ⟨⟨_, hrest⟩, .inr ?_⟩
      rw [← hrest, List.getElem?_append_right le_rfl]
      simp

lemma NameCovers.isPrefix {c n : CString} (h : NameCovers c n) : c.1 <+: n.1 := by
  rcases h with h | rfl | h
  · rw [h]
    exact List.nil_prefix
  · exact List.prefix_rfl
  · exact (List.prefix_append _ _).trans h

/-- Names of one length that cover a name are equal. -/
lemma NameCovers.eq_of_length {c c' n : CString} (h : NameCovers c n) (h' : NameCovers c' n)
    (hlen : c.1.length = c'.1.length) : c = c' :=
  Subtype.ext ((List.prefix_of_prefix_length_le h.isPrefix h'.isPrefix hlen.le).eq_of_length hlen)

/-! ### The order of a route -/

section Route

variable {acts acts' : List LogAct} {name : CString} {c : LoggerConf} {cs : List LoggerConf}

lemma mem_routeOrder : c ∈ routeOrder acts name ↔ c ∈ logConfs acts ∧ NameCovers c.name name := by
  simp [routeOrder]

/-- The names of the configured loggers are pairwise distinct. -/
def DistinctNames (acts : List LogAct) : Prop := ((logConfs acts).map LoggerConf.name).Nodup

instance (acts : List LogAct) : Decidable (DistinctNames acts) :=
  inferInstanceAs (Decidable (List.Nodup _))

/-- Two covering loggers with names of one length are the same. -/
lemma DistinctNames.eq_of_length (h : DistinctNames acts) {a b : LoggerConf}
    (ha : a ∈ routeOrder acts name) (hb : b ∈ routeOrder acts name)
    (hlen : a.name.1.length = b.name.1.length) : a = b := by
  obtain ⟨ha, hac⟩ := mem_routeOrder.mp ha
  obtain ⟨hb, hbc⟩ := mem_routeOrder.mp hb
  exact List.inj_on_of_nodup_map h ha hb (hac.eq_of_length hbc hlen)

/-- A list of the covering loggers, the longer name first, is the route. -/
lemma DistinctNames.eq_routeOrder (h : DistinctNames acts) (hs : cs.Pairwise LongerName)
    (hp : cs.Perm ((logConfs acts).filter fun c => NameCovers c.name name)) :
    cs = routeOrder acts name := by
  have hperm : cs.Perm (routeOrder acts name) := hp.trans (List.perm_insertionSort _ _).symm
  have : Std.Total LongerName := ⟨fun a b => le_total _ _⟩
  have : IsTrans LoggerConf LongerName := ⟨fun a b c hab hbc => le_trans hbc hab⟩
  refine hperm.eq_of_pairwise (fun a b ha hb hab hba => ?_) hs (List.pairwise_insertionSort _ _)
  exact h.eq_of_length (hperm.mem_iff.mp ha) hb (le_antisymm hba hab)

end Route

/-! ### The scan of the configured loggers -/

section Scan

variable {s : LogSystem} {name : CString} {done : List ℕ} {scan : LoggerScan} {cl p q : ℕ}

lemma isComparator_confLogger (s : LogSystem) : IsComparator (confLoggerComparator s) :=
  isComparator_strcmp.comap fun p => (s.conf p).name

lemma isComparator_logger : IsComparator loggerComparator :=
  isComparator_strcmp.comap Logger.fullname

lemma isComparator_logAppender : IsComparator logAppenderComparator :=
  isComparator_strcmp.comap LogAppender.name

lemma loggerRefComparator_neg :
    loggerRefComparator s p q < 0 ↔ (s.conf q).name.1.length < (s.conf p).name.1.length := by
  simp only [loggerRefComparator]
  split_ifs <;> omega

lemma loggerRefComparator_pos :
    0 < loggerRefComparator s p q ↔ (s.conf p).name.1.length < (s.conf q).name.1.length := by
  simp only [loggerRefComparator]
  split_ifs <;> omega

lemma loggerRefComparator_zero :
    loggerRefComparator s p q = 0 ↔ (s.conf p).name.1.length = (s.conf q).name.1.length := by
  have hneg := loggerRefComparator_neg (s := s) (p := p) (q := q)
  have hpos := loggerRefComparator_pos (s := s) (p := p) (q := q)
  omega

lemma isComparator_loggerRef (s : LogSystem) : IsComparator (loggerRefComparator s) :=
  IsComparator.of_lt (fun p => OrderDual.toDual (s.conf p).name.1.length)
    (fun _ _ => loggerRefComparator_neg) fun _ _ => loggerRefComparator_pos

/-- The loop of `GetLogger` after the configured loggers `done`. -/
structure LoggerScanInv (s : LogSystem) (name : CString) (done : List ℕ) (scan : LoggerScan) :
    Prop where
  sorted : StrictSorted (loggerRefComparator s) scan.logrefs
  mem : ∀ p, p ∈ scan.logrefs ↔ p ∈ done ∧ NameCovers (s.conf p).name name
  none : scan.logrefs = [] → scan.haseff = false ∧ scan.minlevel = .fatal
  some : ∀ p rest, scan.logrefs = p :: rest → scan.haseff = true ∧
    scan.effnlen = (s.conf p).name.1.length ∧ scan.minlevel = (s.conf p).level

/-- One round. The names differ, so no reference takes the place of another one, and the
level is taken from the first reference. -/
lemma LoggerScanInv.step (h : LoggerScanInv s name done scan)
    (hne : ∀ p ∈ done, (s.conf p).name ≠ (s.conf cl).name) :
    LoggerScanInv s name (done ++ [cl]) (loggerScanStep s name scan cl) := by
  have hc := isComparator_loggerRef s
  by_cases hcov : NameCovers (s.conf cl).name name
  swap
  · have hstep : loggerScanStep s name scan cl = scan :=
      if_neg (fun hb => hcov (loggerCovers_iff.mp hb))
    rw [hstep]
    refine ⟨h.sorted, fun p => ?_, h.none, h.some⟩
    rw [h.mem, List.mem_append, List.mem_singleton]
    constructor
    · rintro ⟨hp, hpc⟩
      exact ⟨.inl hp, hpc⟩
    · rintro ⟨hp | rfl, hpc⟩
      · exact ⟨hp, hpc⟩
      · exact absurd hpc hcov
  have hzero : ∀ p ∈ scan.logrefs, loggerRefComparator s cl p ≠ 0 := by
    intro p hp hz
    obtain ⟨hdone, hpc⟩ := (h.mem p).mp hp
    exact hne p hdone (hpc.eq_of_length hcov (loggerRefComparator_zero.mp hz).symm)
  have hmem : ∀ p, p ∈ sortedAdd (loggerRefComparator s) cl scan.logrefs ↔
      p ∈ done ++ [cl] ∧ NameCovers (s.conf p).name name := by
    intro p
    rw [h.sorted.mem_sortedAdd hc, List.mem_append, List.mem_singleton]
    constructor
    · rintro (rfl | ⟨hp, -⟩)
      · exact ⟨.inr rfl, hcov⟩
      · exact ⟨.inl ((h.mem p).mp hp).1, ((h.mem p).mp hp).2⟩
    · rintro ⟨hp | rfl, hpc⟩
      · exact .inr ⟨(h.mem p).mpr ⟨hp, hpc⟩, hzero p ((h.mem p).mpr ⟨hp, hpc⟩)⟩
      · exact .inl rfl
  have hstep : loggerScanStep s name scan cl =
      if !scan.haseff || scan.effnlen < (s.conf cl).name.1.length then
        { logrefs := sortedAdd (loggerRefComparator s) cl scan.logrefs,
          effnlen := (s.conf cl).name.1.length, haseff := true, minlevel := (s.conf cl).level }
      else { scan with logrefs := sortedAdd (loggerRefComparator s) cl scan.logrefs } :=
    if_pos (loggerCovers_iff.mpr hcov)
  cases hrefs : scan.logrefs with
  | nil =>
      obtain ⟨heff, -⟩ := h.none hrefs
      rw [hstep, heff, Bool.not_false, Bool.true_or, if_pos rfl]
      refine ⟨h.sorted.sortedAdd hc, hmem, fun hnil => ?_, fun p rest hp => ?_⟩
      · simp only [hrefs, sortedAdd] at hnil
        cases hnil
      · simp only [hrefs, sortedAdd] at hp
        obtain ⟨rfl, -⟩ := List.cons.inj hp
        exact ⟨rfl, rfl, rfl⟩
  | cons y rest =>
      obtain ⟨heff, hlen, hlevel⟩ := h.some y rest hrefs
      have hyzero := hzero y (by simp [hrefs])
      rw [hstep, heff, hlen]
      by_cases hlt : (s.conf y).name.1.length < (s.conf cl).name.1.length
      · -- the new one is longer, hence first
        have hadd : sortedAdd (loggerRefComparator s) cl scan.logrefs = cl :: scan.logrefs := by
          rw [hrefs, sortedAdd, if_neg hyzero, if_pos (loggerRefComparator_neg.mpr hlt)]
        rw [if_pos (by simp [hlt])]
        refine ⟨h.sorted.sortedAdd hc, hmem, fun hnil => ?_, fun p rest' hp => ?_⟩
        · simp only [hadd] at hnil
          cases hnil
        · simp only [hadd] at hp
          obtain ⟨rfl, -⟩ := List.cons.inj hp
          exact ⟨rfl, rfl, rfl⟩
      · have hadd : sortedAdd (loggerRefComparator s) cl scan.logrefs =
            y :: sortedAdd (loggerRefComparator s) cl rest := by
          rw [hrefs, sortedAdd, if_neg hyzero,
            if_neg (fun hn => hlt (loggerRefComparator_neg.mp hn))]
        rw [if_neg (by simp [hlt])]
        refine ⟨h.sorted.sortedAdd hc, hmem, fun hnil => ?_, fun p rest' hp => ?_⟩
        · simp only [hadd] at hnil
          cases hnil
        · simp only [hadd] at hp
          obtain ⟨rfl, -⟩ := List.cons.inj hp
          exact ⟨rfl, rfl, hlevel⟩

/-- **The loop of `GetLogger`** over configured loggers with distinct names. -/
lemma loggerScan_spec (s : LogSystem) (name : CString) {cloggers : List ℕ}
    (hnames : (cloggers.map fun p => (s.conf p).name).Nodup) :
    LoggerScanInv s name cloggers (loggerScan s name cloggers) := by
  induction cloggers using List.reverseRecOn with
  | nil =>
      refine ⟨StrictSorted.nil _, fun p => by simp [loggerScan], fun _ => ⟨rfl, rfl⟩, ?_⟩
      intro p rest hp
      cases hp
  | append_singleton done cl ih =>
      rw [List.map_append, List.nodup_append'] at hnames
      have hstep : loggerScan s name (done ++ [cl]) =
          loggerScanStep s name (loggerScan s name done) cl := by simp [loggerScan]
      rw [hstep]
      refine (ih hnames.1).step fun p hp heq => ?_
      exact hnames.2.2 (List.mem_map_of_mem hp) (by simp [heq])

end Scan

/-! ### What the calls say about the log system -/

/-- Adding a configured logger to the arrays of the levels changes nothing else. -/
lemma logSystemLevelAdd_frame (res : ℕ) : ∀ (levels : List LogLevel) (s : LogSystem),
    ∃ levelloggers, levels.foldl (fun s i => logSystemLevelAdd s res i) s =
      { s with levelloggers := levelloggers }
  | [], s => ⟨s.levelloggers, rfl⟩
  | i :: levels, s => by
      obtain ⟨levelloggers, heq⟩ := logSystemLevelAdd_frame res levels (logSystemLevelAdd s res i)
      exact ⟨levelloggers, heq⟩

/-- What `CreateLogger` left in memory for the number `p`. -/
def LogSystem.confAt (s : LogSystem) (p : ℕ) : LoggerConf := (s.conf p).toLoggerConf

/-- A logger was scanned when it was first got, after the calls `pre`. -/
def LogCached (acts : List LogAct) (s : LogSystem) (lg : Logger) : Prop :=
  ∃ pre post, acts = pre ++ .getLogger lg.fullname :: post ∧
    lg.minlevel = routeLevel pre lg.fullname ∧
    lg.logrefs.map s.confAt = routeOrder pre lg.fullname ∧ ∀ p ∈ lg.logrefs, p < s.next

/-- **The log system after the calls `acts`.** -/
structure LogInv (acts : List LogAct) (s : LogSystem) : Prop where
  confs : (List.range s.next).map s.confAt = logConfs acts
  owned : ∀ p, p ∈ s.cloggers ↔ p < s.next
  sorted : StrictSorted (confLoggerComparator s) s.cloggers
  attached : ∀ p, p < s.next → ∀ i, (s.conf p).lvlapndrs i =
    sortedAddAll logAppenderComparator (logAttached acts (s.confAt p).name i)
  known : ∀ c, logAttachments acts c ≠ [] → ∃ p, p < s.next ∧ (s.confAt p).name = c
  loggers : StrictSorted loggerComparator s.loggers
  cached : ∀ lg ∈ s.loggers, LogCached acts s lg

lemma logConfs_append (acts acts' : List LogAct) :
    logConfs (acts ++ acts') = logConfs acts ++ logConfs acts' := List.filterMap_append

lemma logAttachments_append (acts acts' : List LogAct) (c : CString) :
    logAttachments (acts ++ acts') c = logAttachments acts c ++ logAttachments acts' c :=
  List.filterMap_append

lemma logAttached_append (acts acts' : List LogAct) (c : CString) (i : LogLevel) :
    logAttached (acts ++ acts') c i = logAttached acts c i ++ logAttached acts' c i := by
  simp [logAttached, logAttachments_append]

lemma logAttachments_addAppender (c c' : CString) (appender : LogAppender) (level : LogLevel) :
    logAttachments [.addAppender c' appender level] c =
      if c' = c then [(appender, level)] else [] := by
  by_cases h : c' = c <;> simp [logAttachments, h]

lemma logAttached_addAppender (c c' : CString) (appender : LogAppender) (level i : LogLevel) :
    logAttached [.addAppender c' appender level] c i =
      if c' = c ∧ level ≤ i then [appender] else [] := by
  rw [logAttached, logAttachments_addAppender]
  by_cases h : c' = c <;> by_cases hi : level ≤ i <;> simp [h, hi, -not_le]

lemma DistinctNames.of_append {acts acts' : List LogAct} (h : DistinctNames (acts ++ acts')) :
    DistinctNames acts := by
  rw [DistinctNames, logConfs_append, List.map_append] at h
  exact h.of_append_left

/-- A call that attaches nothing to a configured logger. -/
lemma logAttached_concat {acts : List LogAct} {a : LogAct} {c : CString}
    (ha : logAttachments [a] c = []) (i : LogLevel) :
    logAttached (acts ++ [a]) c i = logAttached acts c i := by
  rw [logAttached_append]
  simp [logAttached, ha]

lemma LogCached.append {acts : List LogAct} {s s' : LogSystem} {lg : Logger} (a : LogAct)
    (h : LogCached acts s lg) (hnext : s.next ≤ s'.next)
    (hconf : ∀ p, p < s.next → s'.confAt p = s.confAt p) : LogCached (acts ++ [a]) s' lg := by
  obtain ⟨pre, post, rfl, hlevel, hrefs, hlt⟩ := h
  refine ⟨pre, post ++ [a], by simp, hlevel, ?_, fun p hp => (hlt p hp).trans_le hnext⟩
  rw [← hrefs]
  exact List.map_congr_left fun p hp => hconf p (hlt p hp)

namespace LogInv

variable {acts : List LogAct} {s s' : LogSystem}

lemma start : LogInv [] logSystemCreate where
  confs := rfl
  owned := fun p => by simp [logSystemCreate]
  sorted := StrictSorted.nil _
  attached := fun p hp => absurd hp (Nat.not_lt_zero p)
  known := fun c hc => absurd rfl hc
  loggers := StrictSorted.nil _
  cached := fun _ h => nomatch h

lemma confAt_mem (h : LogInv acts s) {p : ℕ} (hp : p < s.next) : s.confAt p ∈ logConfs acts := by
  rw [← h.confs]
  exact List.mem_map_of_mem (List.mem_range.mpr hp)

/-- Distinct names belong to distinct numbers. -/
lemma name_injective (h : LogInv acts s) (hd : DistinctNames acts) {p q : ℕ} (hp : p < s.next)
    (hq : q < s.next) (heq : (s.confAt p).name = (s.confAt q).name) : p = q := by
  rw [DistinctNames, ← h.confs, List.map_map] at hd
  exact List.inj_on_of_nodup_map hd (List.mem_range.mpr hp) (List.mem_range.mpr hq) heq

lemma perm_range (h : LogInv acts s) : s.cloggers.Perm (List.range s.next) :=
  (List.perm_ext_iff_of_nodup (h.sorted.nodup (isComparator_confLogger s)) List.nodup_range).mpr
    fun p => by rw [h.owned, List.mem_range]

/-- The scan of `GetLogger` finds the route. -/
lemma scan (h : LogInv acts s) (hd : DistinctNames acts) (name : CString) :
    (loggerScan s name s.cloggers).minlevel = routeLevel acts name ∧
      (loggerScan s name s.cloggers).logrefs.map s.confAt = routeOrder acts name ∧
      ∀ p ∈ (loggerScan s name s.cloggers).logrefs, p < s.next := by
  have hnames : (s.cloggers.map fun p => (s.conf p).name).Nodup := by
    refine ((h.perm_range.map _).nodup_iff).mpr ?_
    rw [DistinctNames, ← h.confs, List.map_map] at hd
    exact hd
  have hscan := loggerScan_spec s name hnames
  have hlt : ∀ p ∈ (loggerScan s name s.cloggers).logrefs, p < s.next :=
    fun p hp => (h.owned p).mp ((hscan.mem p).mp hp).1
  have hrefs : (loggerScan s name s.cloggers).logrefs.map s.confAt = routeOrder acts name := by
    refine hd.eq_routeOrder ?_ ?_
    · refine List.pairwise_map.mpr (hscan.sorted.imp fun hab => ?_)
      exact (loggerRefComparator_neg.mp hab).le
    · have hperm : (loggerScan s name s.cloggers).logrefs.Perm
          (s.cloggers.filter fun p => NameCovers (s.confAt p).name name) := by
        refine (List.perm_ext_iff_of_nodup (hscan.sorted.nodup (isComparator_loggerRef s))
          ((h.sorted.nodup (isComparator_confLogger s)).filter _)).mpr fun p => ?_
        rw [hscan.mem, List.mem_filter, decide_eq_true_eq]
        rfl
      refine (hperm.map _).trans ?_
      rw [← h.confs, List.filter_map]
      exact (h.perm_range.filter _).map _
  refine ⟨?_, hrefs, hlt⟩
  rw [routeLevel, ← hrefs]
  cases hl : (loggerScan s name s.cloggers).logrefs with
  | nil => exact (hscan.none hl).2
  | cons p rest => exact (hscan.some p rest hl).2.2

/-- A call that neither configures nor gets a logger. -/
lemma quiet (h : LogInv acts s) (a : LogAct) (hconf : logConfs [a] = [])
    (hatt : ∀ c, logAttachments [a] c = []) : LogInv (acts ++ [a]) s where
  confs := by rw [logConfs_append, hconf, List.append_nil, h.confs]
  owned := h.owned
  sorted := h.sorted
  attached p hp i := by rw [h.attached p hp i, logAttached_concat (hatt _)]
  known c hc := by
    rw [logAttachments_append, hatt, List.append_nil] at hc
    exact h.known c hc
  loggers := h.loggers
  cached lg hlg := (h.cached lg hlg).append a le_rfl fun _ _ => rfl

/-- `GetLogger`. -/
lemma getLogger (h : LogInv acts s) (hd : DistinctNames acts) (name : CString) :
    LogInv (acts ++ [.getLogger name]) (logSystemGetLogger s name).1 := by
  have hq := h.quiet (.getLogger name) rfl fun _ => rfl
  rw [logSystemGetLogger]
  split
  · exact hq
  · rename_i hfind
    obtain ⟨hlevel, hrefs, hlt⟩ := h.scan hd name
    refine ⟨hq.confs, hq.owned, hq.sorted, hq.attached, hq.known,
      hq.loggers.sortedAdd isComparator_logger, fun lg hlg => ?_⟩
    rcases eq_or_mem_of_mem_sortedAdd hlg with rfl | hlg
    · exact ⟨acts, [], rfl, hlevel, hrefs, hlt⟩
    · exact hq.cached lg hlg

/-- `AddAppender`. -/
lemma addAppender (h : LogInv acts s) (hd : DistinctNames acts) {p : ℕ} (hp : p < s.next)
    (appender : LogAppender) (level : LogLevel) :
    LogInv (acts ++ [.addAppender (s.confAt p).name appender level])
      (confLoggerAddAppender s p appender level) := by
  set t := confLoggerAddAppender s p appender level with ht
  have happ : (logSystemAddAppender s appender).conf = s.conf := by
    unfold logSystemAddAppender
    split <;> rfl
  have hconf : t.conf = Function.update s.conf p { s.conf p with
      lvlapndrs := fun i =>
        if level ≤ i then sortedAdd logAppenderComparator appender ((s.conf p).lvlapndrs i)
        else (s.conf p).lvlapndrs i } := by
    rw [ht, confLoggerAddAppender, happ]
  have hsame : t.next = s.next ∧ t.cloggers = s.cloggers ∧ t.loggers = s.loggers := by
    rw [ht, confLoggerAddAppender, logSystemAddAppender]
    split <;> exact ⟨rfl, rfl, rfl⟩
  have hat : ∀ q, t.confAt q = s.confAt q := by
    intro q
    rw [LogSystem.confAt, hconf]
    by_cases hq : q = p
    · subst hq
      rw [Function.update_self]
      rfl
    · rw [Function.update_of_ne hq]
      rfl
  have hnext := hsame.1
  refine ⟨?_, ?_, ?_, fun q hq i => ?_, fun c hc => ?_, hsame.2.2 ▸ h.loggers, fun lg hlg => ?_⟩
  · rw [hnext, funext hat, h.confs, logConfs_append]
    simp [logConfs]
  · rw [hnext, hsame.2.1]
    exact h.owned
  · rw [hsame.2.1]
    refine h.sorted.congr fun a _ b _ => ?_
    have ha := congrArg LoggerConf.name (hat a)
    have hb := congrArg LoggerConf.name (hat b)
    simp only [LogSystem.confAt] at ha hb
    rw [confLoggerComparator, confLoggerComparator, ha, hb]
  · rw [hnext] at hq
    rw [hat, hconf, logAttached_append]
    by_cases hqp : q = p
    · subst hqp
      rw [Function.update_self]
      rw [logAttached_addAppender]
      by_cases hi : level ≤ i
      · simp only [if_pos hi, h.attached q hq i, true_and, sortedAddAll_concat]
      · simp only [if_neg hi, h.attached q hq i, true_and, List.append_nil]
    · have hname : (s.confAt p).name ≠ (s.confAt q).name :=
        fun heq => hqp (h.name_injective hd hq hp heq.symm)
      rw [Function.update_of_ne hqp, h.attached q hq i, logAttached_addAppender,
        if_neg (fun hn => hname hn.1), List.append_nil]
  · rw [hnext]
    simp only [hat]
    by_cases hcp : (s.confAt p).name = c
    · exact ⟨p, hp, hcp⟩
    · rw [logAttachments_append, logAttachments_addAppender, if_neg hcp, List.append_nil] at hc
      exact h.known c hc
  · rw [hsame.2.2] at hlg
    exact (h.cached lg hlg).append _ hnext.ge fun q _ => hat q

/-- `CreateLogger` with a new name. -/
lemma createLogger (h : LogInv acts s) (name : Option CString) (level : LogLevel)
    (additivity : Bool)
    (hd : DistinctNames (acts ++ [.createLogger name level additivity])) :
    LogInv (acts ++ [.createLogger name level additivity])
      (logSystemCreateLogger s name level additivity).1 := by
  obtain ⟨levelloggers, hframe⟩ := logSystemLevelAdd_frame s.next level.upTo
    (logSystemOwn (logSystemAlloc s name level additivity) s.next)
  rw [logSystemCreateLogger, hframe]
  have hc := isComparator_confLogger (logSystemAlloc s name level additivity)
  have hat : ∀ q, q < s.next → (logSystemAlloc s name level additivity).confAt q = s.confAt q :=
    fun q hq => by simp [LogSystem.confAt, logSystemAlloc, hq.ne]
  have hnew : (logSystemAlloc s name level additivity).confAt s.next =
      { name := name.getD .empty, level := level, additivity := additivity } := by
    simp [LogSystem.confAt, logSystemAlloc]
  have hnext : (logSystemAlloc s name level additivity).next = s.next + 1 := rfl
  have hconfs : (List.range (s.next + 1)).map (logSystemAlloc s name level additivity).confAt =
      logConfs (acts ++ [.createLogger name level additivity]) := by
    rw [logConfs_append, ← h.confs, List.range_succ, List.map_append]
    congr 1
    · exact List.map_congr_left fun q hq => hat q (List.mem_range.mp hq)
    · rw [List.map_singleton, hnew]
      rfl
  have hsorted : StrictSorted (confLoggerComparator (logSystemAlloc s name level additivity))
      s.cloggers := by
    refine h.sorted.congr fun a ha b hb => ?_
    have ha := congrArg LoggerConf.name (hat a ((h.owned a).mp ha))
    have hb := congrArg LoggerConf.name (hat b ((h.owned b).mp hb))
    simp only [LogSystem.confAt] at ha hb
    rw [confLoggerComparator, confLoggerComparator, ha, hb]
  have hne : ∀ q, q < s.next → (s.confAt q).name ≠ name.getD .empty := by
    intro q hq heq
    rw [DistinctNames, logConfs_append, List.map_append, List.nodup_append'] at hd
    exact hd.2.2 (List.mem_map_of_mem (h.confAt_mem hq)) (by simp [logConfs, heq])
  have hzero : ∀ q ∈ s.cloggers,
      confLoggerComparator (logSystemAlloc s name level additivity) s.next q ≠ 0 := by
    intro q hq hz
    have hlt := (h.owned q).mp hq
    have heq := strcmp_eq_zero.mp hz
    have hq' := congrArg LoggerConf.name (hat q hlt)
    have hn := congrArg LoggerConf.name hnew
    simp only [LogSystem.confAt] at hq' hn
    rw [hn, hq'] at heq
    exact hne q hlt heq.symm
  refine ⟨hconfs, fun p => ?_, hsorted.sortedAdd hc, fun p hp i => ?_, fun c hcalls => ?_,
    h.loggers, fun lg hlg => ?_⟩
  · show p ∈ sortedAdd _ s.next s.cloggers ↔ p < s.next + 1
    rw [(hsorted.sortedAdd_perm hc hzero).mem_iff, List.mem_cons, h.owned]
    omega
  · rw [logAttached_concat rfl]
    rcases Nat.lt_succ_iff_lt_or_eq.mp hp with hp | rfl
    · have hlv : ((logSystemAlloc s name level additivity).conf p).lvlapndrs =
          (s.conf p).lvlapndrs := by simp [logSystemAlloc, hp.ne]
      show ((logSystemAlloc s name level additivity).conf p).lvlapndrs i = sortedAddAll _
        (logAttached acts ((logSystemAlloc s name level additivity).confAt p).name i)
      rw [hlv, hat p hp, h.attached p hp i]
    · have hlv : ((logSystemAlloc s name level additivity).conf s.next).lvlapndrs i = [] := by
        simp [logSystemAlloc]
      show ((logSystemAlloc s name level additivity).conf s.next).lvlapndrs i = sortedAddAll _
        (logAttached acts ((logSystemAlloc s name level additivity).confAt s.next).name i)
      have hnone : logAttachments acts (name.getD .empty) = [] := by
        by_contra hcalls
        obtain ⟨q, hq, heq⟩ := h.known _ hcalls
        exact hne q hq heq
      rw [hlv, hnew, logAttached, hnone]
      rfl
  · rw [logAttachments_append] at hcalls
    obtain ⟨p, hp, hname⟩ := h.known c (by simpa [logAttachments] using hcalls)
    exact ⟨p, Nat.lt_succ_of_lt hp, (congrArg LoggerConf.name (hat p hp)).trans hname⟩
  · exact (h.cached lg hlg).append _ (Nat.le_succ _) hat

end LogInv

/-- One call. -/
lemma logStep_inv {acts : List LogAct} {s s' : LogSystem} (a : LogAct) (h : LogInv acts s)
    (hd : DistinctNames (acts ++ [a])) (hs : logStep s a = some s') : LogInv (acts ++ [a]) s' := by
  have hd' := hd.of_append
  cases a with
  | createLogger name level additivity =>
      obtain rfl := Option.some.inj hs
      exact h.createLogger name level additivity hd
  | addAppender clogger appender level =>
      obtain ⟨p, hfind, rfl⟩ := Option.map_eq_some_iff.mp hs
      have hp := (h.owned p).mp (List.mem_of_find?_eq_some hfind)
      have hfound : (s.conf p).name = clogger := by simpa using List.find?_some hfind
      have hname : (s.confAt p).name = clogger := hfound
      rw [← hname]
      exact h.addAppender hd' hp appender level
  | getLogger name =>
      obtain rfl := Option.some.inj hs
      exact h.getLogger hd' name
  | logEx name level =>
      simp only [logStep, Option.ite_none_right_eq_some, Option.some.injEq] at hs
      obtain ⟨-, rfl⟩ := hs
      exact h.quiet _ rfl fun _ => rfl

/-- **Every run** with distinct names. -/
lemma logSystem_inv {acts : List LogAct} {s : LogSystem}
    (hrun : logSystem.run logSystemCreate acts = some s) (hd : DistinctNames acts) :
    LogInv acts s := by
  revert hd
  refine TransitionSystem.run_induction (R := fun acts s => DistinctNames acts → LogInv acts s)
    hrun (fun _ => LogInv.start) ?_
  intro acts s a s' ih hs hd
  exact logStep_inv a (ih hd.of_append) hd hs

/-! ### What a message reaches -/

/-- The configured loggers that cover `name` are there before its logger is first got. -/
def LogSetUpFirst (acts : List LogAct) (name : CString) : Prop :=
  ∀ pre post, acts = pre ++ .getLogger name :: post → ∀ c ∈ logConfs post, ¬ NameCovers c.name name

/-- The logger of `name` is not got in the first calls, and the others configure nothing
that covers it. -/
lemma LogSetUpFirst.of_append {acts rest : List LogAct} {name : CString}
    (hacts : .getLogger name ∉ acts) (hrest : ∀ c ∈ logConfs rest, ¬ NameCovers c.name name) :
    LogSetUpFirst (acts ++ rest) name := by
  intro pre post heq c hc
  rcases List.append_eq_append_iff.mp heq with ⟨mid, -, hmid⟩ | ⟨mid, hpre, hmid⟩
  · refine hrest c ?_
    rw [hmid, logConfs_append, List.mem_append]
    exact .inr hc
  · cases mid with
    | nil =>
        have hpost : rest = .getLogger name :: post := hmid.symm
        refine hrest c ?_
        rw [hpost]
        exact hc
    | cons a mid =>
        obtain ⟨rfl, -⟩ := List.cons.inj hmid
        exact absurd (by simp [hpre]) hacts

/-- The appenders of the configured loggers that hand a message on. -/
def routeDelivered (acts : List LogAct) (name : CString) (level : LogLevel) : List LogAppender :=
  (routeReached acts name level).flatMap fun c =>
    sortedAddAll logAppenderComparator (logAttached acts c.name level)

lemma loggerLogRefs_congr {s s' : LogSystem} (level : LogLevel) (hconf : s'.conf = s.conf) :
    ∀ refs, loggerLogRefs s' level refs = loggerLogRefs s level refs
  | [] => rfl
  | cli :: refs => by
      simp only [loggerLogRefs, confLoggerLog, hconf, loggerLogRefs_congr level hconf refs]

lemma LogInv.loggerLogRefs {acts : List LogAct} {s : LogSystem} (h : LogInv acts s)
    (level : LogLevel) : ∀ refs : List ℕ, (∀ p ∈ refs, p < s.next) →
    loggerLogRefs s level refs = (routeWalk level (refs.map s.confAt)).flatMap fun c =>
      sortedAddAll logAppenderComparator (logAttached acts c.name level)
  | [], _ => rfl
  | cli :: refs, hlt => by
      have ih := h.loggerLogRefs level refs fun p hp => hlt p (by simp [hp])
      have hatt := h.attached cli (hlt cli (by simp)) level
      have hlevel : (s.confAt cli).level = (s.conf cli).level := rfl
      have hadd : (s.confAt cli).additivity = (s.conf cli).additivity := rfl
      rw [LibCmutils.loggerLogRefs, List.map_cons, routeWalk, List.flatMap_append, hlevel, hadd,
        confLoggerLog, hatt, ih]
      congr 1
      · split_ifs <;> simp
      · cases (s.conf cli).additivity <;> simp

/-- A logger that was scanned like this delivers along the route. -/
lemma LogInv.loggerLogEx {acts : List LogAct} {s : LogSystem} (h : LogInv acts s) (lg : Logger)
    {name : CString} (hlevel : lg.minlevel = routeLevel acts name)
    (hrefs : lg.logrefs.map s.confAt = routeOrder acts name) (hlt : ∀ p ∈ lg.logrefs, p < s.next)
    (level : LogLevel) : loggerLogEx s lg level = routeDelivered acts name level := by
  rw [LibCmutils.loggerLogEx, routeDelivered, routeReached, hlevel, h.loggerLogRefs level _ hlt,
    hrefs]
  split_ifs <;> rfl

/-- What was set up before is all there is. -/
lemma routeOrder_of_setUpFirst {pre post : List LogAct} {name : CString}
    (hset : LogSetUpFirst (pre ++ .getLogger name :: post) name) :
    routeOrder (pre ++ .getLogger name :: post) name = routeOrder pre name := by
  have hpost : (logConfs post).filter (fun c => NameCovers c.name name) = [] := by
    rw [List.filter_eq_nil_iff]
    intro c hc
    simpa using hset pre post rfl c hc
  have hconfs : logConfs (.getLogger name :: post) = logConfs post := rfl
  rw [routeOrder, logConfs_append, List.filter_append, hconfs, hpost, List.append_nil, routeOrder]

/-- **The logger of a name** whose configured loggers were set up first. -/
lemma LogInv.getLogger_result {acts : List LogAct} {s : LogSystem} (h : LogInv acts s)
    (hd : DistinctNames acts) {name : CString} (hset : LogSetUpFirst acts name) :
    (logSystemGetLogger s name).2.minlevel = routeLevel acts name ∧
      ∀ level, LibCmutils.loggerLogEx (logSystemGetLogger s name).1 (logSystemGetLogger s name).2 level =
        routeDelivered acts name level := by
  rw [logSystemGetLogger]
  split
  · rename_i lg hfind
    have hname : name = lg.fullname := by simpa using List.find?_some hfind
    obtain ⟨pre, post, hacts, hlevel, hrefs, hlt⟩ := h.cached lg (List.mem_of_find?_eq_some hfind)
    rw [← hname] at hacts hlevel hrefs
    have horder : routeOrder acts name = routeOrder pre name := by
      rw [hacts] at hset ⊢
      exact routeOrder_of_setUpFirst hset
    have hlevel' : lg.minlevel = routeLevel acts name := by
      rw [hlevel, routeLevel, routeLevel, horder]
    exact ⟨hlevel', h.loggerLogEx lg hlevel' (hrefs.trans horder.symm) hlt⟩
  · obtain ⟨hlevel, hrefs, hlt⟩ := h.scan hd name
    refine ⟨hlevel, fun level => ?_⟩
    rw [← h.loggerLogEx { minlevel := _, fullname := name, logrefs := _ } hlevel hrefs hlt
      level]
    simp only [LibCmutils.loggerLogEx]
    split_ifs
    · rfl
    · refine loggerLogRefs_congr level ?_ _
      rfl

/-! ### Configuration first -/

/-- The calls that configure. -/
def LogAct.Configures : LogAct → Prop
  | .createLogger .. | .addAppender .. => True
  | .getLogger _ | .logEx .. => False

/-- The appenders attached to `c` with a threshold up to `level`, each once. -/
def attachedOnce (acts : List LogAct) (c : CString) (level : LogLevel) : Multiset LogAppender :=
  (logAttached acts c level).toFinset.val

lemma mem_logAttached {acts : List LogAct} {c : CString} {level : LogLevel} {a : LogAppender} :
    a ∈ logAttached acts c level ↔ ∃ t, .addAppender c a t ∈ acts ∧ t ≤ level := by
  simp only [logAttached, logAttachments, List.mem_map, List.mem_filter, List.mem_filterMap,
    decide_eq_true_eq]
  constructor
  · rintro ⟨⟨a', t⟩, ⟨⟨act, hact, heq⟩, ht⟩, rfl⟩
    cases act with
    | addAppender c' a' t' =>
        simp only [Option.ite_none_right_eq_some, Option.some.injEq, Prod.mk.injEq] at heq
        obtain ⟨rfl, rfl, rfl⟩ := heq
        exact ⟨t', hact, ht⟩
    | createLogger | getLogger | logEx => cases heq
  · rintro ⟨t, hact, ht⟩
    exact ⟨(a, t), ⟨⟨_, hact, if_pos rfl⟩, ht⟩, rfl⟩

/-- With distinct names every attached appender stays, once. -/
lemma sortedAddAll_logAttached {acts : List LogAct} (c : CString) (level : LogLevel)
    (hnames : ∀ a ∈ logAttached acts c level, ∀ b ∈ logAttached acts c level,
      a.name = b.name → a = b) :
    (sortedAddAll logAppenderComparator (logAttached acts c level) : Multiset LogAppender) =
      attachedOnce acts c level := by
  have hc := isComparator_logAppender
  refine (Multiset.Nodup.ext ?_ (Finset.nodup _)).mpr fun a => ?_
  · exact Multiset.coe_nodup.mpr ((strictSorted_sortedAddAll hc _).nodup hc)
  · rw [Multiset.mem_coe, mem_sortedAddAll hc, Finset.mem_val, List.mem_toFinset]
    have hfilter : ∀ b ∈ logAttached acts c level, a ∈ logAttached acts c level →
        (logAppenderComparator b a = 0 ↔ b = a) := by
      intro b hb ha
      rw [logAppenderComparator, strcmp_eq_zero]
      exact ⟨hnames b hb a ha, fun heq => by rw [heq]⟩
    constructor
    · intro hlast
      exact (List.mem_filter.mp (List.mem_of_getLast? hlast)).1
    · intro ha
      have heq : (logAttached acts c level).filter (fun x => logAppenderComparator x a = 0) =
          (logAttached acts c level).filter (fun x => x = a) :=
        List.filter_congr fun b hb => by simp only [hfilter b hb ha]
      have hne : (logAttached acts c level).filter (fun x => x = a) ≠ [] := fun hnil => by
        rw [List.filter_eq_nil_iff] at hnil
        exact hnil a ha (by simp)
      rw [heq, List.getLast?_eq_some_getLast hne]
      congr 1
      simpa using (List.mem_filter.mp (List.getLast_mem hne)).2

lemma coe_flatMap {α β : Type*} (l : List α) (f : α → List β) :
    (l.flatMap f : Multiset β) = (l.map fun a => (f a : Multiset β)).sum := by
  induction l with
  | nil => rfl
  | cons a l ih =>
      rw [List.flatMap_cons, ← Multiset.coe_add, ih, List.map_cons, List.sum_cons]

/-- **Routing.** When all configured loggers, with distinct names, and all appenders, with
distinct names, are set up first, a message of the logger `name` is given to the attached
appenders of the loggers on its route, and `IsEnabled` tells the effective level. -/
theorem logger_routes (setup lookups : List LogAct) (s : LogSystem)
    (hrun : logSystem.run logSystemCreate (setup ++ lookups) = some s)
    (hsetup : ∀ a ∈ setup, a.Configures) (hlookups : ∀ a ∈ lookups, ¬ a.Configures)
    (hnames : DistinctNames setup)
    (happenders : ∀ c a t c' a' t', .addAppender c a t ∈ setup → .addAppender c' a' t' ∈ setup →
      a.name = a'.name → a = a')
    (name : CString) (level : LogLevel) :
    (loggerLogEx (logSystemGetLogger s name).1 (logSystemGetLogger s name).2 level :
        Multiset LogAppender) =
      ((routeReached setup name level).map fun c => attachedOnce setup c.name level).sum ∧
    (loggerIsEnabled (logSystemGetLogger s name).2 level = true ↔
      routeLevel setup name ≤ level) := by
  have hconfs : logConfs lookups = [] := by
    refine List.filterMap_eq_nil_iff.mpr fun a ha => ?_
    have := hlookups a ha
    cases a <;> simp_all [LogAct.Configures]
  have hatts : ∀ c, logAttachments lookups c = [] := by
    refine fun c => List.filterMap_eq_nil_iff.mpr fun a ha => ?_
    have := hlookups a ha
    cases a <;> simp_all [LogAct.Configures]
  have hconfs' : logConfs (setup ++ lookups) = logConfs setup := by
    rw [logConfs_append, hconfs, List.append_nil]
  have hatt' : ∀ c i, logAttached (setup ++ lookups) c i = logAttached setup c i := by
    intro c i
    rw [logAttached_append]
    simp [logAttached, hatts]
  have hlevel' : routeLevel (setup ++ lookups) name = routeLevel setup name := by
    rw [routeLevel, routeOrder, hconfs', routeLevel, routeOrder]
  have hreached : routeReached (setup ++ lookups) name level = routeReached setup name level := by
    rw [routeReached, routeReached, hlevel', routeOrder, hconfs', routeOrder]
  have hd : DistinctNames (setup ++ lookups) := by rwa [DistinctNames, hconfs']
  have hset : LogSetUpFirst (setup ++ lookups) name := by
    refine LogSetUpFirst.of_append (fun hget => hsetup _ hget) fun c hc => ?_
    rw [hconfs] at hc
    cases hc
  obtain ⟨hmin, hlog⟩ := (logSystem_inv hrun hd).getLogger_result hd hset
  refine ⟨?_, ?_⟩
  · rw [hlog level, routeDelivered, hreached, coe_flatMap]
    congr 1
    refine List.map_congr_left fun c _ => ?_
    rw [hatt', sortedAddAll_logAttached]
    intro a ha b hb hab
    obtain ⟨t, ha, -⟩ := mem_logAttached.mp ha
    obtain ⟨t', hb, -⟩ := mem_logAttached.mp hb
    exact happenders _ _ _ _ _ _ ha hb hab
  · rw [loggerIsEnabled, hmin, hlevel']
    split_ifs with h
    · simpa using h
    · simpa using h

/-- A root logger and a quieter logger `a` below it, each with an appender. -/
def quietSetup : List LogAct :=
  [.createLogger none .info true, .createLogger (some ⟨[0x61], by decide⟩) .warn false,
    .addAppender .empty ⟨0, ⟨[0x78], by decide⟩⟩ .trace,
    .addAppender ⟨[0x61], by decide⟩ ⟨1, ⟨[0x79], by decide⟩⟩ .error]

/-- The name `a.b`. -/
def quietName : CString := ⟨[0x61, 0x2E, 0x62], by decide⟩

/-- An error of the logger `a.b` reaches the appender of `a` only. -/
theorem logger_routes_quiet :
    ∃ s, logSystem.run logSystemCreate (quietSetup ++ [.getLogger quietName]) = some s ∧
      loggerLogEx (logSystemGetLogger s quietName).1 (logSystemGetLogger s quietName).2 .error =
        [⟨1, ⟨[0x79], by decide⟩⟩] ∧
      (loggerLogEx (logSystemGetLogger s quietName).1 (logSystemGetLogger s quietName).2 .error :
          Multiset LogAppender) =
        ((routeReached quietSetup quietName .error).map fun c =>
          attachedOnce quietSetup c.name .error).sum := by
  have hrun := Option.some_get (show (logSystem.run logSystemCreate
    (quietSetup ++ [.getLogger quietName])).isSome from rfl)
  refine ⟨_, hrun.symm, by decide, ?_⟩
  refine (logger_routes _ _ _ hrun.symm ?_ ?_ (by decide) ?_ quietName .error).1
  · simp [quietSetup, LogAct.Configures]
  · simp [LogAct.Configures]
  · intro c a t c' a' t' ha ha' hname
    simp only [quietSetup, List.mem_cons, LogAct.addAppender.injEq, reduceCtorEq, false_or,
      List.not_mem_nil, or_false] at ha ha'
    rcases ha with ⟨-, rfl, -⟩ | ⟨-, rfl, -⟩ <;> rcases ha' with ⟨-, rfl, -⟩ | ⟨-, rfl, -⟩ <;>
      first | rfl | exact absurd hname (by decide)

/-! ### The order of the calls -/

/-- **Set-up order.** Two programs that make the same configuration in any order, where the
calls that attach appenders of one name to one configured logger keep theirs, get loggers
with the same level that deliver the same, if the configured loggers of the name are there
before its logger is first got. -/
theorem logger_setup_order (acts₁ acts₂ : List LogAct) (s₁ s₂ : LogSystem)
    (hrun₁ : logSystem.run logSystemCreate acts₁ = some s₁)
    (hrun₂ : logSystem.run logSystemCreate acts₂ = some s₂) (hnames : DistinctNames acts₁)
    (hconfs : (logConfs acts₁).Perm (logConfs acts₂))
    (happenders : ∀ c n, (logAttachments acts₁ c).filter (fun a => a.1.name = n) =
      (logAttachments acts₂ c).filter fun a => a.1.name = n)
    (name : CString) (hset₁ : LogSetUpFirst acts₁ name) (hset₂ : LogSetUpFirst acts₂ name) :
    (logSystemGetLogger s₁ name).2.minlevel = (logSystemGetLogger s₂ name).2.minlevel ∧
      ∀ level,
        loggerLogEx (logSystemGetLogger s₁ name).1 (logSystemGetLogger s₁ name).2 level =
          loggerLogEx (logSystemGetLogger s₂ name).1 (logSystemGetLogger s₂ name).2 level := by
  have hnames₂ : DistinctNames acts₂ := ((hconfs.map _).nodup_iff).mp hnames
  obtain ⟨hlevel₁, hlog₁⟩ := (logSystem_inv hrun₁ hnames).getLogger_result hnames hset₁
  obtain ⟨hlevel₂, hlog₂⟩ := (logSystem_inv hrun₂ hnames₂).getLogger_result hnames₂ hset₂
  have horder : routeOrder acts₁ name = routeOrder acts₂ name := by
    refine hnames₂.eq_routeOrder ?_ ?_
    · have : Std.Total LongerName := ⟨fun a b => le_total _ _⟩
      have : IsTrans LoggerConf LongerName := ⟨fun a b c hab hbc => le_trans hbc hab⟩
      exact List.pairwise_insertionSort _ _
    · exact (List.perm_insertionSort _ _).trans (hconfs.filter _)
  have hlevel : routeLevel acts₁ name = routeLevel acts₂ name := by
    rw [routeLevel, horder, routeLevel]
  have hatt : ∀ c i, sortedAddAll logAppenderComparator (logAttached acts₁ c i) =
      sortedAddAll logAppenderComparator (logAttached acts₂ c i) := by
    intro c i
    refine sortedAddAll_congr isComparator_logAppender fun z => ?_
    have hclass : ∀ acts, (logAttached acts c i).filter (fun x => logAppenderComparator x z = 0) =
        (((logAttachments acts c).filter fun a => a.1.name = z.name).filter
          fun a => a.2 ≤ i).map Prod.fst := by
      intro acts
      rw [logAttached, List.filter_map, List.filter_filter, List.filter_filter]
      congr 1
      refine List.filter_congr fun a _ => ?_
      simp [logAppenderComparator, Bool.and_comm]
    rw [hclass, hclass, happenders]
  refine ⟨by rw [hlevel₁, hlevel₂, hlevel], fun level => ?_⟩
  rw [hlog₁, hlog₂, routeDelivered, routeDelivered, routeReached, routeReached, hlevel, horder]
  simp only [hatt]

/-- The logger `a.b` is got between the configured loggers and the appenders, or last. -/
theorem logger_setup_order_quiet :
    ∃ s₁ s₂,
      logSystem.run logSystemCreate
        (quietSetup.take 2 ++ .getLogger quietName :: quietSetup.drop 2) = some s₁ ∧
      logSystem.run logSystemCreate (quietSetup ++ [.getLogger quietName]) = some s₂ ∧
      ∀ level,
        loggerLogEx (logSystemGetLogger s₁ quietName).1 (logSystemGetLogger s₁ quietName).2 level =
          loggerLogEx (logSystemGetLogger s₂ quietName).1 (logSystemGetLogger s₂ quietName).2
            level := by
  have hrun₁ := Option.some_get (show (logSystem.run logSystemCreate
    (quietSetup.take 2 ++ .getLogger quietName :: quietSetup.drop 2)).isSome from rfl)
  have hrun₂ := Option.some_get (show (logSystem.run logSystemCreate
    (quietSetup ++ [.getLogger quietName])).isSome from rfl)
  refine ⟨_, _, hrun₁.symm, hrun₂.symm, ?_⟩
  refine (logger_setup_order _ _ _ _ hrun₁.symm hrun₂.symm (by decide) (List.Perm.refl _)
    (fun _ _ => rfl) quietName ?_ ?_).2
  · exact LogSetUpFirst.of_append (by decide) fun c hc => nomatch hc
  · exact LogSetUpFirst.of_append (by decide) fun c hc => nomatch hc

/-- A logger that is got before it is configured keeps `CMLogLevel_Fatal`: the order of the
calls matters. -/
theorem logger_setup_order_fails :
    ¬ ∀ (acts₁ acts₂ : List LogAct) (s₁ s₂ : LogSystem) (name : CString),
      logSystem.run logSystemCreate acts₁ = some s₁ →
      logSystem.run logSystemCreate acts₂ = some s₂ →
      DistinctNames acts₁ → acts₁.Perm acts₂ →
      (logSystemGetLogger s₁ name).2.minlevel = (logSystemGetLogger s₂ name).2.minlevel ∧
        ∀ level,
          loggerLogEx (logSystemGetLogger s₁ name).1 (logSystemGetLogger s₁ name).2 level =
            loggerLogEx (logSystemGetLogger s₂ name).1 (logSystemGetLogger s₂ name).2 level := by
  intro h
  have hrun₁ := Option.some_get (show (logSystem.run logSystemCreate
    ([.getLogger quietName] ++ quietSetup)).isSome from rfl)
  have hrun₂ := Option.some_get (show (logSystem.run logSystemCreate
    (quietSetup ++ [.getLogger quietName])).isSome from rfl)
  have hlevel := (h _ _ _ _ quietName hrun₁.symm hrun₂.symm (by decide) List.perm_append_comm).1
  revert hlevel
  decide

end LibCmutils
