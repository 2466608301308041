import LibCmutils.Concurrent.Timer
import Mathlib.Tactic

/-!
The next run of a repeating timer task (`src/concurrent.c`).

* `TimeVal`: `struct timeval`; `TimeVal.ofMicros` is the normalised time with a number of
  microseconds.
* `timerGetDelayed`, `timerTVCompare`: the addition of milliseconds, with its single carry,
  and the comparison, whose difference of seconds is narrowed to `int`.
* `timerWorkerNext`: what the worker makes of the next run when the procedure of the task has
  returned, with `timerSkipLoop`, the loop that skips what is elapsed.
* `TimerRound`: a task and a current time, as a worker meets them. `TimerPeriods`: the number
  of periods by which the next run is to move.

The main result is `timerWorkerNext_iff`.
-/

namespace LibCmutils

/-- `struct timeval`. -/
structure TimeVal where
  sec : ℤ
  usec : ℤ
  deriving DecidableEq

namespace TimeVal

/-- The microseconds are less than a second. -/
def Normal (t : TimeVal) : Prop := 0 ≤ t.usec ∧ t.usec < 1000000

/-- Seconds of 64 bits. -/
def Fits (t : TimeVal) : Prop := -2 ^ 63 ≤ t.sec ∧ t.sec < 2 ^ 63

/-- The time in microseconds. -/
def micros (t : TimeVal) : ℤ := t.sec * 1000000 + t.usec

/-- The normalised time with a number of microseconds. -/
def ofMicros (m : ℤ) : TimeVal := ⟨m / 1000000, m % 1000000⟩

variable {t : TimeVal} {m : ℤ}

instance (t : TimeVal) : Decidable t.Normal := inferInstanceAs (Decidable (_ ∧ _))

instance (t : TimeVal) : Decidable t.Fits := inferInstanceAs (Decidable (_ ∧ _))

@[simp] lemma sec_ofMicros (m : ℤ) : (ofMicros m).sec = m / 1000000 := rfl

@[simp] lemma usec_ofMicros (m : ℤ) : (ofMicros m).usec = m % 1000000 := rfl

@[simp] lemma micros_ofMicros (m : ℤ) : (ofMicros m).micros = m := by
  rw [micros, sec_ofMicros, usec_ofMicros]
  omega

lemma normal_ofMicros (m : ℤ) : (ofMicros m).Normal := by
  rw [Normal, usec_ofMicros]
  omega

lemma Normal.ofMicros_micros (h : t.Normal) : ofMicros t.micros = t := by
  obtain ⟨sec, usec⟩ := t
  obtain ⟨hlow, hhigh⟩ := h
  simp only [ofMicros, micros, TimeVal.mk.injEq] at hlow hhigh ⊢
  omega

end TimeVal

/-- A number of 64 bits; arithmetic that leaves them is undefined. -/
def checkInt64 (n : ℤ) : Option ℤ := if -2 ^ 63 ≤ n ∧ n < 2 ^ 63 then some n else none

/-- `CMUTIL_TimerGetDelayed`, `none` when the seconds overflow. -/
def timerGetDelayed (tv : TimeVal) (delay : ℤ) : Option TimeVal := do
  let sec ← checkInt64 (tv.sec + delay.tdiv 1000)
  let usec ← checkInt64 (tv.usec + delay.tmod 1000 * 1000)
  if 1000 * 1000 ≤ usec then
    let sec ← checkInt64 (sec + 1)
    return ⟨sec, usec - 1000 * 1000⟩
  else return ⟨sec, usec⟩

/-- `CMUTIL_TimerTVCompare`; a difference is cut to 32 bits. -/
def timerTVCompare (a b : TimeVal) : ℤ :=
  let sdiff := (a.sec - b.sec).bmod (2 ^ 32)
  if sdiff = 0 then (a.usec - b.usec).bmod (2 ^ 32) else sdiff

/-- The loop of `CMUTIL_TimerWorker` over elapsed times, run on fuel. -/
def timerSkipLoop (current : TimeVal) (period : ℤ) : ℕ → TimeVal → Option TimeVal
  | 0, _ => none
  | fuel + 1, nextrun =>
      if 0 < timerTVCompare current nextrun then
        (timerGetDelayed nextrun period).bind (timerSkipLoop current period fuel)
      else some nextrun

/-- The fields of a task that decide when it runs. -/
structure TimerTimes where
  type : TimerTaskType
  canceled : Bool
  nextrun : TimeVal
  period : ℤ
  elapseSkip : Bool

/-- The next run that `CMUTIL_TimerWorker` leaves in a task, behind its procedure. -/
def timerWorkerNext (fuel : ℕ) (task : TimerTimes) (current : TimeVal) : Option TimeVal :=
  if task.type = .repeated ∧ task.canceled = false then
    (timerGetDelayed task.nextrun task.period).bind fun nextrun =>
      if task.elapseSkip then timerSkipLoop current task.period fuel nextrun else some nextrun
  else some task.nextrun

/-! ### Adding and comparing -/

lemma checkInt64_of_fits {n : ℤ} (hlow : -2 ^ 63 ≤ n) (hhigh : n < 2 ^ 63) :
    checkInt64 n = some n :=
  if_pos ⟨hlow, hhigh⟩

lemma checkInt64_of_ge {n : ℤ} (h : 2 ^ 63 ≤ n) : checkInt64 n = none := if_neg (by omega)

/-- One carry is enough. -/
lemma timerGetDelayed_ofMicros {m p : ℤ} (hm : -2 ^ 63 ≤ m / 1000000) (hp : 0 ≤ p) :
    timerGetDelayed (.ofMicros m) p =
      if (m + p * 1000) / 1000000 < 2 ^ 63 then some (.ofMicros (m + p * 1000)) else none := by
  have husec := checkInt64_of_fits (n := m % 1000000 + p % 1000 * 1000) (by omega) (by omega)
  simp only [timerGetDelayed, TimeVal.sec_ofMicros, TimeVal.usec_ofMicros, Option.pure_def,
    Int.tdiv_eq_ediv_of_nonneg hp, Int.tmod_eq_emod_of_nonneg hp, husec, Option.bind_eq_bind]
  by_cases hsec : m / 1000000 + p / 1000 < 2 ^ 63
  · rw [checkInt64_of_fits (by omega) hsec, Option.bind_some, Option.bind_some]
    by_cases hcarry : 1000 * 1000 ≤ m % 1000000 + p % 1000 * 1000
    · have hdiv : (m + p * 1000) / 1000000 = m / 1000000 + p / 1000 + 1 := by omega
      have hmod : (m + p * 1000) % 1000000 = m % 1000000 + p % 1000 * 1000 - 1000 * 1000 := by omega
      rw [if_pos hcarry, TimeVal.ofMicros, hdiv, hmod]
      by_cases hfits : m / 1000000 + p / 1000 + 1 < 2 ^ 63
      · rw [if_pos hfits, checkInt64_of_fits (by omega) hfits, Option.bind_some]
      · rw [if_neg hfits, checkInt64_of_ge (by omega), Option.bind_none]
    · have hdiv : (m + p * 1000) / 1000000 = m / 1000000 + p / 1000 := by omega
      have hmod : (m + p * 1000) % 1000000 = m % 1000000 + p % 1000 * 1000 := by omega
      rw [if_neg hcarry, TimeVal.ofMicros, hdiv, hmod, if_pos hsec]
  · rw [checkInt64_of_ge (by omega), Option.bind_none, if_neg (by omega)]

/-- The narrowed difference has the right sign when the seconds are near. -/
lemma timerTVCompare_pos_iff {a b : TimeVal} (ha : a.Normal) (hb : b.Normal)
    (hlow : -2 ^ 31 ≤ a.sec - b.sec) (hhigh : a.sec - b.sec < 2 ^ 31) :
    0 < timerTVCompare a b ↔ b.micros < a.micros := by
  obtain ⟨ha0, ha1⟩ := ha
  obtain ⟨hb0, hb1⟩ := hb
  have hsec : (a.sec - b.sec).bmod (2 ^ 32) = a.sec - b.sec := by
    rw [Int.bmod_def]
    split <;> omega
  have husec : (a.usec - b.usec).bmod (2 ^ 32) = a.usec - b.usec := by
    rw [Int.bmod_def]
    split <;> omega
  simp only [timerTVCompare, hsec, husec, TimeVal.micros]
  split <;> omega

/-! ### The loop -/

/-- The loop stops behind the first multiple of the period that is not before `current`. -/
lemma timerSkipLoop_spec {d p : ℤ} (hp : 1 ≤ p) (hpmax : p * 1000 < 2 ^ 31 * 1000000) :
    ∀ (k fuel : ℕ) (m : ℤ), k < fuel → -2 ^ 63 ≤ m / 1000000 → m / 1000000 < 2 ^ 63 →
      -2 ^ 31 ≤ d / 1000000 - m / 1000000 → d / 1000000 - m / 1000000 < 2 ^ 31 →
      (∀ j < k, m + j * (p * 1000) < d) → d ≤ m + k * (p * 1000) →
      timerSkipLoop (.ofMicros d) p fuel (.ofMicros m) =
        if (m + k * (p * 1000)) / 1000000 < 2 ^ 63 then some (.ofMicros (m + k * (p * 1000)))
        else none := by
  intro k
  induction k with
  | zero =>
      intro fuel m hfuel _ hmax hlow hhigh _ hstop
      obtain ⟨fuel, rfl⟩ := Nat.exists_eq_add_one.mpr (show 0 < fuel by omega)
      have hcmp := timerTVCompare_pos_iff (TimeVal.normal_ofMicros d) (TimeVal.normal_ofMicros m)
        hlow hhigh
      rw [TimeVal.micros_ofMicros, TimeVal.micros_ofMicros] at hcmp
      simp only [Nat.cast_zero, zero_mul, add_zero] at hstop ⊢
      rw [timerSkipLoop, if_neg (by rw [hcmp]; omega), if_pos hmax]
  | succ k ih =>
      intro fuel m hfuel hmin hmax hlow hhigh hgo hstop
      obtain ⟨fuel, rfl⟩ := Nat.exists_eq_add_one.mpr (show 0 < fuel by omega)
      have hcmp := timerTVCompare_pos_iff (TimeVal.normal_ofMicros d) (TimeVal.normal_ofMicros m)
        hlow hhigh
      rw [TimeVal.micros_ofMicros, TimeVal.micros_ofMicros] at hcmp
      have hbefore : m < d := by simpa using hgo 0 (by omega)
      have hshift (j : ℕ) : m + p * 1000 + j * (p * 1000) = m + (j + 1 : ℕ) * (p * 1000) := by
        push_cast
        ring
      rw [timerSkipLoop, if_pos (hcmp.mpr hbefore), timerGetDelayed_ofMicros hmin (by omega)]
      by_cases hfits : (m + p * 1000) / 1000000 < 2 ^ 63
      · rw [if_pos hfits, Option.bind_some,
          ih fuel (m + p * 1000) (by omega) (by omega) hfits (by omega) (by omega)
            (fun j hj => by rw [hshift]; exact hgo (j + 1) (by omega)) (by rw [hshift]; exact hstop),
          hshift]
      · have hle : p * 1000 ≤ (k + 1 : ℕ) * (p * 1000) :=
          le_mul_of_one_le_left (by omega) (by push_cast; omega)
        rw [if_neg hfits, Option.bind_none, if_neg (by omega)]

/-! ### Rounds -/

/-- The next run moves by `k` periods: by one, and with `elapseSkip` by as few as bring it to
`current` or behind. -/
structure TimerPeriods (task : TimerTimes) (current : TimeVal) (k : ℕ) : Prop where
  pos : 1 ≤ k
  single : task.elapseSkip = false → k = 1
  reached : task.elapseSkip = true →
    current.micros ≤ task.nextrun.micros + k * (task.period * 1000)
  least : task.elapseSkip = true → ∀ j : ℕ, 1 ≤ j → j < k →
    task.nextrun.micros + j * (task.period * 1000) < current.micros

/-- A repeating task behind its procedure, and the current time. The times are less than `2 ^ 31`
seconds apart. -/
structure TimerRound where
  task : TimerTimes
  current : TimeVal
  repeated : task.type = .repeated
  uncanceled : task.canceled = false
  period_pos : 1 ≤ task.period
  nextrun_normal : task.nextrun.Normal
  nextrun_fits : task.nextrun.Fits
  current_normal : current.Normal
  current_fits : current.Fits
  near : |current.micros - task.nextrun.micros| < 2 ^ 31 * 1000000
  near_next : |current.micros - (task.nextrun.micros + task.period * 1000)| < 2 ^ 31 * 1000000

namespace TimerRound

variable (r : TimerRound)

/-- The next run after `k` periods, in microseconds. -/
def after (k : ℕ) : ℤ := r.task.nextrun.micros + k * (r.task.period * 1000)

/-- The next run is moved by the right number of periods, and its microseconds are normalised. -/
def Right : Prop :=
  ∃ k v, TimerPeriods r.task r.current k ∧ TimeVal.Normal v ∧ v.micros = r.after k ∧
    ∃ n, ∀ fuel ≥ n, timerWorkerNext fuel r.task r.current = some v

/-- With `elapseSkip`, the seconds of `current` are not exactly `2 ^ 31` behind those of the first
next run, and the seconds of the next run have 64 bits. -/
def InReach : Prop :=
  (r.task.elapseSkip = true → r.current.sec - r.after 1 / 1000000 ≠ 2 ^ 31) ∧
    ∀ k, TimerPeriods r.task r.current k → r.after k / 1000000 < 2 ^ 63

lemma exists_periods : ∃ k, TimerPeriods r.task r.current k := by
  cases hskip : r.task.elapseSkip with
  | false => exact ⟨1, le_rfl, fun _ => rfl, by simp [hskip], by simp [hskip]⟩
  | true =>
      have hstep := r.period_pos
      have hex : ∃ k : ℕ, 1 ≤ k ∧
          r.current.micros ≤ r.task.nextrun.micros + k * (r.task.period * 1000) := by
        refine ⟨(r.current.micros - r.task.nextrun.micros).toNat + 1, by omega, ?_⟩
        have hle : ((r.current.micros - r.task.nextrun.micros).toNat + 1 : ℕ) ≤
            ((r.current.micros - r.task.nextrun.micros).toNat + 1 : ℕ) * (r.task.period * 1000) :=
          le_mul_of_one_le_right (by omega) (by omega)
        omega
      classical
      obtain ⟨hpos, hreach⟩ := Nat.find_spec hex
      refine ⟨Nat.find hex, hpos, by simp [hskip], fun _ => hreach, fun _ j hj hlt => ?_⟩
      have := Nat.find_min hex hlt
      simp only [not_and, not_le] at this
      exact this hj

/-- The number of periods is determined. -/
lemma periods_unique {k k' : ℕ} (h : TimerPeriods r.task r.current k)
    (h' : TimerPeriods r.task r.current k') : k = k' := by
  cases hskip : r.task.elapseSkip with
  | false => rw [h.single hskip, h'.single hskip]
  | true =>
      rcases Nat.lt_trichotomy k k' with hlt | heq | hlt
      · exact absurd (h'.least hskip k h.pos hlt) (not_lt.mpr (h.reached hskip))
      · exact heq
      · exact absurd (h.least hskip k' h'.pos hlt) (not_lt.mpr (h'.reached hskip))

lemma after_one : r.after 1 = r.task.nextrun.micros + r.task.period * 1000 := by
  simp [after]

/-- The seconds of the current time and of the next run. -/
lemma seconds : TimeVal.ofMicros r.current.micros = r.current ∧
    r.current.sec = r.current.micros / 1000000 ∧ -2 ^ 63 ≤ r.task.nextrun.micros / 1000000 := by
  have hcur := r.current_normal.ofMicros_micros
  have hnext := congrArg TimeVal.sec r.nextrun_normal.ofMicros_micros
  have hfits := r.nextrun_fits.1
  refine ⟨hcur, (congrArg TimeVal.sec hcur).symm, ?_⟩
  rw [← hnext] at hfits
  exact hfits

/-- What the worker computes. -/
lemma next_eq (fuel : ℕ) : timerWorkerNext fuel r.task r.current =
    if r.after 1 / 1000000 < 2 ^ 63 then
      if r.task.elapseSkip then
        timerSkipLoop r.current r.task.period fuel (.ofMicros (r.after 1))
      else some (.ofMicros (r.after 1))
    else none := by
  have hpos := r.period_pos
  have hget : timerGetDelayed r.task.nextrun r.task.period = if r.after 1 / 1000000 < 2 ^ 63 then
      some (.ofMicros (r.after 1)) else none := by
    rw [after_one, ← timerGetDelayed_ofMicros r.seconds.2.2 (by omega),
      r.nextrun_normal.ofMicros_micros]
  rw [timerWorkerNext, if_pos ⟨r.repeated, r.uncanceled⟩, hget]
  split <;> rfl

/-- Away from the edge the loop finds the number of periods. -/
lemma skip_eq {k fuel : ℕ} (hskip : r.task.elapseSkip = true)
    (hedge : r.current.sec - r.after 1 / 1000000 ≠ 2 ^ 31) (hk : TimerPeriods r.task r.current k)
    (hfuel : k ≤ fuel) (hfits : r.after 1 / 1000000 < 2 ^ 63) :
    timerSkipLoop r.current r.task.period fuel (.ofMicros (r.after 1)) =
      if r.after k / 1000000 < 2 ^ 63 then some (.ofMicros (r.after k)) else none := by
  have hpos := r.period_pos
  obtain ⟨hcur, hsec, hmin⟩ := r.seconds
  have hnear := abs_lt.mp r.near
  have hnext := abs_lt.mp r.near_next
  rw [← after_one] at hnext
  obtain ⟨k, rfl⟩ := Nat.exists_eq_add_one.mpr hk.pos
  have hshift (j : ℕ) : r.after 1 + j * (r.task.period * 1000) = r.after (j + 1) := by
    rw [after, after]
    push_cast
    ring
  have hone := r.after_one
  rw [hsec] at hedge
  by_cases hmax : r.task.period * 1000 < 2 ^ 31 * 1000000
  · have hloop := timerSkipLoop_spec hpos hmax k fuel (r.after 1) (d := r.current.micros) (by omega)
      (by omega) hfits (by omega) (by omega)
      (fun j hj => by rw [hshift]; exact hk.least hskip (j + 1) (by omega) (by omega))
      (by rw [hshift]; exact hk.reached hskip)
    rwa [hshift, hcur] at hloop
  · -- a longer period is not elapsed
    have hcmp := timerTVCompare_pos_iff r.current_normal (TimeVal.normal_ofMicros (r.after 1))
      (by rw [hsec, TimeVal.sec_ofMicros]; omega) (by rw [hsec, TimeVal.sec_ofMicros]; omega)
    rw [TimeVal.micros_ofMicros] at hcmp
    obtain rfl : k = 0 := by
      by_contra hne
      have := hk.least hskip 1 le_rfl (by omega)
      rw [Nat.cast_one, one_mul] at this
      omega
    obtain ⟨fuel, rfl⟩ := Nat.exists_eq_add_one.mpr (show 0 < fuel by omega)
    rw [timerSkipLoop, if_neg (by rw [hcmp]; omega), zero_add, if_pos hfits]

end TimerRound

/-- **Rescheduling.** The next run is moved by the right number of periods exactly when the seconds
fit, and `current` is not, in seconds, `2 ^ 31` behind the first next run: there the difference
becomes negative. -/
theorem timerWorkerNext_iff (r : TimerRound) : r.Right ↔ r.InReach := by
  obtain ⟨k, hk⟩ := r.exists_periods
  have hpos := r.period_pos
  have hle : r.after 1 ≤ r.after k := by
    have := le_mul_of_one_le_left (show 0 ≤ r.task.period * 1000 by omega)
      (show (1 : ℤ) ≤ k by exact_mod_cast hk.pos)
    rw [r.after_one, TimerRound.after]
    omega
  have hrep : (∀ k', TimerPeriods r.task r.current k' → r.after k' / 1000000 < 2 ^ 63) ↔
      r.after k / 1000000 < 2 ^ 63 :=
    ⟨fun h => h k hk, fun h k' hk' => by rwa [r.periods_unique hk' hk]⟩
  rw [TimerRound.InReach, hrep]
  constructor
  · rintro ⟨k', v, hk', hv, hmicros, n, hn⟩
    obtain rfl := r.periods_unique hk' hk
    have hrun := hn (n + k' + 1) (by omega)
    rw [r.next_eq] at hrun
    split_ifs at hrun with hfits hskip
    · have hedge : r.current.sec - r.after 1 / 1000000 ≠ 2 ^ 31 := by
        intro hedge
        -- the loop ends at once, before the current time
        have hcmp : timerTVCompare r.current (.ofMicros (r.after 1)) = -2 ^ 31 := by
          rw [timerTVCompare, TimeVal.sec_ofMicros, hedge]
          rfl
        rw [timerSkipLoop, hcmp, if_neg (by norm_num)] at hrun
        obtain rfl := Option.some.inj hrun
        have hnext := (abs_lt.mp r.near_next).2
        have hreach := hk.reached hskip
        rw [← TimerRound.after, ← hmicros, TimeVal.micros_ofMicros] at hreach
        have := r.seconds.2.1
        omega
      rw [r.skip_eq hskip hedge hk (by omega) hfits] at hrun
      split_ifs at hrun with hlast
      exact ⟨fun _ => hedge, hlast⟩
    · obtain rfl := hk.single (by simpa using hskip)
      exact ⟨fun h => absurd h hskip, hfits⟩
  · rintro ⟨hedge, hlast⟩
    have hfits : r.after 1 / 1000000 < 2 ^ 63 := by omega
    refine ⟨k, _, hk, TimeVal.normal_ofMicros _, TimeVal.micros_ofMicros (r.after k), k,
      fun fuel hfuel => ?_⟩
    rw [r.next_eq, if_pos hfits]
    split_ifs with hskip
    · rw [r.skip_eq hskip (hedge hskip) hk hfuel hfits, if_pos hlast]
    · rw [hk.single (by simpa using hskip)]

/-- A next run at the beginning of 1970, and a current time in the year 2038. -/
def timerLateRound : TimerRound where
  task := ⟨.repeated, false, ⟨0, 998999⟩, 1, true⟩
  current := ⟨2 ^ 31, 0⟩
  repeated := rfl
  uncanceled := rfl
  period_pos := le_rfl
  nextrun_normal := by decide
  nextrun_fits := by decide
  current_normal := by decide
  current_fits := by decide
  near := by decide
  near_next := by decide

/-- The next run stays in the past. -/
theorem timerWorkerNext_fails : ¬ timerLateRound.Right := by
  rintro ⟨k, v, hk, -, hmicros, n, hn⟩
  have hrun := hn (n + 1) (by omega)
  rw [show timerWorkerNext (n + 1) timerLateRound.task timerLateRound.current =
    some ⟨0, 999999⟩ from rfl] at hrun
  obtain rfl := Option.some.inj hrun
  have hreach := hk.reached rfl
  rw [← TimerRound.after, ← hmicros] at hreach
  exact absurd hreach (by decide)

end LibCmutils
