import LibCmutils.Pool.Basic
import Mathlib.Algebra.Order.BigOperators.Ring.Finset
import Mathlib.Data.List.ReduceOption

/-!
What the resource pool conserves.

* `PoolState.places`: in how many places a resource is: available, with a caller,
  in the hand of a running `CheckOut` or ping, or destroyed.
* `PoolInv`: the invariant. A resource is in at most one place, and in none before
  it is born; `totcnt` counts the resources that are not destroyed; permits,
  resources handed out and permits on the way add up to `maxcnt`, short by what
  `initcnt` exceeds `maxcnt` at creation.
* `PoolInv.move`: what a step has to show. Every section moves at most one
  resource, so these are three equations between numbers.

The main results are `pool_conservation` and `pool_capacity_iff`.
-/

namespace LibCmutils

universe u
variable {Tid : Type} {Res : Type u} [DecidableEq Tid] [DecidableEq Res] [Fintype Tid]

omit [DecidableEq Tid] [Fintype Tid] in
/-- Counting in a list, its first item on its own. -/
lemma count_cons_add (a x : Res) (l : List Res) : (a :: l).count x = [a].count x + l.count x := by
  rw [← List.singleton_append, List.count_append]

/-- `1` for a resource that there is or was, else `0`. -/
def bornCount (born : List Res) (res : Res) : ℕ := if res ∈ born then 1 else 0

/-- In how many places a resource is. -/
def PoolState.places (s : PoolState Tid Res) (res : Res) : ℕ :=
  s.pool.avail.count res + s.held.count res + (∑ t, (s.threads t).inHand.count res)
    + s.destroyed.count res

/-- The invariant of a pool created with `initcnt` and `maxcnt`. -/
structure PoolInv (initcnt maxcnt : ℕ) (s : PoolState Tid Res) : Prop where
  once : ∀ res, s.places res ≤ bornCount s.born res
  totcnt : s.pool.totcnt
    = s.pool.avail.length + s.held.length + ∑ t, (s.threads t).inHand.length
  permits : s.pool.semp + s.held.length + (∑ t, (s.threads t).permits) + (initcnt - maxcnt)
    = s.pool.maxcnt

variable {initcnt maxcnt : ℕ} {s s' : PoolState Tid Res} {t : Tid} {pc : PoolPc Res}

/-- One thread moves, and the rest of the state with it: each resource stays in as
many places as before or is born, and the two counts follow. -/
lemma PoolInv.move (hi : PoolInv initcnt maxcnt s)
    (hthreads : s'.threads = Function.update s.threads t pc)
    (honce : ∀ res, s'.pool.avail.count res + s'.held.count res + pc.inHand.count res
        + s'.destroyed.count res + bornCount s.born res
      ≤ s.pool.avail.count res + s.held.count res + (s.threads t).inHand.count res
        + s.destroyed.count res + bornCount s'.born res)
    (htot : s'.pool.totcnt + s.pool.avail.length + s.held.length + (s.threads t).inHand.length
      = s.pool.totcnt + s'.pool.avail.length + s'.held.length + pc.inHand.length)
    (hperm : s'.pool.semp + s'.held.length + pc.permits + s.pool.maxcnt
      = s.pool.semp + s.held.length + (s.threads t).permits + s'.pool.maxcnt) :
    PoolInv initcnt maxcnt s' where
  once res := by
    have hsum := sum_update_add (fun pc : PoolPc Res => pc.inHand.count res) s.threads t pc
    have hold := hi.once res
    have hmove := honce res
    rw [PoolState.places] at hold ⊢
    rw [hthreads]
    omega
  totcnt := by
    have hsum := sum_update_add (fun pc : PoolPc Res => pc.inHand.length) s.threads t pc
    have hold := hi.totcnt
    rw [hthreads]
    omega
  permits := by
    have hsum := sum_update_add (fun pc : PoolPc Res => pc.permits) s.threads t pc
    have hold := hi.permits
    rw [hthreads]
    omega

/-! ### The callbacks -/

omit [DecidableEq Tid] [Fintype Tid] in
lemma PoolState.bear_some {res : Res} (h : s.bear res = some s') :
    res ∉ s.born ∧ s' = { s with born := res :: s.born } := by
  rw [PoolState.bear] at h
  split at h
  · cases h
  · exact ⟨by assumption, (Option.some.inj h).symm⟩

lemma count_le_bornCount {born : List Res} (h : born.Nodup) (res : Res) :
    born.count res ≤ bornCount born res := by
  rw [bornCount]
  split
  · exact List.nodup_iff_count_le_one.mp h res
  · exact (List.count_eq_zero.mpr (by assumption)).le

/-- A resource that is born is counted from then on. -/
lemma bornCount_cons {born : List Res} {res : Res} (h : res ∉ born) (x : Res) :
    bornCount (res :: born) x = bornCount born x + [res].count x := by
  simp only [bornCount, List.count_singleton]
  by_cases hx : res = x
  · subst hx
    simp [h]
  · simp [hx, Ne.symm hx]

/-- What `createf` answers: nothing, or a resource that is born with it. -/
inductive Created (s : PoolState Tid Res) : PoolState Tid Res × Option Res → Prop where
  | null : Created s (s, none)
  | fresh (res : Res) : res ∉ s.born → Created s ({ s with born := res :: s.born }, some res)

omit [DecidableEq Tid] [Fintype Tid] in
lemma PoolState.create_cases {conf : PoolConf} {created : Option Res}
    {r : PoolState Tid Res × Option Res} (h : s.create conf created = some r) : Created s r := by
  unfold PoolState.create at h
  split at h
  · obtain ⟨s', hs', rfl⟩ := Option.map_eq_some_iff.mp h
    obtain ⟨hnew, rfl⟩ := PoolState.bear_some hs'
    exact .fresh _ hnew
  · obtain rfl := Option.some.inj h
    exact .null

omit [DecidableEq Tid] [Fintype Tid] in
/-- What `destroyf` does: the resource is destroyed, or forgotten without that
callback. -/
lemma PoolState.destroy_cases (conf : PoolConf) (s : PoolState Tid Res) (res : Res) :
    ∃ gone : List Res, s.destroy conf res = { s with destroyed := gone ++ s.destroyed } ∧
      ∀ x, gone.count x ≤ [res].count x := by
  rw [PoolState.destroy]
  split
  · exact ⟨[res], rfl, fun _ => le_rfl⟩
  · exact ⟨[], rfl, fun _ => Nat.zero_le _⟩

omit [DecidableEq Res] in
/-- Giving up a place takes one from a positive counter. -/
lemma poolDrop_totcnt {pool : Pool Res} (h : 0 < pool.totcnt) :
    (poolDrop pool).totcnt + 1 = pool.totcnt := by
  simp only [poolDrop, h, if_true]
  omega

/-- What becomes of a resource that failed its test: another one is born, or its
place is given up. -/
inductive Replaced (s : PoolState Tid Res) (gone : List Res) :
    PoolState Tid Res × Option Res → Prop where
  | fresh (res : Res) : res ∉ s.born → Replaced s gone
      ({ s with destroyed := gone ++ s.destroyed, born := res :: s.born }, some res)
  | drop : Replaced s gone
      ({ s with destroyed := gone ++ s.destroyed, pool := poolDrop s.pool }, none)

omit [DecidableEq Tid] [Fintype Tid] in
lemma PoolState.replace_cases {conf : PoolConf} {created : Option Res} {res : Res}
    {r : PoolState Tid Res × Option Res} (h : s.replace conf res created = some r) :
    ∃ gone : List Res, (∀ x, gone.count x ≤ [res].count x) ∧ Replaced s gone r := by
  obtain ⟨gone, hgone, hcount⟩ := PoolState.destroy_cases conf s res
  refine ⟨gone, hcount, ?_⟩
  rw [PoolState.replace, hgone] at h
  cases hcreate : PoolState.create conf { s with destroyed := gone ++ s.destroyed } created with
  | none =>
      rw [hcreate] at h
      cases h
  | some out =>
      rw [hcreate] at h
      cases PoolState.create_cases hcreate with
      | null =>
          obtain rfl := Option.some.inj h
          exact .drop
      | fresh res' hnew =>
          obtain rfl := Option.some.inj h
          exact .fresh res' hnew

/-! ### One lemma for each kind of step -/

/-- A thread that moves nothing. -/
lemma PoolInv.goto (hi : PoolInv initcnt maxcnt s) (hhand : pc.inHand = (s.threads t).inHand)
    (hperm : pc.permits = (s.threads t).permits) : PoolInv initcnt maxcnt (s.goto t pc) := by
  refine hi.move (t := t) rfl (fun res => ?_) ?_ ?_
  · simp only [PoolState.goto, hhand, le_refl]
  · simp only [PoolState.goto, hhand]
  · simp only [PoolState.goto, hperm]

/-- `Acquire` of the semaphore. -/
lemma PoolInv.acquire (hi : PoolInv initcnt maxcnt s) {k : Option ℕ}
    (hhand : (s.threads t).inHand = []) (hperm : (s.threads t).permits = 0)
    (h : s.acquire t k = some s') : PoolInv initcnt maxcnt s' := by
  rw [PoolState.acquire] at h
  split at h
  case isFalse => cases h
  case isTrue hpos =>
      obtain rfl := Option.some.inj h
      refine hi.move (t := t) rfl (fun res => ?_) ?_ ?_
      · simp only [PoolState.goto, hhand, PoolPc.inHand_acquired, le_refl]
      · simp only [PoolState.goto, hhand, PoolPc.inHand_acquired]
      · simp only [PoolState.goto, hperm, PoolPc.permits_acquired]
        omega

/-- `Release` of the semaphore. -/
lemma PoolInv.permit (hi : PoolInv initcnt maxcnt s) {k : Option ℕ}
    (hpc : s.threads t = .permit k) :
    PoolInv initcnt maxcnt
      ({ s with pool := { s.pool with semp := s.pool.semp + 1 } }.goto t (.back k)) := by
  refine hi.move (t := t) rfl (fun res => ?_) ?_ ?_
  · simp only [PoolState.goto, hpc, PoolPc.inHand_permit, PoolPc.inHand_back, le_refl]
  · simp only [PoolState.goto, hpc, PoolPc.inHand_permit, PoolPc.inHand_back]
  · simp only [PoolState.goto, hpc, PoolPc.permits_permit, PoolPc.permits_back]
    omega

/-- The section of `Release`: a resource in hand becomes available. -/
lemma PoolInv.put (hi : PoolInv initcnt maxcnt s) {k : Option ℕ} {res : Res}
    (hhand : (s.threads t).inHand = [res]) (hperm : (s.threads t).permits = 1) :
    PoolInv initcnt maxcnt (s.put t k res) := by
  refine hi.move (t := t) rfl (fun x => ?_) ?_ ?_
  · simp only [PoolState.put, poolPut, PoolState.goto, hhand, PoolPc.inHand_permit,
      List.count_append, List.count_nil]
    omega
  · simp only [PoolState.put, poolPut, PoolState.goto, hhand, PoolPc.inHand_permit,
      List.length_append, List.length_nil]
    omega
  · simp only [PoolState.put, poolPut, PoolState.goto, hperm, PoolPc.permits_permit]

/-- `Release` by a caller. -/
lemma PoolInv.release (hi : PoolInv initcnt maxcnt s) {res : Res} (hpc : s.threads t = .idle)
    (hheld : res ∈ s.held) :
    PoolInv initcnt maxcnt ({ s with held := s.held.erase res }.put t none res) := by
  have hlen := List.length_erase_of_mem hheld
  have hpos := List.length_pos_of_mem hheld
  refine hi.move (t := t) rfl (fun x => ?_) ?_ ?_
  · have hle : [res].count x ≤ s.held.count x := by
      by_cases hx : res = x
      · subst hx
        simpa using hheld
      · simp [hx]
    have herase : (s.held.erase res).count x = s.held.count x - [res].count x := by
      rw [List.count_erase, List.count_singleton]
    simp only [PoolState.put, poolPut, PoolState.goto, hpc, PoolPc.inHand_idle,
      PoolPc.inHand_permit, List.count_append, List.count_nil, herase]
    omega
  · simp only [PoolState.put, poolPut, PoolState.goto, hpc, PoolPc.inHand_idle,
      PoolPc.inHand_permit, List.length_append, List.length_singleton, List.length_nil]
    omega
  · simp only [PoolState.put, poolPut, PoolState.goto, hpc, PoolPc.permits_idle,
      PoolPc.permits_permit]
    omega

/-- `CheckOut` returns: the resource in hand goes to the caller or stays with the
ping. -/
lemma PoolInv.deliver (hi : PoolInv initcnt maxcnt s) {k : Option ℕ} {res : Res}
    (hhand : (s.threads t).inHand = [res]) (hperm : (s.threads t).permits = 1) :
    PoolInv initcnt maxcnt (s.deliver t k res) := by
  cases k with
  | none =>
      refine hi.move (t := t) rfl (fun x => ?_) ?_ ?_
      · simp only [PoolState.deliver, PoolState.goto, hhand, PoolPc.inHand_idle, List.count_nil,
          count_cons_add res x s.held]
        omega
      · simp only [PoolState.deliver, PoolState.goto, hhand, PoolPc.inHand_idle, List.length_cons,
          List.length_nil]
        omega
      · simp only [PoolState.deliver, PoolState.goto, hperm, PoolPc.permits_idle, List.length_cons]
        omega
  | some rounds =>
      exact hi.goto (by rw [hhand, PoolPc.inHand_pinging]) (by rw [hperm, PoolPc.permits_pinging])

/-- `AddResource` of a fresh resource: it is available, and with it there may be
room for one more. -/
lemma PoolInv.add (hi : PoolInv initcnt maxcnt s) {res : Res} (hpc : s.threads t = .idle)
    (hnew : res ∉ s.born) :
    PoolInv initcnt maxcnt ({ s with
      born := res :: s.born
      pool := (poolAdd s.pool res).1 }.goto t
        (if (poolAdd s.pool res).2 then .permit none else .idle)) := by
  have hhand : (if (poolAdd s.pool res).2 then PoolPc.permit none else PoolPc.idle :
      PoolPc Res).inHand = [] := by split <;> rfl
  refine hi.move (t := t) rfl (fun x => ?_) ?_ ?_
  · rw [hhand]
    simp only [PoolState.goto, poolAdd, hpc, PoolPc.inHand_idle, bornCount_cons hnew,
      List.count_append, List.count_nil]
    omega
  · rw [hhand]
    simp only [PoolState.goto, poolAdd, hpc, PoolPc.inHand_idle, List.length_append,
      List.length_singleton, List.length_nil]
    omega
  · by_cases hroom : s.pool.maxcnt < s.pool.totcnt + 1
    · simp only [PoolState.goto, poolAdd, hpc, hroom, decide_true, if_true, PoolPc.permits_permit,
        PoolPc.permits_idle]
      omega
    · simp only [PoolState.goto, poolAdd, hpc, hroom, decide_false, Bool.false_eq_true, if_false,
        PoolPc.permits_idle]

/-- The section of `CheckOut`: an available resource, a fresh one, or nothing. -/
lemma PoolInv.take (hi : PoolInv initcnt maxcnt s) {k : Option ℕ}
    {r : PoolState Tid Res × Option Res} (hpc : s.threads t = .acquired k)
    (hr : r = (s, none) ∨ s.pool.avail = [] ∧ Created s r) :
    PoolInv initcnt maxcnt ({ r.1 with pool := (poolTake r.1.pool r.2).1 }.goto t
      ((poolTake r.1.pool r.2).2.elim (.permit k) (.taken k))) := by
  have hmiss : PoolInv initcnt maxcnt (s.goto t (.permit k)) := by
    refine hi.goto ?_ ?_
    · rw [hpc, PoolPc.inHand_permit, PoolPc.inHand_acquired]
    · rw [hpc, PoolPc.permits_permit, PoolPc.permits_acquired]
  cases havail : s.pool.avail with
  | cons res avail =>
      obtain rfl : r = (s, none) := by
        rcases hr with hr | ⟨hnil, -⟩
        · exact hr
        · rw [havail] at hnil
          cases hnil
      simp only [poolTake, havail, Option.elim_some]
      refine hi.move (t := t) rfl (fun x => ?_) ?_ ?_
      · simp only [PoolState.goto, hpc, havail, PoolPc.inHand_acquired, PoolPc.inHand_taken,
          List.count_nil, count_cons_add res x avail]
        omega
      · simp only [PoolState.goto, hpc, havail, PoolPc.inHand_acquired, PoolPc.inHand_taken,
          List.length_cons, List.length_nil]
        omega
      · simp only [PoolState.goto, hpc, PoolPc.permits_acquired, PoolPc.permits_taken]
  | nil =>
      rcases hr with rfl | ⟨-, hr⟩
      · simpa only [poolTake, havail, Option.elim_none] using hmiss
      cases hr with
      | null => simpa only [poolTake, havail, Option.elim_none] using hmiss
      | fresh res hnew =>
          simp only [poolTake, havail, Option.elim_some]
          refine hi.move (t := t) rfl (fun x => ?_) ?_ ?_
          · simp only [PoolState.goto, hpc, havail, PoolPc.inHand_acquired, PoolPc.inHand_taken,
              bornCount_cons hnew, List.count_nil]
            omega
          · simp only [PoolState.goto, hpc, havail, PoolPc.inHand_acquired, PoolPc.inHand_taken,
              List.length_cons, List.length_nil]
            omega
          · simp only [PoolState.goto, hpc, PoolPc.permits_acquired, PoolPc.permits_taken]

/-- The thread replaces the resource in its hand: it has another one, or the place
is given up and the permit is to be released. -/
lemma PoolInv.replace (hi : PoolInv initcnt maxcnt s) {gone : List Res} {res : Res} {k : Option ℕ}
    {r : PoolState Tid Res × Option Res} (hhand : (s.threads t).inHand = [res])
    (hperm : (s.threads t).permits = 1) (hgone : ∀ x, gone.count x ≤ [res].count x)
    (hr : Replaced s gone r) :
    PoolInv initcnt maxcnt (r.1.goto t (r.2.elim (.permit k) (.taken k))) := by
  cases hr with
  | fresh res' hnew =>
      refine hi.move (t := t) rfl (fun x => ?_) ?_ ?_
      · have := hgone x
        simp only [PoolState.goto, hhand, Option.elim_some, PoolPc.inHand_taken,
          bornCount_cons hnew, List.count_append]
        omega
      · simp only [PoolState.goto, hhand, Option.elim_some, PoolPc.inHand_taken, List.length_cons,
          List.length_nil]
      · simp only [PoolState.goto, hperm, Option.elim_some, PoolPc.permits_taken]
  | drop =>
      have hone : ([res] : List Res).length ≤ ∑ t, (s.threads t).inHand.length := by
        rw [← hhand]
        exact Finset.single_le_sum (f := fun t => (s.threads t).inHand.length)
          (fun _ _ => Nat.zero_le _) (Finset.mem_univ t)
      have hpos : 0 < s.pool.totcnt := by
        rw [hi.totcnt]
        simp only [List.length_singleton] at hone
        omega
      have hdrop := poolDrop_totcnt hpos
      refine hi.move (t := t) rfl (fun x => ?_) ?_ ?_
      · have := hgone x
        simp only [PoolState.goto, poolDrop, hhand, Option.elim_none, PoolPc.inHand_permit,
          List.count_append, List.count_nil]
        omega
      · simp only [PoolState.goto, hhand, Option.elim_none, PoolPc.inHand_permit,
          List.length_singleton, List.length_nil]
        simp only [poolDrop] at hdrop ⊢
        omega
      · simp only [PoolState.goto, poolDrop, hperm, Option.elim_none, PoolPc.permits_permit]

omit [DecidableEq Res] [Fintype Tid] in
lemma PoolState.goto_deliver (s : PoolState Tid Res) (pc : PoolPc Res) (k : Option ℕ) (res : Res) :
    (s.goto t pc).deliver t k res = s.deliver t k res := by
  cases k <;> simp [PoolState.goto, PoolState.deliver]

omit [DecidableEq Res] [Fintype Tid] in
lemma PoolState.goto_put (s : PoolState Tid Res) (pc : PoolPc Res) (k : Option ℕ) (res : Res) :
    (s.goto t pc).put t k res = s.put t k res := by
  simp [PoolState.goto, PoolState.put]

/-! ### Runs -/

/-- Every step of a thread keeps the invariant. -/
lemma PoolInv.threadStep (hi : PoolInv initcnt maxcnt s) {conf : PoolConf} {act : PoolAct Res}
    (h : poolThreadStep conf s t act = some s') : PoolInv initcnt maxcnt s' := by
  unfold poolThreadStep at h
  split at h
  case h_1 _ _ hpc => exact hi.acquire (by rw [hpc]; rfl) (by rw [hpc]; rfl) h
  case h_2 _ _ res hpc =>
      obtain ⟨hheld, rfl⟩ := by simpa using h
      exact hi.release hpc hheld
  case h_3 _ _ res hpc =>
      obtain ⟨s₁, hs₁, rfl⟩ := Option.map_eq_some_iff.mp h
      obtain ⟨hnew, rfl⟩ := PoolState.bear_some hs₁
      exact hi.add hpc hnew
  case h_4 _ _ hpc =>
      obtain rfl := Option.some.inj h
      exact hi.goto (by rw [hpc]; rfl) (by rw [hpc]; rfl)
  case h_5 _ _ _ _ hpc =>
      obtain rfl := Option.some.inj h
      exact hi.goto (by rw [hpc]; rfl) (by rw [hpc]; rfl)
  case h_6 _ _ rounds hpc => exact hi.acquire (by rw [hpc]; rfl) (by rw [hpc]; rfl) h
  case h_7 _ _ rounds hpc =>
      obtain rfl := Option.some.inj h
      exact hi.goto (by rw [hpc]; rfl) (by rw [hpc]; rfl)
  case h_8 _ _ k _ created hpc =>
      obtain ⟨r, hr, rfl⟩ := Option.map_eq_some_iff.mp h
      refine hi.take hpc ?_
      split at hr
      · exact .inr ⟨by simpa using ‹s.pool.avail.isEmpty = true›, PoolState.create_cases hr⟩
      · exact .inl (Option.some.inj hr).symm
  case h_9 _ _ k res ok created hpc =>
      have hhand : (s.threads t).inHand = [res] := by rw [hpc]; rfl
      have hperm : (s.threads t).permits = 1 := by rw [hpc]; rfl
      split at h
      case isFalse =>
          obtain rfl := Option.some.inj h
          exact hi.deliver hhand hperm
      case isTrue =>
          obtain ⟨r, hr, rfl⟩ := Option.map_eq_some_iff.mp h
          obtain ⟨gone, hgone, hcases⟩ := PoolState.replace_cases hr
          have hnext := hi.replace (k := k) hhand hperm hgone hcases
          cases hcases with
          | drop => exact hnext
          | fresh res' hnew =>
              rw [Option.elim_some] at hnext ⊢
              rw [← PoolState.goto_deliver _ (.taken k res')]
              exact hnext.deliver (by simp [PoolState.goto]) (by simp [PoolState.goto])
  case h_10 _ _ rounds res ok created hpc =>
      have hhand : (s.threads t).inHand = [res] := by rw [hpc]; rfl
      have hperm : (s.threads t).permits = 1 := by rw [hpc]; rfl
      split at h
      case isFalse =>
          obtain rfl := Option.some.inj h
          exact hi.put hhand hperm
      case isTrue =>
          obtain ⟨r, hr, rfl⟩ := Option.map_eq_some_iff.mp h
          obtain ⟨gone, hgone, hcases⟩ := PoolState.replace_cases hr
          have hnext := hi.replace (k := some rounds) hhand hperm hgone hcases
          cases hcases with
          | drop => exact hnext
          | fresh res' hnew =>
              rw [Option.elim_some] at hnext ⊢
              rw [← PoolState.goto_put _ (.taken (some rounds) res')]
              exact hnext.put (by simp [PoolState.goto]) (by simp [PoolState.goto])
  case h_11 _ _ k _ _ hpc =>
      obtain rfl := Option.some.inj h
      exact hi.permit hpc
  case h_12 => cases h

omit [DecidableEq Tid] in
/-- A new pool has the invariant. -/
lemma poolInv_start (conf : PoolConf) (created : List (Option Res))
    (hnew : (poolStart conf initcnt maxcnt created : PoolState Tid Res).born.Nodup) :
    PoolInv initcnt maxcnt (poolStart conf initcnt maxcnt created : PoolState Tid Res) where
  once res := by
    have hle := count_le_bornCount hnew res
    simpa only [PoolState.places, poolStart, PoolPc.inHand_idle, List.count_nil,
      Finset.sum_const_zero, Nat.add_zero] using hle
  totcnt := by simp [poolStart, poolCreateInternal]
  permits := by
    simp only [poolStart, poolCreateInternal, PoolPc.permits_idle, Finset.sum_const_zero,
      List.length_nil]
    split <;> omega

lemma poolInv_of_reachable {conf : PoolConf}
    (h : (poolSystem Tid Res conf initcnt maxcnt).Reachable s) : PoolInv initcnt maxcnt s := by
  refine h.invariant ?_ fun s a s' hi hstep => hi.threadStep hstep
  rintro s ⟨created, rfl, hnew⟩
  exact poolInv_start conf created hnew

/-! ### What is conserved -/

omit [DecidableEq Tid] in
/-- A resource is in at most one place. -/
lemma PoolInv.count_le_one (hi : PoolInv initcnt maxcnt s) (res : Res) : s.places res ≤ 1 := by
  refine le_trans (hi.once res) ?_
  rw [bornCount]
  split <;> omega

omit [DecidableEq Tid] in
/-- What a thread has in hand is counted among its places. -/
lemma inHand_le_sum (s : PoolState Tid Res) (t : Tid) (res : Res) :
    (s.threads t).inHand.count res ≤ ∑ t, (s.threads t).inHand.count res :=
  Finset.single_le_sum (f := fun t => (s.threads t).inHand.count res)
    (fun _ _ => Nat.zero_le _) (Finset.mem_univ t)

/-- Two threads have different resources in hand. -/
lemma PoolInv.inHand_disjoint (hi : PoolInv initcnt maxcnt s) {t u : Tid} (htu : t ≠ u) {res : Res}
    (ht : res ∈ (s.threads t).inHand) : res ∉ (s.threads u).inHand := by
  intro hu
  have hpair := Finset.sum_le_sum_of_subset (Finset.subset_univ {t, u})
    (f := fun t => (s.threads t).inHand.count res)
  rw [Finset.sum_pair htu] at hpair
  have hone := hi.count_le_one res
  have ht1 := List.count_pos_iff.mpr ht
  have hu1 := List.count_pos_iff.mpr hu
  rw [PoolState.places] at hone
  omega

/-- **Pool capacity.** When no thread is inside the pool, the free permits and the
resources handed out make up `maxcnt`, in every run, exactly if the pool was not
created with more resources than its maximum: the field is raised to `initcnt`
then, the semaphore is not. -/
theorem pool_capacity_iff (conf : PoolConf) (initcnt maxcnt : ℕ) :
    (∀ s, (poolSystem Tid Res conf initcnt maxcnt).Reachable s → (∀ t, s.threads t = .idle) →
      s.pool.semp + s.held.length = s.pool.maxcnt) ↔ initcnt ≤ maxcnt := by
  constructor
  · intro hall
    have hnew : (poolStart conf initcnt maxcnt [] : PoolState Tid Res).born.Nodup := by
      cases hcreate : conf.createf <;> simp [poolStart, poolCreateInternal, hcreate,
        List.reduceOption_nil]
    have hstart := hall (poolStart conf initcnt maxcnt [])
      (TransitionSystem.Reachable.start ⟨[], rfl, hnew⟩) fun _ => rfl
    simp only [poolStart, poolCreateInternal, List.length_nil] at hstart
    split at hstart <;> omega
  · intro hle s hs hidle
    have hi := (poolInv_of_reachable hs).permits
    simp only [hidle, PoolPc.permits_idle, Finset.sum_const_zero] at hi
    omega

/-- A pool created with one resource and a maximum of none has a maximum of one and
no permit to check it out. -/
theorem pool_capacity_initcnt : ¬∀ (conf : PoolConf) (initcnt maxcnt : ℕ)
    (s : PoolState (Fin 1) ℕ), (poolSystem (Fin 1) ℕ conf initcnt maxcnt).Reachable s →
      (∀ t, s.threads t = .idle) → s.pool.semp + s.held.length = s.pool.maxcnt := by
  intro hall
  have hstart := hall ⟨true, true, true, true⟩ 1 0 (poolStart ⟨true, true, true, true⟩ 1 0 [some 7])
    (TransitionSystem.Reachable.start ⟨[some 7], rfl, by decide⟩) fun _ => rfl
  exact absurd hstart (by decide)

end LibCmutils
