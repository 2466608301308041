import LibCmutils.Lib.Transition
import LibCmutils.Lib.Threads

/-!
Resource pools (`src/pool.c`): `CMUTIL_Pool` and the threads that use it.

* `PoolConf`: the callbacks and options a pool was created with. `Pool`: the list
  of available resources, the counters, and the permits of the semaphore.
* `poolTake`, `poolPut`, `poolAdd`, `poolDrop`: the sections that `avlmtx`
  protects.
* `PoolPc`: where a thread stands in `CheckOut`, `Release`, `AddResource` or the
  ping. `CheckOut` is also called by the ping, which goes on with its loop where a
  caller gets the resource.
* `PoolState`: the pool, the threads, the resources callers hold, and the
  resources that ever were or were destroyed.
* `poolSystem`: the threads interleaved. Each section, `Acquire` and `Release` of
  the semaphore is one step. The callbacks of a thread work on the one resource it
  has in hand, so `testf`, `destroyf` and `createf` are taken together with the
  section that follows them; their answers are part of the action.
-/

namespace LibCmutils

universe u

/-! ### The pool -/

/-- Which callbacks a pool has, and its test-on-borrow option. -/
structure PoolConf where
  createf : Bool
  destroyf : Bool
  testf : Bool
  testonb : Bool
  deriving DecidableEq

/-- `CMUTIL_Pool_Internal`; `semp` is the number of free permits. -/
structure Pool (Res : Type u) where
  avail : List Res
  semp : ℕ
  totcnt : ℕ
  maxcnt : ℕ
  deriving DecidableEq

section Sections

variable {Res : Type u}

/-- The section of `CMUTIL_PoolCheckOut`: an available resource, or the one that
`createf` made. -/
def poolTake (pool : Pool Res) (created : Option Res) : Pool Res × Option Res :=
  match pool.avail with
  | res :: avail => ({ pool with avail := avail }, some res)
  | [] =>
      match created with
      | some res => ({ pool with totcnt := pool.totcnt + 1 }, some res)
      | none => (pool, none)

/-- The section of `CMUTIL_PoolRelease`. -/
def poolPut (pool : Pool Res) (resource : Res) : Pool Res :=
  { pool with avail := pool.avail ++ [resource] }

/-- The section of `CMUTIL_PoolAddResource`, and whether it made room for one
more resource (`incmax`). -/
def poolAdd (pool : Pool Res) (resource : Res) : Pool Res × Bool :=
  let totcnt := pool.totcnt + 1
  let incmax := decide (pool.maxcnt < totcnt)
  ({ pool with
      avail := pool.avail ++ [resource]
      totcnt := totcnt
      maxcnt := if incmax then pool.maxcnt + 1 else pool.maxcnt }, incmax)

/-- The section that gives up the place of a resource that was not replaced. -/
def poolDrop (pool : Pool Res) : Pool Res :=
  { pool with totcnt := if 0 < pool.totcnt then pool.totcnt - 1 else pool.totcnt }

/-- `CMUTIL_PoolCreateInternal`. `created` are the answers of `createproc`, in
order. -/
def poolCreateInternal (conf : PoolConf) (initcnt maxcnt : ℕ) (created : List (Option Res)) :
    Pool Res :=
  let rsrcs := if conf.createf then (created.take initcnt).reduceOption else []
  { avail := rsrcs
    semp := maxcnt
    totcnt := rsrcs.length
    maxcnt := if maxcnt < initcnt then initcnt else maxcnt }

end Sections

/-! ### Threads -/

/-- Where a thread stands. `k` tells who called `CheckOut` or `Release`: a caller,
or the ping with that many rounds left. -/
inductive PoolPc (Res : Type u) where
  /-- Outside the pool. -/
  | idle
  /-- In the loop of the ping. -/
  | ping (rounds : ℕ)
  /-- In `CheckOut`, with a permit, before the section. -/
  | acquired (k : Option ℕ)
  /-- In `CheckOut`, after the section, with a resource to be tested. -/
  | taken (k : Option ℕ) (res : Res)
  /-- In the ping, with the resource that `CheckOut` returned. -/
  | pinging (rounds : ℕ) (res : Res)
  /-- Before `Release` of the semaphore. -/
  | permit (k : Option ℕ)
  deriving DecidableEq

namespace PoolPc

variable {Res : Type u}

/-- Where `CheckOut` without a resource and `Release` return to. -/
def back : Option ℕ → PoolPc Res
  | none => .idle
  | some rounds => .ping rounds

/-- The resource a running `CheckOut` or ping has in hand. -/
def inHand : PoolPc Res → List Res
  | .idle | .ping _ | .acquired _ | .permit _ => []
  | .taken _ res | .pinging _ res => [res]

/-- The permit a thread has acquired, or has to release. -/
def permits : PoolPc Res → ℕ
  | .idle | .ping _ => 0
  | .acquired _ | .taken _ _ | .pinging _ _ | .permit _ => 1

section Simp

variable (n : ℕ) (k : Option ℕ) (res : Res)

@[simp] lemma inHand_idle : (idle : PoolPc Res).inHand = [] := rfl
@[simp] lemma inHand_ping : (ping n : PoolPc Res).inHand = [] := rfl
@[simp] lemma inHand_acquired : (acquired k : PoolPc Res).inHand = [] := rfl
@[simp] lemma inHand_taken : (taken k res).inHand = [res] := rfl
@[simp] lemma inHand_pinging : (pinging n res).inHand = [res] := rfl
@[simp] lemma inHand_permit : (permit k : PoolPc Res).inHand = [] := rfl
@[simp] lemma permits_idle : (idle : PoolPc Res).permits = 0 := rfl
@[simp] lemma permits_ping : (ping n : PoolPc Res).permits = 0 := rfl
@[simp] lemma permits_acquired : (acquired k : PoolPc Res).permits = 1 := rfl
@[simp] lemma permits_taken : (taken k res).permits = 1 := rfl
@[simp] lemma permits_pinging : (pinging n res).permits = 1 := rfl
@[simp] lemma permits_permit : (permit k : PoolPc Res).permits = 1 := rfl

end Simp

@[simp] lemma inHand_back (k : Option ℕ) : (back k : PoolPc Res).inHand = [] := by
  cases k <;> rfl

@[simp] lemma permits_back (k : Option ℕ) : (back k : PoolPc Res).permits = 0 := by
  cases k <;> rfl

end PoolPc

/-- What a thread does next. `ok` and `created` are the answers of `testf` and
`createf`, in the steps that call them. -/
inductive PoolAct (Res : Type u) where
  | checkOut
  | timeout
  | release (res : Res)
  | addResource (res : Res)
  | ping
  | go (ok : Bool) (created : Option Res)

/-- A pool and the threads that use it. `held` are the resources handed out to
callers, `born` all there ever were, `destroyed` those given to `destroyf`. -/
structure PoolState (Tid : Type) (Res : Type u) where
  pool : Pool Res
  threads : Tid → PoolPc Res
  held : List Res
  born : List Res
  destroyed : List Res

section Steps

variable {Tid : Type} {Res : Type u} [DecidableEq Tid] [DecidableEq Res]

/-- Thread `t` moves to `pc`. -/
def PoolState.goto (s : PoolState Tid Res) (t : Tid) (pc : PoolPc Res) : PoolState Tid Res :=
  { s with threads := Function.update s.threads t pc }

/-- A resource from outside is one that never was before. -/
def PoolState.bear (s : PoolState Tid Res) (res : Res) : Option (PoolState Tid Res) :=
  if res ∈ s.born then none else some { s with born := res :: s.born }

/-- The call of `createf`, `NULL` without that callback. -/
def PoolState.create (conf : PoolConf) (s : PoolState Tid Res) (created : Option Res) :
    Option (PoolState Tid Res × Option Res) :=
  match conf.createf, created with
  | true, some res => (s.bear res).map fun s => (s, some res)
  | _, _ => some (s, none)

/-- The call of `destroyf`. -/
def PoolState.destroy (conf : PoolConf) (s : PoolState Tid Res) (res : Res) : PoolState Tid Res :=
  if conf.destroyf then { s with destroyed := res :: s.destroyed } else s

/-- A resource that failed its test is destroyed and another one created; without
one its place is given up. -/
def PoolState.replace (conf : PoolConf) (s : PoolState Tid Res) (res : Res)
    (created : Option Res) : Option (PoolState Tid Res × Option Res) :=
  match (s.destroy conf res).create conf created with
  | some (s, none) => some ({ s with pool := poolDrop s.pool }, none)
  | r => r

/-- `CheckOut` returns a resource. -/
def PoolState.deliver (s : PoolState Tid Res) (t : Tid) (k : Option ℕ) (res : Res) :
    PoolState Tid Res :=
  match k with
  | none => { s with held := res :: s.held }.goto t .idle
  | some rounds => s.goto t (.pinging rounds res)

/-- `SemaphoreAcquire` in `CheckOut`. -/
def PoolState.acquire (s : PoolState Tid Res) (t : Tid) (k : Option ℕ) :
    Option (PoolState Tid Res) :=
  if 0 < s.pool.semp then
    some ({ s with pool := { s.pool with semp := s.pool.semp - 1 } }.goto t (.acquired k))
  else none

/-- The section of `Release`. -/
def PoolState.put (s : PoolState Tid Res) (t : Tid) (k : Option ℕ) (res : Res) :
    PoolState Tid Res :=
  { s with pool := poolPut s.pool res }.goto t (.permit k)

/-- One step of a thread. -/
def poolThreadStep (conf : PoolConf) (s : PoolState Tid Res) (t : Tid) (act : PoolAct Res) :
    Option (PoolState Tid Res) :=
  match s.threads t, act with
  | .idle, .checkOut => s.acquire t none
  | .idle, .release res =>
      if res ∈ s.held then some ({ s with held := s.held.erase res }.put t none res) else none
  | .idle, .addResource res =>
      (s.bear res).map fun s =>
        let (pool, incmax) := poolAdd s.pool res
        { s with pool := pool }.goto t (if incmax then .permit none else .idle)
  -- the size of `avail` is read without the mutex
  | .idle, .ping => some (s.goto t (.ping s.pool.avail.length))
  | .ping 0, .go _ _ => some (s.goto t .idle)
  | .ping (rounds + 1), .checkOut => s.acquire t (some rounds)
  | .ping (rounds + 1), .timeout => some (s.goto t (.ping rounds))
  | .acquired k, .go _ created =>
      -- `createf` is called only when nothing is available
      (if s.pool.avail.isEmpty then s.create conf created else some (s, none)).map fun r =>
        let (pool, res) := poolTake r.1.pool r.2
        { r.1 with pool := pool }.goto t (res.elim (.permit k) (.taken k))
  | .taken k res, .go ok created =>
      if conf.testonb && conf.testf && !ok then
        (s.replace conf res created).map fun r =>
          r.2.elim (r.1.goto t (.permit k)) (r.1.deliver t k)
      else some (s.deliver t k res)
  | .pinging rounds res, .go ok created =>
      if !conf.testonb && conf.testf && !ok then
        (s.replace conf res created).map fun r =>
          r.2.elim (r.1.goto t (.permit (some rounds))) (r.1.put t (some rounds))
      else some (s.put t (some rounds) res)
  | .permit k, .go _ _ =>
      some ({ s with pool := { s.pool with semp := s.pool.semp + 1 } }.goto t (.back k))
  | _, _ => none

/-- A new pool: every thread is outside, and the resources it begins with are the
ones there are. -/
def poolStart (conf : PoolConf) (initcnt maxcnt : ℕ) (created : List (Option Res)) :
    PoolState Tid Res where
  pool := poolCreateInternal conf initcnt maxcnt created
  threads := fun _ => .idle
  held := []
  born := (poolCreateInternal conf initcnt maxcnt created).avail
  destroyed := []

/-- The threads interleaved. The creation callback returns fresh resources. -/
def poolSystem (Tid : Type) (Res : Type u) [DecidableEq Tid] [DecidableEq Res] (conf : PoolConf)
    (initcnt maxcnt : ℕ) : TransitionSystem (PoolState Tid Res) (Tid × PoolAct Res) where
  init s := ∃ created, s = poolStart conf initcnt maxcnt created ∧ s.born.Nodup
  step s a := poolThreadStep conf s a.1 a.2

end Steps

end LibCmutils
